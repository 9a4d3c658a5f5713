import KeyRegistry.Proofs.CommandLine.Deployment
import KeyRegistry.Proofs.Pipeline.Classification

/-!
# Verdicts on transactions

A transaction that has been reverted has an outcome, and a command tells it from a
transaction that has none.  The command that stores a key succeeds exactly where its
transaction has; the one that deploys the contract succeeds only where there is one.
-/

namespace KeyRegistry
namespace StorageContract

open Program
open Pipeline (Invoked Outcome receipts)

theorem invoked_of_storeKey {contract : StorageContract} {session : Session} {sender : Address}
    {passphrase id key : String} {history : List Exchange}
    {result : Except Pipeline.Error Outcome}
    (h : Yields (contract.storeKey session sender passphrase id key) history result) :
    Invoked (receipts history) result := by
  unfold storeKey at h
  cases hencode : contract.artifact.interface.encodeCall "storeKey" [.text id, .text key] with
  | error e =>
      rw [hencode] at h
      rcases yields_done_iff.mp h with ⟨rfl, rfl⟩
      exact Invoked.unconfirmed _
  | ok data =>
      rw [hencode] at h
      exact Pipeline.invoked_of_settles rfl (settles_of_transact h)

end StorageContract

namespace CommandLine

open Program
open Pipeline (Classifies Created Invoked Outcome receipts)

variable (s : Settings) (files : FileTree) (id key : String)

/-! ## Storing a key -/

/-- How the transaction that stores a key ends. -/
def registration : Program (Except Failure Outcome) := do
  match loadContract s files with
  | .error f => return .error f
  | .ok contract =>
      match <- sender s with
      | .error f => return .error f
      | .ok account =>
          let outcome <- contract.storeKey s.session account s.passphrase id key
          return outcome.mapError .step

def announce : Except Failure Outcome -> Ending
  | .error f => finish files [] (.error f)
  | .ok (.sent receipt true) =>
      finish files
        (successLine ("Successfully stored " ++ key ++ " into ID " ++ id) :: receiptLines receipt)
        (.ok ())
  | .ok (.sent receipt false) => finish files (receiptLines receipt) (.error .storeReverted)
  | .ok _ => finish files [] (.error .unexpectedOutcome)

theorem store_eq :
    store s files id key =
      (registration s files id key).bind fun outcome => .done (announce files id key outcome) := by
  unfold store registration
  cases loadContract s files with
  | error f => rfl
  | ok contract =>
      apply bind_eq_bind_bind
      intro account?
      cases account? with
      | error f => rfl
      | ok account =>
          apply bind_eq_bind_bind
          intro outcome
          cases outcome with
          | error e => rfl
          | ok outcome =>
              cases outcome with
              | deployed address receipt => rfl
              | callResult value => rfl
              | sent receipt success => cases success <;> rfl

theorem execute_store_eq :
    execute s files (.store id key) =
      (registration s files id key).bind fun outcome =>
        .done (.ended (announce files id key outcome)) := by
  change (store s files id key).bind _ = _
  rw [store_eq, Program.bind_assoc]
  rfl

section

variable {s : Settings} {files : FileTree} {id key : String}

theorem invoked_of_registration {history : List Exchange} {outcome : Except Failure Outcome}
    (h : Yields (registration s files id key) history outcome) : Invoked (receipts history) outcome := by
  unfold registration at h
  cases hcontract : loadContract s files with
  | error f =>
      rw [hcontract] at h
      rcases yields_done_iff.mp h with ⟨rfl, rfl⟩
      exact Invoked.unconfirmed f
  | ok contract =>
      rw [hcontract] at h
      rcases yields_bind_iff.mp h with ⟨asked, account?, rest, hasked, hrest, rfl⟩
      rcases asked_of_sender hasked with ⟨answer, rfl⟩
      cases account? with
      | error f =>
          rcases yields_done_iff.mp hrest with ⟨rfl, rfl⟩
          exact Invoked.unconfirmed f
      | ok account =>
          rcases yields_bind_iff.mp hrest with ⟨conversation, result, last, hstore, hlast, rfl⟩
          rcases yields_done_iff.mp hlast with ⟨rfl, rfl⟩
          rw [List.append_nil]
          exact (StorageContract.invoked_of_storeKey hstore).mapError Failure.step

theorem announce_ok_iff {outcome : Except Failure Outcome} :
    (announce files id key outcome).result = .ok () ↔
      ∃ receipt, outcome = .ok (.sent receipt true) := by
  constructor
  · intro hresult
    cases outcome with
    | error f => cases hresult
    | ok outcome =>
        cases outcome with
        | deployed address receipt => cases hresult
        | callResult value => cases hresult
        | sent receipt success =>
            cases success with
            | false => cases hresult
            | true => exact ⟨receipt, rfl⟩
  · rintro ⟨receipt, rfl⟩
    rfl

theorem deployed_of_record_ok {announced : List String} {outcome : Except Failure Outcome}
    (h : (record s files announced outcome).result = .ok ()) :
    ∃ address receipt, outcome = .ok (.deployed address receipt) := by
  cases outcome with
  | error f => cases h
  | ok outcome =>
      cases outcome with
      | deployed address receipt => exact ⟨address, receipt, rfl⟩
      | callResult value => cases h
      | sent receipt success => cases h

end

section

variable {σ : Type} (w : World σ) (node : σ)

theorem run_execute_store :
    ((execute s files (.store id key)).run w node).1 =
      .ended (announce files id key ((registration s files id key).run w node).1) := by
  rw [execute_store_eq, run_bind]
  rfl

theorem trace_execute_store :
    (execute s files (.store id key)).trace w node =
      (registration s files id key).trace w node := by
  rw [execute_store_eq, trace_bind]
  exact List.append_nil _

end

/-- The receipt of a run, if it sees one, and the call decide the outcome.  The command that stores
a key succeeds if and only if its transaction was a success, and reports one that was reverted; the
command that deploys the contract succeeds only if the outcome is a contract. -/
theorem outcomes_follow_receipts :
    (forall (call : Call) (config : Pipeline.Config) {σ : Type} (w : World σ) (node : σ),
      let program := Pipeline.run (Pipeline.new call config)
      Classifies call (receipts (program.trace w node)) (program.run w node).1.1
        (program.run w node).1.2.state) ∧
    (forall (s : Settings) (files : FileTree) (id key : String) {σ : Type} (w : World σ) (node : σ),
      let outcome := ((registration s files id key).run w node).1
      Invoked (receipts ((execute s files (.store id key)).trace w node)) outcome ∧
        ∃ ending, ((execute s files (.store id key)).run w node).1 = .ended ending ∧
          (ending.result = .ok () ↔ ∃ receipt, outcome = .ok (.sent receipt true)) ∧
          forall receipt, outcome = .ok (.sent receipt false) ->
            ending.result = .error .storeReverted) ∧
    (forall (s : Settings) (files : FileTree) {σ : Type} (w : World σ) (node : σ),
      let outcome := ((creation s files).run w node).1.2
      Created (receipts ((execute s files .deploy).trace w node)) outcome ∧
        ∃ ending, ((execute s files .deploy).run w node).1 = .ended ending ∧
          (ending.result = .ok () -> ∃ address receipt, outcome = .ok (.deployed address receipt))) := by
  refine ⟨?_, ?_, ?_⟩
  · intro call config σ w node
    exact Pipeline.classifies_of_run call config w node
  · intro s files id key σ w node outcome
    rw [trace_execute_store]
    constructor
    · exact invoked_of_registration (yields_trace w (registration s files id key) node)
    · refine ⟨_, run_execute_store s files id key w node, announce_ok_iff, ?_⟩
      intro receipt hreverted
      change (announce files id key outcome).result = _
      rw [hreverted]
      rfl
  · intro s files σ w node outcome
    rw [trace_execute_deploy]
    constructor
    · exact created_of_creation (yields_trace w (creation s files) node)
    · exact ⟨_, run_execute_deploy s files w node, deployed_of_record_ok⟩

end CommandLine
end KeyRegistry
