import KeyRegistry.Proofs.Pipeline.EarlyFailure
import KeyRegistry.Proofs.Pipeline.Inclusion

/-!
# Outcomes of a run

The call and the receipt that a run has seen decide its outcome.  Only status 1 is a
success, and only the creation of a contract can have an address or lack one.  What
has been reverted is an outcome; every error but the lack of an address means that
there was no receipt.
-/

namespace KeyRegistry
namespace Pipeline

open Program

theorem succeeded_iff {receipt : Receipt} : receipt.succeeded = true ↔ receipt.status = some 1 :=
  decide_eq_true_iff

/-! ## The state after a run -/

def endState {α : Type} : Except Error α -> State
  | .ok _ => .confirmed
  | .error _ => .failed

section

variable {p q : Pipeline} {moments : List Moment} {e : Error}

theorem state_of_refused {left : Nat} (h : Submission left p moments q (.error e)) :
    q.state = .failed := by
  generalize hresult : (Except.error e : Except Error Hash) = result at h
  induction h with
  | stale _ => rfl
  | accepted hash _ _ => cases hresult
  | ended cause _ _ _ => rfl
  | unpriced cause _ _ _ _ => rfl
  | repeated cause _ _ _ _ _ ih => exact ih hresult

theorem state_of_conclusion {receipt : Receipt} {result : Except Error Outcome}
    (h : Conclusion receipt p q result) (hstate : p.state = .confirmed) :
    q.state = endState result := by
  cases h with
  | deployed _ _ _ _ => exact hstate
  | unaddressed _ _ _ => rfl
  | sent _ => exact hstate

theorem state_of_journey {result : Except Error Outcome} (h : Journey p moments q result) :
    q.state = endState result := by
  cases h with
  | unestimated cause => rfl
  | unpriced gas _ => rfl
  | unsent gas _ hsubmission => exact state_of_refused hsubmission
  | unconfirmed gas started _ _ hwait =>
      rw [(settled_of_wait hwait).2]
      rfl
  | concluded gas started _ _ hwait hconclusion =>
      apply state_of_conclusion hconclusion
      rw [(settled_of_wait hwait).2]
      rfl

/-! ## The lack of an address -/

theorem addressless_of_wait {hash : Hash} {started left : Nat}
    (h : Wait hash started left p moments q (.error e)) (lacking : Hash) :
    e ≠ .missingContractAddress lacking := by
  generalize hresult : (Except.error e : Except Error Receipt) = result at h
  induction h with
  | found receipt => cases hresult
  | ended cause _ =>
      cases hresult
      exact nofun
  | expired now _ _ =>
      cases hresult
      exact nofun
  | repeated now _ _ _ ih => exact ih hresult

theorem receipts_of_unaddressed {hash : Hash}
    (h : Journey p moments q (.error (.missingContractAddress hash))) :
    receipts (exchanges moments) ≠ [] := by
  cases h with
  | unpriced gas hpricing => cases stage_of_pricing hpricing
  | unsent gas _ hsubmission =>
      rcases stage_of_submission hsubmission with hstage | hstage
      · cases hstage
      · cases hstage
  | unconfirmed gas started _ _ hwait => exact absurd rfl (addressless_of_wait hwait hash)
  | concluded gas started hpricing hsubmission hwait _ =>
      rw [receipts_until_included hpricing hsubmission hwait]
      exact List.cons_ne_nil _ _

end

/-! ## The outcome -/

/-- What a run of `call` makes of the receipts that it has seen. -/
structure Classifies (call : Call) (seen : List Receipt) (result : Except Error Outcome)
    (state : State) : Prop where
  length_le : seen.length ≤ 1
  deployed_iff (address : Address) (receipt : Receipt) :
    result = .ok (.deployed address receipt) ↔
      call.isDeploy = true ∧ receipt ∈ seen ∧ receipt.status = some 1 ∧
        receipt.contractAddress = some address ∧ address.isZero = false
  unaddressed_iff (hash : Hash) :
    result = .error (.missingContractAddress hash) ↔
      call.isDeploy = true ∧ ∃ receipt, receipt ∈ seen ∧ receipt.status = some 1 ∧
        (forall address, receipt.contractAddress = some address -> address.isZero = true) ∧
        hash = receipt.transactionHash
  sent_iff (receipt : Receipt) (success : Bool) :
    result = .ok (.sent receipt success) ↔
      receipt ∈ seen ∧ (call.isDeploy = true -> receipt.status ≠ some 1) ∧
        success = decide (receipt.status = some 1)
  not_called (value : Bytes) : result ≠ .ok (.callResult value)
  error_iff : (∃ e, result = .error e) ↔
    seen = [] ∨ ∃ hash, result = .error (.missingContractAddress hash)
  state_eq : state = endState result

/-! ### Conclusions -/

theorem conclude_of_conclusion {p q : Pipeline} {receipt : Receipt}
    {result : Except Error Outcome} (h : Conclusion receipt p q result) :
    Move.conclude receipt p = .done q result := by
  unfold Move.conclude
  cases h with
  | deployed hdeploy hsucceeded haddress hnonzero =>
      simp [hdeploy, hsucceeded, haddress, hnonzero, Option.filter]
  | unaddressed hdeploy hsucceeded hzero =>
      have hnone : (receipt.contractAddress.filter fun a => !a.isZero) = none := by
        apply Option.filter_eq_none_iff.mpr
        intro address haddress
        simp [hzero address haddress]
      simp only [hdeploy, hsucceeded, Bool.and_self, if_true, hnone]
      rfl
  | sent hsent => simp [hsent]

theorem Conclusion.result_eq {p q q' : Pipeline} {receipt : Receipt}
    {result result' : Except Error Outcome} (h : Conclusion receipt p q result)
    (h' : Conclusion receipt p q' result') : result = result' := by
  have hdone := (conclude_of_conclusion h).symm.trans (conclude_of_conclusion h')
  cases hdone
  rfl

theorem sent_of_conclusion {p q : Pipeline} {receipt : Receipt} {result : Except Error Outcome}
    (h : Conclusion receipt p q result)
    (hreverted : p.call.isDeploy = true -> receipt.status ≠ some 1) :
    result = .ok (.sent receipt receipt.succeeded) := by
  apply h.result_eq (Conclusion.sent _)
  cases hdeploy : p.call.isDeploy with
  | false => rfl
  | true =>
      rw [Bool.true_and, ← Bool.not_eq_true, succeeded_iff]
      exact hreverted hdeploy

theorem classifies_unincluded {call : Call} {state : State} {e : Error} (hstate : state = .failed)
    (he : forall hash, e ≠ .missingContractAddress hash) :
    Classifies call [] (.error e) state where
  length_le := Nat.zero_le 1
  deployed_iff address receipt := by simp
  unaddressed_iff hash := by simp [he hash]
  sent_iff receipt success := by simp
  not_called value := nofun
  error_iff := by simp
  state_eq := hstate

theorem classifies_included {p q : Pipeline} {receipt : Receipt} {result : Except Error Outcome}
    {state : State} (h : Conclusion receipt p q result) (hstate : state = endState result) :
    Classifies p.call [receipt] result state where
  length_le := Nat.le_refl 1
  deployed_iff address receipt' := by
    rw [List.mem_singleton]
    constructor
    · intro hresult
      rw [hresult] at h
      cases h with
      | deployed hdeploy hsucceeded haddress hnonzero =>
          exact ⟨hdeploy, rfl, succeeded_iff.mp hsucceeded, haddress, hnonzero⟩
    · rintro ⟨hdeploy, rfl, hstatus, haddress, hnonzero⟩
      exact h.result_eq
        (Conclusion.deployed hdeploy (succeeded_iff.mpr hstatus) haddress hnonzero)
  unaddressed_iff hash := by
    constructor
    · intro hresult
      rw [hresult] at h
      cases h with
      | unaddressed hdeploy hsucceeded hzero =>
          exact ⟨hdeploy, receipt, List.mem_singleton.mpr rfl, succeeded_iff.mp hsucceeded, hzero,
            rfl⟩
    · rintro ⟨hdeploy, receipt', hmem, hstatus, hzero, rfl⟩
      cases List.mem_singleton.mp hmem
      exact h.result_eq (Conclusion.unaddressed hdeploy (succeeded_iff.mpr hstatus) hzero)
  sent_iff receipt' success := by
    rw [List.mem_singleton]
    constructor
    · intro hresult
      rw [hresult] at h
      cases h with
      | sent hsent =>
          refine ⟨rfl, ?_, rfl⟩
          intro hdeploy hstatus
          rw [hdeploy, succeeded_iff.mpr hstatus] at hsent
          cases hsent
    · rintro ⟨rfl, hreverted, rfl⟩
      exact sent_of_conclusion h hreverted
  not_called value := by
    intro hresult
    rw [hresult] at h
    cases h
  error_iff := by
    cases h with
    | deployed _ _ _ _ => simp
    | unaddressed _ _ _ => simp
    | sent _ => simp
  state_eq := hstate

theorem classifies_of_journey {p q : Pipeline} {moments : List Moment}
    {result : Except Error Outcome} (h : Journey p moments q result) :
    Classifies p.call (receipts (exchanges moments)) result q.state := by
  have hstate := state_of_journey h
  have hunaddressed : forall hash, result = .error (.missingContractAddress hash) ->
      receipts (exchanges moments) ≠ [] := by
    intro hash heq
    rw [heq] at h
    exact receipts_of_unaddressed h
  have hsettles := settles_of_journey h
  generalize receipts (exchanges moments) = seen at *
  cases hsettles with
  | unincluded e =>
      apply classifies_unincluded hstate
      intro hash heq
      exact hunaddressed hash (congrArg Except.error heq) rfl
  | included hcall hconclusion =>
      rw [← hcall]
      exact classifies_included hconclusion hstate

theorem classifies_of_run (call : Call) (config : Config) {σ : Type} (w : World σ) (s : σ) :
    Classifies call (receipts ((run (new call config)).trace w s))
      ((run (new call config)).run w s).1.1 ((run (new call config)).run w s).1.2.state := by
  have hclassifies := classifies_of_journey (journey_of_run call config w s)
  rw [Course.exchanges_moments] at hclassifies
  exact hclassifies

end Pipeline
end KeyRegistry
