import KeyRegistry.Proofs.Pipeline.Conversation
import KeyRegistry.Proofs.Session
import KeyRegistry.StorageContract

/-!
# Conversations of the storage contract

A deployment and the storing of a key are transactions of an unlocked sender, and
ask nothing when the call cannot be encoded.  A read is one execution of a call.
-/

namespace KeyRegistry
namespace StorageContract

open Program
open Pipeline (Transacts)
open Session (Bracketed)

variable {session : Session} {passphrase : String} {history : List Exchange}

theorem bracketed_of_transact {config : Pipeline.Config} {call : Call}
    {result : Except Pipeline.Error Pipeline.Outcome}
    (h : Yields (transact session passphrase config call) history result) :
    Bracketed call.sender passphrase session.unlockDuration (fun asked _ => Transacts call asked)
      (inquiries history) result := by
  refine Session.bracketed_of_yields ?_ h
  intro during answer hduring
  rcases yields_bind_iff.mp hduring with ⟨ran, ⟨answer', q⟩, rest, hran, hrest, rfl⟩
  rcases yields_done_iff.mp hrest with ⟨rfl, rfl⟩
  rw [List.append_nil]
  exact Pipeline.transacts_of_run hran

/-- What a transaction asks, and with which result it ends if it asks nothing, where `encoded` is
the data of its call. -/
def Submits (session : Session) (passphrase : String) (encoded : Except Abi.Error Bytes)
    (call : Bytes -> Call) (asked : List Inquiry)
    (result : Except Pipeline.Error Pipeline.Outcome) : Prop :=
  match encoded with
  | .error e => asked = [] ∧ result = .error (.abi e)
  | .ok data =>
      Bracketed (call data).sender passphrase session.unlockDuration
        (fun asked _ => Transacts (call data) asked) asked result

theorem submits_of_deploy {artifact : Artifact.Contract} {config : Pipeline.Config}
    {sender : Address} {result : Except Pipeline.Error Pipeline.Outcome}
    (h : Yields (deploy artifact config session sender passphrase) history result) :
    Submits session passphrase (artifact.creationPayload []) (Call.deploy sender)
      (inquiries history) result := by
  unfold deploy at h
  cases hencoded : artifact.creationPayload [] with
  | error e =>
      rw [hencoded] at h
      rcases yields_done_iff.mp h with ⟨rfl, rfl⟩
      exact ⟨rfl, rfl⟩
  | ok payload =>
      rw [hencoded] at h
      exact bracketed_of_transact h

theorem submits_of_storeKey {contract : StorageContract} {sender : Address} {id key : String}
    {result : Except Pipeline.Error Pipeline.Outcome}
    (h : Yields (contract.storeKey session sender passphrase id key) history result) :
    Submits session passphrase
      (contract.artifact.interface.encodeCall "storeKey" [.text id, .text key])
      (Call.invoke sender contract.address "storeKey") (inquiries history) result := by
  unfold storeKey at h
  cases hencoded : contract.artifact.interface.encodeCall "storeKey" [.text id, .text key] with
  | error e =>
      rw [hencoded] at h
      rcases yields_done_iff.mp h with ⟨rfl, rfl⟩
      exact ⟨rfl, rfl⟩
  | ok data =>
      rw [hencoded] at h
      exact bracketed_of_transact h

/-! ## Reads -/

/-- What a read asks and with which result it ends, where `encoded` is the data of its call and
`read` takes the result from the node's answer. -/
def Reads {α : Type} (encoded : Except Abi.Error Bytes) (call : Bytes -> Call)
    (read : Except RpcError Bytes -> Except Pipeline.Error α) (asked : List Inquiry)
    (result : Except Pipeline.Error α) : Prop :=
  match encoded with
  | .error e => asked = [] ∧ result = .error (.abi e)
  | .ok data => ∃ answer, asked = [⟨.execute (call data), answer⟩] ∧ result = read answer

/-- The first value of a node's answer to a read-only call of `method`. -/
def firstValue (interface : Abi.Interface) (method : String) :
    Except RpcError Bytes -> Except Pipeline.Error Abi.Token
  | .error e => .error (.callFailed e)
  | .ok value =>
      match interface.decodeOutput method value with
      | .error e => .error (.abi e)
      | .ok [] => .error (.abi .truncated)
      | .ok (token :: _) => .ok token

theorem reads_of_query {contract : StorageContract} {caller : Address} {method : String}
    {args : List Abi.Token} {result : Except Pipeline.Error Abi.Token}
    (h : Yields (contract.query caller method args) history result) :
    Reads (contract.artifact.interface.encodeCall method args)
      (Call.invoke caller contract.address method)
      (firstValue contract.artifact.interface method) (inquiries history) result := by
  unfold query at h
  cases hencoded : contract.artifact.interface.encodeCall method args with
  | error e =>
      rw [hencoded] at h
      rcases yields_done_iff.mp h with ⟨rfl, rfl⟩
      exact ⟨rfl, rfl⟩
  | ok data =>
      rw [hencoded] at h
      rcases yields_bind_iff.mp h with ⟨asked, ⟨outcome, q⟩, rest, hasked, hrest, rfl⟩
      rcases Pipeline.Course.exists_unfolds_of_yields hasked with ⟨moments, hunfolds, rfl⟩
      cases Pipeline.reading_of_unfolds rfl hunfolds with
      | ended e =>
          rcases yields_done_iff.mp hrest with ⟨rfl, rfl⟩
          exact ⟨.error e, rfl, rfl⟩
      | answered value =>
          refine ⟨.ok value, ?_⟩
          cases hdecoded : contract.artifact.interface.decodeOutput method value with
          | error e =>
              simp only [hdecoded] at hrest
              rcases yields_done_iff.mp hrest with ⟨rfl, rfl⟩
              exact ⟨rfl, by simp only [firstValue, hdecoded]⟩
          | ok tokens =>
              simp only [hdecoded] at hrest
              cases tokens with
              | nil =>
                  rcases yields_done_iff.mp hrest with ⟨rfl, rfl⟩
                  exact ⟨rfl, by simp only [firstValue, hdecoded]⟩
              | cons token tokens =>
                  rcases yields_done_iff.mp hrest with ⟨rfl, rfl⟩
                  exact ⟨rfl, by simp only [firstValue, hdecoded]⟩

def takenValue {α : Type} (interface : Abi.Interface) (method : String)
    (take : Abi.Token -> Except Abi.Error α) (answer : Except RpcError Bytes) :
    Except Pipeline.Error α :=
  (firstValue interface method answer).bind fun token => (take token).mapError .abi

theorem takenValue_of_decoded {α : Type} {interface : Abi.Interface} {method : String}
    {take : Abi.Token -> Except Abi.Error α} {value : Bytes} {token : Abi.Token}
    {tokens : List Abi.Token} {a : α}
    (hdecoded : interface.decodeOutput method value = .ok (token :: tokens))
    (htake : take token = .ok a) : takenValue interface method take (.ok value) = .ok a := by
  have hfirst : firstValue interface method (.ok value) = .ok token := by
    rw [firstValue, hdecoded]
  have htaken : (take token).mapError Pipeline.Error.abi = .ok a := by
    rw [htake]
    rfl
  rw [takenValue, hfirst]
  exact htaken

theorem reads_of_value {α : Type} {contract : StorageContract} {caller : Address}
    {method : String} {args : List Abi.Token} {result : Except Pipeline.Error α}
    (take : Abi.Token -> Except Abi.Error α)
    (h : Yields
      (do
        match <- contract.query caller method args with
        | .error e => return .error e
        | .ok token => return (take token).mapError .abi)
      history result) :
    Reads (contract.artifact.interface.encodeCall method args)
      (Call.invoke caller contract.address method)
      (takenValue contract.artifact.interface method take) (inquiries history) result := by
  rcases yields_bind_iff.mp h with ⟨asked, value, rest, hasked, hrest, rfl⟩
  have hresult : rest = [] ∧ result = value.bind fun token => (take token).mapError .abi := by
    cases value with
    | error e => exact yields_done_iff.mp hrest
    | ok token => exact yields_done_iff.mp hrest
  rcases hresult with ⟨rfl, rfl⟩
  rw [List.append_nil]
  have hreads := reads_of_query hasked
  cases hencoded : contract.artifact.interface.encodeCall method args with
  | error e =>
      rw [hencoded] at hreads
      rcases hreads with ⟨hnone, rfl⟩
      exact ⟨hnone, rfl⟩
  | ok data =>
      rw [hencoded] at hreads
      rcases hreads with ⟨answer, hone, rfl⟩
      exact ⟨answer, hone, rfl⟩

/-- Every conversation of the contract: a transaction is estimated, priced, sent and waited for
between one request that unlocks its sender and one that locks it, or not at all; and a read
executes one call at most. -/
theorem contract_conversations (artifact : Artifact.Contract) (config : Pipeline.Config)
    (contract : StorageContract) (session : Session) (sender account : Address)
    (passphrase id key : String) {σ : Type} (w : World σ) (s : σ) :
    Conforms w s (deploy artifact config session sender passphrase)
      (Submits session passphrase (artifact.creationPayload []) (Call.deploy sender)) ∧
    Conforms w s (contract.storeKey session sender passphrase id key)
      (Submits session passphrase
        (contract.artifact.interface.encodeCall "storeKey" [.text id, .text key])
        (Call.invoke sender contract.address "storeKey")) ∧
    Conforms w s (contract.retrieveKey sender id)
      (Reads (contract.artifact.interface.encodeCall "retrieveKey" [.text id])
        (Call.invoke sender contract.address "retrieveKey")
        (takenValue contract.artifact.interface "retrieveKey" Abi.Token.toText)) ∧
    Conforms w s (contract.hasWritePrivilege sender account)
      (Reads (contract.artifact.interface.encodeCall "hasWritePrivilege" [.address account])
        (Call.invoke sender contract.address "hasWritePrivilege")
        (takenValue contract.artifact.interface "hasWritePrivilege" Abi.Token.toBool)) :=
  ⟨submits_of_deploy (yields_trace w _ s), submits_of_storeKey (yields_trace w _ s),
    reads_of_value Abi.Token.toText (yields_trace w _ s),
    reads_of_value Abi.Token.toBool (yields_trace w _ s)⟩

end StorageContract
end KeyRegistry
