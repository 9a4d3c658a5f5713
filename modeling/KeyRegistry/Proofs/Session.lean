import KeyRegistry.Proofs.Program.Suspension
import KeyRegistry.Session

/-!
# Unlocked scopes

The work of a scope is enclosed by the request that unlocks the account and the
request that locks it.  Where the node does not unlock the account, that one
request is all that happens.  Where the scope is cancelled, its guard is open.
-/

namespace KeyRegistry
namespace Session

open Program

inductive Enclosed {α : Type} (session : Session) (address : Address) (passphrase : String)
    (work : Program (Except Pipeline.Error α)) :
    List Exchange -> Option (Except Pipeline.Error α) -> Prop where
  | refused :
      Enclosed session address passphrase work
        [⟨.ask (.unlock address passphrase session.unlockDuration), .ok false⟩]
        (some (.error (.unlockFailed address .refused)))
  | failed (e : RpcError) :
      Enclosed session address passphrase work
        [⟨.ask (.unlock address passphrase session.unlockDuration), .error e⟩]
        (some (.error (.unlockFailed address (.failed e))))
  | finished {during : List Exchange} {result : Except Pipeline.Error α}
      (locked : Except RpcError Bool) :
      Yields work during result ->
      Enclosed session address passphrase work
        (⟨.ask (.unlock address passphrase session.unlockDuration), .ok true⟩ ::
          ⟨.guard address, ()⟩ :: (during ++ [⟨.ask (.lock address), locked⟩, ⟨.release, ()⟩]))
        (some result)
  | cancelled {during : List Exchange} :
      Suspends work during ->
      Enclosed session address passphrase work
        (⟨.ask (.unlock address passphrase session.unlockDuration), .ok true⟩ ::
          ⟨.guard address, ()⟩ :: during)
        none

theorem enclosed_of_ends {α : Type} {session : Session} {address : Address} {passphrase : String}
    {work : Program (Except Pipeline.Error α)} {history : List Exchange}
    {outcome : Option (Except Pipeline.Error α)}
    (h : (session.withUnlockedAccount address passphrase work).Ends history outcome) :
    Enclosed session address passphrase work history outcome := by
  have hawake : forall request d, Action.ask request ≠ .sleep d := fun _ _ heq => by cases heq
  rcases ends_act_bind (hawake _) h with ⟨unlocked, rest, rfl, hrest⟩
  cases unlocked with
  | error e =>
      rcases ends_done hrest with ⟨rfl, rfl⟩
      exact Enclosed.failed e
  | ok granted =>
      cases granted with
      | false =>
          rcases ends_done hrest with ⟨rfl, rfl⟩
          exact Enclosed.refused
      | true =>
          rcases ends_act_bind (fun _ heq => by cases heq) hrest with ⟨_, guarded, rfl, hguarded⟩
          rcases ends_bind hguarded with
            ⟨rfl, hsuspends⟩ | ⟨during, result, after, hduring, hafter, rfl⟩
          · exact Enclosed.cancelled hsuspends
          · rcases ends_act_bind (hawake _) hafter with ⟨locked, released, rfl, hreleased⟩
            rcases ends_act_bind (fun _ heq => by cases heq) hreleased with ⟨_, last, rfl, hlast⟩
            rcases ends_done hlast with ⟨rfl, rfl⟩
            exact Enclosed.finished locked hduring

/-- A conversation whose work is described by `Work`, with `address` unlocked for the work and
locked after it. -/
inductive Bracketed {α : Type} (address : Address) (passphrase : String) (duration : Duration)
    (Work : List Inquiry -> Except Pipeline.Error α -> Prop) :
    List Inquiry -> Except Pipeline.Error α -> Prop where
  | refused :
      Bracketed address passphrase duration Work [⟨.unlock address passphrase duration, .ok false⟩]
        (.error (.unlockFailed address .refused))
  | failed (e : RpcError) :
      Bracketed address passphrase duration Work [⟨.unlock address passphrase duration, .error e⟩]
        (.error (.unlockFailed address (.failed e)))
  | held {asked : List Inquiry} {result : Except Pipeline.Error α}
      (locked : Except RpcError Bool) :
      Work asked result ->
      Bracketed address passphrase duration Work
        (⟨.unlock address passphrase duration, .ok true⟩ :: (asked ++ [⟨.lock address, locked⟩]))
        result

theorem bracketed_of_yields {α : Type} {session : Session} {address : Address}
    {passphrase : String} {work : Program (Except Pipeline.Error α)}
    {Work : List Inquiry -> Except Pipeline.Error α -> Prop}
    (hwork : forall history result, Yields work history result -> Work (inquiries history) result)
    {history : List Exchange} {result : Except Pipeline.Error α}
    (h : Yields (session.withUnlockedAccount address passphrase work) history result) :
    Bracketed address passphrase session.unlockDuration Work (inquiries history) result := by
  have hends : (session.withUnlockedAccount address passphrase work).Ends history (some result) := h
  cases enclosed_of_ends hends with
  | refused => exact Bracketed.refused
  | failed e => exact Bracketed.failed e
  | @finished during _ locked hduring =>
      rw [inquiries_ask, inquiries_guard, inquiries_append, inquiries_ask, inquiries_release,
        inquiries_nil]
      exact Bracketed.held locked (hwork during result hduring)

end Session
end KeyRegistry
