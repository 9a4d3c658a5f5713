import KeyRegistry.Proofs.Abi.Interface
import KeyRegistry.Proofs.Node.Script
import KeyRegistry.Proofs.Node.StorageEmulation
import KeyRegistry.Proofs.StorageContract.Conversation

/-!
# The keys that a contract keeps

The conversation of a transaction writes to the memory of the contract at most
once, and exactly where the node accepts a transaction.  Keys are stored and read
through the declared functions of the interface, so that a reader gets the key
that was accepted last.
-/

namespace KeyRegistry

open Program
open Node (Script)
open Node.StorageEmulation

/-! ## Conversations and the memory -/

def Quiet (asked : List Inquiry) : Prop :=
  asked.any accepts = false

def Writes (call : Call) (asked : List Inquiry) : Prop :=
  forall memory, applied asked memory =
    if asked.any accepts then store call memory else memory

theorem written_of_not_accepts {inquiry : Inquiry} (h : accepts inquiry = false)
    (memory : List (String × String)) : written memory inquiry = memory := by
  unfold written
  split
  · cases h
  · rfl

theorem Quiet.applied_eq {asked : List Inquiry} (h : Quiet asked)
    (memory : List (String × String)) : applied asked memory = memory := by
  induction asked with
  | nil => rfl
  | cons inquiry asked ih =>
      rw [Quiet, List.any_cons, Bool.or_eq_false_iff] at h
      rw [applied, List.foldl_cons, written_of_not_accepts h.1]
      exact ih h.2

theorem quiet_nil : Quiet [] := rfl

theorem Quiet.cons {inquiry : Inquiry} {rest : List Inquiry} (h : accepts inquiry = false)
    (hrest : Quiet rest) : Quiet (inquiry :: rest) := by
  rw [Quiet, List.any_cons, h, Bool.false_or]
  exact hrest

theorem Quiet.writes {asked : List Inquiry} (h : Quiet asked) (call : Call) :
    Writes call asked := by
  intro memory
  rw [h.applied_eq, h]
  rfl

theorem Writes.after {call : Call} {first rest : List Inquiry} (hfirst : Quiet first)
    (hrest : Writes call rest) : Writes call (first ++ rest) := by
  intro memory
  rw [applied_append, hfirst.applied_eq, hrest, List.any_append, hfirst]
  rfl

theorem Writes.cons {call : Call} {inquiry : Inquiry} {rest : List Inquiry}
    (h : accepts inquiry = false) (hrest : Writes call rest) : Writes call (inquiry :: rest) := by
  have hone : Quiet [inquiry] := Quiet.cons h quiet_nil
  exact Writes.after hone hrest

theorem Writes.before {call : Call} {first rest : List Inquiry} (hfirst : Writes call first)
    (hrest : Quiet rest) : Writes call (first ++ rest) := by
  intro memory
  rw [applied_append, hrest.applied_eq, hfirst, List.any_append, hrest, Bool.or_false]

namespace Pipeline

theorem quiet_of_quotes {priced : Bool} {asked : List Inquiry} (h : Quotes priced asked) :
    Quiet asked := by
  induction h with
  | price price => rfl
  | refusal e => rfl
  | again e _ ih => exact ih

theorem quiet_of_polls {hash : Hash} {asked : List Inquiry} (h : Polls hash asked) :
    Quiet asked := by
  induction h with
  | last answer => rfl
  | again answer _ ih => exact ih

theorem writes_of_sends {call : Call} {hash? : Option Hash} {asked : List Inquiry}
    (h : Sends call hash? asked) : Writes call asked := by
  induction h with
  | accepted plan hash =>
      intro memory
      rfl
  | refused plan e => exact Quiet.writes (Quiet.cons rfl quiet_nil) call
  | unpriced plan e hquotes => exact Quiet.writes (Quiet.cons rfl (quiet_of_quotes hquotes)) call
  | again plan e hquotes _ ih =>
      exact Writes.cons rfl (Writes.after (quiet_of_quotes hquotes) ih)

theorem writes_of_transacts {call : Call} {asked : List Inquiry} (h : Transacts call asked) :
    Writes call asked := by
  cases h with
  | unestimated e => exact Quiet.writes (Quiet.cons rfl quiet_nil) call
  | unpriced gas hquotes => exact Quiet.writes (Quiet.cons rfl (quiet_of_quotes hquotes)) call
  | unsent gas hquotes hsends =>
      exact Writes.cons rfl (Writes.after (quiet_of_quotes hquotes) (writes_of_sends hsends))
  | sent gas hquotes hsends hpolls =>
      refine Writes.cons rfl (Writes.after (quiet_of_quotes hquotes) ?_)
      exact (writes_of_sends hsends).before (quiet_of_polls hpolls)

end Pipeline

theorem writes_of_bracketed {α : Type} {call : Call} {address : Address} {passphrase : String}
    {duration : Duration} {asked : List Inquiry} {result : Except Pipeline.Error α}
    (h : Session.Bracketed address passphrase duration
      (fun asked _ => Pipeline.Transacts call asked) asked result) :
    Writes call asked := by
  cases h with
  | refused => exact Quiet.writes (Quiet.cons rfl quiet_nil) call
  | failed e => exact Quiet.writes (Quiet.cons rfl quiet_nil) call
  | held locked hwork =>
      have hlock : Quiet [⟨.lock address, locked⟩] := Quiet.cons rfl quiet_nil
      exact Writes.cons rfl ((Pipeline.writes_of_transacts hwork).before hlock)

end KeyRegistry
