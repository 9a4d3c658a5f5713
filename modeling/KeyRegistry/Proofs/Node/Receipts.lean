import KeyRegistry.Node.Scripted

/-!
# Receipts of a scripted node

An accepted transaction waits for its receipt to be shown: every question for the
receipt takes one from its countdown, and from the end of the countdown on the
receipt is the answer.  The countdown begins at the delay that the script has set.
-/

namespace KeyRegistry
namespace Node
namespace State

def inclusion? (s : State) (hash : Hash) : Option Included :=
  s.included.lookup hash

theorem showReceipt_of_lookup {hash : Hash} {receipt : Receipt} {delay : Nat}
    {entries : List (Hash × Included)} (h : entries.lookup hash = some ⟨receipt, delay⟩) :
    (showReceipt hash entries).1 = (if delay = 0 then some receipt else none) ∧
      (showReceipt hash entries).2.lookup hash = some ⟨receipt, delay - 1⟩ := by
  induction entries with
  | nil => cases h
  | cons entry entries ih =>
      rcases entry with ⟨listed, included⟩
      by_cases hhash : listed = hash
      · subst hhash
        rw [List.lookup_cons_self] at h
        cases h
        cases delay with
        | zero => simp [showReceipt]
        | succ delay => simp [showReceipt]
      · have hne : (hash == listed) = false := beq_eq_false_iff_ne.mpr (Ne.symm hhash)
        rw [List.lookup_cons, hne] at h
        simp only [showReceipt, hhash, if_false]
        rw [List.lookup_cons, hne]
        exact ih h

theorem answer_receipt_of_entry {s : State} {hash : Hash} {receipt : Receipt} {delay : Nat}
    (h : s.inclusion? hash = some ⟨receipt, delay⟩) :
    (s.answer (.receipt hash)).1 = .ok (if delay = 0 then some receipt else none) ∧
      (s.answer (.receipt hash)).2.inclusion? hash = some ⟨receipt, delay - 1⟩ := by
  rcases showReceipt_of_lookup h with ⟨hshown, hentry⟩
  exact ⟨congrArg Except.ok hshown, hentry⟩

theorem entry_of_accepted {s : State} {call : Call} {plan : GasPlan} {hash : Hash}
    (h : (s.answer (.send call plan)).1 = .ok hash) :
    ∃ receipt, (s.answer (.send call plan)).2.inclusion? hash = some ⟨receipt, s.receiptDelay⟩ := by
  unfold answer respond at *
  cases herrors : s.sendErrors with
  | cons e errors =>
      simp only [herrors] at h
      cases h
  | nil =>
      simp only [herrors, accept] at h ⊢
      cases h
      exact ⟨_, List.lookup_cons_self⟩

theorem receiptDelay_answer (s : State) (request : Request) :
    (s.answer request).2.receiptDelay = s.receiptDelay := by
  cases request with
  | gasPrice => cases h : s.gasPriceErrors <;> simp only [answer, respond, h]
  | send call plan => cases h : s.sendErrors <;> simp only [answer, respond, accept, h]
  | pendingCount => cases h : s.pendingErrors <;> simp only [answer, respond, h]
  | startMining threads => cases h : s.miningErrors <;> simp only [answer, respond, h]
  | stopMining => cases h : s.miningErrors <;> simp only [answer, respond, h]
  | subscribe feed => cases h : s.subscribeErrors <;> simp only [answer, respond, h]
  | _ => rfl

end State
end Node
end KeyRegistry
