import KeyRegistry.Proofs.Node.Receipts
import KeyRegistry.Proofs.Program.Timeline
import KeyRegistry.Proofs.Runtime.Simulation

/-!
# Simulations without a control loop

Where no control loop runs, a simulation is a world: running a program on the main
task is running it there.  The world is punctual, since the scripted node answers at
once and a pause ends at its moment.  The tasks that run meanwhile leave the
included transactions alone.
-/

namespace KeyRegistry

open Program

namespace Program

theorem run_keeps {σ α : Type} {w : World σ} {P : σ -> Prop}
    (h : forall action s, P s -> P (w.answer action s).2) (program : Program α) {s : σ}
    (hs : P s) : P (program.run w s).2 := by
  induction program generalizing s with
  | done a => exact hs
  | perform action next ih => exact ih _ (h action s hs)

end Program

namespace Simulation

/-- A simulation as a world for the program on its main task. -/
def world : World Simulation where
  answer
    | .ask request, s => ((s.node.answer request).1, { s with node := (s.node.answer request).2 })
    | .sleep d, s => ((), s.pause d.nanos)
    | .clock, s => (s.now, s)
    | .guard _, s => ((), s)
    | .release, s => ((), s)
    | .drain id, s => ((s.node.drainEvents id).1, { s with node := (s.node.drainEvents id).2 })
    | .cancel id, s => ((), { s with node := s.node.cancel id })

theorem execAll_eq {α : Type} (program : Program α) (s : Simulation) :
    s.execAll program = (some (program.run world s).1, (program.run world s).2) := by
  have hexec : forall guards s, exec none program guards s =
      (some (program.run world s).1, (program.run world s).2) := by
    clear s
    induction program with
    | done a => exact fun guards s => rfl
    | perform action next ih =>
        intro guards s
        cases action with
        | sleep d =>
            have hslept : exec none (next ()) guards (s.pause d.nanos) =
                (some ((perform (.sleep d) next).run world s).1,
                  ((perform (.sleep d) next).run world s).2) := ih () guards _
            unfold exec
            by_cases hnanos : d.nanos = 0
            · have hsame : s.pause d.nanos = s := if_pos hnanos
              rw [if_pos hnanos]
              rw [hsame] at hslept
              exact hslept
            · rw [if_neg hnanos]
              exact hslept
        | _ => exact ih _ _ _
  exact hexec [] s

/-! ## What the other tasks leave alone -/

structure Spares (before after : Node.State) : Prop where
  included_eq : after.included = before.included
  receiptDelay_eq : after.receiptDelay = before.receiptDelay
  count_eq (hash : Hash) :
    after.calls.count (.receipt hash) = before.calls.count (.receipt hash)

theorem spares_refl (node : Node.State) : Spares node node :=
  ⟨rfl, rfl, fun _ => rfl⟩

theorem Spares.lock {before after : Node.State} (h : Spares before after) (address : Address) :
    Spares before (after.answer (.lock address)).2 where
  included_eq := h.included_eq
  receiptDelay_eq := h.receiptDelay_eq
  count_eq hash := by
    have hne : Request.lock address ≠ .receipt hash := nofun
    rw [Node.State.calls_answer, List.count_cons_of_ne hne]
    exact h.count_eq hash

theorem now_pause {s : Simulation} (hminer : s.miner = none) (nanos : Nat) :
    (s.pause nanos).now = s.now + nanos := by
  by_cases hnanos : nanos = 0
  · rw [hnanos]
    rfl
  · rw [Interleaving.pause_of_none hminer hnanos]

theorem pause_spares {s : Simulation} (hminer : s.miner = none) (nanos : Nat) :
    (s.pause nanos).miner = none ∧ Spares s.node (s.pause nanos).node := by
  by_cases hnanos : nanos = 0
  · rw [hnanos]
    exact ⟨hminer, spares_refl s.node⟩
  · rw [Interleaving.pause_of_none hminer hnanos]
    apply Interleaving.runLocks_induction (P := fun s' => s'.miner = none ∧ Spares s.node s'.node)
    · exact ⟨hminer, spares_refl s.node⟩
    · intro s' address h
      exact ⟨h.1, h.2.lock address⟩

/-! ## Runs -/

theorem punctual_world :
    Punctual world Simulation.now (fun s => s.miner = none) fun _ => True where
  reads _ := rfl
  shows h := ⟨h, rfl⟩
  asks _ _ h := ⟨h, rfl⟩
  sleeps d _ h := ⟨(pause_spares h d.nanos).1, now_pause h d.nanos⟩

section

variable {α : Type} {hash : Hash}

theorem steady_answer {delay : Nat} (action : Action) (s : Simulation)
    (h : s.miner = none ∧ s.node.receiptDelay = delay) :
    (world.answer action s).2.miner = none ∧
      (world.answer action s).2.node.receiptDelay = delay := by
  rcases h with ⟨hminer, hdelay⟩
  cases action with
  | ask request => exact ⟨hminer, (s.node.receiptDelay_answer request).trans hdelay⟩
  | sleep d =>
      rcases pause_spares hminer d.nanos with ⟨hminer', hspares⟩
      exact ⟨hminer', hspares.receiptDelay_eq.trans hdelay⟩
  | _ => exact ⟨hminer, hdelay⟩

/-- A run that ends with an accepted transaction leaves it to wait for as long as the script says. -/
theorem entry_of_trace {program : Program α} {s : Simulation} (hminer : s.miner = none)
    {before : List Exchange} {call : Call} {plan : GasPlan}
    (h : program.trace world s = before ++ [⟨.ask (.send call plan), .ok hash⟩]) :
    ∃ receipt, (program.run world s).2.node.inclusion? hash =
      some ⟨receipt, s.node.receiptDelay⟩ := by
  induction program generalizing s before with
  | done a => cases before <;> cases h
  | perform action next ih =>
      rw [trace_perform] at h
      cases before with
      | nil =>
          rw [List.nil_append] at h
          rcases List.cons.inj h with ⟨hfirst, hrest⟩
          cases hnext : next (world.answer action s).1 with
          | perform action' next' =>
              rw [hnext] at hrest
              cases hrest
          | done a =>
              cases action with
              | ask request =>
                  rcases Sigma.mk.inj hfirst with ⟨haction, hanswer⟩
                  cases haction
                  change ∃ receipt, ((next (world.answer _ s).1).run world _).2.node.inclusion? hash = _
                  rw [hnext]
                  exact Node.State.entry_of_accepted (eq_of_heq hanswer)
              | _ => cases hfirst
      | cons e before =>
          rcases List.cons.inj h with ⟨_, hrest⟩
          rcases steady_answer action s ⟨hminer, rfl⟩ with ⟨hminer', hdelay⟩
          rw [← hdelay]
          exact ih _ hminer' hrest

theorem count_run {program : Program α} {s : Simulation} (hminer : s.miner = none) :
    (program.run world s).2.node.calls.count (.receipt hash) =
      (inquiries (program.trace world s)).countP (fun i => i.1 = .receipt hash) +
        s.node.calls.count (.receipt hash) := by
  induction program generalizing s with
  | done a => exact (Nat.zero_add _).symm
  | perform action next ih =>
      have hminer' := (steady_answer action s ⟨hminer, rfl⟩).1
      rw [trace_perform]
      refine (ih (world.answer action s).1 hminer').trans ?_
      cases action with
      | ask request =>
          have hcalls : (world.answer (.ask request) s).2.node.calls = request :: s.node.calls :=
            s.node.calls_answer request
          rw [inquiries_ask, hcalls, List.count_cons, List.countP_cons]
          simp only [beq_iff_eq, decide_eq_true_eq]
          omega
      | sleep d =>
          have hspares := (pause_spares hminer d.nanos).2
          exact congrArg _ (hspares.count_eq hash)
      | _ => rfl

/-- The questions for a receipt that still waits are answered as its countdown says. -/
theorem answers_of_entry {program : Program α} {s : Simulation} {receipt : Receipt} {delay : Nat}
    {answers : List (Except RpcError (Option Receipt))} (hminer : s.miner = none)
    (hentry : s.node.inclusion? hash = some ⟨receipt, delay⟩)
    (h : inquiries (program.trace world s) = answers.map fun answer => ⟨.receipt hash, answer⟩)
    {i : Nat} (hi : i < answers.length) :
    answers[i] = .ok (if i < delay then none else some receipt) := by
  induction program generalizing s delay answers i with
  | done a =>
      cases answers with
      | nil => cases hi
      | cons answer answers => cases h
  | perform action next ih =>
      have hminer' := (steady_answer action s ⟨hminer, rfl⟩).1
      rw [trace_perform] at h
      cases action with
      | ask request =>
          cases answers with
          | nil => cases hi
          | cons answer answers =>
              rw [inquiries_ask, List.map_cons] at h
              rcases List.cons.inj h with ⟨hfirst, hrest⟩
              rcases Sigma.mk.inj hfirst with ⟨rfl, hanswer⟩
              rcases Node.State.answer_receipt_of_entry hentry with ⟨hreply, hentry'⟩
              cases i with
              | zero =>
                  rw [List.getElem_cons_zero, ← eq_of_heq hanswer]
                  refine hreply.trans ?_
                  by_cases hdelay : delay = 0
                  · simp [hdelay]
                  · simp [hdelay, Nat.pos_of_ne_zero hdelay]
              | succ i =>
                  have hlater : i < delay - 1 ↔ i + 1 < delay := by omega
                  have hanswers := ih _ hminer' hentry' hrest (Nat.lt_of_succ_lt_succ hi)
                  rw [List.getElem_cons_succ, hanswers]
                  simp only [hlater]
      | sleep d =>
          have hspares := (pause_spares hminer d.nanos).2
          have hentry' : (s.pause d.nanos).node.inclusion? hash = some ⟨receipt, delay⟩ := by
            unfold Node.State.inclusion?
            rw [hspares.included_eq]
            exact hentry
          exact ih _ hminer' hentry' h hi
      | _ => exact ih _ hminer' hentry h hi

end

end Simulation
end KeyRegistry
