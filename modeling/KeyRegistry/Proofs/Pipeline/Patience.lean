import KeyRegistry.Proofs.Duration
import KeyRegistry.Proofs.Pipeline.Tally
import Mathlib.Algebra.Order.Floor.Div

/-!
# The end of a wait

A pipeline bounds the rounds in which it asks for a receipt.  The bound is where
the pauses add up to the waiting time, so in a world where a pause takes at least
its length the clock ends the wait first: a run with any larger bound is the same
run.
-/

namespace KeyRegistry
namespace Pipeline

open Program

/-! ## Courses that cannot be told apart -/

/-- In a world, from one of its states on, two courses do the same and end the same. -/
def Agrees {σ α : Type} (w : World σ) (s : σ) (course other : Course α) : Prop :=
  course.program.trace w s = other.program.trace w s ∧
    course.program.run w s = other.program.run w s

section

variable {σ α β : Type} {w : World σ} {s : σ}

theorem agrees_refl (course : Course α) : Agrees w s course course :=
  ⟨rfl, rfl⟩

theorem agrees_perform {p : Pipeline} {action : Action} {next other : action.Reply -> Course α}
    (h : Agrees w (w.answer action s).2 (next (w.answer action s).1)
      (other (w.answer action s).1)) :
    Agrees w s (.perform p action next) (.perform p action other) := by
  rcases h with ⟨htrace, hrun⟩
  constructor
  · rw [Course.program, Course.program, trace_perform, trace_perform, htrace]
  · exact hrun

theorem agrees_bind {course other : Course α} {f : Pipeline -> α -> Course β}
    (h : Agrees w s course other) : Agrees w s (course.bind f) (other.bind f) := by
  rcases h with ⟨htrace, hrun⟩
  constructor
  · rw [Course.program_bind, Course.program_bind, trace_bind, trace_bind, htrace, hrun]
  · rw [Course.program_bind, Course.program_bind, run_bind, run_bind, hrun]

theorem agrees_bind_right {course : Course α} {f g : Pipeline -> α -> Course β}
    (h : forall moments q a s', course.Unfolds moments q a -> Agrees w s' (f q a) (g q a)) :
    Agrees w s (course.bind f) (course.bind g) := by
  induction course generalizing s with
  | done p a => exact h [] p a s (Course.Unfolds.done p a)
  | perform p action next ih =>
      apply agrees_perform
      apply ih
      intro moments q a s' hunfolds
      exact h _ q a s' (Course.Unfolds.perform _ hunfolds)

theorem agrees_andThen {move : Move α} {f g : α -> Move β} {p : Pipeline}
    (h : forall moments q a s', (move p).Unfolds moments q (.ok a) -> Agrees w s' (f a q) (g a q)) :
    Agrees w s (Move.andThen move f p) (Move.andThen move g p) := by
  apply agrees_bind_right
  intro moments q answer s' hunfolds
  cases answer with
  | ok a => exact h moments q a s' hunfolds
  | error e => exact agrees_refl _

end

/-! ## Rounds and the clock -/

/-- The clock of a world shows its time, nothing turns it back, and a pause takes at least its
length. -/
structure Timely {σ : Type} (w : World σ) (time : σ -> Nat) : Prop where
  reads (s : σ) : (w.answer .clock s).1 = time s
  advances (action : Action) (s : σ) : time s ≤ time (w.answer action s).2
  sleeps (d : Duration) (s : σ) : time s + d.nanos ≤ time (w.answer (.sleep d) s).2

/-- From `now` on, the pauses of `left` rounds reach the end of a wait that began at `started`. -/
def Covers (config : Config) (started now left : Nat) : Prop :=
  started + config.receiptTimeout.nanos ≤ now + left * config.receiptPollInterval.nanos

theorem pollLimit_le_iff {config : Config} {rounds : Nat}
    (hpoll : 0 < config.receiptPollInterval.nanos) :
    config.pollLimit ≤ rounds ↔
      config.receiptTimeout.nanos ≤ rounds * config.receiptPollInterval.nanos := by
  have hlimit : config.pollLimit =
      config.receiptTimeout.nanos ⌈/⌉ config.receiptPollInterval.nanos :=
    if_neg (Nat.ne_of_gt hpoll)
  rw [hlimit, ceilDiv_le_iff_le_mul hpoll, Nat.mul_comm]

/-- In milliseconds too, the bound on the rounds of a wait is its length over its interval. -/
theorem pollLimit_of_millis {config : Config} {timeout poll : Nat}
    (htimeout : config.receiptTimeout.nanos = timeout * 1_000_000)
    (hinterval : config.receiptPollInterval.nanos = poll * 1_000_000) (hpoll : 0 < poll) :
    config.pollLimit = timeout ⌈/⌉ poll := by
  have hnanos : 0 < config.receiptPollInterval.nanos := by omega
  apply eq_of_forall_ge_iff
  intro rounds
  rw [pollLimit_le_iff hnanos, htimeout, hinterval, ceilDiv_le_iff_le_mul hpoll, ← Nat.mul_assoc,
    Nat.mul_le_mul_right_iff (by decide), Nat.mul_comm]

theorem Covers.later {config : Config} {started now later left : Nat}
    (h : Covers config started now left) (hle : now ≤ later) : Covers config started later left := by
  unfold Covers at *
  omega

theorem Covers.paused {config : Config} {started now later left : Nat}
    (h : Covers config started now (left + 1))
    (hpause : now + (min config.receiptPollInterval
      (Duration.ofNanos (started + config.receiptTimeout.nanos - now))).nanos ≤ later) :
    Covers config started later left := by
  unfold Covers at *
  rw [Duration.nanos_min_ofNanos] at hpause
  rw [Nat.succ_mul] at h
  omega

section

variable {σ : Type} {w : World σ} {time : σ -> Nat} {hash : Hash} {started : Nat} {p : Pipeline}

theorem agrees_recheck (hw : Timely w time) {left other : Nat} {s : σ}
    (hleft : Covers p.config started (time s) left)
    (hother : Covers p.config started (time s) other)
    (ih : forall m, m < left -> forall n s', Covers p.config started (time s') m ->
      Covers p.config started (time s') n ->
      Agrees w s' (Move.awaitReceipt hash started m p) (Move.awaitReceipt hash started n p)) :
    Agrees w s (recheck hash started left p) (recheck hash started other p) := by
  have hclock := hw.advances .clock s
  unfold recheck
  apply agrees_perform
  rw [hw.reads s]
  by_cases hdeadline : started + p.config.receiptTimeout.nanos ≤ time s
  · rw [if_pos hdeadline, if_pos hdeadline]
    exact agrees_refl _
  · rw [if_neg hdeadline, if_neg hdeadline]
    -- before the deadline, neither bound is used up
    cases left with
    | zero =>
        unfold Covers at hleft
        omega
    | succ left =>
        cases other with
        | zero =>
            unfold Covers at hother
            omega
        | succ other =>
            apply agrees_perform
            have hpause := Nat.le_trans (Nat.add_le_add_right hclock _)
              (hw.sleeps (min p.config.receiptPollInterval
                (Duration.ofNanos (started + p.config.receiptTimeout.nanos - time s))) _)
            exact ih left (Nat.lt_succ_self left) other _ (hleft.paused hpause)
              (hother.paused hpause)

theorem agrees_awaitReceipt (hw : Timely w time) {left other : Nat} {s : σ}
    (hleft : Covers p.config started (time s) left)
    (hother : Covers p.config started (time s) other) :
    Agrees w s (Move.awaitReceipt hash started left p) (Move.awaitReceipt hash started other p) := by
  -- the induction is on the rounds left; the state and the other bound change with each of them
  induction left using Nat.strongRecOn generalizing other s with
  | ind left ih =>
      have hlater := hw.advances (.ask (.receipt hash)) s
      have hrecheck : Agrees w (w.answer (.ask (.receipt hash)) s).2
          (recheck hash started left p) (recheck hash started other p) := by
        apply agrees_recheck hw (hleft.later hlater) (hother.later hlater)
        intro m hlt n s' hm hn
        exact ih m hlt hm hn
      rw [awaitReceipt_eq, awaitReceipt_eq]
      apply agrees_perform
      cases (w.answer (.ask (.receipt hash)) s).1 with
      | ok found =>
          cases found with
          | none => exact hrecheck
          | some receipt => exact agrees_refl _
      | error e =>
          cases hretry : e.isRetryable with
          | true =>
              simp only [hretry, if_true]
              exact hrecheck
          | false =>
              simp only [hretry]
              exact agrees_refl _

end

/-- The move that waits for a receipt, with another bound on its rounds. -/
def Move.confirmWithin (patience : Nat) : Move Receipt :=
  Move.only [.submitted] .confirmation fun p =>
    match p.hash with
    | none => .done p (.error (.invalidTransition p.state .confirmation))
    | some hash =>
        .perform p .clock fun started => Move.awaitReceipt hash started patience p

/-- The move of a whole run, with another bound on the rounds of its wait. -/
def Move.runWithin (patience : Nat) : Move Outcome :=
  Move.andThen Move.estimateGas fun _ =>
    Move.andThen Move.price fun _ =>
      Move.andThen Move.submit fun _ =>
        Move.andThen (Move.confirmWithin patience) Move.conclude

section

variable {σ : Type} {w : World σ} {time : σ -> Nat} {s : σ}

theorem agrees_confirmWithin (hw : Timely w time) {p : Pipeline} {patience : Nat}
    (hpoll : 0 < p.config.receiptPollInterval.nanos) (hpatience : p.config.pollLimit ≤ patience) :
    Agrees w s (Move.confirm p) (Move.confirmWithin patience p) := by
  have hlimit := (pollLimit_le_iff hpoll).mp (Nat.le_refl p.config.pollLimit)
  have hcovered := (pollLimit_le_iff hpoll).mp hpatience
  unfold Move.confirm Move.confirmWithin Move.only
  split
  · dsimp only
    cases p.hash with
    | none => exact agrees_refl _
    | some hash =>
        apply agrees_perform
        have hclock := hw.advances .clock s
        rw [hw.reads s]
        apply agrees_awaitReceipt hw
        · unfold Covers
          omega
        · unfold Covers
          omega
  · exact agrees_refl _

/-- In a world where time passes, the bound on the rounds is not what ends a run. -/
theorem agrees_runWithin (hw : Timely w time) {call : Call} {config : Config} {patience : Nat}
    (hpoll : 0 < config.receiptPollInterval.nanos) (hpatience : config.pollLimit ≤ patience) :
    Agrees w s (Move.run (new call config)) (Move.runWithin patience (new call config)) := by
  apply agrees_andThen
  intro _ p₁ gas s₁ hestimate
  cases estimation_of_unfolds rfl hestimate with
  | estimated =>
      apply agrees_andThen
      intro _ p₂ plan s₂ hprice
      cases planning_of_unfolds rfl hprice with
      | priced hpricing =>
          apply agrees_andThen
          intro _ sent hash s₃ hsubmit
          have hconfig : sent.config = config :=
            (tally_of_submission (submission_of_submit rfl hsubmit)).config_eq
          apply agrees_bind
          apply agrees_confirmWithin hw
          · rw [hconfig]
            exact hpoll
          · rw [hconfig]
            exact hpatience

end

end Pipeline
end KeyRegistry
