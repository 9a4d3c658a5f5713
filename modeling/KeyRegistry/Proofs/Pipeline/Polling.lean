import KeyRegistry.Proofs.Pipeline.Patience
import KeyRegistry.Proofs.Runtime.Solitary

/-!
# Questions for a receipt, by the clock

In a punctual world, the questions for a receipt are made at whole intervals from the
start of the wait, and one at its deadline where that is no such moment.  The wait ends
with the first answer that does not leave the receipt pending, and otherwise with the
question at the deadline.
-/

namespace KeyRegistry
namespace Pipeline

open Program

/-- The moment of the `i`-th question, counted from 0, of a wait with a length and an interval in
milliseconds that began at `started`. -/
def questionTime (timeout poll started i : Nat) : Nat :=
  started + min (i * poll) timeout * 1_000_000

def verdict (hash : Hash) (timeout : Duration) :
    Except RpcError (Option Receipt) -> Except Error Receipt
  | .ok (some receipt) => .ok receipt
  | .ok none => .error (.receiptTimeout hash timeout)
  | .error e =>
      .error (if e.isRetryable then .receiptTimeout hash timeout else .confirmationFailed hash e)

theorem verdict_of_pending {hash : Hash} {timeout : Duration}
    {answer : Except RpcError (Option Receipt)} (h : Pending answer) :
    verdict hash timeout answer = .error (.receiptTimeout hash timeout) := by
  cases answer with
  | ok found =>
      cases h
      rfl
  | error e =>
      have hretry : e.isRetryable = true := h
      simp [verdict, hretry]

/-- A wait of `p` from its `i`-th question on, with `left` questions after that one: all answers
but the last leave the receipt pending, and the last one decides how the wait ends. -/
structure Waits {σ : Type} (time : σ -> Nat) (p : Pipeline) (hash : Hash)
    (timeout poll started i left : Nat) (pending : List (Except RpcError (Option Receipt)))
    (last : Except RpcError (Option Receipt)) (timeline : List (Nat × Inquiry))
    (ending : (Except Error Receipt × Pipeline) × σ) : Prop where
  pending_of_mem : forall answer, answer ∈ pending -> Pending answer
  length_le : pending.length ≤ left
  length_eq : Pending last -> pending.length = left
  timeline_eq : timeline = (pending ++ [last]).mapIdx fun j answer =>
    (questionTime timeout poll started (i + j), ⟨.receipt hash, answer⟩)
  result_eq : ending.1.1 = verdict hash p.config.receiptTimeout last
  pipeline_eq : ending.1.2 = p.settled ending.1.1
  time_eq : time ending.2 = questionTime timeout poll started (i + pending.length)

section

variable {σ : Type} {w : World σ} {time : σ -> Nat} {steady : σ -> Prop} {hash : Hash}
  {timeout poll started i left : Nat} {p : Pipeline}

theorem Waits.cons {answer last : Except RpcError (Option Receipt)}
    {pending : List (Except RpcError (Option Receipt))} {timeline : List (Nat × Inquiry)}
    {ending : (Except Error Receipt × Pipeline) × σ} (hanswer : Pending answer)
    (h : Waits time p hash timeout poll started (i + 1) left pending last timeline ending) :
    Waits time p hash timeout poll started i (left + 1) (answer :: pending) last
      ((questionTime timeout poll started i, ⟨.receipt hash, answer⟩) :: timeline) ending where
  pending_of_mem := List.forall_mem_cons.mpr ⟨hanswer, h.pending_of_mem⟩
  length_le := Nat.succ_le_succ h.length_le
  length_eq hlast := congrArg (· + 1) (h.length_eq hlast)
  timeline_eq := by
    rw [h.timeline_eq, List.cons_append, List.mapIdx_cons]
    simp only [Nat.add_zero, Nat.add_assoc, Nat.add_comm 1]
  result_eq := h.result_eq
  pipeline_eq := h.pipeline_eq
  time_eq := by
    rw [h.time_eq, List.length_cons, Nat.add_assoc, Nat.add_comm 1]

theorem waits_nil {last : Except RpcError (Option Receipt)} {timeline : List (Nat × Inquiry)}
    {ending : (Except Error Receipt × Pipeline) × σ} (hlast : Pending last -> left = 0)
    (htimeline : timeline = [])
    (hending : ending.1 = (verdict hash p.config.receiptTimeout last,
      p.settled (verdict hash p.config.receiptTimeout last)))
    (htime : time ending.2 = questionTime timeout poll started i) :
    Waits time p hash timeout poll started i left [] last
      ((questionTime timeout poll started i, ⟨.receipt hash, last⟩) :: timeline) ending where
  pending_of_mem := nofun
  length_le := Nat.zero_le left
  length_eq h := (hlast h).symm
  timeline_eq := by
    rw [htimeline]
    rfl
  result_eq := by rw [hending]
  pipeline_eq := by rw [hending]
  time_eq := htime

/-! ## One round -/

theorem deadline_le_questionTime_iff :
    started + timeout * 1_000_000 ≤ questionTime timeout poll started i ↔ timeout ≤ i * poll := by
  unfold questionTime
  omega

theorem questionTime_succ {interval : Duration} {now deadline : Nat}
    (hinterval : interval.nanos = poll * 1_000_000)
    (hdeadline : deadline = started + timeout * 1_000_000)
    (hnow : now = questionTime timeout poll started i) :
    1_000_000 ∣ (min interval (Duration.ofNanos (deadline - now))).nanos ∧
      now + (min interval (Duration.ofNanos (deadline - now))).nanos =
        questionTime timeout poll started (i + 1) := by
  have hpause : (min interval (Duration.ofNanos (deadline - now))).nanos =
      min poll (timeout - min (i * poll) timeout) * 1_000_000 := by
    rw [Duration.nanos_min_ofNanos, hinterval, hdeadline, hnow]
    unfold questionTime
    omega
  rw [hpause, hnow]
  constructor
  · exact Nat.dvd_mul_left _ _
  · unfold questionTime
    rw [Nat.succ_mul]
    omega

theorem recheck_zero {s : σ}
    (hw : Punctual w time steady fun request => request = .receipt hash) (hs : steady s)
    (htimeout : p.config.receiptTimeout.nanos = timeout * 1_000_000)
    (hnow : time s = questionTime timeout poll started i) (hover : timeout ≤ i * poll) :
    timeline w time (recheck hash started 0 p).program s = [] ∧
      ((recheck hash started 0 p).program.run w s).1 =
        (.error (.receiptTimeout hash p.config.receiptTimeout), p.failed) ∧
      time ((recheck hash started 0 p).program.run w s).2 = time s := by
  have hdeadline : started + p.config.receiptTimeout.nanos ≤ (w.answer .clock s).1 := by
    rw [hw.reads hs, hnow, htimeout]
    exact deadline_le_questionTime_iff.mpr hover
  have hwaited : Duration.ofNanos ((w.answer .clock s).1 - started) = p.config.receiptTimeout := by
    have helapsed : (w.answer .clock s).1 - started = p.config.receiptTimeout.nanos := by
      rw [hw.reads hs, hnow, htimeout, questionTime, Nat.min_eq_right hover, Nat.add_sub_cancel_left]
    rw [helapsed]
    exact Duration.ofNanos_nanos _
  have hshows := hw.shows hs
  refine ⟨?_, ?_, ?_⟩
  · simp only [recheck, Course.program, timeline, if_pos hdeadline, Move.fail]
  · simp only [recheck, Course.program, Program.run, if_pos hdeadline, Move.fail, hwaited]
  · simp only [recheck, Course.program, Program.run, if_pos hdeadline, Move.fail, hshows.2]

theorem recheck_succ {s : σ}
    (hw : Punctual w time steady fun request => request = .receipt hash) (hs : steady s)
    (htimeout : p.config.receiptTimeout.nanos = timeout * 1_000_000)
    (hinterval : p.config.receiptPollInterval.nanos = poll * 1_000_000)
    (hnow : time s = questionTime timeout poll started i) (hearly : i * poll < timeout) :
    ∃ s', steady s' ∧ time s' = questionTime timeout poll started (i + 1) ∧
      timeline w time (recheck hash started (left + 1) p).program s =
        timeline w time (Move.awaitReceipt hash started left p).program s' ∧
      (recheck hash started (left + 1) p).program.run w s =
        (Move.awaitReceipt hash started left p).program.run w s' := by
  have hreads : (w.answer .clock s).1 = questionTime timeout poll started i :=
    (hw.reads hs).trans hnow
  have hdeadline : ¬ started + p.config.receiptTimeout.nanos ≤ (w.answer .clock s).1 := by
    rw [hreads, htimeout, deadline_le_questionTime_iff]
    exact Nat.not_le_of_lt hearly
  rcases hw.shows hs with ⟨hshown, hsame⟩
  rcases questionTime_succ hinterval (congrArg (started + ·) htimeout) hreads with ⟨hwhole, hnext⟩
  rcases hw.sleeps _ hwhole hshown with ⟨hslept, hlater⟩
  refine ⟨_, hslept, ?_, ?_, ?_⟩
  · rw [hlater, hsame, ← hw.reads hs]
    exact hnext
  · simp only [recheck, Course.program, timeline, if_neg hdeadline]
  · simp only [recheck, Course.program, Program.run, if_neg hdeadline]

theorem waits_recheck {s : σ} {answer : Except RpcError (Option Receipt)}
    (hw : Punctual w time steady fun request => request = .receipt hash)
    (htimeout : p.config.receiptTimeout.nanos = timeout * 1_000_000)
    (hinterval : p.config.receiptPollInterval.nanos = poll * 1_000_000) (hpoll : 0 < poll)
    (hleft : i + left = timeout ⌈/⌉ poll) (hs : steady s)
    (hnow : time s = questionTime timeout poll started i) (hanswer : Pending answer)
    (ih : forall m s', left = m + 1 -> steady s' ->
      time s' = questionTime timeout poll started (i + 1) ->
      ∃ pending last, Waits time p hash timeout poll started (i + 1) m pending last
        (timeline w time (Move.awaitReceipt hash started m p).program s')
        ((Move.awaitReceipt hash started m p).program.run w s')) :
    ∃ pending last, Waits time p hash timeout poll started i left pending last
      ((questionTime timeout poll started i, ⟨.receipt hash, answer⟩) ::
        timeline w time (recheck hash started left p).program s)
      ((recheck hash started left p).program.run w s) := by
  have hrounds : timeout ⌈/⌉ poll ≤ i ↔ timeout ≤ i * poll := by
    rw [ceilDiv_le_iff_le_mul hpoll, Nat.mul_comm]
  cases left with
  | zero =>
      have hover : timeout ≤ i * poll := hrounds.mp (Nat.le_of_eq hleft.symm)
      rcases recheck_zero hw hs htimeout hnow hover with ⟨hquiet, hending, htime⟩
      refine ⟨[], answer, waits_nil (fun _ => rfl) hquiet ?_ (htime.trans hnow)⟩
      rw [verdict_of_pending hanswer]
      exact hending
  | succ left =>
      have hearly : i * poll < timeout := by
        apply Nat.lt_of_not_le
        rw [← hrounds, ← hleft]
        omega
      rcases recheck_succ hw hs htimeout hinterval hnow hearly with
        ⟨s', hs', hnow', htimeline, hrun⟩
      rcases ih left s' rfl hs' hnow' with ⟨pending, last, hwaits⟩
      refine ⟨answer :: pending, last, ?_⟩
      rw [htimeline, hrun]
      exact hwaits.cons hanswer

theorem waits_awaitReceipt {s : σ}
    (hw : Punctual w time steady fun request => request = .receipt hash)
    (htimeout : p.config.receiptTimeout.nanos = timeout * 1_000_000)
    (hinterval : p.config.receiptPollInterval.nanos = poll * 1_000_000) (hpoll : 0 < poll)
    (hleft : i + left = timeout ⌈/⌉ poll) (hs : steady s)
    (hnow : time s = questionTime timeout poll started i) :
    ∃ pending last, Waits time p hash timeout poll started i left pending last
      (timeline w time (Move.awaitReceipt hash started left p).program s)
      ((Move.awaitReceipt hash started left p).program.run w s) := by
  -- the induction is on the questions left, of which each takes an interval
  induction left using Nat.strongRecOn generalizing i s with
  | ind left ih =>
      rcases hw.asks (.receipt hash) rfl hs with ⟨hs', hsame⟩
      have hnow' := hsame.trans hnow
      have hrecheck : forall answer, Pending answer ->
          ∃ pending last, Waits time p hash timeout poll started i left pending last
            ((questionTime timeout poll started i, ⟨.receipt hash, answer⟩) ::
              timeline w time (recheck hash started left p).program
                (w.answer (.ask (.receipt hash)) s).2)
            ((recheck hash started left p).program.run w
              (w.answer (.ask (.receipt hash)) s).2) := by
        intro answer hanswer
        apply waits_recheck hw htimeout hinterval hpoll hleft hs' hnow' hanswer
        intro m s'' hm hs'' hnow''
        apply ih m _ _ hs'' hnow''
        · omega
        · omega
      rw [awaitReceipt_eq, Course.program, timeline_ask, run_perform, hnow]
      cases (w.answer (.ask (.receipt hash)) s).1 with
      | ok found =>
          cases found with
          | none => exact hrecheck (.ok none) rfl
          | some receipt =>
              refine ⟨[], .ok (some receipt), waits_nil ?_ rfl rfl hnow'⟩
              intro hpending
              cases hpending
      | error e =>
          cases hretry : e.isRetryable with
          | true =>
              simp only [hretry, if_true]
              exact hrecheck (.error e) hretry
          | false =>
              simp only [hretry]
              refine ⟨[], .error e, waits_nil ?_ rfl ?_ hnow'⟩
              · intro hpending
                cases hretry.symm.trans hpending
              · simp only [verdict, hretry]
                rfl

end

end Pipeline
end KeyRegistry
