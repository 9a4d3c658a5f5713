import KeyRegistry.Proofs.Pipeline.Tally
import Mathlib.Data.List.Basic

/-!
# Failures at an early stage

The stage of a failure says how far a run has come.  A run that fails at its
estimate has sent nothing.  One that fails at a gas price may have sent, since a
price is asked for again before a transaction is sent once more: every send before
was refused then, and the pipeline has counted them.
-/

namespace KeyRegistry
namespace Pipeline

open Program

/-! ## Stages -/

theorem stage_of_pricing {p : Pipeline} {history : List Exchange} {e : Error}
    (h : Pricing p history (.error e)) : e.stage = .pricing := by
  cases h with
  | unestimated _ => rfl
  | unpriced _ _ => rfl

theorem stage_of_submission {left : Nat} {p q : Pipeline} {moments : List Moment} {e : Error}
    (h : Submission left p moments q (.error e)) : e.stage = .pricing ∨ e.stage = .submission := by
  generalize hresult : (Except.error e : Except Error Hash) = result at h
  induction h with
  | stale _ =>
      cases hresult
      exact Or.inl rfl
  | accepted hash _ _ => cases hresult
  | ended cause _ _ _ =>
      cases hresult
      exact Or.inr rfl
  | unpriced cause _ _ _ hpricing =>
      cases hresult
      exact Or.inl (stage_of_pricing hpricing)
  | repeated cause _ _ _ _ _ ih => exact ih hresult

theorem stage_of_wait {hash : Hash} {started left : Nat} {p q : Pipeline} {moments : List Moment}
    {e : Error} (h : Wait hash started left p moments q (.error e)) : e.stage = .confirmation := by
  generalize hresult : (Except.error e : Except Error Receipt) = result at h
  induction h with
  | found receipt => cases hresult
  | ended cause _ =>
      cases hresult
      rfl
  | expired now _ _ =>
      cases hresult
      rfl
  | repeated now _ _ _ ih => exact ih hresult

theorem stage_of_conclusion {receipt : Receipt} {p q : Pipeline} {e : Error}
    (h : Conclusion receipt p q (.error e)) : e.stage = .confirmation := by
  cases h with
  | unaddressed _ _ _ => rfl

/-! ## Sends before a failure -/

/-- The exchange, where it sends at all, is a send of `call` that fails transiently. -/
def Refused (call : Call) (x : Exchange) : Prop :=
  IsSend x -> ∃ plan cause, x = ⟨.ask (.send call plan), .error cause⟩ ∧ cause.isRetryable = true

theorem refused_of_no_send {call : Call} {history : List Exchange}
    (h : forall x, x ∈ history -> ¬ IsSend x) : forall x, x ∈ history -> Refused call x := by
  intro x hx hsend
  exact absurd hsend (h x hx)

theorem refused_of_submission {left : Nat} {p q : Pipeline} {moments : List Moment} {e : Error}
    (h : Submission left p moments q (.error e)) (hstage : e.stage = .pricing) :
    forall x, x ∈ exchanges moments -> Refused p.call x := by
  have hpause : forall (call : Call) (d : Duration), Refused call ⟨.sleep d, ()⟩ := by
    rintro call d ⟨_, _, hsend⟩
    cases hsend
  generalize hresult : (Except.error e : Except Error Hash) = result at h
  induction h with
  | stale _ =>
      intro x hx
      cases hx
  | accepted hash _ _ => cases hresult
  | ended cause _ _ _ =>
      cases hresult
      cases hstage
  | unpriced cause _ _ hretry hpricing =>
      rw [exchanges_cons, exchanges_cons, exchanges_map_mk, List.forall_mem_cons,
        List.forall_mem_cons]
      refine ⟨fun _ => ⟨_, cause, rfl, hretry⟩, hpause _ _, ?_⟩
      exact refused_of_no_send (pricing_no_send hpricing)
  | repeated cause _ _ hretry hpricing _ ih =>
      rw [exchanges_cons, exchanges_cons, exchanges_append, exchanges_map_mk,
        List.forall_mem_cons, List.forall_mem_cons, List.forall_mem_append]
      refine ⟨fun _ => ⟨_, cause, rfl, hretry⟩, hpause _ _, ?_, ih hresult⟩
      exact refused_of_no_send (pricing_no_send hpricing)

def SentBefore (call : Call) (history : List Exchange) : Stage -> Prop
  | .estimation => forall x, x ∈ history -> ¬ IsSend x
  | .pricing => forall x, x ∈ history -> Refused call x
  | _ => True

theorem sentBefore_of_journey {p q : Pipeline} {moments : List Moment} {e : Error}
    (h : Journey p moments q (.error e)) : SentBefore p.call (exchanges moments) e.stage := by
  cases h with
  | unestimated cause =>
      change forall x, x ∈ exchanges _ -> ¬ IsSend x
      rw [exchanges_cons, List.forall_mem_cons]
      exact ⟨estimate_no_send _ _, by simp⟩
  | unpriced gas hpricing =>
      rw [stage_of_pricing hpricing, exchanges_cons, exchanges_map_mk]
      exact refused_of_no_send (quoted_no_send hpricing)
  | unsent gas hpricing hsubmission =>
      rcases stage_of_submission hsubmission with hstage | hstage
      · have hsends := refused_of_submission hsubmission hstage
        rw [hstage, exchanges_cons, exchanges_append, exchanges_map_mk, ← List.cons_append]
        change forall x, x ∈ _ ++ _ -> Refused p.call x
        rw [List.forall_mem_append]
        exact ⟨refused_of_no_send (quoted_no_send hpricing), hsends⟩
      · rw [hstage]
        trivial
  | unconfirmed gas started _ _ hwait =>
      rw [stage_of_wait hwait]
      trivial
  | concluded gas started _ _ _ hconclusion =>
      rw [stage_of_conclusion hconclusion]
      trivial

/-- A run that fails at its estimate has sent nothing.  Where one fails at a gas price, each of its
sends was refused for the moment.  Unless the retries allowed take a 32-bit counter beyond its end,
the run has sent as often as it counts. -/
theorem early_failure_sends (call : Call) (config : Config) {σ : Type} (w : World σ) (s : σ)
    {e : Error} (h : ((run (new call config)).run w s).1.1 = .error e) :
    let history := (run (new call config)).trace w s
    let ended := ((run (new call config)).run w s).1.2
    (e.stage = .estimation -> forall x, x ∈ history -> ¬ IsSend x) ∧
      (e.stage = .pricing -> forall x, x ∈ history -> IsSend x ->
        ∃ plan cause, x = ⟨.ask (.send call plan), .error cause⟩ ∧ cause.isRetryable = true) ∧
      (config.maxRetries.toNat < UInt32.size - 1 ->
        ended.attempts < UInt32.size ∧ ended.attempts = history.countP isAttempt ∧
          (ended.attempts = 0 -> forall x, x ∈ history -> ¬ IsSend x)) := by
  intro history ended
  have hjourney := journey_of_run call config w s
  rw [h] at hjourney
  have hsent := sentBefore_of_journey hjourney
  rw [Course.exchanges_moments] at hsent
  refine ⟨?_, ?_, ?_⟩
  · intro hstage
    rw [hstage] at hsent
    exact hsent
  · intro hstage
    rw [hstage] at hsent
    exact hsent
  · intro hretries
    have hcounted : ended.attempts = history.countP isAttempt := attempts_of_run call config w s
    have hattempts : history.countP isAttempt ≤ config.maxRetries.toNat + 1 :=
      (tally_of_run call config w s).attempts_le
    refine ⟨by omega, hcounted, ?_⟩
    intro hzero
    rw [hcounted] at hzero
    exact attempts_eq_zero_iff.mp hzero

/-! ## A failure after a send -/

def unpriced : RpcError :=
  .node (-32601) "Method not found"

/-- A node that does not answer the first send and has no price after it.  Its state counts the
sends. -/
def losing : World Nat where
  answer action sends :=
    (Answers.reply ⟨if sends = 0 then .ok 1 else .error unpriced, .error (.timeout "send"), .ok none⟩
        0 action,
      match action with
      | .ask (.send _ _) => sends + 1
      | _ => sends)

theorem run_losing :
    ((run (new creation Config.default)).run losing 0).1.1 = .error (.pricingFailed unpriced) ∧
      ((run (new creation Config.default)).trace losing 0).countP isAttempt = 1 := by
  decide +kernel

theorem early_failure_sends_losing :
    ((run (new creation Config.default)).run losing 0).1.1 = .error (.pricingFailed unpriced) ∧
      Config.default.maxRetries.toNat < UInt32.size - 1 ∧
      ((run (new creation Config.default)).run losing 0).1.2.attempts =
        ((run (new creation Config.default)).trace losing 0).countP isAttempt ∧
      forall x, x ∈ (run (new creation Config.default)).trace losing 0 -> IsSend x ->
        ∃ plan cause, x = ⟨.ask (.send creation plan), .error cause⟩ ∧
          cause.isRetryable = true := by
  rcases run_losing with ⟨hfailed, _⟩
  have hsends := early_failure_sends creation Config.default losing 0 hfailed
  have hretries : Config.default.maxRetries.toNat < UInt32.size - 1 := by decide
  rcases hsends with ⟨_, hrefused, hcounts⟩
  rcases hcounts hretries with ⟨_, hcounted, _⟩
  exact ⟨hfailed, hretries, hcounted, hrefused rfl⟩

/-- A run can fail at the stage of its price and have sent its transaction. -/
theorem pricing_failure_after_send :
    ∃ e, ((run (new creation Config.default)).run losing 0).1.1 = .error e ∧
      e.stage = .pricing ∧
      ∃ x, x ∈ (run (new creation Config.default)).trace losing 0 ∧ IsSend x := by
  rcases run_losing with ⟨hfailed, hcount⟩
  refine ⟨_, hfailed, rfl, ?_⟩
  rcases List.countP_pos_iff.mp (hcount ▸ Nat.one_pos) with ⟨x, hx, hattempt⟩
  exact ⟨x, hx, isAttempt_iff.mp hattempt⟩

end Pipeline
end KeyRegistry
