import KeyRegistry.Proofs.Pipeline.Conversation
import KeyRegistry.Proofs.Pipeline.Operations

/-!
# Sending again

A run sends a transaction again only after a transient failure of the send
before, and a send that fails for good ends the run with its error.  Both hold
for every world, so they are stated of the histories of a run.
-/

namespace KeyRegistry
namespace Pipeline

open Program

def SentAgain (earlier later : Exchange) : Prop :=
  IsSend later -> forall call plan answer, earlier = ⟨.ask (.send call plan), answer⟩ ->
    ∃ e, answer = .error e ∧ e.isRetryable = true

theorem sentAgain_of_not_send_left {earlier later : Exchange} (h : ¬ IsSend earlier) :
    SentAgain earlier later := by
  intro _ call plan answer hearlier
  rw [hearlier] at h
  exact absurd ⟨call, plan, rfl⟩ h

theorem sentAgain_of_not_send_right {earlier later : Exchange} (h : ¬ IsSend later) :
    SentAgain earlier later :=
  fun hsend => absurd hsend h

theorem sentAgain_of_retryable {call : Call} {plan : GasPlan} {e : RpcError} {later : Exchange}
    (h : e.isRetryable = true) : SentAgain ⟨.ask (.send call plan), .error e⟩ later := by
  intro _ call' plan' answer hsent
  cases hsent
  exact ⟨e, rfl, h⟩

theorem pairwise_quiet_append {quiet history : List Exchange}
    (hquiet : forall e, e ∈ quiet -> ¬ IsSend e) (h : history.Pairwise SentAgain) :
    (quiet ++ history).Pairwise SentAgain := by
  induction quiet with
  | nil => exact h
  | cons e quiet ih =>
      rw [List.forall_mem_cons] at hquiet
      rw [List.cons_append, List.pairwise_cons]
      exact ⟨fun later _ => sentAgain_of_not_send_left hquiet.1, ih hquiet.2⟩

theorem pairwise_quiet {quiet : List Exchange} (hquiet : forall e, e ∈ quiet -> ¬ IsSend e) :
    quiet.Pairwise SentAgain := by
  have h := pairwise_quiet_append hquiet List.Pairwise.nil
  rwa [List.append_nil] at h

theorem pairwise_append_quiet {history quiet : List Exchange}
    (h : history.Pairwise SentAgain) (hquiet : forall e, e ∈ quiet -> ¬ IsSend e) :
    (history ++ quiet).Pairwise SentAgain := by
  rw [List.pairwise_append]
  exact ⟨h, pairwise_quiet hquiet,
    fun _ _ later hlater => sentAgain_of_not_send_right (hquiet later hlater)⟩

/-! ## Submissions -/

theorem pairwise_of_submission {left : Nat} {p q : Pipeline} {moments : List Moment}
    {result : Except Error Hash} (h : Submission left p moments q result) :
    (exchanges moments).Pairwise SentAgain := by
  induction h with
  | stale _ => exact List.Pairwise.nil
  | accepted hash _ _ => exact List.pairwise_singleton _ _
  | ended e _ _ _ => exact List.pairwise_singleton _ _
  | unpriced e _ _ hretry hpricing =>
      rw [exchanges_cons, exchanges_cons, exchanges_map_mk, List.pairwise_cons,
        List.pairwise_cons]
      refine ⟨fun later _ => sentAgain_of_retryable hretry, fun later _ => ?_, ?_⟩
      · exact sentAgain_of_not_send_left (by simp [IsSend])
      · exact pairwise_quiet (pricing_no_send hpricing)
  | repeated e _ _ hretry hpricing _ ih =>
      rw [exchanges_cons, exchanges_cons, exchanges_append, exchanges_map_mk,
        List.pairwise_cons, List.pairwise_cons]
      refine ⟨fun later _ => sentAgain_of_retryable hretry, fun later _ => ?_, ?_⟩
      · exact sentAgain_of_not_send_left (by simp [IsSend])
      · exact pairwise_quiet_append (pricing_no_send hpricing) ih

theorem submissionFailed_of_refused {left : Nat} {p q : Pipeline} {moments : List Moment}
    {result : Except Error Hash} {call : Call} {plan : GasPlan} {e : RpcError}
    (h : Submission left p moments q result)
    (hrefused : (⟨.ask (.send call plan), .error e⟩ : Exchange) ∈ exchanges moments)
    (hterminal : e.isRetryable = false) :
    ∃ attempts, result = .error (.submissionFailed attempts e) := by
  -- a refused send is none of the exchanges between two sends
  have hsilent : forall quotes : List Exchange, (forall e', e' ∈ quotes -> ¬ IsSend e') ->
      (⟨.ask (.send call plan), .error e⟩ : Exchange) ∉ quotes :=
    fun quotes hquiet hmem => hquiet _ hmem ⟨call, plan, rfl⟩
  induction h with
  | stale _ => cases hrefused
  | accepted hash _ _ => simp at hrefused
  | @ended _ p _ e' _ _ _ =>
      have hsame : e = e' := by
        simp only [exchanges_cons, exchanges_nil, List.mem_singleton, Sigma.mk.injEq,
          Action.ask.injEq, Request.send.injEq] at hrefused
        rcases hrefused with ⟨⟨rfl, rfl⟩, heq⟩
        cases heq
        rfl
      rw [hsame]
      exact ⟨p.attempted.attempts, rfl⟩
  | unpriced e' _ _ hretry hpricing =>
      rw [exchanges_cons, exchanges_cons, exchanges_map_mk, List.mem_cons, List.mem_cons]
        at hrefused
      rcases hrefused with hsend | hsleep | hquote
      · cases hsend
        rw [hretry] at hterminal
        cases hterminal
      · cases hsleep
      · exact absurd hquote (hsilent _ (pricing_no_send hpricing))
  | repeated e' _ _ hretry hpricing _ ih =>
      rw [exchanges_cons, exchanges_cons, exchanges_append, exchanges_map_mk, List.mem_cons,
        List.mem_cons, List.mem_append] at hrefused
      rcases hrefused with hsend | hsleep | hquote | hlater
      · cases hsend
        rw [hretry] at hterminal
        cases hterminal
      · cases hsleep
      · exact absurd hquote (hsilent _ (pricing_no_send hpricing))
      · exact ih hlater

/-! ## Runs -/

theorem estimate_no_send (call : Call) (answer : Except RpcError UInt64) :
    ¬ IsSend ⟨.ask (.estimateGas call), answer⟩ := by
  rintro ⟨_, _, hsend⟩
  cases hsend

theorem quoted_no_send {p : Pipeline} {gas : UInt64} {quotes : List Exchange}
    {answer : Except Error GasPlan} (h : Pricing (p.estimated gas) quotes answer) :
    forall e, e ∈ (⟨.ask (.estimateGas p.call), .ok gas⟩ : Exchange) :: quotes -> ¬ IsSend e := by
  rw [List.forall_mem_cons]
  exact ⟨estimate_no_send _ _, pricing_no_send h⟩

/-- A run sends in one stretch at most, and where that stretch fails, so does the run. -/
theorem submission_of_journey {p q : Pipeline} {moments : List Moment}
    {result : Except Error Outcome} (h : Journey p moments q result) :
    (forall e, e ∈ exchanges moments -> ¬ IsSend e) ∨
      ∃ before left ready sends sent answer after,
        exchanges moments = before ++ (exchanges sends ++ after) ∧
        Submission left ready sends sent answer ∧
        (forall e, e ∈ before -> ¬ IsSend e) ∧ (forall e, e ∈ after -> ¬ IsSend e) ∧
        forall cause, answer = .error cause -> result = .error cause := by
  have hstart : forall started, ¬ IsSend ⟨.clock, started⟩ := by
    intro started
    simp [IsSend]
  cases h with
  | unestimated e =>
      left
      intro e' hmem
      rw [List.mem_singleton.mp hmem]
      exact estimate_no_send _ _
  | unpriced gas hpricing =>
      left
      rw [exchanges_cons, exchanges_map_mk]
      exact quoted_no_send hpricing
  | unsent gas hpricing hsubmission =>
      right
      refine ⟨_, _, _, _, _, _, [], ?_, hsubmission, quoted_no_send hpricing, by simp, ?_⟩
      · simp
      · intro cause hcause
        cases hcause
        rfl
  | unconfirmed gas started hpricing hsubmission hwait =>
      right
      refine ⟨_, _, _, _, _, _, _, ?_, hsubmission, quoted_no_send hpricing,
        List.forall_mem_cons.mpr ⟨hstart started, wait_no_send hwait⟩, ?_⟩
      · simp
      · intro cause hcause
        cases hcause
  | concluded gas started hpricing hsubmission hwait _ =>
      right
      refine ⟨_, _, _, _, _, _, _, ?_, hsubmission, quoted_no_send hpricing,
        List.forall_mem_cons.mpr ⟨hstart started, wait_no_send hwait⟩, ?_⟩
      · simp
      · intro cause hcause
        cases hcause

theorem pairwise_of_journey {p q : Pipeline} {moments : List Moment}
    {result : Except Error Outcome} (h : Journey p moments q result) :
    (exchanges moments).Pairwise SentAgain := by
  rcases submission_of_journey h with
    hquiet | ⟨before, left, ready, sends, sent, answer, after, heq, hsubmission, hbefore, hafter, _⟩
  · exact pairwise_quiet hquiet
  · rw [heq]
    exact pairwise_quiet_append hbefore
      (pairwise_append_quiet (pairwise_of_submission hsubmission) hafter)

section

variable {p q : Pipeline} {moments : List Moment} {result : Except Error Outcome} {call : Call}
  {plan : GasPlan} {answer : Except RpcError Hash} {before after : List Exchange}

theorem retryable_of_later {later : Exchange} (h : Journey p moments q result)
    (hsplit : exchanges moments = before ++ ⟨.ask (.send call plan), answer⟩ :: after)
    (hlater : later ∈ after) (hsend : IsSend later) :
    ∃ e, answer = .error e ∧ e.isRetryable = true := by
  have hpairwise := pairwise_of_journey h
  rw [hsplit, List.pairwise_append, List.pairwise_cons] at hpairwise
  exact hpairwise.2.1.1 later hlater hsend call plan answer rfl

theorem last_of_not_retryable (h : Journey p moments q result)
    (hsplit : exchanges moments = before ++ ⟨.ask (.send call plan), answer⟩ :: after)
    (hanswer : forall e, answer = .error e -> e.isRetryable = false) :
    forall later, later ∈ after -> ¬ IsSend later := by
  intro later hlater hsend
  rcases retryable_of_later h hsplit hlater hsend with ⟨e, herror, hretry⟩
  rw [hanswer e herror] at hretry
  cases hretry

end

theorem journey_of_refused {p q : Pipeline} {moments : List Moment}
    {result : Except Error Outcome} {call : Call} {plan : GasPlan} {e : RpcError}
    (h : Journey p moments q result)
    (hrefused : (⟨.ask (.send call plan), .error e⟩ : Exchange) ∈ exchanges moments)
    (hterminal : e.isRetryable = false) :
    ∃ attempts, result = .error (.submissionFailed attempts e) := by
  have hsend : IsSend ⟨.ask (.send call plan), .error e⟩ := ⟨call, plan, rfl⟩
  rcases submission_of_journey h with
    hquiet | ⟨before, left, ready, sends, sent, answer, after, heq, hsubmission, hbefore, hafter,
      hresult⟩
  · exact absurd hsend (hquiet _ hrefused)
  · rw [heq, List.mem_append, List.mem_append] at hrefused
    rcases hrefused with hmem | hmem | hmem
    · exact absurd hsend (hbefore _ hmem)
    · rcases submissionFailed_of_refused hsubmission hmem hterminal with ⟨attempts, hfailed⟩
      exact ⟨attempts, hresult _ hfailed⟩
    · exact absurd hsend (hafter _ hmem)

/-! ## Subscriptions -/

theorem no_subscribe_of_quotes {priced : Bool} {quotes : List Inquiry} (h : Quotes priced quotes) :
    forall i, i ∈ quotes -> forall feed, i.1 ≠ .subscribe feed := by
  induction h with
  | price price => simp
  | refusal e => simp
  | again e _ ih => simpa using ih

theorem no_subscribe_of_sends {call : Call} {hash? : Option Hash} {sends : List Inquiry}
    (h : Sends call hash? sends) : forall i, i ∈ sends -> forall feed, i.1 ≠ .subscribe feed := by
  induction h with
  | accepted plan hash => simp
  | refused plan e => simp
  | unpriced plan e hquotes => simpa using no_subscribe_of_quotes hquotes
  | again plan e hquotes _ ih =>
      rw [List.forall_mem_cons, List.forall_mem_append]
      exact ⟨by simp, no_subscribe_of_quotes hquotes, ih⟩

theorem no_subscribe_of_polls {hash : Hash} {polls : List Inquiry} (h : Polls hash polls) :
    forall i, i ∈ polls -> forall feed, i.1 ≠ .subscribe feed := by
  induction h with
  | last answer => simp
  | again answer _ ih => simpa using ih

theorem no_subscribe_of_transacts {call : Call} {asked : List Inquiry}
    (h : Transacts call asked) : forall i, i ∈ asked -> forall feed, i.1 ≠ .subscribe feed := by
  cases h with
  | unestimated e => simp
  | unpriced gas hquotes => simpa using no_subscribe_of_quotes hquotes
  | unsent gas hquotes hsends =>
      rw [List.forall_mem_cons, List.forall_mem_append]
      exact ⟨by simp, no_subscribe_of_quotes hquotes, no_subscribe_of_sends hsends⟩
  | sent gas hquotes hsends hpolls =>
      rw [List.forall_mem_cons, List.forall_mem_append, List.forall_mem_append]
      exact ⟨by simp, no_subscribe_of_quotes hquotes, no_subscribe_of_sends hsends,
        no_subscribe_of_polls hpolls⟩

end Pipeline
end KeyRegistry
