import KeyRegistry.Proofs.GasPlan.Limits
import KeyRegistry.Proofs.Pipeline.Classification
import KeyRegistry.Proofs.Pipeline.Confirmation
import KeyRegistry.Proofs.Pipeline.Invariant
import KeyRegistry.Proofs.Pipeline.Tally

/-!
# Margins of the plans that a pipeline derives

A pipeline has the gas of its call estimated at most once.  Every plan that it derives
itself, for the first send or for a later one, has this estimate with the margin for the
kind of the call as its limit; only a plan that a caller hands in may have another one.
-/

namespace KeyRegistry
namespace Pipeline

open Program

/-! ## One estimate -/

structure EstimatedOnce (past : List Exchange) (p : Pipeline) : Prop where
  estimates_le : past.countP isEstimate ≤ 1
  unestimated : p.state = .built -> past.countP isEstimate = 0

section

variable {past more : List Exchange} {p q : Pipeline}

theorem estimatedOnce_new (call : Call) (config : Config) :
    EstimatedOnce [] (new call config) where
  estimates_le := Nat.zero_le 1
  unestimated _ := rfl

theorem EstimatedOnce.append (h : EstimatedOnce past p) (hmore : more.countP isEstimate = 0)
    (hstate : q.state ≠ .built) : EstimatedOnce (past ++ more) q where
  estimates_le := by
    rw [List.countP_append, hmore]
    exact h.estimates_le
  unestimated hbuilt := absurd hbuilt hstate

/-- A move asks for no other estimate than the one by which it leaves the first state. -/
abbrev EstimatesOnce {α : Type} (move : Move α) : Prop :=
  Preserves (fun _ _ => True) EstimatedOnce move

theorem estimatesOnce_of_allowed (op : Operation)
    (h : forall p moments q result, p.state ∈ op.allowed -> (op.move p).Unfolds moments q result ->
      (exchanges moments).countP isEstimate = 0 ∧ q.state ≠ .built ∨ q = p ∧ moments = []) :
    EstimatesOnce op.move := by
  apply preserves_of_allowed
  intro past p moments q result hallowed hp hunfolds
  constructor
  · exact throughout_true past moments
  · rcases h p moments q result hallowed hunfolds with ⟨hmore, hstate⟩ | ⟨rfl, rfl⟩
    · exact hp.append hmore hstate
    · rw [exchanges_nil, List.append_nil]
      exact hp

theorem EstimatedOnce.asked (h : EstimatedOnce past p) (hbuilt : p.state = .built)
    (answer : Except RpcError UInt64) (hstate : q.state ≠ .built) :
    EstimatedOnce (past ++ [⟨.ask (.estimateGas p.call), answer⟩]) q where
  estimates_le := by
    rw [List.countP_append, h.unestimated hbuilt]
    exact Nat.le_refl 1
  unestimated hnext := absurd hnext hstate

theorem estimatesOnce_estimateGas : EstimatesOnce Move.estimateGas := by
  apply preserves_of_allowed .estimate
  intro past p moments q result hallowed hp hunfolds
  have hstate : p.state = .built := by simpa [Operation.allowed] using hallowed
  constructor
  · exact throughout_true past moments
  · cases estimation_of_unfolds hstate hunfolds with
    | estimated gas => exact hp.asked hstate (.ok gas) (by simp [estimated])
    | ended e => exact hp.asked hstate (.error e) (by simp [failed])

theorem estimates_of_pricing {history : List Exchange} {answer : Except Error GasPlan}
    (h : Pricing p history answer) : history.countP isEstimate = 0 :=
  Nat.eq_zero_of_le_zero (tally_of_pricing h).estimates_le

theorem estimatesOnce_price : EstimatesOnce Move.price := by
  apply estimatesOnce_of_allowed .price
  intro p moments q result hallowed hunfolds
  have hstate : p.state = .gasEstimated := by simpa [Operation.allowed] using hallowed
  cases planning_of_unfolds hstate hunfolds with
  | priced hpricing =>
      rw [exchanges_map_mk]
      exact Or.inl ⟨estimates_of_pricing hpricing, by simp [planned]⟩
  | ended hpricing =>
      rw [exchanges_map_mk]
      exact Or.inl ⟨estimates_of_pricing hpricing, by simp [failed]⟩

theorem estimatesOnce_usePlan (plan : GasPlan) : EstimatesOnce (Move.usePlan plan) := by
  apply estimatesOnce_of_allowed (.usePlan plan)
  intro p moments q result hallowed hunfolds
  cases hcurrent : plan.belongsTo p.call with
  | true =>
      rw [Operation.move, usePlan_of_current hallowed hcurrent] at hunfolds
      rcases Course.unfolds_done_iff.mp hunfolds with ⟨rfl, rfl, rfl⟩
      exact Or.inl ⟨rfl, by simp [planned]⟩
  | false =>
      rw [Operation.move, usePlan_of_stale hallowed hcurrent] at hunfolds
      rcases Course.unfolds_done_iff.mp hunfolds with ⟨rfl, rfl, rfl⟩
      exact Or.inr ⟨rfl, rfl⟩

theorem estimatesOnce_submit : EstimatesOnce Move.submit := by
  apply estimatesOnce_of_allowed .submit
  intro p moments q result hallowed hunfolds
  have hstate : p.state = .priced := by simpa [Operation.allowed] using hallowed
  have hsubmission := submission_of_submit hstate hunfolds
  refine Or.inl ⟨Nat.eq_zero_of_le_zero (tally_of_submission hsubmission).estimates_le, ?_⟩
  cases result with
  | ok hash =>
      rw [(submission_accepted hsubmission).1]
      decide
  | error e =>
      rw [state_of_refused hsubmission]
      decide

theorem estimatesOnce_confirm : EstimatesOnce Move.confirm := by
  apply estimatesOnce_of_allowed .confirm
  intro p moments q result hallowed hunfolds
  have hstate : p.state = .submitted := by simpa [Operation.allowed] using hallowed
  cases confirmation_of_unfolds hstate hunfolds with
  | unsent _ => exact Or.inr ⟨rfl, rfl⟩
  | @waited _ _ polls _ started _ hwait =>
      have hpolls : (exchanges polls).countP isEstimate = 0 :=
        Nat.eq_zero_of_le_zero (tally_of_wait hwait).estimates_le
      refine Or.inl ⟨hpolls, ?_⟩
      rcases (wait_over hwait).2 with hover | hover
      · rw [hover]
        decide
      · rw [hover]
        decide

theorem estimatesOnce_conclude (receipt : Receipt) : EstimatesOnce (Move.conclude receipt) := by
  intro past p moments q result hp hunfolds
  rcases conclusion_of_unfolds hunfolds with ⟨rfl, hconclusion⟩
  rw [exchanges_nil, List.append_nil]
  constructor
  · trivial
  · cases hconclusion with
    | deployed _ _ _ _ => exact hp
    | unaddressed _ _ _ => exact ⟨hp.estimates_le, by simp [failed]⟩
    | sent _ => exact hp

theorem estimatesOnce_query : EstimatesOnce Move.query := by
  apply estimatesOnce_of_allowed .query
  intro p moments q result hallowed hunfolds
  have hstate : p.state = .built := by simpa [Operation.allowed] using hallowed
  cases reading_of_unfolds hstate hunfolds with
  | answered value => exact Or.inl ⟨rfl, by simp [confirmed]⟩
  | ended e => exact Or.inl ⟨rfl, by simp [failed]⟩

theorem estimatesOnce_operation (op : Operation) : EstimatesOnce op.move :=
  preserves_operation estimatesOnce_estimateGas estimatesOnce_price estimatesOnce_usePlan
    estimatesOnce_submit estimatesOnce_confirm estimatesOnce_conclude estimatesOnce_query op

theorem estimatedOnce_of_yields {call : Call} {config : Config} {ops : List Operation}
    (h : Yields (steps ops (new call config)) past ((), p)) : EstimatedOnce past p := by
  rw [← program_operate] at h
  rcases Course.exists_unfolds_of_yields h with ⟨moments, hunfolds, rfl⟩
  exact (preserves_operate estimatesOnce_operation (estimatedOnce_new call config) hunfolds).2

theorem EstimatedOnce.estimates_of_operation (h : EstimatedOnce past p) {op : Operation}
    {moments : List Moment} {result : Except Error op.Value}
    (hunfolds : (op.move p).Unfolds moments q result) :
    (past ++ exchanges moments).countP isEstimate ≤ 1 :=
  (estimatesOnce_operation op past p moments q result h hunfolds).2.estimates_le

end

/-! ## Limits -/

section

variable {p q : Pipeline} {gas : UInt64} {plan : GasPlan} {moments : List Moment}

theorem limit_of_pricing {history : List Exchange} (h : Pricing p history (.ok plan))
    (hgas : p.estimate = some gas) : plan.limit = GasPlan.limitWithMargin gas p.margin := by
  cases h with
  | priced hsome _ =>
      cases hgas.symm.trans hsome
      rfl

/-- A submission sends nothing, or the first send carries the plan of the pipeline, and each later
one a plan that was derived for it. -/
theorem limits_of_submission {left : Nat} {result : Except Error Hash}
    (h : Submission left p moments q result) (hgas : p.estimate = some gas) :
    exchanges moments = [] ∨
      ∃ first answer rest, p.plan = some first ∧
        exchanges moments = ⟨.ask (.send p.call first), answer⟩ :: rest ∧
        forall call plan answer, (⟨.ask (.send call plan), answer⟩ : Exchange) ∈ rest ->
          plan.limit = GasPlan.limitWithMargin gas p.margin := by
  induction h with
  | stale _ => exact Or.inl rfl
  | accepted hash hsome _ => exact Or.inr ⟨_, _, [], hsome, rfl, nofun⟩
  | ended e hsome _ _ => exact Or.inr ⟨_, _, [], hsome, rfl, nofun⟩
  | unpriced e hsome _ _ hpricing =>
      refine Or.inr ⟨_, _, _, hsome, rfl, ?_⟩
      intro call plan answer hsend
      rw [← exchanges, exchanges_cons, exchanges_map_mk, List.mem_cons] at hsend
      rcases hsend with hsleep | hquote
      · cases hsleep
      · exact absurd ⟨call, plan, rfl⟩ (pricing_no_send hpricing _ hquote)
  | @repeated left p q plan fresh quotes moments result e hsome _ _ hpricing _ ih =>
      have hfresh := limit_of_pricing hpricing hgas
      refine Or.inr ⟨_, _, _, hsome, rfl, ?_⟩
      intro call plan answer hsend
      rw [← exchanges, exchanges_cons, exchanges_append, exchanges_map_mk, List.mem_cons,
        List.mem_append] at hsend
      rcases hsend with hsleep | hquote | hlater
      · cases hsleep
      · exact absurd ⟨call, plan, rfl⟩ (pricing_no_send hpricing _ hquote)
      · rcases ih hgas with hempty | ⟨first, _, rest, hfirst, heq, hrest⟩
        · rw [hempty] at hlater
          cases hlater
        · rw [heq, List.mem_cons] at hlater
          cases hfirst
          rcases hlater with hsame | hmore
          · cases hsame
            exact hfresh
          · exact hrest call plan answer hmore

variable {call : Call} {answer : Except RpcError Hash}

/-- Where the first plan has the estimate with the margin as its limit, so has every plan that is
sent. -/
theorem limit_of_send {left : Nat} {result : Except Error Hash} {first : GasPlan}
    (h : Submission left p moments q result) (hgas : p.estimate = some gas)
    (hplan : p.plan = some first) (hlimit : first.limit = GasPlan.limitWithMargin gas p.margin)
    (hsend : (⟨.ask (.send call plan), answer⟩ : Exchange) ∈ exchanges moments) :
    plan.limit = GasPlan.limitWithMargin gas p.margin := by
  rcases limits_of_submission h hgas with hempty | ⟨first', _, rest, hfirst, heq, hrest⟩
  · rw [hempty] at hsend
    cases hsend
  · cases hplan.symm.trans hfirst
    rw [heq, List.mem_cons] at hsend
    rcases hsend with hsame | hlater
    · cases hsame
      exact hlimit
    · exact hrest call plan answer hlater

/-- Whatever the first plan is, what is sent after something else has the estimate with the margin
as its limit. -/
theorem limit_of_resend {left : Nat} {result : Except Error Hash}
    (h : Submission left p moments q result) (hgas : p.estimate = some gas)
    {before after : List Exchange}
    (hsplit : exchanges moments = before ++ ⟨.ask (.send call plan), answer⟩ :: after)
    (hbefore : before ≠ []) : plan.limit = GasPlan.limitWithMargin gas p.margin := by
  rcases limits_of_submission h hgas with hempty | ⟨first, _, rest, _, heq, hrest⟩
  · rw [hempty, List.nil_eq, List.append_eq_nil_iff] at hsplit
    cases hsplit.2
  · cases before with
    | nil => exact absurd rfl hbefore
    | cons e before =>
        rw [heq] at hsplit
        apply hrest call plan answer
        rw [(List.cons.inj hsplit).2]
        exact List.mem_append_right before List.mem_cons_self

theorem mem_sends_of_mem {quotes sends after : List Exchange} {priced : Except Error GasPlan}
    (hpricing : Pricing (p.estimated gas) quotes priced)
    (hafter : forall e, e ∈ after -> ¬ IsSend e)
    (hsend : (⟨.ask (.send call plan), answer⟩ : Exchange) ∈
      ⟨.ask (.estimateGas p.call), .ok gas⟩ :: (quotes ++ (sends ++ after))) :
    (⟨.ask (.send call plan), answer⟩ : Exchange) ∈ sends := by
  have his : IsSend ⟨.ask (.send call plan), answer⟩ := ⟨call, plan, rfl⟩
  rw [← List.cons_append, List.mem_append, List.mem_append] at hsend
  rcases hsend with hquoted | hmem | hpolled
  · exact absurd his (quoted_no_send hpricing _ hquoted)
  · exact hmem
  · exact absurd his (hafter _ hpolled)

theorem limit_of_run {left : Nat} {quotes : List Exchange} {sends : List Moment}
    {first : GasPlan} {result : Except Error Hash}
    (hpricing : Pricing (p.estimated gas) quotes (.ok first))
    (hsubmission : Submission left ((p.estimated gas).planned first) sends q result)
    (hsend : (⟨.ask (.send call plan), answer⟩ : Exchange) ∈ exchanges sends) :
    plan.limit = GasPlan.limitWithMargin gas p.margin := by
  have hfirst := limit_of_pricing hpricing rfl
  have hlimit := limit_of_send hsubmission rfl rfl hfirst hsend
  exact hlimit

theorem limit_of_journey {result : Except Error Outcome} (h : Journey p moments q result)
    (hsend : (⟨.ask (.send call plan), answer⟩ : Exchange) ∈ exchanges moments) :
    ∃ gas, (⟨.ask (.estimateGas p.call), .ok gas⟩ : Exchange) ∈ exchanges moments ∧
      plan.limit = GasPlan.limitWithMargin gas p.margin := by
  have hpolls : forall {hash started left sent polls included answer'},
      Wait hash started left sent polls included answer' ->
      forall e, e ∈ (⟨.clock, started⟩ : Exchange) :: exchanges polls -> ¬ IsSend e :=
    fun hwait => List.forall_mem_cons.mpr ⟨by simp [IsSend], wait_no_send hwait⟩
  cases h with
  | unestimated e => cases List.mem_singleton.mp hsend
  | unpriced gas hpricing =>
      rw [exchanges_cons, exchanges_map_mk] at hsend
      exact absurd ⟨call, plan, rfl⟩ (quoted_no_send hpricing _ hsend)
  | @unsent _ _ sends _ _ gas hpricing hsubmission =>
      rw [exchanges_cons, exchanges_append, exchanges_map_mk, ← List.append_nil (exchanges sends)]
        at hsend
      exact ⟨gas, List.mem_cons_self,
        limit_of_run hpricing hsubmission (mem_sends_of_mem hpricing (List.forall_mem_nil _) hsend)⟩
  | unconfirmed gas started hpricing hsubmission hwait =>
      rw [exchanges_cons, exchanges_append, exchanges_map_mk, exchanges_append, exchanges_cons]
        at hsend
      exact ⟨gas, List.mem_cons_self,
        limit_of_run hpricing hsubmission (mem_sends_of_mem hpricing (hpolls hwait) hsend)⟩
  | concluded gas started hpricing hsubmission hwait _ =>
      rw [exchanges_cons, exchanges_append, exchanges_map_mk, exchanges_append, exchanges_cons]
        at hsend
      exact ⟨gas, List.mem_cons_self,
        limit_of_run hpricing hsubmission (mem_sends_of_mem hpricing (hpolls hwait) hsend)⟩

end

/-! ## Plans of a pipeline -/

/-- Of all exchanges, one asks for an estimate, and the limit of the plan is that estimate with the
margin for the kind of the call. -/
def CarriesMargin (call : Call) (config : Config) (history : List Exchange) (plan : GasPlan) :
    Prop :=
  ∃ gas, history.filter isEstimate = [⟨.ask (.estimateGas call), .ok gas⟩] ∧
    gas ≤ plan.limit ∧
    plan.limit = GasPlan.limitWithMargin gas
      (if call.isDeploy then config.deployMarginPercent else config.callMarginPercent)

theorem carriesMargin_of_mem {p : Pipeline} {history : List Exchange} {gas : UInt64}
    {plan : GasPlan} (hmem : (⟨.ask (.estimateGas p.call), .ok gas⟩ : Exchange) ∈ history)
    (honce : history.countP isEstimate ≤ 1)
    (hlimit : plan.limit = GasPlan.limitWithMargin gas p.margin) :
    CarriesMargin p.call p.config history plan := by
  have hfound : (⟨.ask (.estimateGas p.call), .ok gas⟩ : Exchange) ∈ history.filter isEstimate :=
    List.mem_filter.mpr ⟨hmem, rfl⟩
  refine ⟨gas, ?_, ?_, hlimit⟩
  · rw [List.countP_eq_length_filter] at honce
    rcases List.length_eq_one_iff.mp (Nat.le_antisymm honce (List.length_pos_of_mem hfound)) with
      ⟨e, he⟩
    rw [he, List.mem_singleton] at hfound
    rw [he, hfound]
  · rw [hlimit]
    exact GasPlan.le_limitWithMargin gas p.margin

section

variable {call : Call} {config : Config} {past : List Exchange} {p q : Pipeline} {gas : UInt64}
  {plan : GasPlan}

theorem carriesMargin_of_estimate {more : List Exchange} (hp : AtRest call config past p)
    (honce : (past ++ more).countP isEstimate ≤ 1) (hgas : p.estimate = some gas)
    (hlimit : plan.limit = GasPlan.limitWithMargin gas p.margin) :
    CarriesMargin call config (past ++ more) plan := by
  have hseen := hp.estimate_seen gas hgas
  rw [← hp.call_eq] at hseen
  rw [← hp.call_eq, ← hp.config_eq]
  exact carriesMargin_of_mem (List.mem_append_left more hseen) honce hlimit

theorem carriesMargin_of_price {history : List Exchange} (hp : AtRest call config past p)
    (honce : EstimatedOnce past p) (h : Yields (price p) history (.ok plan, q)) :
    CarriesMargin call config (past ++ history) plan := by
  rcases Course.exists_unfolds_of_yields h with ⟨moments, hunfolds, rfl⟩
  have hprice : (Operation.price.move p).Unfolds moments q (.ok plan) := hunfolds
  by_cases hallowed : p.state ∈ Operation.price.allowed
  · have hstate : p.state = .gasEstimated := by simpa [Operation.allowed] using hallowed
    rcases Option.ne_none_iff_exists'.mp (hp.estimated (Or.inl hstate)) with ⟨gas, hgas⟩
    cases planning_of_unfolds hstate hunfolds with
    | priced hpricing =>
        exact carriesMargin_of_estimate hp (honce.estimates_of_operation hprice) hgas
          (limit_of_pricing hpricing hgas)
  · rw [Operation.price.move_of_not_allowed hallowed] at hprice
    rcases Course.unfolds_done_iff.mp hprice with ⟨_, _, hresult⟩
    cases hresult

theorem carriesMargin_of_resend {before after : List Exchange} {c : Call}
    {answer : Except RpcError Hash} {result : Except Error Hash} (hp : AtRest call config past p)
    (honce : EstimatedOnce past p)
    (h : Yields (submit p) (before ++ ⟨.ask (.send c plan), answer⟩ :: after) (result, q))
    (hbefore : before ≠ []) :
    CarriesMargin call config (past ++ (before ++ ⟨.ask (.send c plan), answer⟩ :: after))
      plan := by
  rcases Course.exists_unfolds_of_yields h with ⟨moments, hunfolds, hsplit⟩
  have hsubmit : (Operation.submit.move p).Unfolds moments q result := hunfolds
  by_cases hallowed : p.state ∈ Operation.submit.allowed
  · have hstate : p.state = .priced := by simpa [Operation.allowed] using hallowed
    rcases Option.ne_none_iff_exists'.mp (hp.estimated (Or.inr (Or.inl hstate))) with ⟨gas, hgas⟩
    rw [← hsplit]
    exact carriesMargin_of_estimate hp (honce.estimates_of_operation hsubmit) hgas
      (limit_of_resend (submission_of_submit hstate hunfolds) hgas hsplit hbefore)
  · rw [Operation.submit.move_of_not_allowed hallowed] at hsubmit
    rcases Course.unfolds_done_iff.mp hsubmit with ⟨rfl, _, _⟩
    rw [exchanges_nil, List.nil_eq, List.append_eq_nil_iff] at hsplit
    cases hsplit.2

theorem carriesMargin_of_run {history : List Exchange} {c : Call} {answer : Except RpcError Hash}
    {result : Except Error Outcome} (hp : AtRest call config past p)
    (honce : EstimatedOnce past p) (h : Yields (run p) history (result, q))
    (hsend : (⟨.ask (.send c plan), answer⟩ : Exchange) ∈ history) :
    CarriesMargin call config (past ++ history) plan := by
  rcases Course.exists_unfolds_of_yields h with ⟨moments, hunfolds, rfl⟩
  have hrun : (Operation.run.move p).Unfolds moments q result := hunfolds
  by_cases hallowed : p.state ∈ Operation.run.allowed
  · have hstate : p.state = .built := by simpa [Operation.allowed] using hallowed
    rcases limit_of_journey (journey_of_unfolds hstate hunfolds) hsend with ⟨gas, hgas, hlimit⟩
    rw [← hp.call_eq, ← hp.config_eq]
    exact carriesMargin_of_mem (List.mem_append_right past hgas)
      (honce.estimates_of_operation hrun) hlimit
  · rw [Operation.run.move_of_not_allowed hallowed] at hrun
    rcases Course.unfolds_done_iff.mp hrun with ⟨rfl, _, _⟩
    cases hsend

end

/-- The limit with a margin is the product rounded up, at most the largest word of 64 bits; on
words of 128 bits it is computed without an overflow; it is not below the limit without the margin,
and grows with either.  Whatever operations are invoked and whatever the node answers, it is the
limit of each plan that pricing returns, that a submission sends after its first exchange, or that a
run sends. -/
theorem plans_carry_margin (call : Call) (config : Config) (ops : List Operation) {σ : Type}
    (w : World σ) (s : σ) :
    let program := steps ops (new call config)
    let past := program.trace w s
    let p := (program.run w s).1.2
    (forall (gas : UInt64) (percent : UInt32),
      (GasPlan.limitWithMargin gas percent).toNat =
          min (GasPlan.exactLimit gas.toNat percent.toNat) (2 ^ 64 - 1) ∧
        GasPlan.wideLimit? gas percent = some (GasPlan.limitWithMargin gas percent) ∧
        gas ≤ GasPlan.limitWithMargin gas percent) ∧
    (forall (gas gas' : UInt64) (percent percent' : UInt32), gas ≤ gas' -> percent ≤ percent' ->
      GasPlan.limitWithMargin gas percent ≤ GasPlan.limitWithMargin gas' percent') ∧
    (forall history plan q, Yields (price p) history (.ok plan, q) ->
      CarriesMargin call config (past ++ history) plan) ∧
    (forall before c plan answer after result q,
      Yields (submit p) (before ++ ⟨.ask (.send c plan), answer⟩ :: after) (result, q) ->
      before ≠ [] ->
      CarriesMargin call config
        (past ++ (before ++ ⟨.ask (.send c plan), answer⟩ :: after)) plan) ∧
    (forall history c plan answer result q, Yields (run p) history (result, q) ->
      (⟨.ask (.send c plan), answer⟩ : Exchange) ∈ history ->
      CarriesMargin call config (past ++ history) plan) := by
  intro program past p
  have hreached : Yields program past ((), p) := yields_trace w program s
  have hp := atRest_of_yields hreached
  have honce := estimatedOnce_of_yields hreached
  refine ⟨?_, ?_, ?_, ?_, ?_⟩
  · intro gas percent
    exact ⟨GasPlan.toNat_limitWithMargin gas percent, GasPlan.wideLimit?_eq gas percent,
      GasPlan.le_limitWithMargin gas percent⟩
  · intro gas gas' percent percent'
    exact GasPlan.limitWithMargin_mono
  · intro history plan q hyields
    exact carriesMargin_of_price hp honce hyields
  · intro before c plan answer after result q hyields
    exact carriesMargin_of_resend hp honce hyields
  · intro history c plan answer result q hyields
    exact carriesMargin_of_run hp honce hyields

end Pipeline
end KeyRegistry
