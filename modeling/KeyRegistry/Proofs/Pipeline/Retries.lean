import KeyRegistry.Proofs.Pipeline.Invariant
import KeyRegistry.Proofs.Pipeline.Tally

/-!
# Submissions, send by send

A submission is a list of sends that fail for the moment, each with a pause and a new
price after it, and a last send.  The list says what is asked, how long is waited and
which plan each send carries.  The retries of the configuration bound it, and so they
do with the questions for each price.
-/

namespace KeyRegistry
namespace Pipeline

open Program

/-! ## Unfoldings and relations -/

theorem Course.yields_of_unfolds {α : Type} {course : Course α} {moments : List Moment}
    {q : Pipeline} {a : α} (h : course.Unfolds moments q a) :
    Yields course.program (exchanges moments) (a, q) := by
  induction h with
  | done p a => exact Yields.done (a, p)
  | perform reply _ ih => exact Yields.perform reply ih

theorem yields_of_quotation {config : Config} {left attempt : Nat} {history : List Exchange}
    {answer : Except RpcError (BitVec 128)} (h : Quotation config left attempt history answer) :
    Yields (askPrice config left attempt) history answer := by
  induction h with
  | quoted price =>
      rw [askPrice_eq]
      exact yields_perform_iff.mpr ⟨_, _, rfl, Yields.done _⟩
  | @ended left attempt e hlast =>
      rw [askPrice_eq]
      refine yields_perform_iff.mpr ⟨_, _, rfl, ?_⟩
      cases hretry : e.isRetryable with
      | false =>
          simp only [hretry]
          exact Yields.done _
      | true =>
          cases hlast hretry
          simp only [hretry, if_true]
          exact Yields.done _
  | repeated e hretry _ ih =>
      rw [askPrice_eq]
      refine yields_perform_iff.mpr ⟨_, _, rfl, ?_⟩
      simp only [hretry, if_true]
      exact yields_perform_iff.mpr ⟨_, _, rfl, ih⟩

theorem yields_of_pricing {p : Pipeline} {history : List Exchange} {answer : Except Error GasPlan}
    (h : Pricing p history answer) : Yields (freshPlan p) history answer := by
  unfold freshPlan
  cases h with
  | unestimated hnone =>
      rw [hnone]
      exact Yields.done _
  | priced hsome hquotation =>
      rw [hsome, ← List.append_nil history]
      exact yields_bind_iff.mpr
        ⟨history, _, [], yields_of_quotation hquotation, Yields.done _, rfl⟩
  | unpriced hsome hquotation =>
      rw [hsome, ← List.append_nil history]
      exact yields_bind_iff.mpr
        ⟨history, _, [], yields_of_quotation hquotation, Yields.done _, rfl⟩

theorem unfolds_of_pricing {p : Pipeline} {quotes : List Exchange} {answer : Except Error GasPlan}
    (h : Pricing p quotes answer) :
    (Course.during p (freshPlan p)).Unfolds (quotes.map (Moment.mk p)) p answer :=
  Course.unfolds_during_iff.mpr ⟨quotes, yields_of_pricing h, rfl, rfl⟩

theorem unfolds_of_submission {left : Nat} {p q : Pipeline} {moments : List Moment}
    {result : Except Error Hash} (h : Submission left p moments q result) :
    Course.Unfolds (Move.sendFrom left p) moments q result := by
  induction h with
  | stale hstale =>
      rw [sendFrom_of_stale hstale]
      exact Course.Unfolds.done _ _
  | accepted hash hplan hcurrent =>
      rw [sendFrom_of_current hplan hcurrent]
      exact Course.unfolds_perform_iff.mpr ⟨_, _, rfl, Course.Unfolds.done _ _⟩
  | @ended left p plan e hplan hcurrent hlast =>
      rw [sendFrom_of_current hplan hcurrent]
      refine Course.unfolds_perform_iff.mpr ⟨_, _, rfl, ?_⟩
      cases hretry : e.isRetryable with
      | false =>
          simp only [hretry]
          exact Course.Unfolds.done _ _
      | true =>
          cases hlast hretry
          simp only [hretry, if_true]
          exact Course.Unfolds.done _ _
  | unpriced e hplan hcurrent hretry hpricing =>
      rw [sendFrom_of_current hplan hcurrent]
      refine Course.unfolds_perform_iff.mpr ⟨_, _, rfl, ?_⟩
      simp only [hretry, if_true]
      refine Course.unfolds_perform_iff.mpr ⟨_, _, rfl, ?_⟩
      exact Course.unfolds_bind_iff.mpr
        ⟨_, _, _, [], unfolds_of_pricing hpricing, Course.Unfolds.done _ _, (List.append_nil _).symm⟩
  | repeated e hplan hcurrent hretry hpricing _ ih =>
      rw [sendFrom_of_current hplan hcurrent]
      refine Course.unfolds_perform_iff.mpr ⟨_, _, rfl, ?_⟩
      simp only [hretry, if_true]
      refine Course.unfolds_perform_iff.mpr ⟨_, _, rfl, ?_⟩
      exact Course.unfolds_bind_iff.mpr ⟨_, _, _, _, unfolds_of_pricing hpricing, ih, rfl⟩

/-! ## Prices -/

/-- The questions for a price from the `attempt`-th on: each that fails is followed by its pause,
and after the failures `last` is answered. -/
def questions (config : Config) (last : Except RpcError (BitVec 128)) :
    Nat -> List RpcError -> List Exchange
  | _, [] => [⟨.ask .gasPrice, last⟩]
  | attempt, e :: failures =>
      ⟨.ask .gasPrice, .error e⟩ :: ⟨.sleep (config.backoff attempt), ()⟩ ::
        questions config last (attempt + 1) failures

/-- Failures after each of which a question is asked again, where `limit` retries are allowed. -/
def Passing (limit : Nat) (failures : List RpcError) : Prop :=
  failures.length ≤ limit ∧ forall e, e ∈ failures -> e.isRetryable = true

/-- The answer after `n` failures ends the questions: it is a price, it is terminal, or the retries
are used up. -/
def Ending (limit n : Nat) (answer : Except RpcError (BitVec 128)) : Prop :=
  forall e, answer = .error e -> e.isRetryable = true -> n = limit

theorem passing_cons_iff {limit : Nat} {e : RpcError} {failures : List RpcError} :
    Passing (limit + 1) (e :: failures) ↔ e.isRetryable = true ∧ Passing limit failures := by
  unfold Passing
  rw [List.forall_mem_cons, List.length_cons, Nat.add_le_add_iff_right]
  constructor
  · rintro ⟨hlength, hretry, hfailures⟩
    exact ⟨hretry, hlength, hfailures⟩
  · rintro ⟨hretry, hlength, hfailures⟩
    exact ⟨hlength, hretry, hfailures⟩

theorem quotation_iff {config : Config} {left attempt : Nat} {history : List Exchange}
    {answer : Except RpcError (BitVec 128)} :
    Quotation config left attempt history answer ↔
      ∃ failures, Passing left failures ∧ Ending left failures.length answer ∧
        history = questions config answer attempt failures := by
  constructor
  · intro h
    induction h with
    | quoted price => exact ⟨[], ⟨Nat.zero_le _, nofun⟩, nofun, rfl⟩
    | @ended left attempt e hlast =>
        refine ⟨[], ⟨Nat.zero_le _, nofun⟩, ?_, rfl⟩
        intro e' heq hretry
        cases heq
        exact (hlast hretry).symm
    | repeated e hretry _ ih =>
        rcases ih with ⟨failures, hpassing, hending, rfl⟩
        refine ⟨e :: failures, passing_cons_iff.mpr ⟨hretry, hpassing⟩, ?_, rfl⟩
        intro e' heq hretry'
        rw [List.length_cons, hending e' heq hretry']
  · rintro ⟨failures, hpassing, hending, rfl⟩
    induction failures generalizing left attempt with
    | nil =>
        cases answer with
        | ok price => exact Quotation.quoted price
        | error e => exact Quotation.ended e fun hretry => (hending e rfl hretry).symm
    | cons e failures ih =>
        cases left with
        | zero => exact absurd hpassing.1 (Nat.not_succ_le_zero _)
        | succ left =>
            rcases passing_cons_iff.mp hpassing with ⟨hretry, hrest⟩
            apply Quotation.repeated e hretry
            apply ih hrest
            intro e' heq hretry'
            exact Nat.succ.inj (hending e' heq hretry')

theorem pricing_ok_iff {p : Pipeline} {gas : UInt64} {quotes : List Exchange} {plan : GasPlan}
    (hestimate : p.estimate = some gas) :
    Pricing p quotes (.ok plan) ↔
      ∃ price failures, Passing p.config.maxRetries.toNat failures ∧
        quotes = questions p.config (.ok price) 1 failures ∧ plan = p.planFor gas price := by
  constructor
  · intro h
    cases h with
    | @priced estimate _ price hsome hquotation =>
        cases hestimate.symm.trans hsome
        rcases quotation_iff.mp hquotation with ⟨failures, hpassing, _, rfl⟩
        exact ⟨price, failures, hpassing, rfl, rfl⟩
  · rintro ⟨price, failures, hpassing, rfl, rfl⟩
    exact Pricing.priced hestimate (quotation_iff.mpr ⟨failures, hpassing, nofun, rfl⟩)

theorem pricing_error_iff {p : Pipeline} {gas : UInt64} {quotes : List Exchange} {cause : Error}
    (hestimate : p.estimate = some gas) :
    Pricing p quotes (.error cause) ↔
      ∃ e failures, Passing p.config.maxRetries.toNat failures ∧
        Ending p.config.maxRetries.toNat failures.length (.error e) ∧
        quotes = questions p.config (.error e) 1 failures ∧ cause = .pricingFailed e := by
  constructor
  · intro h
    cases h with
    | unestimated hnone => cases hestimate.symm.trans hnone
    | @unpriced _ _ e _ hquotation =>
        rcases quotation_iff.mp hquotation with ⟨failures, hpassing, hending, rfl⟩
        exact ⟨e, failures, hpassing, hending, rfl, rfl⟩
  · rintro ⟨e, failures, hpassing, hending, rfl, rfl⟩
    exact Pricing.unpriced hestimate (quotation_iff.mpr ⟨failures, hpassing, hending, rfl⟩)

/-! ## Sends -/

/-- A send that fails for the moment, the failures of the questions for a new price, and that
price. -/
structure Retry where
  failure : RpcError
  failures : List RpcError
  price : BitVec 128

def Retry.Allowed (limit : Nat) (r : Retry) : Prop :=
  r.failure.isRetryable = true ∧ Passing limit r.failures

inductive LastSend where
  | accepted (hash : Hash)
  | refused (e : RpcError)
  /-- It fails for the moment, and after some failures the question for a new price does for good. -/
  | unpriced (e : RpcError) (failures : List RpcError) (cause : RpcError)

namespace LastSend

def history (config : Config) (call : Call) (k : Nat) (plan : GasPlan) : LastSend -> List Exchange
  | .accepted hash => [⟨.ask (.send call plan), .ok hash⟩]
  | .refused e => [⟨.ask (.send call plan), .error e⟩]
  | .unpriced e failures cause =>
      ⟨.ask (.send call plan), .error e⟩ :: ⟨.sleep (config.backoff k), ()⟩ ::
        questions config (.error cause) 1 failures

/-- Why no send follows after `n` retries, where `left` of them were allowed, and `limit` for each
price. -/
def Ends (limit left n : Nat) : LastSend -> Prop
  | .accepted _ => True
  | .refused e => e.isRetryable = true -> n = left
  | .unpriced e failures cause =>
      e.isRetryable = true ∧ n < left ∧ Passing limit failures ∧
        Ending limit failures.length (.error cause)

def result (attempts : Nat) : LastSend -> Except Error Hash
  | .accepted hash => .ok hash
  | .refused e => .error (.submissionFailed attempts e)
  | .unpriced _ _ cause => .error (.pricingFailed cause)

def leave (p : Pipeline) : LastSend -> Pipeline
  | .accepted hash => p.submitted hash
  | .refused _ => p.failed
  | .unpriced _ _ _ => p.failed

end LastSend

/-- The sends from the `k`-th on: the first with `plan`, each later one with the price that was
answered before it and with `limit`. -/
def sendsFrom (config : Config) (call : Call) (limit : UInt64) (last : LastSend) :
    Nat -> GasPlan -> List Retry -> List Exchange
  | k, plan, [] => last.history config call k plan
  | k, plan, r :: retries =>
      ⟨.ask (.send call plan), .error r.failure⟩ :: ⟨.sleep (config.backoff k), ()⟩ ::
        (questions config (.ok r.price) 1 r.failures ++
          sendsFrom config call limit last (k + 1) (GasPlan.forCall call r.price limit) retries)

def planAfter (call : Call) (limit : UInt64) (plan : GasPlan) (retries : List Retry) : GasPlan :=
  retries.foldl (fun _ r => GasPlan.forCall call r.price limit) plan

/-- A submission of `p` goes through some retries, of which `left` are allowed, to its last send. -/
structure Resends (p : Pipeline) (limit : UInt64) (left : Nat) (plan : GasPlan)
    (retries : List Retry) (last : LastSend) (history : List Exchange) (q : Pipeline)
    (result : Except Error Hash) : Prop where
  length_le : retries.length ≤ left
  allowed : forall r, r ∈ retries -> r.Allowed p.config.maxRetries.toNat
  ends : last.Ends p.config.maxRetries.toNat left retries.length
  history_eq : history = sendsFrom p.config p.call limit last (p.attempts + 1) plan retries
  result_eq : result = last.result (p.attempts + 1 + retries.length)
  pipeline_eq : q = last.leave
    { p with
      plan := some (planAfter p.call limit plan retries)
      attempts := p.attempts + 1 + retries.length }

section

variable {p q : Pipeline} {gas : UInt64} {left : Nat} {plan : GasPlan} {retries : List Retry}
  {last : LastSend} {history : List Exchange} {result : Except Error Hash}

def repriced (p : Pipeline) (limit : UInt64) (price : BitVec 128) : Pipeline :=
  { p.attempted with plan := some (GasPlan.forCall p.call price limit) }

theorem LastSend.ends_succ_iff {limit n : Nat} :
    last.Ends limit (left + 1) (n + 1) ↔ last.Ends limit left n := by
  cases last with
  | accepted hash => exact Iff.rfl
  | refused e => simp only [Ends, Nat.add_right_cancel_iff]
  | unpriced e failures cause => simp only [Ends, Nat.add_lt_add_iff_right]

theorem resends_cons_iff {limit : UInt64} {r : Retry} :
    Resends p limit (left + 1) plan (r :: retries) last history q result ↔
      r.Allowed p.config.maxRetries.toNat ∧
        ∃ rest, history =
            ⟨.ask (.send p.call plan), .error r.failure⟩ ::
              ⟨.sleep (p.config.backoff (p.attempts + 1)), ()⟩ ::
              (questions p.config (.ok r.price) 1 r.failures ++ rest) ∧
          Resends (p.repriced limit r.price) limit left (GasPlan.forCall p.call r.price limit)
            retries last rest q result := by
  have hcount : p.attempts + 1 + (retries.length + 1) = p.attempts + 1 + 1 + retries.length := by
    omega
  constructor
  · rintro ⟨hlength, hallowed, hends, rfl, rfl, rfl⟩
    rw [List.forall_mem_cons] at hallowed
    refine ⟨hallowed.1, _, rfl, Nat.le_of_succ_le_succ hlength, hallowed.2,
      LastSend.ends_succ_iff.mp hends, rfl, ?_, ?_⟩
    · rw [List.length_cons, hcount]
      rfl
    · rw [List.length_cons, hcount]
      rfl
  · rintro ⟨hr, rest, rfl, hlength, hallowed, hends, rfl, rfl, rfl⟩
    refine ⟨Nat.succ_le_succ hlength, List.forall_mem_cons.mpr ⟨hr, hallowed⟩,
      LastSend.ends_succ_iff.mpr hends, rfl, ?_, ?_⟩
    · rw [List.length_cons, hcount]
      rfl
    · rw [List.length_cons, hcount]
      rfl

theorem resends_of_submission {moments : List Moment} (h : Submission left p moments q result)
    (hestimate : p.estimate = some gas) (hplan : p.plan = some plan)
    (hcurrent : plan.belongsTo p.call = true) :
    ∃ retries last,
      Resends p (GasPlan.limitWithMargin gas p.margin) left plan retries last (exchanges moments)
        q result := by
  induction h generalizing plan with
  | @stale left p hstale => cases hcurrent.symm.trans (hstale plan hplan)
  | @accepted left p plan' hash hsome _ =>
      cases hplan.symm.trans hsome
      refine ⟨[], .accepted hash, Nat.zero_le _, nofun, trivial, rfl, rfl, ?_⟩
      simp only [LastSend.leave, planAfter, List.foldl_nil, List.length_nil, Nat.add_zero, ← hplan]
      rfl
  | @ended left p plan' e hsome _ hlast =>
      cases hplan.symm.trans hsome
      refine ⟨[], .refused e, Nat.zero_le _, nofun, fun hretry => (hlast hretry).symm, rfl, rfl, ?_⟩
      simp only [LastSend.leave, planAfter, List.foldl_nil, List.length_nil, Nat.add_zero, ← hplan]
      rfl
  | @unpriced left p plan' quotes cause e hsome _ hretry hpricing =>
      cases hplan.symm.trans hsome
      have hestimate' : p.attempted.estimate = some gas := hestimate
      rcases (pricing_error_iff hestimate').mp hpricing with
        ⟨e', failures, hpassing, hending, rfl, rfl⟩
      refine ⟨[], .unpriced e failures e', Nat.zero_le _, nofun,
        ⟨hretry, Nat.succ_pos left, hpassing, hending⟩, ?_, rfl, ?_⟩
      · rw [exchanges_cons, exchanges_cons, exchanges_map_mk]
        rfl
      · simp only [LastSend.leave, planAfter, List.foldl_nil, List.length_nil, Nat.add_zero, ← hplan]
        rfl
  | @repeated left p q plan' fresh quotes moments result e hsome _ hretry hpricing _ ih =>
      cases hplan.symm.trans hsome
      have hestimate' : p.attempted.estimate = some gas := hestimate
      rcases (pricing_ok_iff hestimate').mp hpricing with ⟨price, failures, hpassing, rfl, rfl⟩
      have hbelongs : (p.attempted.planFor gas price).belongsTo p.call = true := decide_eq_true rfl
      rcases ih hestimate rfl hbelongs with ⟨retries, last, hrest⟩
      refine ⟨⟨e, failures, price⟩ :: retries, last, resends_cons_iff.mpr
        ⟨⟨hretry, hpassing⟩, exchanges moments, ?_, hrest⟩⟩
      rw [exchanges_cons, exchanges_cons, exchanges_append, exchanges_map_mk]
      rfl

theorem submission_of_resends
    (h : Resends p (GasPlan.limitWithMargin gas p.margin) left plan retries last history q result)
    (hestimate : p.estimate = some gas) (hplan : p.plan = some plan)
    (hcurrent : plan.belongsTo p.call = true) :
    ∃ moments, Submission left p moments q result ∧ exchanges moments = history := by
  induction retries generalizing p left plan history with
  | nil =>
      rcases h with ⟨_, _, hends, rfl, rfl, rfl⟩
      have hsame : { p with
          plan := some (planAfter p.call (GasPlan.limitWithMargin gas p.margin) plan [])
          attempts := p.attempts + 1 + ([] : List Retry).length } = p.attempted := by
        simp only [planAfter, List.foldl_nil, List.length_nil, Nat.add_zero, ← hplan]
        rfl
      rw [hsame]
      cases last with
      | accepted hash => exact ⟨_, Submission.accepted hash hplan hcurrent, rfl⟩
      | refused e => exact ⟨_, Submission.ended e hplan hcurrent fun h => (hends h).symm, rfl⟩
      | unpriced e failures cause =>
          rcases hends with ⟨hretry, hlt, hpassing, hending⟩
          cases left with
          | zero => cases hlt
          | succ left =>
              have hestimate' : p.attempted.estimate = some gas := hestimate
              have hpricing := (pricing_error_iff hestimate').mpr
                ⟨cause, failures, hpassing, hending, rfl, rfl⟩
              refine ⟨_, Submission.unpriced e hplan hcurrent hretry hpricing, ?_⟩
              rw [exchanges_cons, exchanges_cons, exchanges_map_mk]
              rfl
  | cons r retries ih =>
      cases left with
      | zero => exact absurd h.length_le (Nat.not_succ_le_zero _)
      | succ left =>
          rcases resends_cons_iff.mp h with ⟨⟨hretry, hpassing⟩, rest, rfl, hrest⟩
          have hestimate' : p.attempted.estimate = some gas := hestimate
          have hpricing := (pricing_ok_iff hestimate').mpr
            ⟨r.price, r.failures, hpassing, rfl, rfl⟩
          have hbelongs :
              (GasPlan.forCall p.call r.price (GasPlan.limitWithMargin gas p.margin)).belongsTo
                p.call = true := decide_eq_true rfl
          rcases ih hrest hestimate rfl hbelongs with ⟨moments, hsubmission, rfl⟩
          refine ⟨_, Submission.repeated r.failure hplan hcurrent hretry hpricing hsubmission, ?_⟩
          rw [exchanges_cons, exchanges_cons, exchanges_append, exchanges_map_mk]
          rfl

end

/-! ## Submissions of a priced pipeline -/

theorem yields_submit_iff {p q : Pipeline} {history : List Exchange} {result : Except Error Hash}
    (hstate : p.state = .priced) :
    Yields (submit p) history (result, q) ↔
      ∃ moments, Submission (p.config.maxRetries.toNat - p.attempts) p moments q result ∧
        exchanges moments = history := by
  have hmove : Move.submit p = Move.sendFrom (p.config.maxRetries.toNat - p.attempts) p :=
    Move.only_of_mem (by simp [hstate])
  constructor
  · intro h
    rcases Course.exists_unfolds_of_yields h with ⟨moments, hunfolds, hhistory⟩
    exact ⟨moments, submission_of_submit hstate hunfolds, hhistory⟩
  · rintro ⟨moments, hsubmission, rfl⟩
    have hunfolds := unfolds_of_submission hsubmission
    rw [← hmove] at hunfolds
    exact Course.yields_of_unfolds hunfolds

/-- A priced pipeline sends for the gas that the node has estimated, first with the plan that it
holds.  It submits in exactly those ways in which some retries, as many as are configured at most,
lead to a last send.  It counts its sends, and the count does not overflow. -/
theorem submit_resends_exactly {call : Call} {config : Config} {ops : List Operation}
    {past : List Exchange} {p : Pipeline}
    (hreached : Yields (steps ops (new call config)) past ((), p)) (hstate : p.state = .priced)
    (hretries : config.maxRetries.toNat < UInt32.size - 1) :
    ∃ gas plan, (⟨.ask (.estimateGas call), .ok gas⟩ : Exchange) ∈ past ∧
      p.call = call ∧ p.config = config ∧ p.attempts = 0 ∧
      p.plan = some plan ∧ plan.belongsTo call = true ∧
      (forall history q result, Yields (submit p) history (result, q) ↔
        ∃ retries last, Resends p (GasPlan.limitWithMargin gas (new call config).margin)
          config.maxRetries.toNat plan retries last history q result) ∧
      (forall history q result, Yields (submit p) history (result, q) ->
        q.attempts = history.countP isAttempt ∧ q.attempts < UInt32.size) := by
  have hp := atRest_of_yields hreached
  have hattempts := hp.unattempted (Or.inr (Or.inr hstate))
  rcases Option.ne_none_iff_exists'.mp (hp.estimated (Or.inr (Or.inl hstate))) with ⟨gas, hgas⟩
  rcases Option.ne_none_iff_exists'.mp (hp.planned (Or.inl hstate)) with ⟨plan, hplan⟩
  have hcurrent := hp.plan_current plan hplan
  have hmargin : p.margin = (new call config).margin := by
    unfold margin
    rw [hp.call_eq, hp.config_eq]
    rfl
  have hleft : p.config.maxRetries.toNat - p.attempts = config.maxRetries.toNat := by
    rw [hattempts, hp.config_eq, Nat.sub_zero]
  have hbelongs : plan.belongsTo p.call = true := by
    rw [hp.call_eq]
    exact hcurrent
  refine ⟨gas, plan, hp.estimate_seen gas hgas, hp.call_eq, hp.config_eq, hattempts, hplan,
    hcurrent, ?_, ?_⟩
  · intro history q result
    rw [yields_submit_iff hstate, hleft, ← hmargin]
    constructor
    · rintro ⟨moments, hsubmission, rfl⟩
      exact resends_of_submission hsubmission hgas hplan hbelongs
    · rintro ⟨retries, last, hresends⟩
      exact submission_of_resends hresends hgas hplan hbelongs
  · intro history q result h
    rcases (yields_submit_iff hstate).mp h with ⟨moments, hsubmission, rfl⟩
    rw [hleft] at hsubmission
    have htally := tally_of_submission hsubmission
    have hcounted := htally.counted
    have hsends := htally.attempts_le
    rw [hattempts, Nat.zero_add] at hcounted
    constructor
    · exact hcounted
    · omega

/-! ## A node that is busy at times -/

def busy : RpcError :=
  .timeout "busy"

/-- A node that answers neither the first send nor the first question for a price after it.  Its
state counts the requests. -/
def wavering : World Nat where
  answer action asked :=
    (Answers.reply
        ⟨if asked = 3 then .error busy else .ok (if asked < 3 then 1 else 7),
          if asked = 2 then .error busy else .ok Hash.zero, .ok none⟩
        0 action,
      match action with
      | .ask _ => asked + 1
      | _ => asked)

def onceAgain : Config :=
  { Config.default with maxRetries := 1 }

/-- The second send carries the new price, and it is the last one that is allowed. -/
theorem submit_resends_exactly_wavering :
    let p := ((steps [.estimate, .price] (new creation onceAgain)).run wavering 0).1.2
    p.state = .priced ∧ onceAgain.maxRetries.toNat < UInt32.size - 1 ∧
      ∃ gas plan q, p.plan = some plan ∧
        Yields (submit p)
          (sendsFrom onceAgain creation (GasPlan.limitWithMargin gas 10) (.accepted Hash.zero) 1 plan
            [⟨busy, [busy], 7⟩])
          (.ok Hash.zero, q) ∧
        q.state = .submitted ∧ q.hash = some Hash.zero ∧ q.attempts = 2 := by
  intro p
  have hstate : p.state = .priced := by decide +kernel
  have hretries : onceAgain.maxRetries.toNat < UInt32.size - 1 := by decide
  have hreached : Yields (steps [.estimate, .price] (new creation onceAgain)) _ ((), p) :=
    yields_trace wavering (steps [.estimate, .price] (new creation onceAgain)) 0
  clear_value p
  rcases submit_resends_exactly hreached hstate hretries with
    ⟨gas, plan, _, hcall, hconfig, hattempts, hplan, _, hiff, _⟩
  have hallowed : forall r, r ∈ [(⟨busy, [busy], 7⟩ : Retry)] ->
      r.Allowed p.config.maxRetries.toNat := by
    rw [List.forall_mem_singleton, hconfig]
    exact ⟨rfl, Nat.le_refl 1, List.forall_mem_singleton.mpr rfl⟩
  have hyields := (hiff _ _ _).mpr
    ⟨[⟨busy, [busy], 7⟩], .accepted Hash.zero, Nat.le_refl 1, hallowed, trivial, rfl, rfl, rfl⟩
  rw [hconfig, hcall, hattempts] at hyields
  exact ⟨hstate, hretries, gas, plan, _, hplan, hyields, rfl, rfl, rfl⟩

end Pipeline
end KeyRegistry
