import KeyRegistry.Pipeline.Steps
import KeyRegistry.Proofs.Pipeline.Course

/-!
# What a move can do

The loops of a pipeline ask for a gas price, send a transaction and wait for a
receipt.  Each of them is described by an inductive relation with one
constructor for each way in which a round can go, and every unfolding of a move
is of such a form.
-/

namespace KeyRegistry
namespace Pipeline

open Program

/-! ## Prices -/

inductive Quotation (config : Config) :
    Nat -> Nat -> List Exchange -> Except RpcError (BitVec 128) -> Prop where
  | quoted {left attempt : Nat} (price : BitVec 128) :
      Quotation config left attempt [⟨.ask .gasPrice, .ok price⟩] (.ok price)
  | ended {left attempt : Nat} (e : RpcError) :
      (e.isRetryable = true -> left = 0) ->
      Quotation config left attempt [⟨.ask .gasPrice, .error e⟩] (.error e)
  | repeated {left attempt : Nat} {history : List Exchange}
      {answer : Except RpcError (BitVec 128)} (e : RpcError) :
      e.isRetryable = true ->
      Quotation config left (attempt + 1) history answer ->
      Quotation config (left + 1) attempt
        (⟨.ask .gasPrice, .error e⟩ :: ⟨.sleep (config.backoff attempt), ()⟩ :: history) answer

theorem askPrice_eq (config : Config) (left attempt : Nat) :
    askPrice config left attempt =
      .perform (.ask .gasPrice) fun
        | .ok price => .done (.ok price)
        | .error e =>
            if e.isRetryable then
              match left with
              | 0 => .done (.error e)
              | left + 1 =>
                  .perform (.sleep (config.backoff attempt)) fun _ =>
                    askPrice config left (attempt + 1)
            else
              .done (.error e) := by
  cases left with
  | zero =>
      rw [askPrice]
      rfl
  | succ left =>
      rw [askPrice]
      rfl

theorem quotation_of_yields {config : Config} {left attempt : Nat} {history : List Exchange}
    {answer : Except RpcError (BitVec 128)}
    (h : Yields (askPrice config left attempt) history answer) :
    Quotation config left attempt history answer := by
  induction left using Nat.strongRecOn generalizing attempt history with
  | ind left ih =>
      rw [askPrice_eq] at h
      rcases yields_perform_iff.mp h with ⟨reply, rest, rfl, hrest⟩
      cases reply with
      | ok price =>
          rcases yields_done_iff.mp hrest with ⟨rfl, rfl⟩
          exact Quotation.quoted price
      | error e =>
          by_cases hretry : e.isRetryable = true
          · simp only [hretry, if_true] at hrest
            cases left with
            | zero =>
                rcases yields_done_iff.mp hrest with ⟨rfl, rfl⟩
                exact Quotation.ended e fun _ => rfl
            | succ left =>
                rcases yields_perform_iff.mp hrest with ⟨_, tail, rfl, htail⟩
                exact Quotation.repeated e hretry (ih left (Nat.lt_succ_self left) htail)
          · simp only [hretry] at hrest
            rcases yields_done_iff.mp hrest with ⟨rfl, rfl⟩
            exact Quotation.ended e fun htrue => absurd htrue hretry

def planFor (p : Pipeline) (estimate : UInt64) (price : BitVec 128) : GasPlan :=
  GasPlan.forCall p.call price (GasPlan.limitWithMargin estimate p.margin)

inductive Pricing (p : Pipeline) : List Exchange -> Except Error GasPlan -> Prop where
  | unestimated :
      p.estimate = none ->
      Pricing p [] (.error (.invalidTransition p.state .pricing))
  | priced {estimate : UInt64} {history : List Exchange} {price : BitVec 128} :
      p.estimate = some estimate ->
      Quotation p.config p.config.maxRetries.toNat 1 history (.ok price) ->
      Pricing p history (.ok (p.planFor estimate price))
  | unpriced {estimate : UInt64} {history : List Exchange} {e : RpcError} :
      p.estimate = some estimate ->
      Quotation p.config p.config.maxRetries.toNat 1 history (.error e) ->
      Pricing p history (.error (.pricingFailed e))

theorem pricing_of_yields {p : Pipeline} {history : List Exchange}
    {answer : Except Error GasPlan} (h : Yields (freshPlan p) history answer) :
    Pricing p history answer := by
  unfold freshPlan at h
  cases hestimate : p.estimate with
  | none =>
      rw [hestimate] at h
      rcases yields_done_iff.mp h with ⟨rfl, rfl⟩
      exact Pricing.unestimated hestimate
  | some estimate =>
      rw [hestimate] at h
      rcases yields_bind_iff.mp h with ⟨first, result, rest, hfirst, hrest, rfl⟩
      have hquotation := quotation_of_yields hfirst
      cases result with
      | ok price =>
          rcases yields_done_iff.mp hrest with ⟨rfl, rfl⟩
          rw [List.append_nil]
          exact Pricing.priced hestimate hquotation
      | error e =>
          rcases yields_done_iff.mp hrest with ⟨rfl, rfl⟩
          rw [List.append_nil]
          exact Pricing.unpriced hestimate hquotation

/-! ## Sends -/

inductive Submission :
    Nat -> Pipeline -> List Moment -> Pipeline -> Except Error Hash -> Prop where
  | stale {left : Nat} {p : Pipeline} :
      (forall plan, p.plan = some plan -> plan.belongsTo p.call = false) ->
      Submission left p [] p.failed (.error .stalePlan)
  | accepted {left : Nat} {p : Pipeline} {plan : GasPlan} (hash : Hash) :
      p.plan = some plan -> plan.belongsTo p.call = true ->
      Submission left p [⟨p.attempted, ⟨.ask (.send p.call plan), .ok hash⟩⟩]
        (p.attempted.submitted hash) (.ok hash)
  | ended {left : Nat} {p : Pipeline} {plan : GasPlan} (e : RpcError) :
      p.plan = some plan -> plan.belongsTo p.call = true ->
      (e.isRetryable = true -> left = 0) ->
      Submission left p [⟨p.attempted, ⟨.ask (.send p.call plan), .error e⟩⟩]
        p.attempted.failed (.error (.submissionFailed p.attempted.attempts e))
  | unpriced {left : Nat} {p : Pipeline} {plan : GasPlan} {quotes : List Exchange}
      {cause : Error} (e : RpcError) :
      p.plan = some plan -> plan.belongsTo p.call = true -> e.isRetryable = true ->
      Pricing p.attempted quotes (.error cause) ->
      Submission (left + 1) p
        (⟨p.attempted, ⟨.ask (.send p.call plan), .error e⟩⟩ ::
          ⟨p.attempted, ⟨.sleep (p.config.backoff p.attempted.attempts), ()⟩⟩ ::
          quotes.map (Moment.mk p.attempted))
        p.attempted.failed (.error cause)
  | repeated {left : Nat} {p q : Pipeline} {plan fresh : GasPlan} {quotes : List Exchange}
      {moments : List Moment} {result : Except Error Hash} (e : RpcError) :
      p.plan = some plan -> plan.belongsTo p.call = true -> e.isRetryable = true ->
      Pricing p.attempted quotes (.ok fresh) ->
      Submission left { p.attempted with plan := some fresh } moments q result ->
      Submission (left + 1) p
        (⟨p.attempted, ⟨.ask (.send p.call plan), .error e⟩⟩ ::
          ⟨p.attempted, ⟨.sleep (p.config.backoff p.attempted.attempts), ()⟩⟩ ::
          (quotes.map (Moment.mk p.attempted) ++ moments))
        q result

theorem sendFrom_of_stale {left : Nat} {p : Pipeline}
    (h : forall plan, p.plan = some plan -> plan.belongsTo p.call = false) :
    Move.sendFrom left p = .done p.failed (.error .stalePlan) := by
  have hfilter : p.plan.filter (fun plan => plan.belongsTo p.call) = none := by
    rw [Option.filter_eq_none_iff]
    intro plan hplan
    rw [h plan hplan]
    exact Bool.false_ne_true
  cases left with
  | zero =>
      rewrite [Move.sendFrom, hfilter]
      rfl
  | succ left =>
      rewrite [Move.sendFrom, hfilter]
      rfl

theorem sendFrom_of_current {left : Nat} {p : Pipeline} {plan : GasPlan}
    (hplan : p.plan = some plan) (hcurrent : plan.belongsTo p.call = true) :
    Move.sendFrom left p =
      .perform p.attempted (.ask (.send p.call plan)) fun
        | .ok hash =>
            .done (p.attempted.submitted hash) (.ok hash)
        | .error e =>
            if e.isRetryable then
              match left with
              | 0 => Move.fail (.submissionFailed p.attempted.attempts e) p.attempted
              | left + 1 =>
                  .perform p.attempted (.sleep (p.config.backoff p.attempted.attempts)) fun _ =>
                    (Course.during p.attempted (freshPlan p.attempted)).bind fun q answer =>
                      match answer with
                      | .ok fresh => Move.sendFrom left { q with plan := some fresh }
                      | .error cause => Move.fail cause q
            else
              Move.fail (.submissionFailed p.attempted.attempts e) p.attempted := by
  have hfilter : p.plan.filter (fun plan => plan.belongsTo p.call) = some plan := by
    rw [Option.filter_eq_some_iff]
    exact ⟨hplan, hcurrent⟩
  cases left with
  | zero =>
      rewrite [Move.sendFrom, hfilter]
      rfl
  | succ left =>
      rewrite [Move.sendFrom, hfilter]
      rfl

theorem submission_of_unfolds {left : Nat} {p q : Pipeline} {moments : List Moment}
    {result : Except Error Hash}
    (h : Course.Unfolds (Move.sendFrom left p) moments q result) :
    Submission left p moments q result := by
  induction left using Nat.strongRecOn generalizing p moments with
  | ind left ih =>
      by_cases hstale : forall plan, p.plan = some plan -> plan.belongsTo p.call = false
      · rw [sendFrom_of_stale hstale] at h
        rcases Course.unfolds_done_iff.mp h with ⟨rfl, rfl, rfl⟩
        exact Submission.stale hstale
      · rcases Classical.not_forall.mp hstale with ⟨plan, hboth⟩
        rcases Classical.not_imp.mp hboth with ⟨hplan, hbelongs⟩
        have hcurrent : plan.belongsTo p.call = true := by
          simpa using hbelongs
        rw [sendFrom_of_current hplan hcurrent] at h
        rcases Course.unfolds_perform_iff.mp h with ⟨reply, rest, rfl, hrest⟩
        cases reply with
        | ok hash =>
            rcases Course.unfolds_done_iff.mp hrest with ⟨rfl, rfl, rfl⟩
            exact Submission.accepted hash hplan hcurrent
        | error e =>
            by_cases hretry : e.isRetryable = true
            · simp only [hretry, if_true] at hrest
              cases left with
              | zero =>
                  rcases Course.unfolds_done_iff.mp hrest with ⟨rfl, rfl, rfl⟩
                  exact Submission.ended e hplan hcurrent fun _ => rfl
              | succ left =>
                  rcases Course.unfolds_perform_iff.mp hrest with ⟨_, tail, rfl, htail⟩
                  rcases Course.unfolds_bind_iff.mp htail with
                    ⟨first, p', answer, last, hfirst, hlast, rfl⟩
                  rcases Course.unfolds_during_iff.mp hfirst with ⟨quotes, hquotes, rfl, rfl⟩
                  have hpricing := pricing_of_yields hquotes
                  cases answer with
                  | ok fresh =>
                      exact Submission.repeated e hplan hcurrent hretry hpricing
                        (ih left (Nat.lt_succ_self left) hlast)
                  | error cause =>
                      rcases Course.unfolds_done_iff.mp hlast with ⟨rfl, rfl, rfl⟩
                      rw [List.append_nil]
                      exact Submission.unpriced e hplan hcurrent hretry hpricing
            · simp only [hretry] at hrest
              rcases Course.unfolds_done_iff.mp hrest with ⟨rfl, rfl, rfl⟩
              exact Submission.ended e hplan hcurrent fun htrue => absurd htrue hretry

/-! ## Receipts -/

def Pending : Except RpcError (Option Receipt) -> Prop
  | .ok receipt => receipt = none
  | .error e => e.isRetryable = true

inductive Wait (hash : Hash) (started : Nat) :
    Nat -> Pipeline -> List Moment -> Pipeline -> Except Error Receipt -> Prop where
  | found {left : Nat} {p : Pipeline} (receipt : Receipt) :
      Wait hash started left p [⟨p, ⟨.ask (.receipt hash), .ok (some receipt)⟩⟩]
        p.confirmed (.ok receipt)
  | ended {left : Nat} {p : Pipeline} (e : RpcError) :
      e.isRetryable = false ->
      Wait hash started left p [⟨p, ⟨.ask (.receipt hash), .error e⟩⟩]
        p.failed (.error (.confirmationFailed hash e))
  | expired {left : Nat} {p : Pipeline} {answer : Except RpcError (Option Receipt)} (now : Nat) :
      Pending answer ->
      (started + p.config.receiptTimeout.nanos ≤ now ∨ left = 0) ->
      Wait hash started left p
        [⟨p, ⟨.ask (.receipt hash), answer⟩⟩, ⟨p, ⟨.clock, now⟩⟩]
        p.failed (.error (.receiptTimeout hash (Duration.ofNanos (now - started))))
  | repeated {left : Nat} {p q : Pipeline} {answer : Except RpcError (Option Receipt)}
      {moments : List Moment} {result : Except Error Receipt} (now : Nat) :
      Pending answer ->
      now < started + p.config.receiptTimeout.nanos ->
      Wait hash started left p moments q result ->
      Wait hash started (left + 1) p
        (⟨p, ⟨.ask (.receipt hash), answer⟩⟩ :: ⟨p, ⟨.clock, now⟩⟩ ::
          ⟨p, ⟨.sleep (min p.config.receiptPollInterval
            (Duration.ofNanos (started + p.config.receiptTimeout.nanos - now))), ()⟩⟩ ::
          moments)
        q result

def recheck (hash : Hash) (started left : Nat) (p : Pipeline) : Course (Except Error Receipt) :=
  .perform p .clock fun now =>
    if started + p.config.receiptTimeout.nanos ≤ now then
      Move.fail (.receiptTimeout hash (Duration.ofNanos (now - started))) p
    else
      match left with
      | 0 => Move.fail (.receiptTimeout hash (Duration.ofNanos (now - started))) p
      | left + 1 =>
          .perform p
            (.sleep (min p.config.receiptPollInterval
              (Duration.ofNanos (started + p.config.receiptTimeout.nanos - now))))
            fun _ => Move.awaitReceipt hash started left p

theorem awaitReceipt_eq (hash : Hash) (started left : Nat) (p : Pipeline) :
    Move.awaitReceipt hash started left p =
      .perform p (.ask (.receipt hash)) fun
        | .ok (some receipt) => .done p.confirmed (.ok receipt)
        | .ok none => recheck hash started left p
        | .error e =>
            if e.isRetryable then
              recheck hash started left p
            else
              Move.fail (.confirmationFailed hash e) p := by
  cases left with
  | zero =>
      rw [Move.awaitReceipt]
      rfl
  | succ left =>
      rw [Move.awaitReceipt]
      rfl

theorem wait_of_recheck {hash : Hash} {started left : Nat} {p q : Pipeline}
    {moments : List Moment} {result : Except Error Receipt}
    (answer : Except RpcError (Option Receipt)) (hpending : Pending answer)
    (ih : forall m, m < left -> forall rest,
      Course.Unfolds (Move.awaitReceipt hash started m p) rest q result ->
      Wait hash started m p rest q result)
    (h : Course.Unfolds (recheck hash started left p) moments q result) :
    Wait hash started left p (⟨p, ⟨.ask (.receipt hash), answer⟩⟩ :: moments) q result := by
  rcases Course.unfolds_perform_iff.mp h with ⟨now, rest, rfl, hrest⟩
  by_cases hdeadline : started + p.config.receiptTimeout.nanos ≤ now
  · simp only [hdeadline, if_true] at hrest
    rcases Course.unfolds_done_iff.mp hrest with ⟨rfl, rfl, rfl⟩
    exact Wait.expired now hpending (Or.inl hdeadline)
  · simp only [hdeadline, if_false] at hrest
    cases left with
    | zero =>
        rcases Course.unfolds_done_iff.mp hrest with ⟨rfl, rfl, rfl⟩
        exact Wait.expired now hpending (Or.inr rfl)
    | succ left =>
        rcases Course.unfolds_perform_iff.mp hrest with ⟨_, tail, rfl, htail⟩
        exact Wait.repeated now hpending (Nat.lt_of_not_le hdeadline)
          (ih left (Nat.lt_succ_self left) tail htail)

theorem wait_of_unfolds {hash : Hash} {started left : Nat} {p q : Pipeline}
    {moments : List Moment} {result : Except Error Receipt}
    (h : Course.Unfolds (Move.awaitReceipt hash started left p) moments q result) :
    Wait hash started left p moments q result := by
  induction left using Nat.strongRecOn generalizing moments with
  | ind left ih =>
      rw [awaitReceipt_eq] at h
      rcases Course.unfolds_perform_iff.mp h with ⟨reply, rest, rfl, hrest⟩
      have ih' : forall m, m < left -> forall rest,
          Course.Unfolds (Move.awaitReceipt hash started m p) rest q result ->
          Wait hash started m p rest q result :=
        fun m hlt rest hunfolds => ih m hlt hunfolds
      cases reply with
      | ok found =>
          cases found with
          | none => exact wait_of_recheck (.ok none) rfl ih' hrest
          | some receipt =>
              rcases Course.unfolds_done_iff.mp hrest with ⟨rfl, rfl, rfl⟩
              exact Wait.found receipt
      | error e =>
          by_cases hretry : e.isRetryable = true
          · simp only [hretry, if_true] at hrest
            exact wait_of_recheck (.error e) hretry ih' hrest
          · simp only [hretry] at hrest
            rcases Course.unfolds_done_iff.mp hrest with ⟨rfl, rfl, rfl⟩
            exact Wait.ended e (Bool.eq_false_iff.mpr hretry)

def settled (p : Pipeline) : Except Error Receipt -> Pipeline
  | .ok _ => p.confirmed
  | .error _ => p.failed

theorem settled_of_wait {hash : Hash} {started left : Nat} {p q : Pipeline}
    {moments : List Moment} {result : Except Error Receipt}
    (h : Wait hash started left p moments q result) :
    moments = (exchanges moments).map (Moment.mk p) ∧ q = p.settled result := by
  induction h with
  | found receipt => exact ⟨rfl, rfl⟩
  | ended e _ => exact ⟨rfl, rfl⟩
  | expired now _ _ => exact ⟨rfl, rfl⟩
  | repeated now _ _ _ ih =>
      constructor
      · simpa using ih.1
      · exact ih.2

/-! ## Moves -/

namespace Move

theorem only_of_mem {α : Type} {allowed : List State} {action : Stage} {move : Move α}
    {p : Pipeline} (h : p.state ∈ allowed) : only allowed action move p = move p :=
  if_pos h

theorem only_of_not_mem {α : Type} {allowed : List State} {action : Stage} {move : Move α}
    {p : Pipeline} (h : p.state ∉ allowed) :
    only allowed action move p = .done p (.error (.invalidTransition p.state action)) :=
  if_neg h

theorem unfolds_andThen {α β : Type} {move : Move α} {next : α -> Move β} {p q : Pipeline}
    {moments : List Moment} {result : Except Error β}
    (h : (andThen move next p).Unfolds moments q result) :
    (∃ first p' a rest, (move p).Unfolds first p' (.ok a) ∧
        (next a p').Unfolds rest q result ∧ moments = first ++ rest) ∨
      ∃ e, (move p).Unfolds moments q (.error e) ∧ result = .error e := by
  rcases Course.unfolds_bind_iff.mp h with ⟨first, p', answer, rest, hfirst, hrest, rfl⟩
  cases answer with
  | ok a => exact Or.inl ⟨first, p', a, rest, hfirst, hrest, rfl⟩
  | error e =>
      rcases Course.unfolds_done_iff.mp hrest with ⟨rfl, rfl, rfl⟩
      rw [List.append_nil]
      exact Or.inr ⟨e, hfirst, rfl⟩

end Move

inductive Estimation (p : Pipeline) :
    List Moment -> Pipeline -> Except Error UInt64 -> Prop where
  | estimated (gas : UInt64) :
      Estimation p [⟨p, ⟨.ask (.estimateGas p.call), .ok gas⟩⟩]
        (p.estimated gas) (.ok gas)
  | ended (e : RpcError) :
      Estimation p [⟨p, ⟨.ask (.estimateGas p.call), .error e⟩⟩] p.failed
        (.error (.estimationFailed e))

theorem estimation_of_unfolds {p q : Pipeline} {moments : List Moment}
    {result : Except Error UInt64} (hstate : p.state = .built)
    (h : (Move.estimateGas p).Unfolds moments q result) :
    Estimation p moments q result := by
  rw [Move.estimateGas, Move.only_of_mem (by simp [hstate])] at h
  rcases Course.unfolds_perform_iff.mp h with ⟨reply, rest, rfl, hrest⟩
  cases reply with
  | ok gas =>
      rcases Course.unfolds_done_iff.mp hrest with ⟨rfl, rfl, rfl⟩
      exact Estimation.estimated gas
  | error e =>
      rcases Course.unfolds_done_iff.mp hrest with ⟨rfl, rfl, rfl⟩
      exact Estimation.ended e

inductive Planning (p : Pipeline) :
    List Moment -> Pipeline -> Except Error GasPlan -> Prop where
  | priced {quotes : List Exchange} {plan : GasPlan} :
      Pricing p quotes (.ok plan) ->
      Planning p (quotes.map (Moment.mk p)) (p.planned plan)
        (.ok plan)
  | ended {quotes : List Exchange} {cause : Error} :
      Pricing p quotes (.error cause) ->
      Planning p (quotes.map (Moment.mk p)) p.failed (.error cause)

theorem planning_of_unfolds {p q : Pipeline} {moments : List Moment}
    {result : Except Error GasPlan} (hstate : p.state = .gasEstimated)
    (h : (Move.price p).Unfolds moments q result) :
    Planning p moments q result := by
  rw [Move.price, Move.only_of_mem (by simp [hstate])] at h
  rcases Course.unfolds_bind_iff.mp h with ⟨first, p', answer, rest, hfirst, hrest, rfl⟩
  rcases Course.unfolds_during_iff.mp hfirst with ⟨quotes, hquotes, rfl, rfl⟩
  have hpricing := pricing_of_yields hquotes
  cases answer with
  | ok plan =>
      rcases Course.unfolds_done_iff.mp hrest with ⟨rfl, rfl, rfl⟩
      rw [List.append_nil]
      exact Planning.priced hpricing
  | error cause =>
      rcases Course.unfolds_done_iff.mp hrest with ⟨rfl, rfl, rfl⟩
      rw [List.append_nil]
      exact Planning.ended hpricing

theorem usePlan_of_current {plan : GasPlan} {p : Pipeline}
    (hallowed : p.state ∈ [State.gasEstimated, State.priced])
    (hcurrent : plan.belongsTo p.call = true) :
    Move.usePlan plan p = .done (p.planned plan) (.ok ()) := by
  rw [Move.usePlan, Move.only_of_mem hallowed]
  exact if_pos hcurrent

theorem usePlan_of_stale {plan : GasPlan} {p : Pipeline}
    (hallowed : p.state ∈ [State.gasEstimated, State.priced])
    (hstale : plan.belongsTo p.call = false) :
    Move.usePlan plan p = .done p (.error .stalePlan) := by
  rw [Move.usePlan, Move.only_of_mem hallowed]
  exact if_neg (by rw [hstale]; exact Bool.false_ne_true)

theorem submission_of_submit {p q : Pipeline} {moments : List Moment}
    {result : Except Error Hash} (hstate : p.state = .priced)
    (h : (Move.submit p).Unfolds moments q result) :
    Submission (p.config.maxRetries.toNat - p.attempts) p moments q result := by
  rw [Move.submit, Move.only_of_mem (by simp [hstate])] at h
  exact submission_of_unfolds h

inductive Confirmation (p : Pipeline) :
    List Moment -> Pipeline -> Except Error Receipt -> Prop where
  | unsent :
      p.hash = none ->
      Confirmation p [] p (.error (.invalidTransition p.state .confirmation))
  | waited {hash : Hash} {q : Pipeline} {moments : List Moment}
      {result : Except Error Receipt} (started : Nat) :
      p.hash = some hash ->
      Wait hash started p.config.pollLimit p moments q result ->
      Confirmation p (⟨p, ⟨.clock, started⟩⟩ :: moments) q result

theorem confirmation_of_unfolds {p q : Pipeline} {moments : List Moment}
    {result : Except Error Receipt} (hstate : p.state = .submitted)
    (h : (Move.confirm p).Unfolds moments q result) :
    Confirmation p moments q result := by
  rw [Move.confirm, Move.only_of_mem (by simp [hstate])] at h
  cases hhash : p.hash with
  | none =>
      simp only [hhash] at h
      rcases Course.unfolds_done_iff.mp h with ⟨rfl, rfl, rfl⟩
      exact Confirmation.unsent hhash
  | some hash =>
      simp only [hhash] at h
      rcases Course.unfolds_perform_iff.mp h with ⟨started, rest, rfl, hrest⟩
      exact Confirmation.waited started hhash (wait_of_unfolds hrest)

inductive Reading (p : Pipeline) :
    List Moment -> Pipeline -> Except Error Outcome -> Prop where
  | answered (value : Bytes) :
      Reading p [⟨p, ⟨.ask (.execute p.call), .ok value⟩⟩] p.confirmed
        (.ok (.callResult value))
  | ended (e : RpcError) :
      Reading p [⟨p, ⟨.ask (.execute p.call), .error e⟩⟩] p.failed (.error (.callFailed e))

theorem reading_of_unfolds {p q : Pipeline} {moments : List Moment}
    {result : Except Error Outcome} (hstate : p.state = .built)
    (h : (Move.query p).Unfolds moments q result) :
    Reading p moments q result := by
  rw [Move.query, Move.only_of_mem (by simp [hstate])] at h
  rcases Course.unfolds_perform_iff.mp h with ⟨reply, rest, rfl, hrest⟩
  cases reply with
  | ok value =>
      rcases Course.unfolds_done_iff.mp hrest with ⟨rfl, rfl, rfl⟩
      exact Reading.answered value
  | error e =>
      rcases Course.unfolds_done_iff.mp hrest with ⟨rfl, rfl, rfl⟩
      exact Reading.ended e

inductive Conclusion (receipt : Receipt) (p : Pipeline) :
    Pipeline -> Except Error Outcome -> Prop where
  | deployed {address : Address} :
      p.call.isDeploy = true -> receipt.succeeded = true ->
      receipt.contractAddress = some address -> address.isZero = false ->
      Conclusion receipt p p (.ok (.deployed address receipt))
  | unaddressed :
      p.call.isDeploy = true -> receipt.succeeded = true ->
      (forall address, receipt.contractAddress = some address -> address.isZero = true) ->
      Conclusion receipt p p.failed (.error (.missingContractAddress receipt.transactionHash))
  | sent :
      (p.call.isDeploy && receipt.succeeded) = false ->
      Conclusion receipt p p (.ok (.sent receipt receipt.succeeded))

theorem conclusion_of_unfolds {receipt : Receipt} {p q : Pipeline} {moments : List Moment}
    {result : Except Error Outcome} (h : (Move.conclude receipt p).Unfolds moments q result) :
    moments = [] ∧ Conclusion receipt p q result := by
  unfold Move.conclude at h
  cases hcreated : p.call.isDeploy && receipt.succeeded with
  | false =>
      simp only [hcreated] at h
      rcases Course.unfolds_done_iff.mp h with ⟨rfl, rfl, rfl⟩
      exact ⟨rfl, Conclusion.sent hcreated⟩
  | true =>
      rcases Bool.and_eq_true_iff.mp hcreated with ⟨hdeploy, hsucceeded⟩
      simp only [hcreated, if_true] at h
      cases haddress : receipt.contractAddress.filter fun a => !a.isZero with
      | none =>
          rw [haddress] at h
          rcases Course.unfolds_done_iff.mp h with ⟨rfl, rfl, rfl⟩
          refine ⟨rfl, Conclusion.unaddressed hdeploy hsucceeded fun address hsome => ?_⟩
          simpa using Option.filter_eq_none_iff.mp haddress address hsome
      | some address =>
          rw [haddress] at h
          rcases Course.unfolds_done_iff.mp h with ⟨rfl, rfl, rfl⟩
          rcases Option.filter_eq_some_iff.mp haddress with ⟨hsome, hnonzero⟩
          exact ⟨rfl, Conclusion.deployed hdeploy hsucceeded hsome (by simpa using hnonzero)⟩

end Pipeline
end KeyRegistry
