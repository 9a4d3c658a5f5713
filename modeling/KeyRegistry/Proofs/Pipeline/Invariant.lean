import KeyRegistry.Proofs.Pipeline.Run
import KeyRegistry.Proofs.Pipeline.Operations

/-!
# The invariant of a pipeline

The fields of a pipeline depend on each other and on what the node has answered.
The invariant says how.  It holds at every exchange of every operation and after
it, also where the operation fails half-way, and it rules out that a step finds a
field missing which its state promises.
-/

namespace KeyRegistry
namespace Pipeline

open Program

/-! ## The invariant -/

def AcceptedAs (hash : Hash) (past : List Exchange) : Prop :=
  ∃ call plan, (⟨.ask (.send call plan), .ok hash⟩ : Exchange) ∈ past

theorem acceptedAs_append_iff {hash : Hash} {past more : List Exchange} :
    AcceptedAs hash (past ++ more) ↔ AcceptedAs hash past ∨ AcceptedAs hash more := by
  constructor
  · rintro ⟨call, plan, hmem⟩
    rcases List.mem_append.mp hmem with hpast | hmore
    · exact Or.inl ⟨call, plan, hpast⟩
    · exact Or.inr ⟨call, plan, hmore⟩
  · rintro (⟨call, plan, hpast⟩ | ⟨call, plan, hmore⟩)
    · exact ⟨call, plan, List.mem_append_left more hpast⟩
    · exact ⟨call, plan, List.mem_append_right past hmore⟩

theorem not_acceptedAs {hash : Hash} {history : List Exchange}
    (h : forall e, e ∈ history -> ¬ IsAcceptance e) : ¬ AcceptedAs hash history := by
  rintro ⟨call, plan, hmem⟩
  exact h _ hmem ⟨call, plan, hash, rfl⟩

/-- What a pipeline for `call` holds after the exchanges of `past`, within an operation too. -/
structure Sound (call : Call) (config : Config) (past : List Exchange) (p : Pipeline) : Prop where
  call_eq : p.call = call
  config_eq : p.config = config
  estimate_seen : forall gas, p.estimate = some gas ->
    (⟨.ask (.estimateGas call), .ok gas⟩ : Exchange) ∈ past
  estimated : p.state = .gasEstimated ∨ p.state = .priced ∨ p.state = .submitted ->
    p.estimate ≠ none
  plan_current : forall plan, p.plan = some plan -> plan.belongsTo call = true
  planned : p.state = .priced ∨ p.state = .submitted -> p.plan ≠ none
  hash_accepted : forall hash, p.hash = some hash ↔ AcceptedAs hash past
  hashed : p.state = .submitted -> p.hash ≠ none
  unhashed : p.state = .built ∨ p.state = .gasEstimated ∨ p.state = .priced -> p.hash = none
  attempts_le : p.attempts ≤ config.maxRetries.toNat + 1

structure AtRest (call : Call) (config : Config) (past : List Exchange) (p : Pipeline) : Prop
    extends Sound call config past p where
  unattempted : p.state = .built ∨ p.state = .gasEstimated ∨ p.state = .priced -> p.attempts = 0

theorem atRest_new (call : Call) (config : Config) : AtRest call config [] (new call config) where
  call_eq := rfl
  config_eq := rfl
  estimate_seen gas h := by cases h
  estimated h := by simp [new] at h
  plan_current plan h := by cases h
  planned h := by simp [new] at h
  hash_accepted hash := by simp [new, AcceptedAs]
  hashed h := by simp [new] at h
  unhashed _ := rfl
  attempts_le := Nat.zero_le _
  unattempted _ := rfl

section

variable {call : Call} {config : Config} {past more : List Exchange} {p : Pipeline}

theorem Sound.append (h : Sound call config past p)
    (hmore : forall e, e ∈ more -> ¬ IsAcceptance e) : Sound call config (past ++ more) p :=
  { h with
    estimate_seen := fun gas hgas => List.mem_append_left more (h.estimate_seen gas hgas)
    hash_accepted := by
      intro hash
      rw [h.hash_accepted hash, acceptedAs_append_iff]
      simp only [not_acceptedAs hmore, or_false] }

theorem Sound.attempted (h : Sound call config past p)
    (hattempts : p.attempts ≤ config.maxRetries.toNat) : Sound call config past p.attempted :=
  { h with attempts_le := Nat.succ_le_succ hattempts }

theorem Sound.failed (h : Sound call config past p) : AtRest call config past p.failed :=
  { h with
    estimated := by simp [Pipeline.failed]
    planned := by simp [Pipeline.failed]
    hashed := by simp [Pipeline.failed]
    unhashed := by simp [Pipeline.failed]
    unattempted := by simp [Pipeline.failed] }

theorem Sound.confirmed (h : Sound call config past p) : AtRest call config past p.confirmed :=
  { h with
    estimated := by simp [Pipeline.confirmed]
    planned := by simp [Pipeline.confirmed]
    hashed := by simp [Pipeline.confirmed]
    unhashed := by simp [Pipeline.confirmed]
    unattempted := by simp [Pipeline.confirmed] }

end

/-! ## Every operation keeps it -/

def SoundAt (call : Call) (config : Config) (past : List Exchange) (m : Moment) : Prop :=
  Sound call config past m.pipeline

abbrev Maintains {α : Type} (call : Call) (config : Config) (move : Move α) : Prop :=
  Preserves (SoundAt call config) (AtRest call config) move

section

variable {call : Call} {config : Config} {past : List Exchange} {p q : Pipeline}

/-- While a pipeline waits for exchanges of which none accepts a transaction, it stays sound. -/
theorem throughout_quiet {history : List Exchange} (hp : Sound call config past p)
    (hquiet : forall e, e ∈ history -> ¬ IsAcceptance e) :
    Throughout (SoundAt call config) past (history.map (Moment.mk p)) := by
  induction history generalizing past with
  | nil => trivial
  | cons e history ih =>
      rw [List.forall_mem_cons] at hquiet
      constructor
      · exact hp
      · apply ih (hp.append _) hquiet.2
        rw [List.forall_mem_singleton]
        exact hquiet.1

theorem quiet_of_no_send {history : List Exchange}
    (h : forall e, e ∈ history -> ¬ IsSend e) : forall e, e ∈ history -> ¬ IsAcceptance e :=
  fun e he haccept => h e he haccept.isSend

theorem quiet_of_pricing {history : List Exchange} {answer : Except Error GasPlan}
    (h : Pricing p history answer) : forall e, e ∈ history -> ¬ IsAcceptance e :=
  quiet_of_no_send (pricing_no_send h)

theorem current_of_pricing {history : List Exchange} {plan : GasPlan}
    (h : Pricing p history (.ok plan)) : plan.belongsTo p.call = true := by
  cases h
  exact decide_eq_true rfl

theorem maintains_estimateGas : Maintains call config Move.estimateGas := by
  apply preserves_of_allowed .estimate
  intro past p moments q result hallowed hp hunfolds
  have hstate : p.state = .built := by simpa [Operation.allowed] using hallowed
  cases estimation_of_unfolds hstate hunfolds with
  | estimated gas =>
      have hsame : Sound call config (past ++ [⟨.ask (.estimateGas p.call), .ok gas⟩]) p :=
        hp.append (by simp [IsAcceptance])
      constructor
      · exact ⟨hp.toSound, trivial⟩
      · exact { hsame with
          estimate_seen := by
            intro gas' hgas
            cases hgas
            rw [hp.call_eq]
            simp
          estimated := fun _ => Option.some_ne_none gas
          planned := by simp [Pipeline.estimated]
          hashed := by simp [Pipeline.estimated]
          unhashed := fun _ => hp.unhashed (Or.inl hstate)
          unattempted := fun _ => hp.unattempted (Or.inl hstate) }
  | ended e =>
      constructor
      · exact ⟨hp.toSound, trivial⟩
      · exact (hp.append (by simp [IsAcceptance])).failed

theorem AtRest.planned_of_current {plan : GasPlan} (hp : AtRest call config past p)
    (hstate : p.state = .gasEstimated ∨ p.state = .priced) (hplan : plan.belongsTo call = true) :
    AtRest call config past (p.planned plan) :=
  { hp with
    estimated := fun _ => hp.estimated (hstate.imp_right Or.inl)
    plan_current := by
      intro plan' hsome
      cases hsome
      exact hplan
    planned := fun _ => Option.some_ne_none plan
    hashed := by simp [Pipeline.planned]
    unhashed := fun _ => hp.unhashed (Or.inr hstate)
    unattempted := fun _ => hp.unattempted (Or.inr hstate) }

theorem AtRest.append {more : List Exchange} (hp : AtRest call config past p)
    (hmore : forall e, e ∈ more -> ¬ IsAcceptance e) : AtRest call config (past ++ more) p :=
  { hp.toSound.append hmore with unattempted := hp.unattempted }

theorem maintains_price : Maintains call config Move.price := by
  apply preserves_of_allowed .price
  intro past p moments q result hallowed hp hunfolds
  have hstate : p.state = .gasEstimated := by simpa [Operation.allowed] using hallowed
  cases planning_of_unfolds hstate hunfolds with
  | @priced quotes plan hpricing =>
      have hquiet := quiet_of_pricing hpricing
      constructor
      · exact throughout_quiet hp.toSound hquiet
      · rw [exchanges_map_mk]
        apply (hp.append hquiet).planned_of_current (Or.inl hstate)
        rw [← hp.call_eq]
        exact current_of_pricing hpricing
  | @ended quotes cause hpricing =>
      have hquiet := quiet_of_pricing hpricing
      constructor
      · exact throughout_quiet hp.toSound hquiet
      · rw [exchanges_map_mk]
        exact (hp.toSound.append hquiet).failed

theorem maintains_usePlan (plan : GasPlan) : Maintains call config (Move.usePlan plan) := by
  apply preserves_of_allowed (.usePlan plan)
  intro past p moments q result hallowed hp hunfolds
  have hstate : p.state = .gasEstimated ∨ p.state = .priced := by
    simpa [Operation.allowed] using hallowed
  cases hcurrent : plan.belongsTo p.call with
  | true =>
      rw [Operation.move, usePlan_of_current hallowed hcurrent] at hunfolds
      rcases Course.unfolds_done_iff.mp hunfolds with ⟨rfl, rfl, rfl⟩
      rw [hp.call_eq] at hcurrent
      constructor
      · trivial
      · simpa using hp.planned_of_current hstate hcurrent
  | false =>
      rw [Operation.move, usePlan_of_stale hallowed hcurrent] at hunfolds
      rcases Course.unfolds_done_iff.mp hunfolds with ⟨rfl, rfl, rfl⟩
      constructor
      · trivial
      · simpa using hp

/-! ### Sends -/

theorem acceptedAs_singleton_iff {call : Call} {plan : GasPlan} {hash hash' : Hash} :
    AcceptedAs hash' [⟨.ask (.send call plan), .ok hash⟩] ↔ hash' = hash := by
  constructor
  · rintro ⟨call', plan', hmem⟩
    cases List.mem_singleton.mp hmem
    rfl
  · rintro rfl
    exact ⟨call, plan, List.mem_singleton.mpr rfl⟩

/-- The node accepts the transaction of a pipeline of which it has accepted none so far. -/
theorem Sound.submitted {plan : GasPlan} {hash : Hash} (hp : Sound call config past p)
    (hstate : p.state = .priced) :
    AtRest call config (past ++ [⟨.ask (.send p.call plan), .ok hash⟩]) (p.submitted hash) :=
  { hp with
    estimate_seen := fun gas hgas => List.mem_append_left _ (hp.estimate_seen gas hgas)
    estimated := fun _ => hp.estimated (Or.inr (Or.inl hstate))
    planned := fun _ => hp.planned (Or.inl hstate)
    hash_accepted := by
      intro hash'
      have hnone : ¬ AcceptedAs hash' past := by
        rw [← hp.hash_accepted hash', hp.unhashed (Or.inr (Or.inr hstate))]
        exact nofun
      rw [acceptedAs_append_iff, acceptedAs_singleton_iff]
      constructor
      · intro hsome
        exact Or.inr (Option.some.inj hsome).symm
      · rintro (haccepted | rfl)
        · exact absurd haccepted hnone
        · rfl
    hashed := fun _ => Option.some_ne_none hash
    unhashed := by simp [Pipeline.submitted]
    unattempted := by simp [Pipeline.submitted] }

theorem Sound.replanned {plan : GasPlan} (hp : Sound call config past p)
    (hplan : plan.belongsTo call = true) :
    Sound call config past { p with plan := some plan } :=
  { hp with
    plan_current := by
      intro plan' hsome
      cases hsome
      exact hplan
    planned := fun _ => Option.some_ne_none plan }

theorem refusal_not_acceptance (call : Call) (plan : GasPlan) (e : RpcError) :
    ¬ IsAcceptance ⟨.ask (.send call plan), .error e⟩ := by
  rintro ⟨_, _, _, heq⟩
  cases heq

theorem sleep_not_acceptance (d : Duration) (u : Unit) : ¬ IsAcceptance ⟨.sleep d, u⟩ := by
  rintro ⟨_, _, _, heq⟩
  cases heq

/-- Between a send that fails for the moment and the next one, nothing is accepted. -/
theorem quiet_between_sends {call : Call} {plan : GasPlan} {e : RpcError} {d : Duration} {u : Unit}
    {quotes : List Exchange} {answer : Except Error GasPlan} (h : Pricing p quotes answer) :
    forall x, x ∈ (⟨.ask (.send call plan), .error e⟩ : Exchange) :: ⟨.sleep d, u⟩ :: quotes ->
      ¬ IsAcceptance x := by
  rw [List.forall_mem_cons, List.forall_mem_cons]
  exact ⟨refusal_not_acceptance _ _ _, sleep_not_acceptance _ _, quiet_of_pricing h⟩

theorem maintains_submission {left : Nat} {moments : List Moment} {result : Except Error Hash}
    (h : Submission left p moments q result) (hp : Sound call config past p)
    (hstate : p.state = .priced) (hleft : p.attempts + left ≤ config.maxRetries.toNat) :
    Throughout (SoundAt call config) past moments ∧
      AtRest call config (past ++ exchanges moments) q := by
  induction h generalizing past with
  | stale _ =>
      constructor
      · trivial
      · simpa using hp.failed
  | accepted hash _ _ =>
      have hattempted := hp.attempted (by omega)
      constructor
      · exact ⟨hattempted, trivial⟩
      · exact hattempted.submitted hstate
  | @ended left p plan e _ _ _ =>
      have hattempted := hp.attempted (by omega)
      constructor
      · exact ⟨hattempted, trivial⟩
      · apply Sound.failed
        apply hattempted.append
        rw [exchanges_cons, exchanges_nil, List.forall_mem_singleton]
        exact refusal_not_acceptance _ _ _
  | @unpriced left p plan quotes cause e _ _ _ hpricing =>
      have hattempted := hp.attempted (by omega)
      have hquiet : forall x, x ∈ (⟨.ask (.send p.call plan), .error e⟩ : Exchange) ::
          ⟨.sleep (p.config.backoff p.attempted.attempts), ()⟩ :: quotes -> ¬ IsAcceptance x :=
        quiet_between_sends hpricing
      constructor
      · exact throughout_quiet hattempted hquiet
      · rw [exchanges_cons, exchanges_cons, exchanges_map_mk]
        exact (hattempted.append hquiet).failed
  | @repeated left p q plan fresh quotes moments result e _ _ _ hpricing _ ih =>
      have hattempted := hp.attempted (by omega)
      have hquiet : forall x, x ∈ (⟨.ask (.send p.call plan), .error e⟩ : Exchange) ::
          ⟨.sleep (p.config.backoff p.attempted.attempts), ()⟩ :: quotes -> ¬ IsAcceptance x :=
        quiet_between_sends hpricing
      have hfresh : fresh.belongsTo call = true := by
        rw [← hattempted.call_eq]
        exact current_of_pricing hpricing
      have hnext := (hattempted.append hquiet).replanned hfresh
      have hattempts : p.attempts + 1 + left ≤ config.maxRetries.toNat := by omega
      rcases ih hnext hstate hattempts with ⟨hthroughout, hq⟩
      have hround := throughout_quiet hattempted hquiet
      constructor
      · apply hround.append
        rw [exchanges_map_mk]
        exact hthroughout
      · simpa using hq

theorem maintains_submit : Maintains call config Move.submit := by
  apply preserves_of_allowed .submit
  intro past p moments q result hallowed hp hunfolds
  have hstate : p.state = .priced := by simpa [Operation.allowed] using hallowed
  have hattempts : p.attempts = 0 := hp.unattempted (Or.inr (Or.inr hstate))
  apply maintains_submission (submission_of_submit hstate hunfolds) hp.toSound hstate
  rw [hp.config_eq]
  omega

/-! ### Receipts and outcomes -/

theorem clock_not_acceptance (now : Nat) : ¬ IsAcceptance ⟨.clock, now⟩ := by
  rintro ⟨_, _, _, heq⟩
  cases heq

theorem maintains_confirm : Maintains call config Move.confirm := by
  apply preserves_of_allowed .confirm
  intro past p moments q result hallowed hp hunfolds
  have hstate : p.state = .submitted := by simpa [Operation.allowed] using hallowed
  cases confirmation_of_unfolds hstate hunfolds with
  | unsent _ =>
      constructor
      · trivial
      · simpa using hp
  | @waited hash _ polls result started _ hwait =>
      rcases settled_of_wait hwait with ⟨hpolls, hend⟩
      have hquiet : forall x, x ∈ (⟨.clock, started⟩ : Exchange) :: exchanges polls ->
          ¬ IsAcceptance x := by
        rw [List.forall_mem_cons]
        exact ⟨clock_not_acceptance _, quiet_of_no_send (wait_no_send hwait)⟩
      have hlast := hp.toSound.append hquiet
      constructor
      · rw [hpolls]
        exact throughout_quiet hp.toSound hquiet
      · rw [hend]
        cases result with
        | ok receipt => exact hlast.confirmed
        | error e => exact hlast.failed

theorem maintains_conclude (receipt : Receipt) : Maintains call config (Move.conclude receipt) := by
  intro past p moments q result hp hunfolds
  rcases conclusion_of_unfolds hunfolds with ⟨rfl, hconclusion⟩
  rw [exchanges_nil, List.append_nil]
  constructor
  · trivial
  · cases hconclusion with
    | deployed _ _ _ _ => exact hp
    | unaddressed _ _ _ => exact hp.toSound.failed
    | sent _ => exact hp

theorem maintains_query : Maintains call config Move.query := by
  apply preserves_of_allowed .query
  intro past p moments q result hallowed hp hunfolds
  have hstate : p.state = .built := by simpa [Operation.allowed] using hallowed
  cases reading_of_unfolds hstate hunfolds with
  | answered value =>
      constructor
      · exact ⟨hp.toSound, trivial⟩
      · exact (hp.toSound.append (by simp [IsAcceptance])).confirmed
  | ended e =>
      constructor
      · exact ⟨hp.toSound, trivial⟩
      · exact (hp.toSound.append (by simp [IsAcceptance])).failed

theorem maintains_operation (op : Operation) : Maintains call config op.move :=
  preserves_operation maintains_estimateGas maintains_price maintains_usePlan maintains_submit
    maintains_confirm maintains_conclude maintains_query op

theorem atRest_of_yields {ops : List Operation}
    (h : Yields (steps ops (new call config)) past ((), p)) : AtRest call config past p := by
  rw [← program_operate] at h
  rcases Course.exists_unfolds_of_yields h with ⟨moments, hunfolds, rfl⟩
  exact (preserves_operate maintains_operation (atRest_new call config) hunfolds).2

end

/-! ## Checks that cannot fail -/

/-- The error says that a step was invoked out of order or with a plan for another call. -/
def Error.blamesCaller : Error -> Bool
  | .stalePlan => true
  | .invalidTransition _ _ => true
  | _ => false

section

variable {p q : Pipeline} {moments : List Moment} {e : Error}

theorem blameless_of_pricing {history : List Exchange} (h : Pricing p history (.error e))
    (hestimate : p.estimate ≠ none) : e.blamesCaller = false := by
  cases h with
  | unestimated hnone => exact absurd hnone hestimate
  | unpriced _ _ => rfl

theorem blameless_of_submission {left : Nat} (h : Submission left p moments q (.error e))
    (hestimate : p.estimate ≠ none) (hplan : p.plan ≠ none)
    (hcurrent : forall plan, p.plan = some plan -> plan.belongsTo p.call = true) :
    e.blamesCaller = false := by
  generalize hresult : (Except.error e : Except Error Hash) = result at h
  induction h with
  | stale hstale =>
      rcases Option.ne_none_iff_exists'.mp hplan with ⟨plan, hsome⟩
      cases (hcurrent plan hsome).symm.trans (hstale plan hsome)
  | accepted hash _ _ => cases hresult
  | ended cause _ _ _ =>
      cases hresult
      rfl
  | unpriced cause _ _ _ hpricing =>
      cases hresult
      exact blameless_of_pricing hpricing hestimate
  | @repeated left p q plan fresh quotes moments result cause _ _ _ hpricing _ ih =>
      have hfresh : fresh.belongsTo p.attempted.call = true := current_of_pricing hpricing
      apply ih hestimate (Option.some_ne_none fresh) _ hresult
      intro plan' hsome
      cases hsome
      exact hfresh

theorem blameless_of_wait {hash : Hash} {started left : Nat}
    (h : Wait hash started left p moments q (.error e)) : e.blamesCaller = false := by
  generalize hresult : (Except.error e : Except Error Receipt) = result at h
  induction h with
  | found receipt => cases hresult
  | ended cause _ =>
      cases hresult
      rfl
  | expired now _ _ =>
      cases hresult
      rfl
  | repeated now _ _ _ ih => exact ih hresult

theorem blameless_of_journey (h : Journey p moments q (.error e)) : e.blamesCaller = false := by
  have hestimate : forall gas, (p.estimated gas).estimate ≠ none := fun gas => Option.some_ne_none gas
  cases h with
  | unestimated cause => rfl
  | unpriced gas hpricing => exact blameless_of_pricing hpricing (hestimate gas)
  | @unsent quotes plan sends _ _ gas hpricing hsubmission =>
      have hcurrent : plan.belongsTo (p.estimated gas).call = true := current_of_pricing hpricing
      apply blameless_of_submission hsubmission (hestimate gas) (Option.some_ne_none plan)
      intro plan' hsome
      cases hsome
      exact hcurrent
  | unconfirmed gas started _ _ hwait => exact blameless_of_wait hwait
  | concluded gas started _ _ _ hconclusion =>
      cases hconclusion
      rfl

/-- An operation that is allowed does not blame its caller, unless the caller's plan is stale. -/
theorem blameless_of_operation {call : Call} {config : Config} {past : List Exchange}
    (op : Operation) (hp : AtRest call config past p) (hallowed : p.state ∈ op.allowed)
    (h : (op.move p).Unfolds moments q (.error e)) :
    e.blamesCaller = false ∨ e = .stalePlan ∧ ∃ plan, op = .usePlan plan := by
  cases op with
  | estimate =>
      have hstate : p.state = .built := by simpa [Operation.allowed] using hallowed
      cases estimation_of_unfolds hstate h
      exact Or.inl rfl
  | price =>
      have hstate : p.state = .gasEstimated := by simpa [Operation.allowed] using hallowed
      cases planning_of_unfolds hstate h with
      | ended hpricing =>
          exact Or.inl (blameless_of_pricing hpricing (hp.estimated (Or.inl hstate)))
  | usePlan plan =>
      cases hcurrent : plan.belongsTo p.call with
      | true =>
          rw [Operation.move, usePlan_of_current hallowed hcurrent] at h
          rcases Course.unfolds_done_iff.mp h with ⟨_, _, hresult⟩
          cases hresult
      | false =>
          rw [Operation.move, usePlan_of_stale hallowed hcurrent] at h
          rcases Course.unfolds_done_iff.mp h with ⟨_, _, hresult⟩
          cases hresult
          exact Or.inr ⟨rfl, plan, rfl⟩
  | submit =>
      have hstate : p.state = .priced := by simpa [Operation.allowed] using hallowed
      have hcurrent : forall plan, p.plan = some plan -> plan.belongsTo p.call = true := by
        rw [hp.call_eq]
        exact hp.plan_current
      exact Or.inl (blameless_of_submission (submission_of_submit hstate h)
        (hp.estimated (Or.inr (Or.inl hstate))) (hp.planned (Or.inl hstate)) hcurrent)
  | confirm =>
      have hstate : p.state = .submitted := by simpa [Operation.allowed] using hallowed
      cases confirmation_of_unfolds hstate h with
      | unsent hnone => exact absurd hnone (hp.hashed hstate)
      | waited started _ hwait => exact Or.inl (blameless_of_wait hwait)
  | run =>
      have hstate : p.state = .built := by simpa [Operation.allowed] using hallowed
      exact Or.inl (blameless_of_journey (journey_of_unfolds hstate h))
  | query =>
      have hstate : p.state = .built := by simpa [Operation.allowed] using hallowed
      cases reading_of_unfolds hstate h
      exact Or.inl rfl

end

/-- Whatever operations are invoked and whatever the node answers, the invariant holds at every
moment and after the operations.  Hence `submit` does not find a stale plan, and an operation that
its guard allows does not find itself out of order. -/
theorem operations_keep_invariant (call : Call) (config : Config) (ops : List Operation) {σ : Type}
    (w : World σ) (s : σ) :
    let moments := (operate ops (new call config)).moments w s
    let program := steps ops (new call config)
    let p := (program.run w s).1.2
    exchanges moments = program.trace w s ∧
    (forall past m future, moments = past ++ m :: future ->
      Sound call config (exchanges past) m.pipeline) ∧
    AtRest call config (program.trace w s) p ∧
    (forall history q, ¬ Yields (submit p) history (.error .stalePlan, q)) ∧
    (forall op : Operation, p.state ∈ op.allowed -> forall history q state action,
      ¬ Yields (op.move.step p) history (.error (.invalidTransition state action), q)) := by
  intro moments program p
  have hprogram : (operate ops (new call config)).program = program :=
    program_operate ops (new call config)
  have hunfolds := Course.unfolds_moments w (operate ops (new call config)) s
  have hthroughout := (preserves_operate maintains_operation (atRest_new call config) hunfolds).1
  have hp : AtRest call config (program.trace w s) p :=
    atRest_of_yields (yields_trace w program s)
  refine ⟨?_, ?_, hp, ?_, ?_⟩
  · rw [← hprogram]
    exact Course.exchanges_moments w _ s
  · intro past m future hsplit
    change Throughout _ _ moments at hthroughout
    rw [hsplit] at hthroughout
    exact hthroughout.at_split
  · intro history q hyields
    rcases Course.exists_unfolds_of_yields hyields with ⟨more, hmore, _⟩
    have hsubmit : (Operation.submit.move p).Unfolds more q (.error .stalePlan) := hmore
    by_cases hallowed : p.state ∈ Operation.submit.allowed
    · rcases blameless_of_operation .submit hp hallowed hsubmit with hfalse | ⟨_, plan, hop⟩
      · cases hfalse
      · cases hop
    · rw [Operation.submit.move_of_not_allowed hallowed] at hsubmit
      rcases Course.unfolds_done_iff.mp hsubmit with ⟨_, _, hresult⟩
      cases hresult
  · intro op hallowed history q state action hyields
    rcases Course.exists_unfolds_of_yields hyields with ⟨more, hmore, _⟩
    rcases blameless_of_operation op hp hallowed hmore with hfalse | ⟨hstale, _⟩
    · cases hfalse
    · cases hstale

end Pipeline
end KeyRegistry
