import KeyRegistry.Proofs.Mining.Chronicle
import KeyRegistry.Proofs.Mining.Schedule

/-!
# The rounds of a run

A run opens with its two subscriptions and an evaluation.  After that, each
wake-up begins a round: the run settles and waits again, or it ends.  The
relations below have one constructor for each way in which an opening or a round
can go, and every run consists of an opening and rounds.
-/

namespace KeyRegistry
namespace Mining

open Program

/-! ## Parts of a round -/

def Controller.concluded (c : Controller) : Except Error Decision -> Controller
  | .ok _ => c
  | .error _ =>
      { c with report := { c.report with failedEvaluations := c.report.failedEvaluations + 1 } }

theorem evaluation_of_evaluateCounted {c c' : Controller} {history : List Exchange}
    (h : Yields c.evaluateCounted history c') :
    ∃ result c'', c.Evaluation history result c'' ∧ c' = c''.concluded result := by
  rcases yields_bind_iff.mp h with ⟨first, ⟨result, c''⟩, rest, hfirst, hrest, rfl⟩
  have hevaluation := Controller.evaluation_of_yields hfirst
  cases result with
  | ok decision =>
      rcases yields_done_iff.mp hrest with ⟨rfl, rfl⟩
      exact ⟨_, _, by simpa using hevaluation, rfl⟩
  | error e =>
      rcases yields_done_iff.mp hrest with ⟨rfl, rfl⟩
      exact ⟨_, _, by simpa using hevaluation, rfl⟩

/-- Tries to subscribe again that fail, with a pause before each. -/
def failures (config : Config) (feed : Feed) (causes : List RpcError) : List Exchange :=
  causes.flatMap fun e =>
    [⟨.sleep config.resubscribeBackoff, ()⟩, ⟨.ask (.subscribe feed), .error e⟩]

def success (config : Config) (feed : Feed) (id : Nat) : List Exchange :=
  [⟨.sleep config.resubscribeBackoff, ()⟩, ⟨.ask (.subscribe feed), .ok id⟩]

theorem resubscription_of_yields {config : Config} {feed : Feed} {left : Nat}
    {history : List Exchange} {answer : Except Error Nat}
    (h : Yields (Controller.resubscribe config feed left) history answer) :
    (∃ causes, causes.length = left ∧ history = failures config feed causes ∧
        answer = .error (.subscriptionLost feed config.resubscribeAttempts)) ∨
      ∃ causes id, causes.length < left ∧
        history = failures config feed causes ++ success config feed id ∧ answer = .ok id := by
  induction left generalizing history with
  | zero =>
      rcases yields_done_iff.mp h with ⟨rfl, rfl⟩
      exact Or.inl ⟨[], rfl, rfl, rfl⟩
  | succ left ih =>
      rcases yields_act_bind_iff.mp h with ⟨_, rest, rfl, hrest⟩
      rcases yields_act_bind_iff.mp hrest with ⟨tried, more, rfl, hmore⟩
      cases tried with
      | ok id =>
          rcases yields_done_iff.mp hmore with ⟨rfl, rfl⟩
          exact Or.inr ⟨[], id, Nat.succ_pos left, rfl, rfl⟩
      | error e =>
          rcases ih hmore with ⟨causes, hlength, rfl, hanswer⟩ | ⟨causes, id, hlength, rfl, hanswer⟩
          · exact Or.inl ⟨e :: causes, congrArg Nat.succ hlength, rfl, hanswer⟩
          · exact Or.inr ⟨e :: causes, id, Nat.succ_lt_succ hlength, rfl, hanswer⟩

inductive Settling (r : Run) : List Exchange -> Run -> Prop where
  | settled {events events' : List ChainEvent} {history : List Exchange}
      {result : Except Error Decision} {c : Controller} :
      ((r.controller.countEvents events.length).countEvents events'.length).Evaluation history
        result c ->
      Settling r (⟨.drain r.latest, events⟩ :: ⟨.drain r.pending, events'⟩ :: history)
        { r with controller := c.concluded result }

theorem settling_of_yields {r : Run} {history : List Exchange} {stage : Stage}
    (h : Yields r.settle history stage) :
    ∃ r', stage = .waiting r' ∧ Settling r history r' := by
  rcases yields_act_bind_iff.mp h with ⟨events, rest, rfl, hrest⟩
  rcases yields_act_bind_iff.mp hrest with ⟨events', more, rfl, hmore⟩
  rcases yields_bind_iff.mp hmore with ⟨first, c, last, hfirst, hlast, rfl⟩
  rcases yields_done_iff.mp hlast with ⟨rfl, rfl⟩
  rcases evaluation_of_evaluateCounted hfirst with ⟨result, c', hevaluation, rfl⟩
  refine ⟨_, rfl, ?_⟩
  rw [List.append_nil]
  exact Settling.settled hevaluation

def cancels (r : Run) : List Exchange :=
  [⟨.cancel r.latest, ()⟩, ⟨.cancel r.pending, ()⟩]

theorem finishing_of_yields {r : Run} {result : Except Error Unit} {history : List Exchange}
    {stage : Stage} (h : Yields (r.finish result) history stage) :
    ∃ closing c, r.controller.Closing closing c ∧ history = cancels r ++ closing ∧
      stage = .finished (result.map fun _ => c.report) c := by
  rcases yields_act_bind_iff.mp h with ⟨_, rest, rfl, hrest⟩
  rcases yields_act_bind_iff.mp hrest with ⟨_, more, rfl, hmore⟩
  rcases yields_bind_iff.mp hmore with ⟨closing, c, last, hclosing, hlast, rfl⟩
  rcases yields_done_iff.mp hlast with ⟨rfl, rfl⟩
  refine ⟨closing, c, Controller.closing_of_yields hclosing, ?_, rfl⟩
  rw [List.append_nil]
  rfl

def Retaining (e : Exchange) : Prop :=
  Unsubscribing e.1 ∧ forall id, e.1 ≠ .cancel id

theorem Controller.Evaluation.retaining {c c' : Controller} {history : List Exchange}
    {result : Except Error Decision} (h : c.Evaluation history result c') :
    forall e, e ∈ history -> Retaining e := by
  cases h <;> simp [Retaining, Unsubscribing]

theorem Settling.retaining {r r' : Run} {history : List Exchange} (h : Settling r history r') :
    forall e, e ∈ history -> Retaining e := by
  cases h with
  | settled hevaluation =>
      have hdrain : forall id events, Retaining ⟨.drain id, events⟩ := by
        simp [Retaining, Unsubscribing]
      exact List.forall_mem_cons.mpr ⟨hdrain _ _, List.forall_mem_cons.mpr
        ⟨hdrain _ _, hevaluation.retaining⟩⟩

/-! ## Openings and rounds -/

inductive Opening (c : Controller) : List Exchange -> Stage -> Prop where
  | refused (e : RpcError) :
      Opening c [⟨.ask (.subscribe .latest), .error e⟩] (.finished (.error (.rpc e)) c)
  | halved (latest : Nat) (e : RpcError) :
      Opening c
        [⟨.ask (.subscribe .latest), .ok latest⟩, ⟨.ask (.subscribe .pending), .error e⟩,
          ⟨.cancel latest, ()⟩]
        (.finished (.error (.rpc e)) c)
  | opened {latest pending : Nat} {history : List Exchange} {result : Except Error Decision}
      {c' : Controller} :
      c.Evaluation history result c' ->
      Opening c
        (⟨.ask (.subscribe .latest), .ok latest⟩ :: ⟨.ask (.subscribe .pending), .ok pending⟩ ::
          history)
        (.waiting { controller := c'.concluded result, latest, pending })

theorem opening_of_yields {c : Controller} {history : List Exchange} {stage : Stage}
    (h : Yields (start c) history stage) : Opening c history stage := by
  rcases yields_act_bind_iff.mp h with ⟨answer, rest, rfl, hrest⟩
  cases answer with
  | error e =>
      rcases yields_done_iff.mp hrest with ⟨rfl, rfl⟩
      exact Opening.refused e
  | ok latest =>
      rcases yields_act_bind_iff.mp hrest with ⟨answer, more, rfl, hmore⟩
      cases answer with
      | error e =>
          rcases yields_act_bind_iff.mp hmore with ⟨_, last, rfl, hlast⟩
          rcases yields_done_iff.mp hlast with ⟨rfl, rfl⟩
          exact Opening.halved latest e
      | ok pending =>
          rcases yields_bind_iff.mp hmore with ⟨first, c', last, hfirst, hlast, rfl⟩
          rcases yields_done_iff.mp hlast with ⟨rfl, rfl⟩
          rcases evaluation_of_evaluateCounted hfirst with ⟨result, c'', hevaluation, rfl⟩
          rw [List.append_nil]
          exact Opening.opened hevaluation

def Controller.attempts (c : Controller) : Nat :=
  c.config.resubscribeAttempts.toNat

inductive Round (r : Run) : Wake -> List Exchange -> Stage -> Prop where
  | ended {closing : List Exchange} {c : Controller} :
      r.controller.Closing closing c ->
      Round r .shutdown (cancels r ++ closing) (.finished (.ok c.report) c)
  | settled {feed : Feed} {history : List Exchange} {r' : Run} :
      Settling { r with controller := r.controller.countEvents 1 } history r' ->
      Round r (.event feed) history (.waiting r')
  | reopened {feed : Feed} {causes : List RpcError} {id : Nat} {history : List Exchange}
      {r' : Run} :
      causes.length < r.controller.attempts ->
      Settling (r.replace feed id) history r' ->
      Round r (.closed feed)
        (failures r.controller.config feed causes ++ success r.controller.config feed id ++ history)
        (.waiting r')
  | lost {feed : Feed} {causes : List RpcError} {closing : List Exchange} {c : Controller} :
      causes.length = r.controller.attempts ->
      r.controller.Closing closing c ->
      Round r (.closed feed)
        (failures r.controller.config feed causes ++ (cancels r ++ closing))
        (.finished (.error (.subscriptionLost feed r.controller.config.resubscribeAttempts)) c)

theorem round_of_yields {r : Run} {wake : Wake} {history : List Exchange} {stage : Stage}
    (h : Yields (r.wake wake) history stage) : Round r wake history stage := by
  cases wake with
  | shutdown =>
      rcases finishing_of_yields h with ⟨closing, c, hclosing, rfl, rfl⟩
      exact Round.ended hclosing
  | event feed =>
      rcases settling_of_yields h with ⟨r', rfl, hsettling⟩
      exact Round.settled hsettling
  | closed feed =>
      rcases yields_bind_iff.mp h with ⟨first, answer, rest, hfirst, hrest, rfl⟩
      rcases resubscription_of_yields hfirst with
        ⟨causes, hlength, rfl, rfl⟩ | ⟨causes, id, hlength, rfl, rfl⟩
      · rcases finishing_of_yields hrest with ⟨closing, c, hclosing, rfl, rfl⟩
        exact Round.lost hlength hclosing
      · rcases settling_of_yields hrest with ⟨r', rfl, hsettling⟩
        exact Round.reopened hlength hsettling

/-! ## The configuration -/

theorem Controller.Evaluation.config_eq {c c' : Controller} {history : List Exchange}
    {result : Except Error Decision} (h : c.Evaluation history result c') :
    c'.config = c.config := by
  cases h <;> rfl

theorem Controller.Closing.config_eq {c c' : Controller} {history : List Exchange}
    (h : c.Closing history c') : c'.config = c.config := by
  cases h <;> rfl

theorem Controller.config_concluded (c : Controller) (result : Except Error Decision) :
    (c.concluded result).config = c.config := by
  cases result <;> rfl

theorem Run.controller_replace (r : Run) (feed : Feed) (id : Nat) :
    (r.replace feed id).controller = r.controller := by
  cases feed <;> rfl

theorem Settling.config_eq {r r' : Run} {history : List Exchange} (h : Settling r history r') :
    r'.controller.config = r.controller.config := by
  cases h with
  | settled hevaluation =>
      rw [Controller.config_concluded, hevaluation.config_eq]
      rfl

theorem Opening.config_eq {c : Controller} {history : List Exchange} {stage : Stage}
    (h : Opening c history stage) : stage.controller.config = c.config := by
  cases h with
  | refused e => rfl
  | halved latest e => rfl
  | opened hevaluation => exact (Controller.config_concluded _ _).trans hevaluation.config_eq

theorem Round.config_eq {r : Run} {wake : Wake} {history : List Exchange} {stage : Stage}
    (h : Round r wake history stage) : stage.controller.config = r.controller.config := by
  cases h with
  | ended hclosing => exact hclosing.config_eq
  | settled hsettling => exact hsettling.config_eq
  | reopened _ hsettling =>
      exact hsettling.config_eq.trans (congrArg _ (Run.controller_replace r _ _))
  | lost _ hclosing => exact hclosing.config_eq

inductive Rounds : Stage -> List (Wake × List Exchange) -> Stage -> Prop where
  | nil (stage : Stage) : Rounds stage [] stage
  | cons {r : Run} {wake : Wake} {history : List Exchange} {stage last : Stage}
      {rounds : List (Wake × List Exchange)} :
      Round r wake history stage -> Rounds stage rounds last ->
      Rounds (.waiting r) ((wake, history) :: rounds) last

theorem Rounds.of_finished {result : Except Error Report} {c : Controller} {last : Stage}
    {rounds : List (Wake × List Exchange)} (h : Rounds (.finished result c) rounds last) :
    rounds = [] ∧ last = .finished result c := by
  cases h
  exact ⟨rfl, rfl⟩

theorem rounds_of_follow {wakes : List Wake} {stage last : Stage} {history : List Exchange}
    (h : Yields (follow wakes stage) history last) :
    ∃ rounds, Rounds stage rounds last ∧ history = rounds.flatMap Prod.snd := by
  induction wakes generalizing stage history with
  | nil =>
      rcases yields_done_iff.mp h with ⟨rfl, rfl⟩
      exact ⟨[], Rounds.nil _, rfl⟩
  | cons wake wakes ih =>
      cases stage with
      | finished result c =>
          rcases yields_done_iff.mp h with ⟨rfl, rfl⟩
          exact ⟨[], Rounds.nil _, rfl⟩
      | waiting r =>
          rcases yields_bind_iff.mp h with ⟨first, stage', rest, hfirst, hrest, rfl⟩
          rcases ih hrest with ⟨rounds, hrounds, rfl⟩
          exact ⟨(wake, first) :: rounds, Rounds.cons (round_of_yields hfirst) hrounds, rfl⟩

/-! ## What a loop does along a path -/

def Happening.act? : Happening -> Option Act
  | .own act => some act
  | .deed _ => none

def acts (path : List Moment) : List Act :=
  path.filterMap fun moment => moment.happening.act?

def roundActs (round : Wake × List Exchange) : List Act :=
  .wake round.1 :: round.2.map .exchange

theorem exists_rounds_of_path {s last : Scene} {path : List Moment} {stage : Stage}
    (h : Path s path last) (hrests : last.loop = .done stage) :
    ∃ history stage' rounds, Yields s.loop history stage' ∧ Rounds stage' rounds stage ∧
      acts path = history.map .exchange ++ rounds.flatMap roundActs := by
  induction h with
  | nil s => exact ⟨[], stage, [], hrests ▸ Yields.done stage, Rounds.nil stage, rfl⟩
  | cons hstep _ ih =>
      rcases ih hrests with ⟨history, stage', rounds, hyields, hrounds, hacts⟩
      cases hstep with
      | exchange node node' held now action next reply hreply =>
          refine ⟨⟨action, reply⟩ :: history, stage', rounds, Yields.perform reply hyields,
            hrounds, ?_⟩
          show .exchange ⟨action, reply⟩ :: acts _ = _
          rw [hacts]
          rfl
      | wake node node' held r wake hwakes =>
          -- the path so far ends here, and a round begins
          refine ⟨[], .waiting r, (wake, history) :: rounds, Yields.done _,
            Rounds.cons (round_of_yields hyields) hrounds, ?_⟩
          show .wake wake :: acts _ = _
          rw [hacts]
          simp [roundActs]
      | deed s deed => exact ⟨history, stage', rounds, hyields, hrounds, hacts⟩

theorem exists_opening_of_path {c : Controller} {node : Node.State} {path : List Moment}
    {last : Scene} {stage : Stage} (h : Path (Scene.opening c node) path last)
    (hrests : last.loop = .done stage) :
    ∃ history stage' rounds, Opening c history stage' ∧ Rounds stage' rounds stage ∧
      acts path = history.map .exchange ++ rounds.flatMap roundActs := by
  rcases exists_rounds_of_path h hrests with ⟨history, stage', rounds, hyields, hrounds, hacts⟩
  exact ⟨history, stage', rounds, opening_of_yields hyields, hrounds, hacts⟩

end Mining
end KeyRegistry
