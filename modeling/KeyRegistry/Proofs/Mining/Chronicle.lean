import KeyRegistry.Proofs.Mining.Evaluation

/-!
# The chronicle of a controller

A caller may evaluate, reconcile and run a controller in any order.  Everything
that the controller does then falls into episodes: evaluations, reconciliations,
ends of runs, and upkeep in between, which asks for nothing of these and leaves the
miner state as it was.
The counts of the report are accurate after every episode.
-/

namespace KeyRegistry
namespace Mining

open Program

/-! ## Operations -/

/-- What a caller does with a controller.  A run goes through its wake-ups until it ends or has
none left. -/
inductive Operation where
  | evaluate
  | reconcile
  | run (wakes : List Wake)

def Stage.controller : Stage -> Controller
  | .waiting r => r.controller
  | .finished _ c => c

def follow : List Wake -> Stage -> Program Stage
  | [], stage => .done stage
  | _ :: _, .finished result c => .done (.finished result c)
  | wake :: wakes, .waiting r => (r.wake wake).bind (follow wakes)

namespace Operation

def program : Operation -> Controller -> Program Controller
  | .evaluate, c => c.evaluate.bind fun answer => .done answer.2
  | .reconcile, c => c.reconcile.bind fun answer => .done answer.2
  | .run wakes, c => ((start c).bind (follow wakes)).bind fun stage => .done stage.controller

end Operation

def operate : List Operation -> Controller -> Program Controller
  | [], c => .done c
  | op :: ops, c => (op.program c).bind (operate ops)

/-! ## Episodes -/

/-- A part of what a controller does, from one controller to the next. -/
inductive Episode where
  | evaluation (before : Controller) (history : List Exchange)
      (result : Except Error Decision) (after : Controller)
  | reconciliation (before : Controller) (history : List Exchange)
      (result : Except Error Bool) (after : Controller)
  | closing (before : Controller) (history : List Exchange) (after : Controller)
  | upkeep (before : Controller) (history : List Exchange) (after : Controller)

namespace Episode

def history : Episode -> List Exchange
  | .evaluation _ history _ _ => history
  | .reconciliation _ history _ _ => history
  | .closing _ history _ => history
  | .upkeep _ history _ => history

def isEvaluation : Episode -> Bool
  | .evaluation _ _ _ _ => true
  | _ => false

end Episode

def histories (episodes : List Episode) : List Exchange :=
  episodes.flatMap Episode.history

def isReading : Exchange -> Bool
  | ⟨.ask .isMining, _⟩ => true
  | _ => false

def IsQuiet (e : Exchange) : Prop :=
  isCommand e = false ∧ isCount e = false ∧ isReading e = false

/-- Exchanges that do not bear on the miner, and a controller that goes on with the same state
and the same counts of what does. -/
structure Upkeep (before : Controller) (history : List Exchange) (after : Controller) : Prop where
  quiet : forall e, e ∈ history -> IsQuiet e
  state_eq : after.state = before.state
  evaluations_eq : after.report.evaluations = before.report.evaluations
  starts_eq : after.report.starts = before.report.starts
  stops_eq : after.report.stops = before.report.stops

/-- The episodes that lead from one controller to another. -/
inductive Chronicle : Controller -> List Episode -> Controller -> Prop where
  | nil (c : Controller) : Chronicle c [] c
  | evaluation {c c' last : Controller} {history : List Exchange}
      {result : Except Error Decision} {episodes : List Episode} :
      Yields c.evaluate history (result, c') -> Chronicle c' episodes last ->
      Chronicle c (.evaluation c history result c' :: episodes) last
  | reconciliation {c c' last : Controller} {history : List Exchange}
      {result : Except Error Bool} {episodes : List Episode} :
      Yields c.reconcile history (result, c') -> Chronicle c' episodes last ->
      Chronicle c (.reconciliation c history result c' :: episodes) last
  | closing {c c' last : Controller} {history : List Exchange} {episodes : List Episode} :
      Yields c.shutdownMiner history c' -> Chronicle c' episodes last ->
      Chronicle c (.closing c history c' :: episodes) last
  | upkeep {c c' last : Controller} {history : List Exchange} {episodes : List Episode} :
      Upkeep c history c' -> Chronicle c' episodes last ->
      Chronicle c (.upkeep c history c' :: episodes) last

namespace Chronicle

theorem append {c c' last : Controller} {first rest : List Episode}
    (hfirst : Chronicle c first c') (hrest : Chronicle c' rest last) :
    Chronicle c (first ++ rest) last := by
  induction hfirst with
  | nil c => exact hrest
  | evaluation h _ ih => exact evaluation h (ih hrest)
  | reconciliation h _ ih => exact reconciliation h (ih hrest)
  | closing h _ ih => exact closing h (ih hrest)
  | upkeep h _ ih => exact upkeep h (ih hrest)

theorem split {c last : Controller} {first rest : List Episode}
    (h : Chronicle c (first ++ rest) last) :
    ∃ c', Chronicle c first c' ∧ Chronicle c' rest last := by
  induction first generalizing c with
  | nil => exact ⟨c, nil c, h⟩
  | cons episode first ih =>
      cases h with
      | evaluation hone hmore =>
          rcases ih hmore with ⟨c', hfirst, hrest⟩
          exact ⟨c', evaluation hone hfirst, hrest⟩
      | reconciliation hone hmore =>
          rcases ih hmore with ⟨c', hfirst, hrest⟩
          exact ⟨c', reconciliation hone hfirst, hrest⟩
      | closing hone hmore =>
          rcases ih hmore with ⟨c', hfirst, hrest⟩
          exact ⟨c', closing hone hfirst, hrest⟩
      | upkeep hone hmore =>
          rcases ih hmore with ⟨c', hfirst, hrest⟩
          exact ⟨c', upkeep hone hfirst, hrest⟩

end Chronicle

/-! ## Programs that a chronicle tells -/

/-- Whatever `program` exchanges from `c` on is told by a chronicle that leads to the controller
of its result. -/
def Told {α : Type} (c : Controller) (program : Program α) (standing : α -> Controller) : Prop :=
  forall history a, Yields program history a ->
    ∃ episodes, Chronicle c episodes (standing a) ∧ histories episodes = history

theorem told_bind {α β : Type} {c : Controller} {program : Program α} {f : α -> Program β}
    {standing : α -> Controller} {last : β -> Controller} (hprogram : Told c program standing)
    (hf : forall a, Told (standing a) (f a) last) : Told c (program.bind f) last := by
  intro history b h
  rcases yields_bind_iff.mp h with ⟨first, a, rest, hfirst, hrest, rfl⟩
  rcases hprogram first a hfirst with ⟨episodes, hchronicle, rfl⟩
  rcases hf a rest b hrest with ⟨episodes', hchronicle', rfl⟩
  exact ⟨episodes ++ episodes', hchronicle.append hchronicle', List.flatMap_append⟩

theorem told_after {α : Type} {c c' : Controller} {program : Program α}
    {standing : α -> Controller} (hupkeep : Upkeep c [] c') (h : Told c' program standing) :
    Told c program standing := by
  intro history a hyields
  rcases h history a hyields with ⟨episodes, hchronicle, rfl⟩
  exact ⟨.upkeep c [] c' :: episodes, Chronicle.upkeep hupkeep hchronicle, rfl⟩

theorem told_done {α : Type} {c : Controller} {a : α} {standing : α -> Controller}
    (hupkeep : Upkeep c [] (standing a)) : Told c (.done a) standing := by
  intro history b h
  rcases yields_done_iff.mp h with ⟨rfl, rfl⟩
  exact ⟨[.upkeep c [] (standing b)], Chronicle.upkeep hupkeep (Chronicle.nil _), rfl⟩

theorem Upkeep.same (c : Controller) : Upkeep c [] c where
  quiet := by simp
  state_eq := rfl
  evaluations_eq := rfl
  starts_eq := rfl
  stops_eq := rfl

def QuietAction (action : Action) : Prop :=
  forall reply, IsQuiet ⟨action, reply⟩

theorem told_act {β : Type} {c : Controller} {action : Action} {f : action.Reply -> Program β}
    {standing : β -> Controller} (hquiet : QuietAction action)
    (hf : forall reply, Told c (f reply) standing) :
    Told c (Program.act action >>= f) standing := by
  intro history b h
  rcases yields_act_bind_iff.mp h with ⟨reply, rest, rfl, hrest⟩
  rcases hf reply rest b hrest with ⟨episodes, hchronicle, rfl⟩
  have hupkeep : Upkeep c [⟨action, reply⟩] c :=
    ⟨by simpa using hquiet reply, rfl, rfl, rfl, rfl⟩
  exact ⟨_, Chronicle.upkeep hupkeep hchronicle, rfl⟩

theorem told_evaluate (c : Controller) : Told c c.evaluate Prod.snd := by
  intro history answer h
  exact ⟨[.evaluation c history answer.1 answer.2],
    Chronicle.evaluation h (Chronicle.nil _), List.flatMap_singleton _ _⟩

theorem told_reconcile (c : Controller) : Told c c.reconcile Prod.snd := by
  intro history answer h
  exact ⟨[.reconciliation c history answer.1 answer.2],
    Chronicle.reconciliation h (Chronicle.nil _), List.flatMap_singleton _ _⟩

theorem told_shutdownMiner (c : Controller) : Told c c.shutdownMiner id := by
  intro history c' h
  exact ⟨[.closing c history c'], Chronicle.closing h (Chronicle.nil _),
    List.flatMap_singleton _ _⟩

theorem told_evaluateCounted (c : Controller) : Told c c.evaluateCounted id := by
  refine told_bind (told_evaluate c) ?_
  rintro ⟨result, c'⟩
  cases result with
  | ok decision => exact told_done (Upkeep.same c')
  | error e => exact told_done ⟨by simp, rfl, rfl, rfl, rfl⟩

theorem upkeep_countEvents (c : Controller) (n : Nat) : Upkeep c [] (c.countEvents n) :=
  ⟨by simp, rfl, rfl, rfl, rfl⟩

theorem told_drain (subscription : Nat) (c : Controller) : Told c (drain subscription c) id :=
  told_act (fun _ => ⟨rfl, rfl, rfl⟩) fun events => told_done (upkeep_countEvents c events.length)

theorem told_resubscribe (c : Controller) (feed : Feed) (left : Nat) :
    Told c (Controller.resubscribe c.config feed left) fun _ => c := by
  induction left with
  | zero => exact told_done (Upkeep.same c)
  | succ left ih =>
      refine told_act (fun _ => ⟨rfl, rfl, rfl⟩) fun _ => ?_
      refine told_act (fun _ => ⟨rfl, rfl, rfl⟩) fun answer => ?_
      cases answer with
      | ok subscription => exact told_done (Upkeep.same c)
      | error e => exact ih

theorem told_finish (r : Run) (result : Except Error Unit) :
    Told r.controller (r.finish result) Stage.controller := by
  refine told_act (fun _ => ⟨rfl, rfl, rfl⟩) fun _ => ?_
  refine told_act (fun _ => ⟨rfl, rfl, rfl⟩) fun _ => ?_
  exact told_bind (told_shutdownMiner r.controller) fun c => told_done (Upkeep.same c)

theorem told_settle (r : Run) : Told r.controller r.settle Stage.controller := by
  refine told_bind (told_drain r.latest r.controller) fun c => ?_
  refine told_bind (told_drain r.pending c) fun c => ?_
  exact told_bind (told_evaluateCounted c) fun c => told_done (Upkeep.same c)

theorem told_wake (r : Run) (wake : Wake) :
    Told r.controller (r.wake wake) Stage.controller := by
  cases wake with
  | shutdown => exact told_finish r (.ok ())
  | event feed =>
      exact told_after (upkeep_countEvents r.controller 1)
        (told_settle { r with controller := r.controller.countEvents 1 })
  | closed feed =>
      refine told_bind (told_resubscribe r.controller feed _) fun answer => ?_
      cases answer with
      | ok subscription =>
          cases feed with
          | latest => exact told_settle { r with latest := subscription }
          | pending => exact told_settle { r with pending := subscription }
      | error e => exact told_finish r (.error e)

theorem told_start (c : Controller) : Told c (start c) Stage.controller := by
  refine told_act (fun _ => ⟨rfl, rfl, rfl⟩) fun answer => ?_
  cases answer with
  | error e => exact told_done (Upkeep.same c)
  | ok latest =>
      refine told_act (fun _ => ⟨rfl, rfl, rfl⟩) fun answer => ?_
      cases answer with
      | error e =>
          exact told_act (fun _ => ⟨rfl, rfl, rfl⟩) fun _ => told_done (Upkeep.same c)
      | ok pending =>
          exact told_bind (told_evaluateCounted c) fun c => told_done (Upkeep.same c)

theorem told_follow (wakes : List Wake) (stage : Stage) :
    Told stage.controller (follow wakes stage) Stage.controller := by
  induction wakes generalizing stage with
  | nil => exact told_done (Upkeep.same _)
  | cons wake wakes ih =>
      cases stage with
      | finished result c => exact told_done (Upkeep.same c)
      | waiting r => exact told_bind (told_wake r wake) ih

theorem told_operation (op : Operation) (c : Controller) : Told c (op.program c) id := by
  cases op with
  | evaluate => exact told_bind (told_evaluate c) fun answer => told_done (Upkeep.same _)
  | reconcile => exact told_bind (told_reconcile c) fun answer => told_done (Upkeep.same _)
  | run wakes =>
      exact told_bind (told_bind (told_start c) (told_follow wakes))
        fun stage => told_done (Upkeep.same _)

theorem told_operate (ops : List Operation) (c : Controller) : Told c (operate ops c) id := by
  induction ops generalizing c with
  | nil => exact told_done (Upkeep.same c)
  | cons op ops ih => exact told_bind (told_operation op c) ih

end Mining
end KeyRegistry
