import KeyRegistry.Proofs.Mining.Schedule
import KeyRegistry.Simulation.Basic

/-!
# The control loop of a simulation

While a simulation waits, its control loop follows a path: the virtual clock and
the order in which the loop looks for a reason to wake up only select among the
schedules, and the tasks that lock accounts are others who ask the node.
-/

namespace KeyRegistry

open Mining Node

def MinerTask.program : MinerTask -> Program Stage
  | .ready program => program
  | .asleep _ program => program
  | .waiting r => .done (.waiting r)
  | .finished result c => .done (.finished result c)

namespace Simulation

structure Shows (s : Simulation) (scene : Scene) : Prop where
  node_eq : scene.node = s.node
  loop_eq : ∃ task, s.miner = some task ∧ scene.loop = task.program

def Reaches (scene : Scene) (s : Simulation) : Prop :=
  ∃ path last, Path scene path last ∧ s.Shows last

theorem Shows.reaches {s : Simulation} {scene : Scene} (h : s.Shows scene) : Reaches scene s :=
  ⟨[], scene, Path.nil scene, h⟩

theorem Reaches.prepend {s : Simulation} {scene scene' : Scene} {path : List Moment}
    (hpath : Path scene path scene') (h : Reaches scene' s) : Reaches scene s := by
  rcases h with ⟨rest, last, hrest, hshows⟩
  exact ⟨path ++ rest, last, hpath.append hrest, hshows⟩

theorem Reaches.step {s : Simulation} {scene scene' : Scene} {happening : Happening}
    (hstep : Step scene happening scene') (h : Reaches scene' s) : Reaches scene s :=
  Reaches.prepend (Path.cons hstep (Path.nil scene')) h

/-! ## Acting -/

theorem reaches_stepMiner (program : Program Stage) (s : Simulation)
    (held : Feed -> Option Nat) :
    Reaches ⟨s.node, held, program⟩ (stepMiner program s) := by
  induction program generalizing s held with
  | done stage =>
      apply Shows.reaches
      cases stage with
      | waiting r => exact ⟨rfl, _, rfl, rfl⟩
      | finished result c => exact ⟨rfl, _, rfl, rfl⟩
  | perform action next ih =>
      cases action with
      | ask request =>
          exact Reaches.step (Step.exchange _ _ held 0 (.ask request) next _ rfl)
            (ih _ { s with node := (s.node.answer request).2 } _)
      | clock =>
          exact Reaches.step (Step.exchange _ _ held s.now .clock next _ rfl) (ih s.now s _)
      | guard address =>
          exact Reaches.step (Step.exchange _ _ held 0 (.guard address) next _ rfl) (ih () s _)
      | release =>
          exact Reaches.step (Step.exchange _ _ held 0 .release next _ rfl) (ih () s _)
      | drain id =>
          exact Reaches.step (Step.exchange _ _ held 0 (.drain id) next _ rfl)
            (ih _ { s with node := (s.node.drainEvents id).2 } _)
      | cancel id =>
          exact Reaches.step (Step.exchange _ _ held 0 (.cancel id) next _ rfl)
            (ih () { s with node := s.node.cancel id } _)
      | sleep d =>
          refine Reaches.step (Step.exchange _ _ held 0 (.sleep d) next _ rfl) ?_
          unfold stepMiner
          split
          · exact ih () s _
          · exact Shows.reaches ⟨rfl, _, rfl, rfl⟩

theorem wakes_of_wakeOf {s s' : Simulation} {r : Run} {wake : Wake}
    (h : s.wakeOf r = some (wake, s')) : Wakes s.node r wake s'.node := by
  unfold wakeOf at h
  split at h
  · cases h
    exact Wakes.shutdown
  · split at h
    · rename_i htaken
      cases h
      exact Wakes.event .latest _ _ htaken
    · split at h
      · rename_i hended
        cases h
        exact Wakes.closed .latest hended
      · split at h
        · rename_i htaken
          cases h
          exact Wakes.event .pending _ _ htaken
        · split at h
          · rename_i hended
            cases h
            exact Wakes.closed .pending hended
          · cases h

theorem reaches_runMiner (fuel : Nat) (s : Simulation) (scene : Scene) (h : s.Shows scene) :
    Reaches scene (runMiner fuel s) := by
  induction fuel generalizing s scene with
  | zero => exact h.reaches
  | succ fuel ih =>
      rcases scene with ⟨node, held, loop⟩
      rcases h with ⟨hnode, task, hminer, hloop⟩
      dsimp only at hnode hloop
      subst hnode hloop
      have hstay : Reaches ⟨s.node, held, task.program⟩ s :=
        Shows.reaches ⟨rfl, task, hminer, rfl⟩
      unfold runMiner
      rw [hminer]
      cases task with
      | ready program =>
          rcases reaches_stepMiner program s held with ⟨path, last, hpath, hshows⟩
          exact Reaches.prepend hpath (ih _ last hshows)
      | waiting r =>
          dsimp only
          split
          · rename_i wake s' hwake
            refine Reaches.step (Step.wake _ _ held r wake (wakes_of_wakeOf hwake)) ?_
            rcases reaches_stepMiner (r.wake wake) s' held with ⟨path, last, hpath, hshows⟩
            exact Reaches.prepend hpath (ih _ last hshows)
          · exact hstay
      | asleep wakeAt program => exact hstay
      | finished result c => exact hstay

/-! ## Waiting -/

theorem reaches_runLocks (s : Simulation) (scene : Scene) (h : s.Shows scene) :
    Reaches scene s.runLocks := by
  have hfold : forall (accounts : List Address) (s : Simulation) (scene : Scene),
      s.Shows scene -> Reaches scene (accounts.foldl
        (fun s address => { s with node := (s.node.answer (.lock address)).2 }) s) := by
    intro accounts
    induction accounts with
    | nil => exact fun s scene h => h.reaches
    | cons address accounts ih =>
        intro s scene h
        refine Reaches.step (Step.deed scene (.ask (.lock address))) (ih _ _ ?_)
        refine ⟨?_, h.loop_eq⟩
        show (scene.node.answer (.lock address)).2 = _
        rw [h.node_eq]
  exact hfold s.locks { s with locks := [] } scene ⟨h.node_eq, h.loop_eq⟩

theorem reaches_runReady (s : Simulation) (scene : Scene) (h : s.Shows scene) :
    Reaches scene s.runReady := by
  rcases reaches_runMiner s.wakeBound s scene h with ⟨path, last, hpath, hshows⟩
  exact Reaches.prepend hpath (reaches_runLocks _ last hshows)

theorem shows_fireTimer {s : Simulation} {scene : Scene} (h : s.Shows scene) :
    s.fireTimer.Shows scene := by
  rcases h with ⟨hnode, task, hminer, hloop⟩
  unfold fireTimer
  rw [hminer]
  cases task with
  | asleep wakeAt program => exact ⟨hnode, _, rfl, hloop⟩
  | _ => exact ⟨hnode, _, hminer, hloop⟩

/-- However long the simulation waits, and for whatever, its control loop follows a path. -/
theorem reaches_waitUntil (stop : Simulation -> Bool) (target fuel : Nat) (s : Simulation)
    (scene : Scene) (h : s.Shows scene) : Reaches scene (waitUntil stop target fuel s) := by
  induction fuel generalizing s scene with
  | zero => exact Shows.reaches ⟨h.node_eq, h.loop_eq⟩
  | succ fuel ih =>
      rcases reaches_runReady s scene h with ⟨path, last, hpath, hshows⟩
      have hlater : forall moment, Simulation.Shows { s.runReady with now := moment } last :=
        fun _ => ⟨hshows.node_eq, hshows.loop_eq⟩
      refine Reaches.prepend hpath ?_
      unfold waitUntil
      dsimp only
      split
      · exact hshows.reaches
      · split
        · split
          · exact ih _ last (shows_fireTimer hshows)
          · exact (hlater _).reaches
        · exact (hlater _).reaches

end Simulation
end KeyRegistry
