import KeyRegistry.Proofs.Runtime.Interleaving
import KeyRegistry.Simulation.Basic

/-!
# Simulated runs

Where no control loop runs, the virtual clock takes a program through one of the
interleavings of lock tasks with it: pending tasks run while the program sleeps,
and a deadline cancels it there.
-/

namespace KeyRegistry

/-! ## What a scripted node records -/

namespace Node.State

theorem calls_respond (s : State) (request : Request) : (s.respond request).2.calls = s.calls := by
  cases request with
  | gasPrice => cases h : s.gasPriceErrors <;> simp only [respond, h]
  | send call plan => cases h : s.sendErrors <;> simp only [respond, accept, h]
  | pendingCount => cases h : s.pendingErrors <;> simp only [respond, h]
  | startMining threads => cases h : s.miningErrors <;> simp only [respond, h]
  | stopMining => cases h : s.miningErrors <;> simp only [respond, h]
  | subscribe feed => cases h : s.subscribeErrors <;> simp only [respond, h]
  | accounts => rfl
  | unlock address passphrase duration => rfl
  | lock address => rfl
  | estimateGas call => rfl
  | execute call => rfl
  | receipt hash => rfl
  | isMining => rfl
  | blockNumber => rfl

theorem calls_answer (s : State) (request : Request) :
    (s.answer request).2.calls = request :: s.calls :=
  calls_respond _ request

end Node.State

namespace Interleaving

/-! ## Requests of events -/

def Event.request? (event : Event) : Option Request :=
  match event.act with
  | .exchange ⟨.ask request, _⟩ => some request
  | .exchange _ => none
  | .cancelled => none
  | .lock address _ => some (.lock address)

def asked (events : List Event) : List Request :=
  events.filterMap Event.request?

theorem asked_append (first rest : List Event) : asked (first ++ rest) = asked first ++ asked rest :=
  List.filterMap_append

theorem accounts_spawned (n : Nat) (guards : List Address) :
    (guards.map (Task.mk n)).map Task.address = guards := by
  rw [List.map_map]
  exact List.map_id guards

/-- A simulation goes from `s` to `s'` by some events: the node has been asked what it is asked
there, and the tasks at the end are those still pending. -/
structure Follows (s : Simulation) (events : List Event) (tasks : List Task) (s' : Simulation) :
    Prop where
  miner_eq : s'.miner = none
  locks_eq : s'.locks = tasks.map Task.address
  calls_eq : s'.node.calls = (asked events).reverse ++ s.node.calls

theorem Follows.append {s s' s'' : Simulation} {first rest : List Event}
    {tasks tasks' : List Task} (hfirst : Follows s first tasks s')
    (hrest : Follows s' rest tasks' s'') : Follows s (first ++ rest) tasks' s'' where
  miner_eq := hrest.miner_eq
  locks_eq := hrest.locks_eq
  calls_eq := by
    rw [hrest.calls_eq, hfirst.calls_eq, asked_append, List.reverse_append, List.append_assoc]

/-! ## Pauses -/

def serving : List Task -> Node.State -> List Event
  | [], _ => []
  | task :: tasks, node =>
      ⟨task.scope, .lock task.address (node.answer (.lock task.address)).1⟩ ::
        serving tasks (node.answer (.lock task.address)).2

theorem runs_serving {α : Type} {n : Nat} {program : Program α} {guards : List Address}
    {last : List Task} {events : List Event} {outcome : Option α}
    (h : Runs n program guards [] events outcome last) (tasks : List Task) (node : Node.State) :
    Runs n program guards tasks (serving tasks node ++ events) outcome last := by
  induction tasks generalizing node with
  | nil => exact h
  | cons task tasks ih => exact Runs.serve (Serves.serve [] tasks task _) (ih _)

theorem runLocks_of_locks (s : Simulation) (tasks : List Task)
    (hlocks : s.locks = tasks.map Task.address) :
    s.runLocks.miner = s.miner ∧ s.runLocks.locks = [] ∧
      s.runLocks.node.calls = (asked (serving tasks s.node)).reverse ++ s.node.calls := by
  have hfold : forall s' : Simulation,
      let last := (tasks.map Task.address).foldl
        (fun s address => { s with node := (s.node.answer (.lock address)).2 }) s'
      last.miner = s'.miner ∧ last.locks = s'.locks ∧
        last.node.calls = (asked (serving tasks s'.node)).reverse ++ s'.node.calls := by
    clear hlocks
    induction tasks with
    | nil => exact fun s' => ⟨rfl, rfl, rfl⟩
    | cons task tasks ih =>
        intro s'
        rcases ih { s' with node := (s'.node.answer (.lock task.address)).2 } with
          ⟨hminer, hlocks, hcalls⟩
        refine ⟨hminer, hlocks, hcalls.trans ?_⟩
        rw [Node.State.calls_answer]
        simp [asked, serving, Event.request?]
  rw [Simulation.runLocks, hlocks]
  exact hfold { s with locks := [] }

theorem runMiner_of_none {s : Simulation} (hminer : s.miner = none) (fuel : Nat) :
    s.runMiner fuel = s := by
  cases fuel with
  | zero => rfl
  | succ fuel =>
      unfold Simulation.runMiner
      rw [hminer]

theorem runLocks_induction {P : Simulation -> Prop} (s : Simulation)
    (hstart : P { s with locks := [] })
    (hlock : forall s' address, P s' -> P { s' with node := (s'.node.answer (.lock address)).2 }) :
    P s.runLocks :=
  List.foldlRecOn s.locks _ hstart fun s' hs' address _ => hlock s' address hs'

theorem pause_of_none {s : Simulation} (hminer : s.miner = none) {nanos : Nat}
    (hnanos : nanos ≠ 0) : s.pause nanos = { s.runLocks with now := s.now + nanos } := by
  have hready : s.runReady = s.runLocks := by
    unfold Simulation.runReady
    rw [runMiner_of_none hminer]
  have hlocks : s.runLocks.miner = none ∧ s.runLocks.now = s.now := by
    apply runLocks_induction (P := fun s' => s'.miner = none ∧ s'.now = s.now)
    · exact ⟨hminer, rfl⟩
    · intro s' address h
      exact h
  have htimer : s.runLocks.minerTimer? = none := by
    unfold Simulation.minerTimer?
    rw [hlocks.1]
  unfold Simulation.pause
  rw [if_neg hnanos]
  unfold Simulation.waitUntil
  simp only [hready, htimer, Bool.false_eq_true, if_false, hlocks.2,
    Nat.max_eq_right (Nat.le_add_right s.now nanos)]

theorem serves_pause {s : Simulation} {tasks : List Task} (hminer : s.miner = none)
    (hlocks : s.locks = tasks.map Task.address) (nanos : Nat) :
    ∃ served left, Follows s served left (s.pause nanos) ∧
      (served = [] ∧ left = tasks ∨ served = serving tasks s.node ∧ left = []) := by
  by_cases hnanos : nanos = 0
  · have hsame : s.pause nanos = s := by
      unfold Simulation.pause
      rw [if_pos hnanos]
    rw [hsame]
    exact ⟨[], tasks, ⟨hminer, hlocks, rfl⟩, Or.inl ⟨rfl, rfl⟩⟩
  · rcases runLocks_of_locks s tasks hlocks with ⟨hminer', hlocks', hcalls⟩
    rw [pause_of_none hminer hnanos]
    exact ⟨serving tasks s.node, [], ⟨hminer'.trans hminer, hlocks', hcalls⟩, Or.inr ⟨rfl, rfl⟩⟩

/-! ## Programs -/

/-- What a simulation makes of a program from `s` on is one of the interleavings of it with the
pending tasks. -/
def Simulates {α : Type} (n : Nat) (program : Program α) (guards : List Address)
    (s : Simulation) (tasks : List Task) (answer : Option α × Simulation) : Prop :=
  ∃ events last, Runs n program guards tasks events answer.1 last ∧
    Follows s events last answer.2

section

variable {α : Type} {n : Nat} {guards : List Address} {s : Simulation} {tasks : List Task}
  {answer : Option α × Simulation}

theorem Simulates.perform {action : Action} {next : action.Reply -> Program α}
    {reply : action.Reply} {s' : Simulation}
    (hfirst : Follows s [⟨n, .exchange ⟨action, reply⟩⟩] tasks s')
    (hrest : Simulates n (next reply) (action.held guards) s' tasks answer) :
    Simulates n (.perform action next) guards s tasks answer := by
  rcases hrest with ⟨events, last, hruns, hfollows⟩
  exact ⟨_, last, Runs.perform reply hruns, hfirst.append hfollows⟩

theorem Simulates.pause {program : Program α} {nanos : Nat} (hminer : s.miner = none)
    (hlocks : s.locks = tasks.map Task.address)
    (hrest : forall left, (s.pause nanos).miner = none ->
      (s.pause nanos).locks = left.map Task.address ->
      Simulates n program guards (s.pause nanos) left answer) :
    Simulates n program guards s tasks answer := by
  rcases serves_pause hminer hlocks nanos with ⟨served, left, hfollows, hserved⟩
  rcases hrest left hfollows.miner_eq hfollows.locks_eq with ⟨events, last, hruns, hmore⟩
  refine ⟨served ++ events, last, ?_, hfollows.append hmore⟩
  rcases hserved with ⟨rfl, rfl⟩ | ⟨rfl, rfl⟩
  · exact hruns
  · exact runs_serving hruns tasks s.node

theorem simulates_cancelled {d : Duration} {next : Unit -> Program α} (hminer : s.miner = none)
    (hlocks : s.locks = tasks.map Task.address) :
    Simulates n (.perform (.sleep d) next) guards s tasks
      (none, { s with locks := s.locks ++ guards }) := by
  refine ⟨_, _, Runs.cancelled, hminer, ?_, rfl⟩
  rw [List.map_append, accounts_spawned, ← hlocks]

end

theorem simulates_exec {α : Type} (n : Nat) (deadline : Option Nat) (program : Program α)
    (guards : List Address) (s : Simulation) (tasks : List Task) (hminer : s.miner = none)
    (hlocks : s.locks = tasks.map Task.address) :
    Simulates n program guards s tasks (s.exec deadline program guards) := by
  induction program generalizing guards s tasks with
  | done a => exact ⟨[], tasks, Runs.done a guards tasks, hminer, hlocks, rfl⟩
  | perform action next ih =>
      cases action with
      | ask request =>
          have hfirst : Follows s
              [⟨n, .exchange ⟨.ask request, (s.node.answer request).1⟩⟩] tasks
              { s with node := (s.node.answer request).2 } :=
            ⟨hminer, hlocks, Node.State.calls_answer s.node request⟩
          exact Simulates.perform hfirst (ih _ guards _ tasks hminer hlocks)
      | clock =>
          exact Simulates.perform ⟨hminer, hlocks, rfl⟩ (ih s.now guards s tasks hminer hlocks)
      | guard address =>
          exact Simulates.perform ⟨hminer, hlocks, rfl⟩
            (ih () (address :: guards) s tasks hminer hlocks)
      | release =>
          exact Simulates.perform ⟨hminer, hlocks, rfl⟩ (ih () guards.tail s tasks hminer hlocks)
      | drain id =>
          have hfirst : Follows s
              [⟨n, .exchange ⟨.drain id, (s.node.drainEvents id).1⟩⟩] tasks
              { s with node := (s.node.drainEvents id).2 } := ⟨hminer, hlocks, rfl⟩
          exact Simulates.perform hfirst (ih _ guards _ tasks hminer hlocks)
      | cancel id =>
          have hfirst : Follows s [⟨n, .exchange ⟨.cancel id, ()⟩⟩] tasks
              { s with node := s.node.cancel id } := ⟨hminer, hlocks, rfl⟩
          exact Simulates.perform hfirst (ih () guards _ tasks hminer hlocks)
      | sleep d =>
          -- the tasks run before the sleep is over
          have hslept : Simulates n (.perform (.sleep d) next) guards s tasks
              ((s.pause d.nanos).exec deadline (next ()) guards) :=
            Simulates.pause hminer hlocks fun left hminer' hlocks' =>
              Simulates.perform ⟨hminer', hlocks', rfl⟩ (ih () guards _ left hminer' hlocks')
          unfold Simulation.exec
          split
          · exact Simulates.perform ⟨hminer, hlocks, rfl⟩ (ih () guards s tasks hminer hlocks)
          · split
            · exact hslept
            · split
              · exact hslept
              · exact Simulates.pause hminer hlocks fun left hminer' hlocks' =>
                  simulates_cancelled hminer' hlocks'

end Interleaving
end KeyRegistry
