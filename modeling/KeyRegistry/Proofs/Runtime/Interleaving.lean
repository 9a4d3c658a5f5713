import KeyRegistry.Proofs.Program.Suspension

/-!
# Programs beside lock tasks

The main task runs one scope after another.  A scope that is cancelled leaves a
task for each of its open guards, and such a task may lock its account at any
later moment.  Every event carries the number of the scope on whose behalf it
happens, so that the events of one scope can be told from the others.
-/

namespace KeyRegistry
namespace Interleaving

open Program

/-- A task that locks an account of a cancelled scope. -/
structure Task where
  scope : Nat
  address : Address

inductive Act where
  | exchange (e : Exchange)
  | cancelled
  | lock (address : Address) (answer : Except RpcError Bool)

structure Event where
  scope : Nat
  act : Act

/-- One of the pending tasks runs, whichever it is and whatever it is answered. -/
inductive Serves : List Task -> Event -> List Task -> Prop where
  | serve (before after : List Task) (task : Task) (answer : Except RpcError Bool) :
      Serves (before ++ task :: after) ⟨task.scope, .lock task.address answer⟩ (before ++ after)

/-- What can happen while scope `n` runs a program with some guards open: from the pending tasks
at the start to those at the end, with a result or none where the program is cancelled. -/
inductive Runs {α : Type} (n : Nat) :
    Program α -> List Address -> List Task -> List Event -> Option α -> List Task -> Prop where
  | done (a : α) (guards : List Address) (tasks : List Task) :
      Runs n (.done a) guards tasks [] (some a) tasks
  | perform {action : Action} {next : action.Reply -> Program α} {guards : List Address}
      {tasks last : List Task} {events : List Event} {outcome : Option α} (reply : action.Reply) :
      Runs n (next reply) (action.held guards) tasks events outcome last ->
      Runs n (.perform action next) guards tasks (⟨n, .exchange ⟨action, reply⟩⟩ :: events)
        outcome last
  | serve {program : Program α} {guards : List Address} {tasks tasks' last : List Task}
      {event : Event} {events : List Event} {outcome : Option α} :
      Serves tasks event tasks' ->
      Runs n program guards tasks' events outcome last ->
      Runs n program guards tasks (event :: events) outcome last
  | cancelled {d : Duration} {next : Unit -> Program α} {guards : List Address}
      {tasks : List Task} :
      Runs n (.perform (.sleep d) next) guards tasks [⟨n, .cancelled⟩] none
        (tasks ++ guards.map (Task.mk n))

/-! ## What belongs to a scope -/

def view (n : Nat) (events : List Event) : List Act :=
  (events.filter fun event => event.scope = n).map Event.act

/-- The accounts that tasks of scope `n` still have to lock. -/
def owed (n : Nat) (tasks : List Task) : List Address :=
  (tasks.filter fun task => task.scope = n).map Task.address

@[simp] theorem view_append (n : Nat) (first rest : List Event) :
    view n (first ++ rest) = view n first ++ view n rest := by
  simp [view]

@[simp] theorem view_cons_self (n : Nat) (act : Act) (events : List Event) :
    view n (⟨n, act⟩ :: events) = act :: view n events := by
  simp [view]

theorem view_cons_of_ne {n : Nat} {event : Event} (h : event.scope ≠ n) (events : List Event) :
    view n (event :: events) = view n events := by
  simp [view, h]

@[simp] theorem owed_append (n : Nat) (first rest : List Task) :
    owed n (first ++ rest) = owed n first ++ owed n rest := by
  simp [owed]

theorem owed_cons_self (task : Task) (tasks : List Task) :
    owed task.scope (task :: tasks) = task.address :: owed task.scope tasks := by
  simp [owed]

theorem owed_cons_of_ne {n : Nat} (task : Task) (h : task.scope ≠ n) (tasks : List Task) :
    owed n (task :: tasks) = owed n tasks := by
  simp [owed, h]

theorem owed_spawned (n : Nat) (guards : List Address) :
    owed n (guards.map (Task.mk n)) = guards := by
  induction guards with
  | nil => rfl
  | cons address guards ih =>
      rw [List.map_cons, owed_cons_self ⟨n, address⟩]
      exact congrArg (address :: ·) ih

theorem owed_spawned_of_ne {m n : Nat} (h : n ≠ m) (guards : List Address) :
    owed m (guards.map (Task.mk n)) = [] := by
  induction guards with
  | nil => rfl
  | cons address guards ih =>
      rw [List.map_cons, owed_cons_of_ne ⟨n, address⟩ h]
      exact ih

/-! ## The tasks of other scopes -/

def lockActs (locks : List (Address × Except RpcError Bool)) : List Act :=
  locks.map fun l => .lock l.1 l.2

def Settles (m : Nat) (tasks : List Task) (events : List Event) (tasks' : List Task) : Prop :=
  ∃ locks, view m events = lockActs locks ∧
    (owed m tasks).Perm (locks.map Prod.fst ++ owed m tasks')

theorem settles_nil (m : Nat) (tasks : List Task) : Settles m tasks [] tasks :=
  ⟨[], rfl, List.Perm.refl _⟩

theorem Settles.append {m : Nat} {tasks tasks' last : List Task} {first rest : List Event}
    (hfirst : Settles m tasks first tasks') (hrest : Settles m tasks' rest last) :
    Settles m tasks (first ++ rest) last := by
  rcases hfirst with ⟨locks, hview, hperm⟩
  rcases hrest with ⟨locks', hview', hperm'⟩
  refine ⟨locks ++ locks', ?_, ?_⟩
  · rw [view_append, hview, hview', lockActs, lockActs, lockActs, List.map_append]
  · rw [List.map_append, List.append_assoc]
    exact hperm.trans (hperm'.append_left _)

theorem Serves.settles {tasks tasks' : List Task} {event : Event} (h : Serves tasks event tasks')
    (m : Nat) : Settles m tasks [event] tasks' := by
  cases h with
  | serve before after task answer =>
      by_cases hscope : task.scope = m
      · subst hscope
        refine ⟨[(task.address, answer)], ?_, ?_⟩
        · rw [view_cons_self]
          rfl
        · rw [owed_append, owed_append, owed_cons_self]
          exact List.perm_middle
      · refine ⟨[], ?_, ?_⟩
        · rw [view_cons_of_ne hscope]
          rfl
        · rw [owed_append, owed_append, owed_cons_of_ne task hscope]
          exact List.Perm.refl _

/-- A scope that owes nothing has no part in the run of a task. -/
theorem Serves.of_owed_nil {n : Nat} {tasks tasks' : List Task} {event : Event}
    (h : Serves tasks event tasks') (hnone : owed n tasks = []) :
    event.scope ≠ n ∧ owed n tasks' = [] := by
  cases h with
  | serve before after task answer =>
      rw [owed_append] at hnone
      rcases List.append_eq_nil_iff.mp hnone with ⟨hbefore, hmore⟩
      have hscope : task.scope ≠ n := by
        intro hscope
        subst hscope
        rw [owed_cons_self] at hmore
        cases hmore
      rw [owed_cons_of_ne task hscope] at hmore
      refine ⟨hscope, ?_⟩
      rw [owed_append, hbefore, hmore]
      rfl

theorem Serves.mem {tasks tasks' : List Task} {event : Event} (h : Serves tasks event tasks')
    {task : Task} (hmem : task ∈ tasks') : task ∈ tasks := by
  cases h with
  | serve before after served answer =>
      rcases List.mem_append.mp hmem with hbefore | hafter
      · exact List.mem_append_left _ hbefore
      · exact List.mem_append_right _ (List.mem_cons_of_mem _ hafter)

theorem settles_of_runs {α : Type} {m n : Nat} {program : Program α} {guards : List Address}
    {tasks last : List Task} {events : List Event} {outcome : Option α} (hne : n ≠ m)
    (h : Runs n program guards tasks events outcome last) : Settles m tasks events last := by
  induction h with
  | done a guards tasks => exact settles_nil m tasks
  | perform reply _ ih =>
      rcases ih with ⟨locks, hview, hperm⟩
      exact ⟨locks, (view_cons_of_ne hne _).trans hview, hperm⟩
  | serve hserves _ ih => exact (hserves.settles m).append ih
  | cancelled =>
      refine ⟨[], view_cons_of_ne hne _, ?_⟩
      rw [owed_append, owed_spawned_of_ne hne, List.append_nil]
      exact List.Perm.refl _

theorem mem_or_scope_of_runs {α : Type} {n : Nat} {program : Program α} {guards : List Address}
    {tasks last : List Task} {events : List Event} {outcome : Option α}
    (h : Runs n program guards tasks events outcome last) :
    forall task, task ∈ last -> task ∈ tasks ∨ task.scope = n := by
  induction h with
  | done a guards tasks => exact fun task hmem => Or.inl hmem
  | perform reply _ ih => exact ih
  | serve hserves _ ih => exact fun task hmem => (ih task hmem).imp_left hserves.mem
  | cancelled =>
      intro task hmem
      rcases List.mem_append.mp hmem with hold | hnew
      · exact Or.inl hold
      · rcases List.mem_map.mp hnew with ⟨address, _, rfl⟩
        exact Or.inr rfl

/-! ## The running scope -/

/-- What the main task exchanges in some events. -/
def exchanges (events : List Event) : List Exchange :=
  events.filterMap fun event =>
    match event.act with
    | .exchange e => some e
    | _ => none

theorem exchanges_serve {tasks tasks' : List Task} {event : Event}
    (h : Serves tasks event tasks') (events : List Event) :
    exchanges (event :: events) = exchanges events := by
  cases h
  rfl

def ownActs {α : Type} (history : List Exchange) : Option α -> List Act
  | some _ => history.map .exchange
  | none => history.map .exchange ++ [.cancelled]

def abandoned {α : Type} (guards : List Address) (history : List Exchange) :
    Option α -> List Address
  | some _ => []
  | none => openGuards guards history

theorem ownActs_cons {α : Type} (e : Exchange) (history : List Exchange) (outcome : Option α) :
    ownActs (e :: history) outcome = .exchange e :: ownActs history outcome := by
  cases outcome <;> rfl

theorem abandoned_cons {α : Type} (guards : List Address) (e : Exchange)
    (history : List Exchange) (outcome : Option α) :
    abandoned guards (e :: history) outcome = abandoned (e.1.held guards) history outcome := by
  cases outcome <;> rfl

theorem ends_of_runs {α : Type} {n : Nat} {program : Program α} {guards : List Address}
    {tasks last : List Task} {events : List Event} {outcome : Option α}
    (h : Runs n program guards tasks events outcome last) :
    program.Ends (exchanges events) outcome := by
  induction h with
  | done a guards tasks => exact Yields.done a
  | perform reply _ ih => exact ih.perform
  | serve hserves _ ih =>
      rw [exchanges_serve hserves]
      exact ih
  | cancelled => exact Suspends.asleep

theorem view_of_runs {α : Type} {n : Nat} {program : Program α} {guards : List Address}
    {tasks last : List Task} {events : List Event} {outcome : Option α}
    (h : Runs n program guards tasks events outcome last) (hnone : owed n tasks = []) :
    view n events = ownActs (exchanges events) outcome ∧
      owed n last = abandoned guards (exchanges events) outcome := by
  induction h with
  | done a guards tasks => exact ⟨rfl, hnone⟩
  | @perform action next guards tasks last events outcome reply _ ih =>
      have hexchanges : exchanges (⟨n, .exchange ⟨action, reply⟩⟩ :: events) =
          ⟨action, reply⟩ :: exchanges events := rfl
      rcases ih hnone with ⟨hview, howed⟩
      rw [view_cons_self, hexchanges, ownActs_cons, abandoned_cons, hview]
      exact ⟨rfl, howed⟩
  | serve hserves _ ih =>
      rcases hserves.of_owed_nil hnone with ⟨hscope, hstill⟩
      rw [view_cons_of_ne hscope, exchanges_serve hserves]
      exact ih hstill
  | cancelled =>
      rw [owed_append, hnone, owed_spawned]
      exact ⟨view_cons_self n _ [], rfl⟩

/-! ## Counts of locks -/

def isLock (address : Address) : Exchange -> Bool
  | ⟨.ask (.lock a), _⟩ => a == address
  | _ => false

/-- An unlock of `address` that the node grants. -/
def isUnlock (address : Address) : Exchange -> Bool
  | ⟨.ask (.unlock a _ _), .ok true⟩ => a == address
  | _ => false

namespace Act

def exchange? : Act -> Option Exchange
  | .exchange e => some e
  | _ => none

def isLock (address : Address) : Act -> Bool
  | .exchange e => Interleaving.isLock address e
  | .cancelled => false
  | .lock a _ => a == address

def isUnlock (address : Address) : Act -> Bool
  | .exchange e => Interleaving.isUnlock address e
  | .cancelled => false
  | .lock _ _ => false

end Act

def Event.isLock (address : Address) (event : Event) : Bool :=
  event.act.isLock address

def Event.isUnlock (address : Address) (event : Event) : Bool :=
  event.act.isUnlock address

/-- How many tasks still have to lock `address`. -/
def due (address : Address) (tasks : List Task) : Nat :=
  tasks.countP fun task => task.address == address

theorem Serves.locks {tasks tasks' : List Task} {event : Event} (h : Serves tasks event tasks')
    (address : Address) :
    [event].countP (Event.isLock address) + due address tasks' = due address tasks := by
  cases h with
  | serve before after task answer =>
      have hone : [(⟨task.scope, .lock task.address answer⟩ : Event)].countP
          (Event.isLock address) = [task].countP fun task => task.address == address := rfl
      have hsplit : (task :: after).countP (fun task => task.address == address) =
          [task].countP (fun task => task.address == address) +
            after.countP fun task => task.address == address := by
        rw [← List.countP_append]
        rfl
      rw [hone, due, due, List.countP_append, List.countP_append, hsplit]
      omega

theorem Serves.unlocks {tasks tasks' : List Task} {event : Event}
    (h : Serves tasks event tasks') (address : Address) : event.isUnlock address = false := by
  cases h
  rfl

theorem due_spawned (address : Address) (n : Nat) (guards : List Address) :
    due address (guards.map (Task.mk n)) = guards.count address := by
  rw [due, List.countP_map]
  rfl

/-- Locks and pending tasks account for the locks of the program itself, for the tasks that were
pending before, and for the guards that it leaves. -/
theorem locks_of_runs {α : Type} {n : Nat} {program : Program α} {guards : List Address}
    {tasks last : List Task} {events : List Event} {outcome : Option α}
    (h : Runs n program guards tasks events outcome last) (address : Address) :
    events.countP (Event.isLock address) + due address last =
      (exchanges events).countP (isLock address) + due address tasks +
        (abandoned guards (exchanges events) outcome).count address := by
  -- a task that runs moves its account from what is due to what is locked
  induction h with
  | done a guards tasks => simp [exchanges, abandoned]
  | @perform action next guards tasks last events outcome reply _ ih =>
      have hexchanges : exchanges (⟨n, .exchange ⟨action, reply⟩⟩ :: events) =
          ⟨action, reply⟩ :: exchanges events := rfl
      have hlock : (⟨n, .exchange ⟨action, reply⟩⟩ : Event).isLock address =
          isLock address ⟨action, reply⟩ := rfl
      have habandoned := abandoned_cons guards ⟨action, reply⟩ (exchanges events) outcome
      rw [hexchanges, habandoned, List.countP_cons, List.countP_cons, hlock]
      dsimp only at ih ⊢
      omega
  | @serve program guards tasks tasks' last event events outcome hserves _ ih =>
      have hserved := hserves.locks address
      rw [exchanges_serve hserves, ← List.singleton_append, List.countP_append]
      omega
  | @cancelled d next guards tasks =>
      have hquiet : [(⟨n, .cancelled⟩ : Event)].countP (Event.isLock address) = 0 := rfl
      have hexchanges : exchanges [⟨n, .cancelled⟩] = [] := rfl
      rw [hquiet, hexchanges, due, List.countP_append, ← due, ← due, due_spawned]
      simp [abandoned]

theorem unlocks_of_runs {α : Type} {n : Nat} {program : Program α} {guards : List Address}
    {tasks last : List Task} {events : List Event} {outcome : Option α}
    (h : Runs n program guards tasks events outcome last) (address : Address) :
    events.countP (Event.isUnlock address) = (exchanges events).countP (isUnlock address) := by
  induction h with
  | done a guards tasks => rfl
  | @perform action next guards tasks last events outcome reply _ ih =>
      have hexchanges : exchanges (⟨n, .exchange ⟨action, reply⟩⟩ :: events) =
          ⟨action, reply⟩ :: exchanges events := rfl
      have hunlock : (⟨n, .exchange ⟨action, reply⟩⟩ : Event).isUnlock address =
          isUnlock address ⟨action, reply⟩ := rfl
      rw [hexchanges, List.countP_cons, List.countP_cons, hunlock, ih]
  | serve hserves _ ih =>
      rw [exchanges_serve hserves, List.countP_cons, hserves.unlocks address, ih]
      rfl
  | cancelled => rfl

end Interleaving
end KeyRegistry
