import KeyRegistry.Proofs.Runtime.Simulation
import KeyRegistry.Proofs.Session.Scopes

/-!
# Late locks

The lock of a cancelled scope is a task of its own.  It may run while the work of
a later scope needs the same account, and then locks it under that work.  This is
the only way: where no task for the account is pending when a scope begins, the
account is not locked during the scope but by the scope itself and its work.
-/

namespace KeyRegistry

namespace Interleaving

/-- A lock that is not asked for by the program itself is that of a task which was pending. -/
theorem task_of_lock {α : Type} {n : Nat} {program : Program α} {guards : List Address}
    {tasks last : List Task} {events : List Event} {outcome : Option α}
    (h : Runs n program guards tasks events outcome last) :
    forall event, event ∈ events -> forall address answer, event.act = .lock address answer ->
      (⟨event.scope, address⟩ : Task) ∈ tasks := by
  induction h with
  | done a guards tasks =>
      intro event hmem
      cases hmem
  | perform reply _ ih =>
      intro event hmem address answer hact
      rcases List.mem_cons.mp hmem with rfl | hmem
      · cases hact
      · exact ih event hmem address answer hact
  | serve hserves _ ih =>
      intro event hmem address answer hact
      rcases List.mem_cons.mp hmem with rfl | hmem
      · cases hserves with
        | serve before after task served =>
            cases hact
            exact List.mem_append_right _ List.mem_cons_self
      · exact hserves.mem (ih event hmem address answer hact)
  | cancelled =>
      intro event hmem address answer hact
      rw [List.mem_singleton.mp hmem] at hact
      cases hact

end Interleaving

namespace Session

open Program Interleaving

theorem no_late_lock {scope : Scope} {n : Nat} {tasks last : List Task} {events : List Event}
    {outcome : scope.Outcome} (h : Runs n scope.program [] tasks events outcome last)
    (hnone : forall task, task ∈ tasks -> task.address ≠ scope.address) :
    forall event, event ∈ events -> forall answer, event.act ≠ .lock scope.address answer := by
  intro event hmem answer hact
  exact hnone _ (task_of_lock h event hmem scope.address answer hact) rfl

/-! ## Simulated sequences -/

/-- A scope, the moment at which it is cancelled, and the time until the next one. -/
structure Turn where
  scope : Scope
  deadline : Option Nat
  pause : Nat

def attend : List Turn -> Simulation -> List Ended × Simulation
  | [], s => ([], s)
  | turn :: turns, s =>
      let ended := s.exec turn.deadline turn.scope.program []
      let more := attend turns (ended.2.pause turn.pause)
      (⟨turn.scope, ended.1⟩ :: more.1, more.2)

def watching (address : Address) : Scope where
  session := ⟨defaultUnlockDuration⟩
  address := address
  passphrase := ""
  Result := Unit
  work := .perform (.sleep (Duration.ofSecs 1)) fun _ =>
    .perform (.ask .blockNumber) fun _ => .done (.ok ())
  balanced := balanced_of_unguarded
    ⟨fun _ => rfl, fun _ => ⟨fun _ => rfl, fun _ => trivial⟩⟩

theorem sequence_serving {n : Nat} {ended : List Ended} {last : List Task} {events : List Event}
    (h : Sequence n ended [] events last) (tasks : List Task) (node : Node.State) :
    Sequence n ended tasks (serving tasks node ++ events) last := by
  induction tasks generalizing node with
  | nil => exact h
  | cons task tasks ih => exact Sequence.serve (Serves.serve [] tasks task _) (ih _)

theorem sequence_of_attend (n : Nat) (turns : List Turn) (s : Simulation) (tasks : List Task)
    (hminer : s.miner = none) (hlocks : s.locks = tasks.map Task.address) :
    ∃ events last,
      Sequence n (attend turns s).1 tasks events last ∧ Follows s events last (attend turns s).2 := by
  induction turns generalizing n s tasks with
  | nil => exact ⟨[], tasks, Sequence.nil n tasks, hminer, hlocks, rfl⟩
  | cons turn turns ih =>
      rcases simulates_exec n turn.deadline turn.scope.program [] s tasks hminer hlocks with
        ⟨during, left, hruns, hduring⟩
      rcases serves_pause hduring.miner_eq hduring.locks_eq turn.pause with
        ⟨served, left', hpause, hserved⟩
      rcases ih (n + 1) _ left' hpause.miner_eq hpause.locks_eq with
        ⟨after, last, hmore, hafter⟩
      have hall := hduring.append (hpause.append hafter)
      rcases hserved with ⟨rfl, rfl⟩ | ⟨rfl, rfl⟩
      · exact ⟨_, last, Sequence.scope hruns hmore, hall⟩
      · exact ⟨_, last, Sequence.scope hruns (sequence_serving hmore left _), hall⟩

-- a scope that follows a cancelled one at once is locked by the other's task during its work
example :
    (attend [⟨watching Node.State.defaultAccount, some 0, 0⟩,
        ⟨watching Node.State.defaultAccount, none, 0⟩] Simulation.start).2.node.calls.reverse =
      [.unlock Node.State.defaultAccount "" defaultUnlockDuration,
        .unlock Node.State.defaultAccount "" defaultUnlockDuration,
        .lock Node.State.defaultAccount, .blockNumber, .lock Node.State.defaultAccount] := by
  rfl

end Session
end KeyRegistry
