import KeyRegistry.Proofs.Runtime.Interleaving
import KeyRegistry.Proofs.Session

/-!
# Sequences of unlocked scopes

Scopes run one after another, each to its end or until it is cancelled, while the
lock tasks of cancelled scopes run at any moments.  A scope whose account was
unlocked has it locked once, by itself or by a task, and only when its work is
over.  Locks and pending tasks together account for all unlocks.
-/

namespace KeyRegistry
namespace Session

open Program Interleaving

/-! ## Scopes -/

/-- A scope with its work.  A work may hold scopes of its own, but it closes no guard that is not
its own. -/
structure Scope where
  session : Session
  address : Address
  passphrase : String
  Result : Type
  work : Program (Except Pipeline.Error Result)
  balanced : Balanced work

namespace Scope

abbrev Outcome (scope : Scope) : Type :=
  Option (Except Pipeline.Error scope.Result)

def program (scope : Scope) : Program (Except Pipeline.Error scope.Result) :=
  scope.session.withUnlockedAccount scope.address scope.passphrase scope.work

def unlock (scope : Scope) (answer : Except RpcError Bool) : Act :=
  .exchange
    ⟨.ask (.unlock scope.address scope.passphrase scope.session.unlockDuration), answer⟩

def guard (scope : Scope) : Act :=
  .exchange ⟨.guard scope.address, ()⟩

def lock (scope : Scope) (answer : Except RpcError Bool) : Act :=
  .exchange ⟨.ask (.lock scope.address), answer⟩

def release : Act :=
  .exchange ⟨.release, ()⟩

/-- What happens on behalf of a scope, its outcome, and the accounts that tasks of it have yet to
lock.  A cancelled scope leaves a task for its own account, and one for each scope inside its work
that was open. -/
inductive Course (scope : Scope) : List Act -> scope.Outcome -> List Address -> Prop where
  | refused :
      Course scope [scope.unlock (.ok false)]
        (some (.error (.unlockFailed scope.address .refused))) []
  | failed (e : RpcError) :
      Course scope [scope.unlock (.error e)]
        (some (.error (.unlockFailed scope.address (.failed e)))) []
  | finished (during : List Exchange) (result : Except Pipeline.Error scope.Result)
      (locked : Except RpcError Bool) :
      Yields scope.work during result ->
      Course scope
        (scope.unlock (.ok true) :: scope.guard ::
          (during.map .exchange ++ [scope.lock locked, release]))
        (some result) []
  | cancelled (during : List Exchange) (locks : List (Address × Except RpcError Bool))
      (pending : List Address) :
      Suspends scope.work during ->
      (openGuards [] during ++ [scope.address]).Perm (locks.map Prod.fst ++ pending) ->
      Course scope
        (scope.unlock (.ok true) :: scope.guard ::
          (during.map .exchange ++ .cancelled :: lockActs locks))
        none pending

theorem course_of_ends {scope : Scope} {history : List Exchange} {outcome : scope.Outcome}
    (h : scope.program.Ends history outcome) :
    scope.Course (ownActs history outcome) outcome (abandoned [] history outcome) := by
  cases enclosed_of_ends h with
  | refused => exact Course.refused
  | failed e => exact Course.failed e
  | @finished during result locked hyields =>
      have hacts : ownActs (⟨.ask (.unlock scope.address scope.passphrase
            scope.session.unlockDuration), .ok true⟩ :: ⟨.guard scope.address, ()⟩ ::
            (during ++ [⟨.ask (.lock scope.address), locked⟩, ⟨.release, ()⟩])) (some result) =
          scope.unlock (.ok true) :: scope.guard ::
            (during.map .exchange ++ [scope.lock locked, release]) := by
        simp [ownActs, unlock, guard, lock, release]
      rw [hacts]
      exact Course.finished during result locked hyields
  | @cancelled during hsuspends =>
      have hopen : openGuards [scope.address] during = openGuards [] during ++ [scope.address] :=
        scope.balanced.keeps during hsuspends [scope.address]
      refine Course.cancelled during [] _ hsuspends ?_
      show (openGuards [] during ++ [scope.address]).Perm (openGuards [scope.address] during)
      rw [hopen]

theorem Course.settle {scope : Scope} {acts : List Act} {outcome : scope.Outcome}
    {pending pending' : List Address} {locks : List (Address × Except RpcError Bool)}
    (h : scope.Course acts outcome pending)
    (hlocks : pending.Perm (locks.map Prod.fst ++ pending')) :
    scope.Course (acts ++ lockActs locks) outcome pending' := by
  -- only a cancelled scope has tasks; the others owe nothing that could be locked later
  have hnone : pending = [] -> locks = [] ∧ pending' = [] := by
    rintro rfl
    rcases List.append_eq_nil_iff.mp hlocks.nil_eq.symm with ⟨hlocks, hpending⟩
    exact ⟨List.map_eq_nil_iff.mp hlocks, hpending⟩
  cases h with
  | refused =>
      rcases hnone rfl with ⟨rfl, rfl⟩
      exact Course.refused
  | failed e =>
      rcases hnone rfl with ⟨rfl, rfl⟩
      exact Course.failed e
  | finished during result locked hyields =>
      rcases hnone rfl with ⟨rfl, rfl⟩
      simpa [lockActs] using Course.finished during result locked hyields
  | cancelled during earlier pending hsuspends hperm =>
      have hall : (openGuards [] during ++ [scope.address]).Perm
          ((earlier ++ locks).map Prod.fst ++ pending') := by
        rw [List.map_append, List.append_assoc]
        exact hperm.trans (hlocks.append_left _)
      simpa [lockActs] using Course.cancelled during (earlier ++ locks) pending' hsuspends hall

/-! ## Brackets -/

/-- The acts of a scope around its work: all but the exchanges of the work. -/
def bracket {α : Type} : Option α -> List Act -> List Act
  | some _, acts => acts.take 2 ++ (acts.drop 2).drop ((acts.drop 2).length - 2)
  | none, acts => acts.take 2 ++ (acts.drop 2).dropWhile fun act => act.exchange?.isSome

/-- The accounts of scopes inside the work that were open when it was cancelled. -/
def leftOpen {α : Type} : Option α -> List Act -> List Address
  | some _, _ => []
  | none, acts => openGuards [] ((acts.drop 2).filterMap Act.exchange?)

section

variable {α : Type} {first second : Act} {during : List Exchange}
  {locks : List (Address × Except RpcError Bool)}

theorem bracket_finished (a : α) {closing : List Act} (h : closing.length = 2) :
    bracket (some a) (first :: second :: (during.map .exchange ++ closing)) =
      first :: second :: closing := by
  show first :: second :: (during.map Act.exchange ++ closing).drop
    ((during.map Act.exchange ++ closing).length - 2) = first :: second :: closing
  rw [List.length_append, h, Nat.add_sub_cancel, List.drop_left]

theorem bracket_cancelled :
    bracket (none : Option α)
        (first :: second :: (during.map .exchange ++ .cancelled :: lockActs locks)) =
      first :: second :: .cancelled :: lockActs locks := by
  have hwork : forall act, act ∈ during.map Act.exchange -> act.exchange?.isSome = true := by
    intro act hmem
    rcases List.mem_map.mp hmem with ⟨e, _, rfl⟩
    rfl
  show first :: second :: (during.map Act.exchange ++ _).dropWhile _ = _
  rw [List.dropWhile_append_of_pos hwork]
  rfl

theorem leftOpen_cancelled :
    leftOpen (none : Option α)
        (first :: second :: (during.map .exchange ++ .cancelled :: lockActs locks)) =
      openGuards [] during := by
  have hwork : (during.map Act.exchange).filterMap Act.exchange? = during := by
    rw [List.filterMap_map]
    exact List.filterMap_some
  have hlocks : (Act.cancelled :: lockActs locks).filterMap Act.exchange? = [] := by
    rw [List.filterMap_cons_none rfl, lockActs, List.filterMap_map]
    exact List.filterMap_eq_nil_iff.mpr fun l _ => rfl
  show openGuards [] ((during.map Act.exchange ++ _).filterMap Act.exchange?) = _
  rw [List.filterMap_append, hwork, hlocks, List.append_nil]

theorem locks_lockActs (address : Address) :
    (lockActs locks).countP (Act.isLock address) = (locks.map Prod.fst).count address := by
  rw [lockActs, List.countP_map, List.count, List.countP_map]
  rfl

theorem unlocks_lockActs (address : Address) :
    (lockActs locks).countP (Act.isUnlock address) = 0 := by
  rw [lockActs, List.countP_map]
  exact List.countP_eq_zero.mpr fun l _ => Bool.false_ne_true

end

/-- Whatever its work locks and unlocks, a scope has its own unlock, and those that its work has left
open, matched by locks of its own, of its tasks, and of the tasks that it still has. -/
theorem Course.matches {scope : Scope} {acts : List Act} {outcome : scope.Outcome}
    {pending : List Address} (h : scope.Course acts outcome pending) (address : Address) :
    (bracket outcome acts).countP (Act.isUnlock address) + (leftOpen outcome acts).count address =
      (bracket outcome acts).countP (Act.isLock address) + pending.count address := by
  cases h with
  | refused => rfl
  | failed e => rfl
  | finished during result locked hyields =>
      rw [bracket_finished result rfl]
      simp [leftOpen, unlock, guard, lock, release, Act.isLock, Act.isUnlock,
        Interleaving.isLock, Interleaving.isUnlock, List.countP_cons]
  | cancelled during locks pending hsuspends hperm =>
      have hcount := hperm.count_eq address
      rw [List.count_append, List.count_append] at hcount
      have hunlocks : [scope.unlock (.ok true), scope.guard, .cancelled].countP
          (Act.isUnlock address) = [scope.address].count address := by
        simp [unlock, guard, Act.isUnlock, Interleaving.isUnlock, List.countP_cons,
          List.count_singleton]
      have hlocks : [scope.unlock (.ok true), scope.guard, .cancelled].countP
          (Act.isLock address) = 0 := rfl
      rw [bracket_cancelled, leftOpen_cancelled]
      show ([scope.unlock (.ok true), scope.guard, .cancelled] ++ lockActs locks).countP _ + _ =
        ([scope.unlock (.ok true), scope.guard, .cancelled] ++ lockActs locks).countP _ + _
      rw [List.countP_append, List.countP_append, hunlocks, hlocks, unlocks_lockActs,
        locks_lockActs]
      omega

end Scope

/-! ## Works that lock what they unlock -/

/-- The program has every lock of `address` and every open guard of it preceded by an unlock of its
own, where it ends and where it may be cancelled. -/
def Evenhanded {α : Type} (address : Address) (program : Program α) : Prop :=
  forall history outcome, program.Ends history outcome ->
    history.countP (isUnlock address) =
      history.countP (isLock address) + (abandoned [] history outcome).count address

def Uninvolved (action : Action) : Prop :=
  Unguarded action ∧
    forall address reply, isLock address ⟨action, reply⟩ = false ∧
      isUnlock address ⟨action, reply⟩ = false

theorem evenhanded_of_uninvolved {α : Type} {program : Program α}
    (h : program.Every Uninvolved) (address : Address) : Evenhanded address program := by
  intro history outcome hends
  have hevery := h.of_ends hends
  have hunlocks : history.countP (isUnlock address) = 0 :=
    List.countP_eq_zero.mpr fun e he =>
      Bool.eq_false_iff.mp ((hevery e he).2 address e.2).2
  have hlocks : history.countP (isLock address) = 0 :=
    List.countP_eq_zero.mpr fun e he =>
      Bool.eq_false_iff.mp ((hevery e he).2 address e.2).1
  have habandoned : abandoned [] history outcome = [] := by
    cases outcome with
    | some a => rfl
    | none => exact openGuards_of_unguarded (fun e he => (hevery e he).1) []
  rw [hunlocks, hlocks, habandoned]
  rfl

namespace Scope

variable {scope : Scope} {address : Address}

theorem count_own (a address : Address) : [a].count address = if a == address then 1 else 0 :=
  List.count_singleton

theorem evenhanded_program (h : Evenhanded address scope.work) :
    Evenhanded address scope.program := by
  intro history outcome hends
  have hunlock : forall rest, (⟨.ask (.unlock scope.address scope.passphrase
        scope.session.unlockDuration), .ok true⟩ :: ⟨.guard scope.address, ()⟩ :: rest :
        List Exchange).countP (isUnlock address) =
      rest.countP (isUnlock address) + [scope.address].count address := by
    intro rest
    rw [List.countP_cons, List.countP_cons, count_own]
    rfl
  have hlock : forall rest, (⟨.ask (.unlock scope.address scope.passphrase
        scope.session.unlockDuration), .ok true⟩ :: ⟨.guard scope.address, ()⟩ :: rest :
        List Exchange).countP (isLock address) = rest.countP (isLock address) := fun _ => rfl
  cases enclosed_of_ends hends with
  | refused => rfl
  | failed e => rfl
  | @finished during result locked hyields =>
      have hwork := h during (some result) hyields
      have hends : [⟨.ask (.lock scope.address), locked⟩, ⟨.release, ()⟩].countP
          (isLock address) = [scope.address].count address := by
        rw [List.countP_cons, count_own]
        simp [isLock]
      have hnone : [⟨.ask (.lock scope.address), locked⟩, ⟨.release, ()⟩].countP
          (isUnlock address) = 0 := rfl
      rw [hunlock, hlock, List.countP_append, List.countP_append, hends, hnone]
      simp only [abandoned, List.count_nil] at hwork ⊢
      omega
  | @cancelled during hsuspends =>
      have hwork := h during none hsuspends
      have hopen : abandoned [] (⟨.ask (.unlock scope.address scope.passphrase
            scope.session.unlockDuration), .ok true⟩ :: ⟨.guard scope.address, ()⟩ :: during)
            (none : scope.Outcome) = openGuards [] during ++ [scope.address] :=
        scope.balanced.keeps during hsuspends [scope.address]
      rw [hunlock, hlock, hopen, List.count_append]
      simp only [abandoned] at hwork
      omega

end Scope

/-! ## Sequences -/

structure Ended where
  scope : Scope
  outcome : scope.Outcome

namespace Ended

/-- How often scopes unlock an account: this one by itself, and those inside its work that were open
when it was cancelled. -/
def unlocks (address : Address) (e : Ended) (acts : List Act) : Nat :=
  (Scope.bracket e.outcome acts).countP (Act.isUnlock address) +
    (Scope.leftOpen e.outcome acts).count address

/-- How often an account is locked for these scopes, by this one itself or by a task. -/
def locks (address : Address) (e : Ended) (acts : List Act) : Nat :=
  (Scope.bracket e.outcome acts).countP (Act.isLock address)

/-- The sum of a count over scopes, each with its acts among the events. -/
def total (count : Ended -> List Act -> Nat) (ended : List Ended) (events : List Event) : Nat :=
  (ended.mapIdx fun i e => count e (view i events)).foldr (· + ·) 0

end Ended

/-- Scopes run in order, numbered from `n` on, and tasks between them. -/
inductive Sequence : Nat -> List Ended -> List Task -> List Event -> List Task -> Prop where
  | nil (n : Nat) (tasks : List Task) : Sequence n [] tasks [] tasks
  | serve {n : Nat} {ended : List Ended} {tasks tasks' last : List Task} {event : Event}
      {events : List Event} :
      Serves tasks event tasks' ->
      Sequence n ended tasks' events last ->
      Sequence n ended tasks (event :: events) last
  | scope {n : Nat} {scope : Scope} {outcome : scope.Outcome} {ended : List Ended}
      {tasks tasks' last : List Task} {events events' : List Event} :
      Runs n scope.program [] tasks events outcome tasks' ->
      Sequence (n + 1) ended tasks' events' last ->
      Sequence n (⟨scope, outcome⟩ :: ended) tasks (events ++ events') last

def Below (n : Nat) (tasks : List Task) : Prop :=
  forall task, task ∈ tasks -> task.scope < n

theorem owed_of_below {n m : Nat} {tasks : List Task} (h : Below n tasks) (hm : n ≤ m) :
    owed m tasks = [] := by
  have hnone : tasks.filter (fun task => task.scope = m) = [] := by
    rw [List.filter_eq_nil_iff]
    intro task hmem hscope
    have hlt := h task hmem
    rw [decide_eq_true_eq.mp hscope] at hlt
    omega
  rw [owed, hnone, List.map_nil]

theorem below_of_runs {α : Type} {n : Nat} {program : Program α} {guards : List Address}
    {tasks last : List Task} {events : List Event} {outcome : Option α} (hbelow : Below n tasks)
    (h : Runs n program guards tasks events outcome last) : Below (n + 1) last := by
  intro task hmem
  rcases mem_or_scope_of_runs h task hmem with hold | hscope
  · exact Nat.lt_succ_of_lt (hbelow task hold)
  · rw [hscope]
    exact Nat.lt_succ_self n

/-- A scope that has ended before a sequence begins only has tasks run in it. -/
theorem settles_of_sequence {n m : Nat} {ended : List Ended} {tasks last : List Task}
    {events : List Event} (hm : m < n) (h : Sequence n ended tasks events last) :
    Settles m tasks events last := by
  induction h with
  | nil n tasks => exact settles_nil m tasks
  | serve hserves _ ih => exact (hserves.settles m).append (ih hm)
  | scope hruns _ ih =>
      exact (settles_of_runs (Nat.ne_of_gt hm) hruns).append (ih (Nat.lt_succ_of_lt hm))

theorem course_of_sequence {n : Nat} {ended : List Ended} {tasks last : List Task}
    {events : List Event} (hbelow : Below n tasks) (h : Sequence n ended tasks events last) :
    forall i (e : Ended), ended[i]? = some e ->
      e.scope.Course (view (n + i) events) e.outcome (owed (n + i) last) := by
  induction h with
  | nil n tasks =>
      intro i e hget
      cases hget
  | @serve n ended tasks tasks' last event events hserves _ ih =>
      intro i e hget
      have hnone : event.scope ≠ n + i :=
        (hserves.of_owed_nil (owed_of_below hbelow (Nat.le_add_right n i))).1
      rw [view_cons_of_ne hnone]
      exact ih (fun task hmem => hbelow task (hserves.mem hmem)) i e hget
  | @scope n scope outcome ended tasks tasks' last events events' hruns hmore ih =>
      intro i e hget
      rw [view_append]
      cases i with
      | zero =>
          cases hget
          rcases view_of_runs hruns (owed_of_below hbelow (Nat.le_refl n)) with ⟨hview, howed⟩
          rcases settles_of_sequence (Nat.lt_succ_self n) hmore with ⟨locks, hlater, hperm⟩
          have hcourse := Scope.course_of_ends (ends_of_runs hruns)
          rw [Nat.add_zero, hview, hlater]
          rw [← howed] at hcourse
          exact hcourse.settle hperm
      | succ i =>
          -- the scope itself has no part in the later ones
          rcases settles_of_runs (show n ≠ n + (i + 1) by omega) hruns with ⟨locks, hview, hperm⟩
          rw [owed_of_below hbelow (Nat.le_add_right n (i + 1))] at hperm
          have hlocks : locks = [] :=
            List.map_eq_nil_iff.mp (List.append_eq_nil_iff.mp hperm.nil_eq.symm).1
          rw [hview, hlocks, Nat.add_comm i 1, ← Nat.add_assoc]
          exact ih (below_of_runs hbelow hruns) i e hget

theorem unlocks_of_sequence {n : Nat} {ended : List Ended} {tasks last : List Task}
    {events : List Event} {address : Address}
    (hworks : forall e, e ∈ ended -> Evenhanded address e.scope.work)
    (h : Sequence n ended tasks events last) :
    events.countP (Event.isUnlock address) + due address tasks =
      events.countP (Event.isLock address) + due address last := by
  induction h with
  | nil n tasks => rfl
  | @serve n ended tasks tasks' last event events hserves _ ih =>
      have hmore := ih hworks
      have hlock := hserves.locks address
      have hunlock : [event].countP (Event.isUnlock address) = 0 := by
        simp [hserves.unlocks address]
      rw [← List.singleton_append, List.countP_append, List.countP_append, hunlock]
      omega
  | @scope n scope outcome ended tasks tasks' last events events' hruns _ ih =>
      rw [List.forall_mem_cons] at hworks
      have hmore := ih hworks.2
      have hlocks := locks_of_runs hruns address
      have hunlocks := unlocks_of_runs hruns address
      have heven := Scope.evenhanded_program hworks.1 _ _ (ends_of_runs hruns)
      rw [List.countP_append, List.countP_append]
      omega

/-- Every scope runs its course, whatever happens beside it.  The unlocks and the locks that the
scopes issue themselves match, whatever their works do: but for tasks that have yet to run, one for
one in every scope, and in all where all tasks have run.  Where the works lock what they unlock, this
holds of all unlocks and locks. -/
theorem scopes_bracketed {ended : List Ended} {events : List Event} {last : List Task}
    (h : Sequence 0 ended [] events last) :
    (forall i (e : Ended), ended[i]? = some e ->
      e.scope.Course (view i events) e.outcome (owed i last)) ∧
    (forall address,
      (forall i (e : Ended), ended[i]? = some e ->
        e.unlocks address (view i events) =
          e.locks address (view i events) + (owed i last).count address) ∧
      (last = [] ->
        Ended.total (Ended.locks address) ended events =
          Ended.total (Ended.unlocks address) ended events)) ∧
    forall address, (forall e, e ∈ ended -> Evenhanded address e.scope.work) ->
      events.countP (Event.isUnlock address) =
          events.countP (Event.isLock address) + due address last ∧
        (last = [] ->
          events.countP (Event.isLock address) = events.countP (Event.isUnlock address)) := by
  have hbelow : Below 0 [] := fun task hmem => absurd hmem List.not_mem_nil
  have hcourses : forall i (e : Ended), ended[i]? = some e ->
      e.scope.Course (view i events) e.outcome (owed i last) := by
    intro i e hget
    have hcourse := course_of_sequence hbelow h i e hget
    rw [Nat.zero_add] at hcourse
    exact hcourse
  have hmatches : forall address i (e : Ended), ended[i]? = some e ->
      e.unlocks address (view i events) =
        e.locks address (view i events) + (owed i last).count address :=
    fun address i e hget => (hcourses i e hget).matches address
  refine ⟨hcourses, fun address => ⟨hmatches address, ?_⟩, ?_⟩
  · rintro rfl
    apply congrArg (List.foldr (· + ·) 0)
    rw [List.mapIdx_eq_mapIdx_iff]
    intro i hi
    exact (hmatches address i ended[i] (List.getElem?_eq_getElem hi)).symm
  · intro address hworks
    have hunlocks := unlocks_of_sequence hworks h
    have hnone : due address [] = 0 := rfl
    rw [hnone, Nat.add_zero] at hunlocks
    refine ⟨hunlocks, ?_⟩
    rintro rfl
    rw [hunlocks, hnone, Nat.add_zero]

def napping (address : Address) : Scope where
  session := ⟨defaultUnlockDuration⟩
  address := address
  passphrase := ""
  Result := Unit
  work := .perform (.sleep (Duration.ofSecs 1)) fun _ => .done (.ok ())
  balanced := balanced_of_unguarded ⟨fun _ => rfl, fun _ => trivial⟩

/-- Two such scopes of one account; the first one is cancelled, and its task runs while the second
one sleeps. -/
def napEvents (address : Address) : List Event :=
  [⟨0, (napping address).unlock (.ok true)⟩, ⟨0, (napping address).guard⟩, ⟨0, .cancelled⟩,
    ⟨1, (napping address).unlock (.ok true)⟩, ⟨1, (napping address).guard⟩,
    ⟨0, .lock address (.ok true)⟩, ⟨1, .exchange ⟨.sleep (Duration.ofSecs 1), ()⟩⟩,
    ⟨1, (napping address).lock (.error (.timeout "late"))⟩, ⟨1, Scope.release⟩]

theorem sequence_naps (address : Address) :
    Sequence 0 [⟨napping address, none⟩, ⟨napping address, some (.ok ())⟩] []
      (napEvents address) [] := by
  have hfirst : Runs 0 (napping address).program [] []
      [⟨0, (napping address).unlock (.ok true)⟩, ⟨0, (napping address).guard⟩, ⟨0, .cancelled⟩]
      none [⟨0, address⟩] :=
    Runs.perform _ (Runs.perform _ Runs.cancelled)
  have hsecond : Runs 1 (napping address).program [] [⟨0, address⟩]
      [⟨1, (napping address).unlock (.ok true)⟩, ⟨1, (napping address).guard⟩,
        ⟨0, .lock address (.ok true)⟩, ⟨1, .exchange ⟨.sleep (Duration.ofSecs 1), ()⟩⟩,
        ⟨1, (napping address).lock (.error (.timeout "late"))⟩, ⟨1, Scope.release⟩]
      (some (.ok ())) [] := by
    refine Runs.perform _ (Runs.perform _ ?_)
    refine Runs.serve (Serves.serve [] [] ⟨0, address⟩ (.ok true)) ?_
    exact Runs.perform _ (Runs.perform _ (Runs.perform _ (Runs.done _ _ _)))
  exact Sequence.scope hfirst (Sequence.scope hsecond (Sequence.nil 2 []))

theorem scopes_bracketed_naps :
    (napping Address.zero).Course (view 0 (napEvents Address.zero)) none [] ∧
      (napping Address.zero).Course (view 1 (napEvents Address.zero)) (some (.ok ())) [] ∧
      Ended.total (Ended.locks Address.zero)
        [⟨napping Address.zero, none⟩, ⟨napping Address.zero, some (.ok ())⟩]
        (napEvents Address.zero) = 2 ∧
      (napEvents Address.zero).countP (Event.isLock Address.zero) =
        (napEvents Address.zero).countP (Event.isUnlock Address.zero) := by
  have hall := scopes_bracketed (sequence_naps Address.zero)
  have hactions : (napping Address.zero).work.Every Uninvolved :=
    ⟨⟨fun _ => rfl, fun _ _ => ⟨rfl, rfl⟩⟩, fun _ => trivial⟩
  have hwork : Evenhanded Address.zero (napping Address.zero).work :=
    evenhanded_of_uninvolved hactions _
  have hworks : forall e, e ∈ [(⟨napping Address.zero, none⟩ : Ended),
      ⟨napping Address.zero, some (.ok ())⟩] -> Evenhanded Address.zero e.scope.work :=
    List.forall_mem_cons.mpr ⟨hwork, List.forall_mem_singleton.mpr hwork⟩
  have hfirst := hall.1 0 ⟨napping Address.zero, none⟩ rfl
  have hsecond := hall.1 1 ⟨napping Address.zero, some (.ok ())⟩ rfl
  have htotal := (hall.2.1 Address.zero).2 rfl
  exact ⟨hfirst, hsecond, htotal.trans (by decide), (hall.2.2 Address.zero hworks).2 rfl⟩

end Session
end KeyRegistry
