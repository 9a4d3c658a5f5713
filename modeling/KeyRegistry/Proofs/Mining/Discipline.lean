import KeyRegistry.Proofs.Mining.Chronicle

/-!
# Discipline of the mining controller

Every episode of a controller keeps to its rules, and the counts of the report
are those of the episodes so far.  Both hold for any sequence of operations and
against any world, so also where commands fail and where others switch the miner
between two requests.
-/

namespace KeyRegistry
namespace Mining

open Program

/-! ## Rules of an episode -/

namespace Episode

/-- Evaluations keep to their rules, a reconciliation changes nothing where the node does not
answer, the end of a run at most stops a miner that the controller has started, and upkeep asks
for nothing of these. -/
def Disciplined : Episode -> Prop
  | .evaluation before history result after => before.Disciplined history result after
  | .reconciliation before history result after =>
      (∃ mining, history = [⟨.ask .isMining, .ok mining⟩] ∧ result = .ok mining ∧
        after = before.observe mining) ∨
      ∃ e, history = [⟨.ask .isMining, .error e⟩] ∧ result = .error (.rpc e) ∧ after = before
  | .closing before history _ =>
      history = [] ∨ before.StopsAtEnd ∧ ∃ answer, history = [⟨.ask .stopMining, answer⟩]
  | .upkeep before history after =>
      (forall e, e ∈ history -> IsQuiet e) ∧ after.state = before.state

end Episode

theorem Controller.Closing.history_eq {c c' : Controller} {history : List Exchange}
    (h : c.Closing history c') :
    history = [] ∨ c.StopsAtEnd ∧ ∃ answer, history = [⟨.ask .stopMining, answer⟩] := by
  cases h with
  | idle _ => exact Or.inl rfl
  | stopped hstops => exact Or.inr ⟨hstops, .ok (), rfl⟩
  | unstopped e hstops => exact Or.inr ⟨hstops, .error e, rfl⟩

theorem reconciliation_cases {c c' : Controller} {history : List Exchange}
    {result : Except Error Bool} (h : Yields c.reconcile history (result, c')) :
    (Episode.reconciliation c history result c').Disciplined := by
  rcases Controller.reconciliation_of_yields h with ⟨mining, rfl, hanswer⟩ | ⟨e, rfl, hanswer⟩
  · cases hanswer
    exact Or.inl ⟨mining, rfl, rfl, rfl⟩
  · cases hanswer
    exact Or.inr ⟨e, rfl, rfl, rfl⟩

theorem Chronicle.disciplined {c last : Controller} {episodes : List Episode}
    (h : Chronicle c episodes last) : forall episode, episode ∈ episodes -> episode.Disciplined := by
  induction h with
  | nil c => simp
  | evaluation hyields _ ih =>
      exact List.forall_mem_cons.mpr ⟨(Controller.evaluation_of_yields hyields).disciplined, ih⟩
  | reconciliation hyields _ ih =>
      exact List.forall_mem_cons.mpr ⟨reconciliation_cases hyields, ih⟩
  | closing hyields _ ih =>
      exact List.forall_mem_cons.mpr ⟨(Controller.closing_of_yields hyields).history_eq, ih⟩
  | upkeep hupkeep _ ih => exact List.forall_mem_cons.mpr ⟨⟨hupkeep.quiet, hupkeep.state_eq⟩, ih⟩

/-! ## Counts -/

/-- What a part of the work adds to the counts of the report, where it begins `begun`
evaluations. -/
structure Tally (before : Controller) (history : List Exchange) (begun : Nat)
    (after : Controller) : Prop where
  starts_eq : after.report.starts = before.report.starts + history.countP isStart
  stops_eq : after.report.stops = before.report.stops + history.countP isStop
  evaluations_eq : after.report.evaluations = before.report.evaluations + begun
  counts_eq : history.countP isCount = begun

theorem Controller.Evaluation.tally {c c' : Controller} {history : List Exchange}
    {result : Except Error Decision} (h : c.Evaluation history result c') :
    Tally c history 1 c' := by
  cases h with
  | uncounted e => exact ⟨rfl, rfl, rfl, rfl⟩
  | unread pending e => exact ⟨rfl, rfl, rfl, rfl⟩
  | started pending _ => exact ⟨rfl, rfl, rfl, rfl⟩
  | unstarted pending e _ => exact ⟨rfl, rfl, rfl, rfl⟩
  | stopped => exact ⟨rfl, rfl, rfl, rfl⟩
  | unstopped e => exact ⟨rfl, rfl, rfl, rfl⟩
  | unchanged pending mining _ => exact ⟨rfl, rfl, rfl, rfl⟩

theorem Controller.Closing.tally {c c' : Controller} {history : List Exchange}
    (h : c.Closing history c') : Tally c history 0 c' := by
  cases h with
  | idle _ => exact ⟨rfl, rfl, rfl, rfl⟩
  | stopped _ => exact ⟨rfl, rfl, rfl, rfl⟩
  | unstopped e _ => exact ⟨rfl, rfl, rfl, rfl⟩

theorem reconciliation_tally {c c' : Controller} {history : List Exchange}
    {result : Except Error Bool} (h : Yields c.reconcile history (result, c')) :
    Tally c history 0 c' := by
  rcases Controller.reconciliation_of_yields h with ⟨mining, rfl, hanswer⟩ | ⟨e, rfl, hanswer⟩
  · cases hanswer
    exact ⟨rfl, rfl, rfl, rfl⟩
  · cases hanswer
    exact ⟨rfl, rfl, rfl, rfl⟩

theorem isCommand_of_isStart {e : Exchange} (h : isStart e = true) : isCommand e = true := by
  unfold isStart at h
  split at h
  · rfl
  · cases h

theorem isCommand_of_isStop {e : Exchange} (h : isStop e = true) : isCommand e = true := by
  unfold isStop at h
  split at h
  · rfl
  · cases h

theorem Upkeep.tally {c c' : Controller} {history : List Exchange} (h : Upkeep c history c') :
    Tally c history 0 c' := by
  have hstarts : history.countP isStart = 0 :=
    List.countP_eq_zero.mpr fun e he hstart =>
      Bool.false_ne_true ((h.quiet e he).1.symm.trans (isCommand_of_isStart hstart))
  have hstops : history.countP isStop = 0 :=
    List.countP_eq_zero.mpr fun e he hstop =>
      Bool.false_ne_true ((h.quiet e he).1.symm.trans (isCommand_of_isStop hstop))
  have hcounts : history.countP isCount = 0 :=
    List.countP_eq_zero.mpr fun e he hcount =>
      Bool.false_ne_true ((h.quiet e he).2.1.symm.trans hcount)
  constructor
  · rw [h.starts_eq, hstarts, Nat.add_zero]
  · rw [h.stops_eq, hstops, Nat.add_zero]
  · exact h.evaluations_eq
  · exact hcounts

/-- The counts of the report are those of the episodes so far. -/
structure Accurate (episodes : List Episode) (c : Controller) : Prop where
  starts_eq : c.report.starts = (histories episodes).countP isStart
  stops_eq : c.report.stops = (histories episodes).countP isStop
  evaluations_eq : c.report.evaluations = episodes.countP Episode.isEvaluation
  counts_eq : c.report.evaluations = (histories episodes).countP isCount

theorem accurate_new (config : Config) : Accurate [] (Controller.new config) :=
  ⟨rfl, rfl, rfl, rfl⟩

theorem Accurate.snoc {past : List Episode} {episode : Episode} {c c' : Controller}
    (hpast : Accurate past c)
    (htally : Tally c episode.history ([episode].countP Episode.isEvaluation) c') :
    Accurate (past ++ [episode]) c' := by
  have hhistories : histories (past ++ [episode]) = histories past ++ episode.history := by
    simp [histories]
  constructor
  · rw [htally.starts_eq, hpast.starts_eq, hhistories, List.countP_append]
  · rw [htally.stops_eq, hpast.stops_eq, hhistories, List.countP_append]
  · rw [htally.evaluations_eq, hpast.evaluations_eq, List.countP_append]
  · rw [htally.evaluations_eq, hpast.counts_eq, hhistories, List.countP_append, htally.counts_eq]

theorem Accurate.follow {past episodes : List Episode} {c last : Controller}
    (hpast : Accurate past c) (h : Chronicle c episodes last) :
    Accurate (past ++ episodes) last := by
  induction h generalizing past with
  | nil c => simpa using hpast
  | @evaluation c c' last history result episodes hyields _ ih =>
      have hstep : Accurate (past ++ [.evaluation c history result c']) c' :=
        hpast.snoc (Controller.evaluation_of_yields hyields).tally
      simpa using ih hstep
  | @reconciliation c c' last history result episodes hyields _ ih =>
      have hstep : Accurate (past ++ [.reconciliation c history result c']) c' :=
        hpast.snoc (reconciliation_tally hyields)
      simpa using ih hstep
  | @closing c c' last history episodes hyields _ ih =>
      have hstep : Accurate (past ++ [.closing c history c']) c' :=
        hpast.snoc (Controller.closing_of_yields hyields).tally
      simpa using ih hstep
  | @upkeep c c' last history episodes hupkeep _ ih =>
      have hstep : Accurate (past ++ [.upkeep c history c']) c' := hpast.snoc hupkeep.tally
      simpa using ih hstep

/-- Whatever is done with a new controller, and whatever its world answers: all that it asks falls
into episodes, each of which keeps to its rules, and between any two of them the report counts
what has happened so far. -/
theorem operations_disciplined {σ : Type} (config : Config) (ops : List Operation) (w : World σ)
    (s : σ) :
    ∃ episodes,
      Chronicle (Controller.new config) episodes
        ((operate ops (Controller.new config)).run w s).1 ∧
      histories episodes = (operate ops (Controller.new config)).trace w s ∧
      (forall episode, episode ∈ episodes -> episode.Disciplined) ∧
      forall past future, episodes = past ++ future ->
        ∃ c, Chronicle (Controller.new config) past c ∧
          Chronicle c future ((operate ops (Controller.new config)).run w s).1 ∧
          Accurate past c := by
  have hyields := yields_trace w (operate ops (Controller.new config)) s
  rcases told_operate ops (Controller.new config) _ _ hyields with
    ⟨episodes, hchronicle, hhistories⟩
  refine ⟨episodes, hchronicle, hhistories, hchronicle.disciplined, ?_⟩
  rintro past future rfl
  rcases hchronicle.split with ⟨c, hpast, hfuture⟩
  exact ⟨c, hpast, hfuture, (accurate_new config).follow hpast⟩

end Mining
end KeyRegistry
