import KeyRegistry.Proofs.Mining.Ownership
import KeyRegistry.Proofs.Node.Script

/-!
# The miner at the end of a run

A run that ends cancels its subscriptions and stops the miner where it owns one.
Failed commands leave open whether the miner runs, and a miner that was seen idle
may have been started again by somebody else; what is said of a miner at the end
of a run depends on the readings that came later.
-/

namespace KeyRegistry
namespace Mining

open Program

/-! ## Endings -/

def isCancel : Exchange -> Bool
  | ⟨.cancel _, _⟩ => true
  | _ => false

/-- What a run does until its loop ends, which is when it cancels a subscription. -/
def beforeEnd (history : List Exchange) : List Exchange :=
  history.takeWhile fun e => !isCancel e

def sinceEnd (history : List Exchange) : List Exchange :=
  history.dropWhile fun e => !isCancel e

def Uncancelled (history : List Exchange) : Prop :=
  forall e, e ∈ history -> (!isCancel e) = true

theorem Uncancelled.append {first rest : List Exchange} (hfirst : Uncancelled first)
    (hrest : Uncancelled rest) : Uncancelled (first ++ rest) :=
  List.forall_mem_append.mpr ⟨hfirst, hrest⟩

theorem uncancelled_of_retaining {history : List Exchange}
    (h : forall e, e ∈ history -> Retaining e) : Uncancelled history := by
  intro e he
  have hcancel := (h e he).2
  rcases e with ⟨action, reply⟩
  cases action with
  | cancel id => exact absurd rfl (hcancel id)
  | _ => rfl

theorem uncancelled_failures (config : Config) (feed : Feed) (causes : List RpcError) :
    Uncancelled (failures config feed causes) := by
  induction causes with
  | nil => simp [Uncancelled, failures]
  | cons e causes ih =>
      exact List.forall_mem_cons.mpr ⟨rfl, List.forall_mem_cons.mpr ⟨rfl, ih⟩⟩

/-- A run that ends: what its loop does, the cancelling of its subscriptions, and what it does
about the miner then. -/
inductive Ending (c : Controller) : List Exchange -> Controller -> Prop where
  | ended {loop closing : List Exchange} {r : Run} {c' : Controller} :
      Uncancelled loop -> Learns c loop r.controller -> r.controller.Closing closing c' ->
      Ending c (loop ++ (cancels r ++ closing)) c'

theorem Ending.prepend {c c' c'' : Controller} {first rest : List Exchange}
    (hfirst : Learns c first c') (huncancelled : Uncancelled first) (h : Ending c' rest c'') :
    Ending c (first ++ rest) c'' := by
  cases h with
  | ended hrest hlearns hclosing =>
      rw [<- List.append_assoc]
      exact Ending.ended (huncancelled.append hrest) (hfirst.trans hlearns) hclosing

theorem Controller.Closing.ending {r : Run} {closing : List Exchange} {c : Controller}
    (h : r.controller.Closing closing c) : Ending r.controller (cancels r ++ closing) c := by
  have hnothing : Uncancelled [] := by simp [Uncancelled]
  exact Ending.ended hnothing (Learns.of_quiet rfl rfl rfl rfl) h

theorem Round.uncancelled {r r' : Run} {wake : Wake} {history : List Exchange}
    (h : Round r wake history (.waiting r')) : Uncancelled history := by
  cases h with
  | settled hsettling => exact uncancelled_of_retaining hsettling.retaining
  | reopened _ hsettling =>
      have hsuccess : forall config feed id, Uncancelled (success config feed id) := by
        simp [Uncancelled, success, isCancel]
      exact ((uncancelled_failures _ _ _).append (hsuccess _ _ _)).append
        (uncancelled_of_retaining hsettling.retaining)

theorem Round.ending {r : Run} {wake : Wake} {history : List Exchange}
    {result : Except Error Report} {c : Controller}
    (h : Round r wake history (.finished result c)) : Ending r.controller history c := by
  cases h with
  | ended hclosing => exact hclosing.ending
  | lost _ hclosing =>
      exact Ending.prepend (learns_tries _ _ _ _) (uncancelled_failures _ _ _) hclosing.ending

theorem Rounds.ending {r : Run} {rounds : List (Wake × List Exchange)}
    {result : Except Error Report} {c : Controller}
    (h : Rounds (.waiting r) rounds (.finished result c)) :
    Ending r.controller (rounds.flatMap Prod.snd) c := by
  induction rounds generalizing r with
  | nil => cases h
  | cons round rounds ih =>
      cases h with
      | @cons _ wake history stage _ _ hround hmore =>
          cases stage with
          | finished result' c' =>
              rcases hmore.of_finished with ⟨rfl, heq⟩
              cases heq
              simpa using hround.ending
          | waiting r' => exact Ending.prepend hround.learns hround.uncancelled (ih hmore)

/-! ## The miner -/

theorem Ending.split {c c' : Controller} {history : List Exchange} (h : Ending c history c') :
    ∃ r closing, Learns c (beforeEnd history) r.controller ∧
      sinceEnd history = cancels r ++ closing ∧ r.controller.Closing closing c' := by
  cases h with
  | @ended loop closing r _ hloop hlearns hclosing =>
      have hbefore : beforeEnd (loop ++ (cancels r ++ closing)) = loop :=
        (List.takeWhile_append_of_pos hloop).trans (List.append_nil loop)
      have hsince : sinceEnd (loop ++ (cancels r ++ closing)) = cancels r ++ closing :=
        List.dropWhile_append_of_pos hloop
      exact ⟨r, closing, by rw [hbefore]; exact hlearns, hsince, hclosing⟩

/-- A run that ends either had both its subscriptions, or it asks nothing about the miner. -/
theorem ending_of_yields {c c' : Controller} {wakes : List Wake} {history : List Exchange}
    {result : Except Error Report}
    (h : Yields ((start c).bind (follow wakes)) history (.finished result c')) :
    Ending c history c' ∨ (forall answer, ⟨.ask .stopMining, answer⟩ ∉ sinceEnd history) ∧
      forall pending, ⟨.ask (.subscribe .pending), .ok pending⟩ ∉ history := by
  rcases yields_bind_iff.mp h with ⟨first, stage, rest, hfirst, hrest, rfl⟩
  rcases rounds_of_follow hrest with ⟨rounds, hrounds, rfl⟩
  have hopening := opening_of_yields hfirst
  have hlearns := hopening.learns
  cases hopening with
  | refused e =>
      rcases hrounds.of_finished with ⟨rfl, _⟩
      exact Or.inr ⟨by simp [sinceEnd, isCancel], by simp⟩
  | halved latest e =>
      rcases hrounds.of_finished with ⟨rfl, _⟩
      exact Or.inr ⟨by simp [sinceEnd, isCancel], by simp⟩
  | opened hevaluation =>
      refine Or.inl (Ending.prepend hlearns ?_ hrounds.ending)
      exact List.forall_mem_cons.mpr ⟨rfl, List.forall_mem_cons.mpr
        ⟨rfl, uncancelled_of_retaining hevaluation.retaining⟩⟩

theorem mem_closing_of_mem {r : Run} {closing : List Exchange} {answer : Except RpcError Unit}
    (h : (⟨.ask .stopMining, answer⟩ : Exchange) ∈ cancels r ++ closing) :
    ⟨.ask .stopMining, answer⟩ ∈ closing := by
  rcases List.mem_append.mp h with hcancels | hclosing
  · simp [cancels] at hcancels
  · exact hclosing

theorem Controller.Closing.exists_stop {c c' : Controller} {closing : List Exchange}
    (h : c.Closing closing c') (hstops : c.StopsAtEnd) :
    ∃ answer, ⟨.ask .stopMining, answer⟩ ∈ closing := by
  cases h with
  | idle hidle => exact absurd hstops hidle
  | stopped _ => exact ⟨.ok (), List.mem_singleton_self _⟩
  | unstopped e _ => exact ⟨.error e, List.mem_singleton_self _⟩

theorem Controller.Closing.stopsAtEnd {c c' : Controller} {closing : List Exchange}
    {answer : Except RpcError Unit} (h : c.Closing closing c')
    (hmem : (⟨.ask .stopMining, answer⟩ : Exchange) ∈ closing) : c.StopsAtEnd := by
  cases h with
  | idle _ => cases hmem
  | stopped hstops => exact hstops
  | unstopped e hstops => exact hstops

section

variable {config : Config} {ops : List Operation} {wakes : List Wake}
  {past run : List Exchange} {c c' : Controller} {result : Except Error Report}

/-- The miner that a controller has started is stopped at the end of its run, where no reading
since has found it idle and each failed command since was followed by a reading that found it
running. -/
theorem started_miner_stopped {pending : Nat} {before after : List News}
    (hconfig : config.stopOnShutdown = true)
    (hpast : Yields (operate ops (Controller.new config)) past c)
    (hrun : Yields ((start c).bind (follow wakes)) run (.finished result c'))
    (hopened : (⟨.ask (.subscribe .pending), .ok pending⟩ : Exchange) ∈ run)
    (hnews : news (past ++ beforeEnd run) = before ++ .started :: after)
    (hcommandless : Commandless after) (hread : .read false ∉ after)
    (hcleared : forall first rest, after = first ++ .failed :: rest -> .read true ∈ rest) :
    ∃ answer, ⟨.ask .stopMining, answer⟩ ∈ sinceEnd run := by
  rcases ending_of_yields hrun with hending | ⟨_, hnone⟩
  · rcases hending.split with ⟨r, closing, hloop, hsince, hclosing⟩
    have hlearns := (learns_operate hpast).trans hloop
    have haware : Aware (before ++ .started :: after) r.controller := by
      rw [<- hnews]
      exact hlearns.aware [] (aware_new config)
    have hstarted : r.controller.startedMiner = true := by
      rw [haware.started_eq, List.foldl_append]
      exact fold_startedAfter_of_commandless hcommandless true
    have hmining : r.controller.mining? = some true := by
      apply haware.mining_of_known
      rw [List.foldl_append, List.foldl_cons]
      exact fold_knownAfter_of_cleared hcommandless hread hcleared (Or.inl rfl)
    have hstops : r.controller.StopsAtEnd := by
      refine ⟨?_, hstarted, ?_⟩
      · rw [hlearns.config_eq]
        exact hconfig
      · exact congrArg (fun mining => Option.getD mining false) hmining
    rcases hclosing.exists_stop hstops with ⟨answer, hanswer⟩
    rw [hsince]
    exact ⟨answer, List.mem_append_right _ hanswer⟩
  · exact absurd hopened (hnone pending)

/-- A transaction waits on a fresh node when the run begins.  Before the run evaluates again the
transaction is gone, and the node refuses one command; then another one comes in. -/
def refusing : Node.Script where
  setting n s :=
    match n with
    | 0 => { s with pending := 1 }
    | 7 => { s with pending := 0, miningErrors := [.timeout "miner_stop"] }
    | 12 => { s with pending := 1 }
    | _ => s
  clock _ := 0
  callScript_setting n s := by split <;> rfl
  onSend_setting n s := by split <;> rfl
  memory_setting n s := by split <;> rfl

def firstRun (wakes : List Wake) : Program Stage :=
  (start (Controller.new Config.default)).bind (follow wakes)

/-- All that a run of a new controller does where a fresh node follows a script. -/
def scripted (script : Node.Script) (wakes : List Wake) : List Exchange :=
  (firstRun wakes).trace script.world (Node.State.fresh, 0)

theorem started_miner_stopped_refusing :
    news (beforeEnd (scripted refusing [.event .latest, .event .latest, .shutdown])) =
        [.read false, .started, .read true, .failed, .read true] ∧
      ∃ answer, ⟨.ask .stopMining, answer⟩ ∈
        sinceEnd (scripted refusing [.event .latest, .event .latest, .shutdown]) := by
  have hrun := yields_trace refusing.world (firstRun [.event .latest, .event .latest, .shutdown])
    (Node.State.fresh, 0)
  have hpast : Yields (operate [] (Controller.new Config.default)) [] _ := Yields.done _
  have hopened : (⟨.ask (.subscribe .pending), .ok 1⟩ : Exchange) ∈
      scripted refusing [.event .latest, .event .latest, .shutdown] :=
    List.mem_cons_of_mem _ List.mem_cons_self
  have hnews : news (beforeEnd (scripted refusing [.event .latest, .event .latest, .shutdown])) =
      [.read false] ++ .started :: [.read true, .failed, .read true] := by rfl
  refine ⟨hnews, started_miner_stopped rfl hpast hrun hopened hnews ?_ ?_ ?_⟩
  · exact ⟨by decide, by decide⟩
  · decide
  · rintro (_ | ⟨x, _ | ⟨y, _ | ⟨z, first⟩⟩⟩) rest heq
    · simp at heq
    · simp at heq
      simp [<- heq.2]
    · simp at heq
    · simp at heq

/-- A command that was refused at the wrong moment: no reading has found the miner idle since it was
started, and the run ends without stopping it. -/
theorem started_miner_left_running :
    (∃ c, ((firstRun [.event .latest, .shutdown]).run refusing.world (Node.State.fresh, 0)).1 =
        .finished (.ok c.report) c) ∧
      news (scripted refusing [.event .latest, .shutdown]) =
        [.read false, .started, .read true, .failed] ∧
      sinceEnd (scripted refusing [.event .latest, .shutdown]) =
        [⟨.cancel 0, ()⟩, ⟨.cancel 1, ()⟩] ∧
      ((firstRun [.event .latest, .shutdown]).run refusing.world (Node.State.fresh, 0)).2.1.mining =
        true :=
  ⟨⟨_, rfl⟩, rfl, rfl, rfl⟩

/-- At the end of its run a controller stops the miner only if its last successful command was to
start it, and each reading since that found it idle was followed by one that found it running. -/
theorem stopped_miner_was_started {answer : Except RpcError Unit}
    (hpast : Yields (operate ops (Controller.new config)) past c)
    (hrun : Yields ((start c).bind (follow wakes)) run (.finished result c'))
    (hstop : (⟨.ask .stopMining, answer⟩ : Exchange) ∈ sinceEnd run) :
    config.stopOnShutdown = true ∧
      ∃ before after, news (past ++ beforeEnd run) = before ++ .started :: after ∧
        Commandless after ∧
        forall first rest, after = first ++ .read false :: rest -> .read true ∈ rest := by
  rcases ending_of_yields hrun with hending | ⟨hnone, _⟩
  · rcases hending.split with ⟨r, closing, hloop, hsince, hclosing⟩
    have hlearns := (learns_operate hpast).trans hloop
    have haware : Aware (news (past ++ beforeEnd run)) r.controller :=
      hlearns.aware [] (aware_new config)
    rw [hsince] at hstop
    rcases hclosing.stopsAtEnd (mem_closing_of_mem hstop) with ⟨hconfig, hstarted, hmining⟩
    rw [haware.started_eq] at hstarted
    rcases exists_started_of_fold hstarted with ⟨before, after, hnews, hcommandless⟩
    have hseen : (before ++ .started :: after).foldl seenAfter none = some true := by
      rw [<- hnews]
      apply haware.seen_of_mining
      unfold Controller.mining?
      revert hmining
      cases r.controller.state.map Observation.isMining with
      | none => simp
      | some mining => simp
    rw [hlearns.config_eq] at hconfig
    refine ⟨hconfig, before, after, hnews, hcommandless, ?_⟩
    rintro first rest rfl
    rw [List.foldl_append, List.foldl_cons, List.foldl_append] at hseen
    refine read_true_of_fold (fun hmem => hcommandless.1 ?_) (by simp [seenAfter]) hseen
    exact List.mem_append_right _ (List.mem_cons_of_mem _ hmem)
  · exact absurd hstop (hnone answer)

end

/-- A transaction waits on a fresh node when the run begins.  Before the run evaluates again the
transaction is gone, and somebody has stopped the miner; then another one comes in, and somebody
has started the miner. -/
def meddling : Node.Script where
  setting n s :=
    match n with
    | 0 => { s with pending := 1 }
    | 7 => { s with pending := 0, mining := false }
    | 11 => { s with pending := 1, mining := true }
    | _ => s
  clock _ := 0
  callScript_setting n s := by split <;> rfl
  onSend_setting n s := by split <;> rfl
  memory_setting n s := by split <;> rfl

theorem stopped_miner_was_started_meddling :
    sinceEnd (scripted meddling [.event .latest, .event .latest, .shutdown]) =
        [⟨.cancel 0, ()⟩, ⟨.cancel 1, ()⟩, ⟨.ask .stopMining, .ok ()⟩] ∧
      ∃ before after, news (beforeEnd
          (scripted meddling [.event .latest, .event .latest, .shutdown])) =
            before ++ .started :: after ∧
        Commandless after ∧
        forall first rest, after = first ++ .read false :: rest -> .read true ∈ rest := by
  have hrun := yields_trace meddling.world (firstRun [.event .latest, .event .latest, .shutdown])
    (Node.State.fresh, 0)
  have hend : sinceEnd (scripted meddling [.event .latest, .event .latest, .shutdown]) =
      [⟨.cancel 0, ()⟩, ⟨.cancel 1, ()⟩, ⟨.ask .stopMining, .ok ()⟩] := by rfl
  have hstop : (⟨.ask .stopMining, .ok ()⟩ : Exchange) ∈
      sinceEnd (scripted meddling [.event .latest, .event .latest, .shutdown]) := by
    rw [hend]
    simp
  have hpast : Yields (operate [] (Controller.new Config.default)) [] _ := Yields.done _
  exact ⟨hend, (stopped_miner_was_started hpast hrun hstop).2⟩

/-- The miner that this run stops at its end is not the one that it has started: that one was found
idle before. -/
theorem foreign_miner_stopped :
    news (scripted meddling [.event .latest, .event .latest, .shutdown]) =
        [.read false, .started, .read false, .read true, .stopped] ∧
      sinceEnd (scripted meddling [.event .latest, .event .latest, .shutdown]) =
        [⟨.cancel 0, ()⟩, ⟨.cancel 1, ()⟩, ⟨.ask .stopMining, .ok ()⟩] :=
  ⟨rfl, rfl⟩

end Mining
end KeyRegistry
