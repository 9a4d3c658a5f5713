import KeyRegistry.Proofs.Mining.Rounds
import Mathlib.Data.List.Induction

/-!
# Ownership of the miner

What a controller knows of the miner is a digest of what it was told: the
readings of the miner state and the outcomes of its commands.  At the end of a
run it stops a miner only where its last successful command was to start one, and
where it believes that the miner still runs.
-/

namespace KeyRegistry
namespace Mining

open Program

/-! ## News -/

inductive News where
  | read (mining : Bool)
  | started
  | stopped
  | failed
deriving DecidableEq, Repr

def news? : Exchange -> Option News
  | ⟨.ask .isMining, .ok mining⟩ => some (.read mining)
  | ⟨.ask (.startMining _), .ok _⟩ => some .started
  | ⟨.ask (.startMining _), .error _⟩ => some .failed
  | ⟨.ask .stopMining, .ok _⟩ => some .stopped
  | ⟨.ask .stopMining, .error _⟩ => some .failed
  | _ => none

def news (history : List Exchange) : List News :=
  history.filterMap news?

@[simp] theorem news_nil : news [] = [] := rfl

@[simp] theorem news_append (first rest : List Exchange) :
    news (first ++ rest) = news first ++ news rest :=
  List.filterMap_append

def startedAfter : Bool -> News -> Bool
  | _, .started => true
  | _, .stopped => false
  | b, _ => b

def knownAfter : Option Bool -> News -> Option Bool
  | _, .read mining => some mining
  | _, .started => some true
  | _, .stopped => some false
  | _, .failed => none

def seenAfter : Option Bool -> News -> Option Bool
  | _, .read mining => some mining
  | _, .started => some true
  | _, .stopped => some false
  | b, .failed => b

/-- The last command that succeeded was not given within `log`. -/
def Commandless (log : List News) : Prop :=
  .started ∉ log ∧ .stopped ∉ log

theorem exists_started_of_fold {log : List News} (h : log.foldl startedAfter false = true) :
    ∃ before after, log = before ++ .started :: after ∧ Commandless after := by
  induction log using List.reverseRecOn with
  | nil => cases h
  | append_singleton log item ih =>
      rw [List.foldl_append] at h
      cases item with
      | started => exact ⟨log, [], rfl, by simp [Commandless]⟩
      | stopped => cases h
      | read mining =>
          rcases ih h with ⟨before, after, rfl, hstarted, hstopped⟩
          exact ⟨before, after ++ [.read mining], by simp, by simp [hstarted], by simp [hstopped]⟩
      | failed =>
          rcases ih h with ⟨before, after, rfl, hstarted, hstopped⟩
          exact ⟨before, after ++ [.failed], by simp, by simp [hstarted], by simp [hstopped]⟩

theorem fold_startedAfter_of_commandless {log : List News} (h : Commandless log) (b : Bool) :
    log.foldl startedAfter b = b := by
  induction log generalizing b with
  | nil => rfl
  | cons item log ih =>
      rcases h with ⟨hstarted, hstopped⟩
      have hmore : Commandless log :=
        ⟨fun hmem => hstarted (List.mem_cons_of_mem _ hmem),
          fun hmem => hstopped (List.mem_cons_of_mem _ hmem)⟩
      cases item with
      | started => exact absurd List.mem_cons_self hstarted
      | stopped => exact absurd List.mem_cons_self hstopped
      | read mining => exact ih hmore b
      | failed => exact ih hmore b

/-- The miner is known to run if nothing told otherwise, and every failure was cleared up by a
reading. -/
theorem fold_knownAfter_of_cleared {log : List News} {known : Option Bool}
    (hcommandless : Commandless log) (hread : .read false ∉ log)
    (hcleared : forall first rest, log = first ++ .failed :: rest -> .read true ∈ rest)
    (hknown : known = some true ∨ .read true ∈ log) :
    log.foldl knownAfter known = some true := by
  -- the induction needs to know that what a failure hides is told again later
  induction log generalizing known with
  | nil => simpa using hknown
  | cons item log ih =>
      have hmore : Commandless log :=
        ⟨fun hmem => hcommandless.1 (List.mem_cons_of_mem _ hmem),
          fun hmem => hcommandless.2 (List.mem_cons_of_mem _ hmem)⟩
      have hrest : .read false ∉ log := fun hmem => hread (List.mem_cons_of_mem _ hmem)
      have hcleared' : forall first rest, log = first ++ .failed :: rest -> .read true ∈ rest := by
        rintro first rest rfl
        exact hcleared (item :: first) rest rfl
      refine ih hmore hrest hcleared' ?_
      cases item with
      | started => exact absurd List.mem_cons_self hcommandless.1
      | stopped => exact absurd List.mem_cons_self hcommandless.2
      | failed => exact Or.inr (hcleared [] log rfl)
      | read mining =>
          cases mining with
          | true => exact Or.inl rfl
          | false => exact absurd List.mem_cons_self hread

/-- Where the miner was seen idle and is seen running in the end, a reading said so. -/
theorem read_true_of_fold {log : List News} {seen : Option Bool}
    (hstarted : .started ∉ log) (hseen : seen ≠ some true)
    (h : log.foldl seenAfter seen = some true) : .read true ∈ log := by
  induction log generalizing seen with
  | nil => exact absurd h hseen
  | cons item log ih =>
      have hmore : .started ∉ log := fun hmem => hstarted (List.mem_cons_of_mem _ hmem)
      cases item with
      | started => exact absurd List.mem_cons_self hstarted
      | stopped => exact List.mem_cons_of_mem _ (ih hmore (by simp [seenAfter]) h)
      | failed => exact List.mem_cons_of_mem _ (ih hmore hseen h)
      | read mining =>
          cases mining with
          | true => exact List.mem_cons_self
          | false => exact List.mem_cons_of_mem _ (ih hmore (by simp [seenAfter]) h)

/-! ## What a controller knows -/

def Controller.mining? (c : Controller) : Option Bool :=
  c.state.map Observation.isMining

/-- A controller that was told what is in `log` knows at least what failures have not made unknown,
and at most what it has seen last. -/
structure Aware (log : List News) (c : Controller) : Prop where
  started_eq : c.startedMiner = log.foldl startedAfter false
  mining_of_known : forall b, log.foldl knownAfter none = some b -> c.mining? = some b
  seen_of_mining : forall b, c.mining? = some b -> log.foldl seenAfter none = some b

theorem aware_new (config : Config) : Aware [] (Controller.new config) :=
  ⟨rfl, fun _ h => h, fun _ h => h⟩

namespace Aware

variable {log : List News} {c : Controller}

theorem of_eq {c' : Controller} (h : Aware log c) (hstate : c'.state = c.state)
    (hstarted : c'.startedMiner = c.startedMiner) : Aware log c' := by
  constructor
  · rw [hstarted, h.started_eq]
  · rw [Controller.mining?, hstate]
    exact h.mining_of_known
  · rw [Controller.mining?, hstate]
    exact h.seen_of_mining

theorem read (h : Aware log c) (mining : Bool) :
    Aware (log ++ [.read mining]) (c.observe mining) := by
  constructor
  · rw [List.foldl_append]
    exact h.started_eq
  · rw [List.foldl_append]
    exact fun b hb => hb
  · rw [List.foldl_append]
    exact fun b hb => hb

theorem started (_ : Aware log c) : Aware (log ++ [.started]) c.recordStart := by
  constructor
  · rw [List.foldl_append]
    rfl
  · rw [List.foldl_append]
    exact fun b hb => hb
  · rw [List.foldl_append]
    exact fun b hb => hb

theorem stopped (_ : Aware log c) : Aware (log ++ [.stopped]) c.recordStop := by
  constructor
  · rw [List.foldl_append]
    rfl
  · rw [List.foldl_append]
    exact fun b hb => hb
  · rw [List.foldl_append]
    exact fun b hb => hb

theorem failed (h : Aware log c) : Aware (log ++ [.failed]) c := by
  constructor
  · rw [List.foldl_append]
    exact h.started_eq
  · rw [List.foldl_append]
    intro b hb
    cases hb
  · rw [List.foldl_append]
    exact h.seen_of_mining

theorem uncertain (h : Aware log c) : Aware (log ++ [.failed]) c.uncertain := by
  constructor
  · exact h.failed.started_eq
  · exact fun b hb => by rw [List.foldl_append] at hb; cases hb
  · intro b hb
    cases hb

end Aware

structure Learns (before : Controller) (history : List Exchange) (after : Controller) : Prop where
  config_eq : after.config = before.config
  aware : forall log, Aware log before -> Aware (log ++ news history) after

namespace Learns

variable {c c' c'' : Controller} {first rest history : List Exchange}

theorem trans (hfirst : Learns c first c') (hrest : Learns c' rest c'') :
    Learns c (first ++ rest) c'' where
  config_eq := hrest.config_eq.trans hfirst.config_eq
  aware log h := by
    rw [news_append, <- List.append_assoc]
    exact hrest.aware _ (hfirst.aware log h)

theorem of_quiet (hnews : news history = []) (hconfig : c'.config = c.config)
    (hstate : c'.state = c.state) (hstarted : c'.startedMiner = c.startedMiner) :
    Learns c history c' where
  config_eq := hconfig
  aware log h := by
    rw [hnews, List.append_nil]
    exact h.of_eq hstate hstarted

end Learns

theorem Controller.Evaluation.learns {c c' : Controller} {history : List Exchange}
    {result : Except Error Decision} (h : c.Evaluation history result c') :
    Learns c history c' := by
  refine ⟨h.config_eq, fun log haware => ?_⟩
  have hbegun : Aware log c.begun := haware.of_eq rfl rfl
  cases h with
  | uncounted e =>
      show Aware (log ++ []) _
      simpa using hbegun
  | unread pending e =>
      show Aware (log ++ []) _
      simpa using hbegun
  | started pending _ =>
      show Aware (log ++ [.read false, .started]) _
      simpa using (hbegun.read false).started
  | unstarted pending e _ =>
      show Aware (log ++ [.read false, .failed]) _
      simpa using (hbegun.read false).uncertain
  | stopped =>
      show Aware (log ++ [.read true, .stopped]) _
      simpa using (hbegun.read true).stopped
  | unstopped e =>
      show Aware (log ++ [.read true, .failed]) _
      simpa using (hbegun.read true).uncertain
  | unchanged pending mining _ => exact hbegun.read mining

theorem Controller.Closing.learns {c c' : Controller} {history : List Exchange}
    (h : c.Closing history c') : Learns c history c' := by
  refine ⟨h.config_eq, fun log haware => ?_⟩
  cases h with
  | idle _ => simpa using haware
  | stopped _ => exact haware.stopped
  | unstopped e _ => exact haware.failed

theorem learns_reconcile {c c' : Controller} {history : List Exchange}
    {answer : Except Error Bool} (h : Yields c.reconcile history (answer, c')) :
    Learns c history c' := by
  rcases Controller.reconciliation_of_yields h with ⟨mining, rfl, heq⟩ | ⟨e, rfl, heq⟩
  · cases heq
    exact ⟨rfl, fun log haware => haware.read mining⟩
  · cases heq
    exact Learns.of_quiet rfl rfl rfl rfl

/-! ## Rounds -/

theorem learns_concluded (c : Controller) (result : Except Error Decision) :
    Learns c [] (c.concluded result) := by
  cases result <;> exact Learns.of_quiet rfl rfl rfl rfl

theorem Controller.Evaluation.learns_concluded {c c' : Controller} {history : List Exchange}
    {result : Except Error Decision} (h : c.Evaluation history result c') :
    Learns c history (c'.concluded result) := by
  simpa using h.learns.trans (Mining.learns_concluded c' result)

theorem Settling.learns {r r' : Run} {history : List Exchange} (h : Settling r history r') :
    Learns r.controller history r'.controller := by
  cases h with
  | @settled events events' history result c hevaluation =>
      have hdrained : Learns r.controller
          [⟨.drain r.latest, events⟩, ⟨.drain r.pending, events'⟩]
          ((r.controller.countEvents events.length).countEvents events'.length) :=
        Learns.of_quiet rfl rfl rfl rfl
      exact hdrained.trans hevaluation.learns_concluded

theorem Opening.learns {c : Controller} {history : List Exchange} {stage : Stage}
    (h : Opening c history stage) : Learns c history stage.controller := by
  cases h with
  | refused e => exact Learns.of_quiet rfl rfl rfl rfl
  | halved latest e => exact Learns.of_quiet rfl rfl rfl rfl
  | @opened latest pending history result c' hevaluation =>
      have hsubscribed : Learns c
          [⟨.ask (.subscribe .latest), .ok latest⟩, ⟨.ask (.subscribe .pending), .ok pending⟩] c :=
        Learns.of_quiet rfl rfl rfl rfl
      exact hsubscribed.trans hevaluation.learns_concluded

theorem news_failures (config : Config) (feed : Feed) (causes : List RpcError) :
    news (failures config feed causes) = [] := by
  induction causes with
  | nil => rfl
  | cons e causes ih => exact ih

theorem learns_tries (c : Controller) (config : Config) (feed : Feed) (causes : List RpcError) :
    Learns c (failures config feed causes) c :=
  Learns.of_quiet (news_failures config feed causes) rfl rfl rfl

theorem Controller.Closing.learns_end {r : Run} {closing : List Exchange} {c : Controller}
    (h : r.controller.Closing closing c) : Learns r.controller (cancels r ++ closing) c :=
  Learns.trans (Learns.of_quiet rfl rfl rfl rfl) h.learns

theorem learns_reopening {r r' : Run} {feed : Feed} {id : Nat} {causes : List RpcError}
    {history : List Exchange} (h : Settling (r.replace feed id) history r') :
    Learns r.controller
      (failures r.controller.config feed causes ++ success r.controller.config feed id ++ history)
      r'.controller := by
  have hsettling := h.learns
  rw [Run.controller_replace] at hsettling
  have hsuccess : Learns r.controller (success r.controller.config feed id) r.controller :=
    Learns.of_quiet rfl rfl rfl rfl
  exact ((learns_tries _ _ feed causes).trans hsuccess).trans hsettling

theorem learns_event {r r' : Run} {history : List Exchange}
    (h : Settling { r with controller := r.controller.countEvents 1 } history r') :
    Learns r.controller history r'.controller := by
  have hcounted : Learns r.controller [] (r.controller.countEvents 1) :=
    Learns.of_quiet rfl rfl rfl rfl
  exact hcounted.trans h.learns

theorem Round.learns {r : Run} {wake : Wake} {history : List Exchange} {stage : Stage}
    (h : Round r wake history stage) : Learns r.controller history stage.controller := by
  cases h with
  | ended hclosing => exact hclosing.learns_end
  | settled hsettling => exact learns_event hsettling
  | reopened _ hsettling => exact learns_reopening hsettling
  | lost _ hclosing => exact (learns_tries _ _ _ _).trans hclosing.learns_end

theorem Rounds.learns {stage last : Stage} {rounds : List (Wake × List Exchange)}
    (h : Rounds stage rounds last) :
    Learns stage.controller (rounds.flatMap Prod.snd) last.controller := by
  induction h with
  | nil stage => exact Learns.of_quiet rfl rfl rfl rfl
  | cons hround _ ih => exact hround.learns.trans ih

/-! ## Operations -/

theorem learns_run {c : Controller} {wakes : List Wake} {history : List Exchange} {last : Stage}
    (h : Yields ((start c).bind (follow wakes)) history last) :
    Learns c history last.controller := by
  rcases yields_bind_iff.mp h with ⟨first, stage, rest, hfirst, hrest, rfl⟩
  rcases rounds_of_follow hrest with ⟨rounds, hrounds, rfl⟩
  exact (opening_of_yields hfirst).learns.trans hrounds.learns

theorem learns_operation {op : Operation} {c c' : Controller} {history : List Exchange}
    (h : Yields (op.program c) history c') : Learns c history c' := by
  cases op with
  | evaluate =>
      rcases yields_bind_iff.mp h with ⟨first, ⟨result, c1⟩, rest, hfirst, hrest, rfl⟩
      rcases yields_done_iff.mp hrest with ⟨rfl, rfl⟩
      simpa using (Controller.evaluation_of_yields hfirst).learns
  | reconcile =>
      rcases yields_bind_iff.mp h with ⟨first, ⟨answer, c1⟩, rest, hfirst, hrest, rfl⟩
      rcases yields_done_iff.mp hrest with ⟨rfl, rfl⟩
      simpa using learns_reconcile hfirst
  | run wakes =>
      rcases yields_bind_iff.mp h with ⟨first, stage, rest, hfirst, hrest, rfl⟩
      rcases yields_done_iff.mp hrest with ⟨rfl, rfl⟩
      simpa using learns_run hfirst

theorem learns_operate {ops : List Operation} {c c' : Controller} {history : List Exchange}
    (h : Yields (operate ops c) history c') : Learns c history c' := by
  induction ops generalizing c history with
  | nil =>
      rcases yields_done_iff.mp h with ⟨rfl, rfl⟩
      exact Learns.of_quiet rfl rfl rfl rfl
  | cons op ops ih =>
      rcases yields_bind_iff.mp h with ⟨first, c1, rest, hfirst, hrest, rfl⟩
      exact (learns_operation hfirst).trans (ih hrest)

end Mining
end KeyRegistry
