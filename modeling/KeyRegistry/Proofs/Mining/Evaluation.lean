import KeyRegistry.Mining.Controller
import KeyRegistry.Proofs.Program.History

/-!
# Evaluations of the mining controller

An evaluation asks for the pending count, then for the miner state, and gives at
most one command.  The relation below has one constructor for each way in which
this can go; what a command needs, and what the controller knows afterwards, is
read off these.
-/

namespace KeyRegistry
namespace Mining

open Program

/-! ## Requests of the controller -/

def isCommand : Exchange -> Bool
  | ⟨.ask (.startMining _), _⟩ => true
  | ⟨.ask .stopMining, _⟩ => true
  | _ => false

def isStart : Exchange -> Bool
  | ⟨.ask (.startMining _), .ok _⟩ => true
  | _ => false

def isStop : Exchange -> Bool
  | ⟨.ask .stopMining, .ok _⟩ => true
  | _ => false

def isCount : Exchange -> Bool
  | ⟨.ask .pendingCount, _⟩ => true
  | _ => false

namespace Controller

def begun (c : Controller) : Controller :=
  { c with report := { c.report with evaluations := c.report.evaluations + 1 } }

def uncertain (c : Controller) : Controller :=
  { c with state := none }

theorem answered_of_yields {α : Type} {request : Request}
    {next : Except RpcError request.Value -> Program α} {f : request.Value -> α}
    {g : RpcError -> α} {history : List Exchange} {a : α}
    (h : Yields (Program.ask request >>= next) history a)
    (hok : forall value, next (.ok value) = .done (f value))
    (herror : forall e, next (.error e) = .done (g e)) :
    (∃ value, history = [⟨.ask request, .ok value⟩] ∧ a = f value) ∨
      ∃ e, history = [⟨.ask request, .error e⟩] ∧ a = g e := by
  rcases yields_act_bind_iff.mp h with ⟨answer, rest, rfl, hrest⟩
  cases answer with
  | ok value =>
      rw [hok] at hrest
      rcases yields_done_iff.mp hrest with ⟨rfl, rfl⟩
      exact Or.inl ⟨value, rfl, rfl⟩
  | error e =>
      rw [herror] at hrest
      rcases yields_done_iff.mp hrest with ⟨rfl, rfl⟩
      exact Or.inr ⟨e, rfl, rfl⟩

theorem reconciliation_of_yields {c : Controller} {history : List Exchange}
    {answer : Except Error Bool × Controller} (h : Yields c.reconcile history answer) :
    (∃ mining, history = [⟨.ask .isMining, .ok mining⟩] ∧ answer = (.ok mining, c.observe mining)) ∨
      ∃ e, history = [⟨.ask .isMining, .error e⟩] ∧ answer = (.error (.rpc e), c) :=
  answered_of_yields h (fun _ => rfl) (fun _ => rfl)

inductive Evaluation (c : Controller) :
    List Exchange -> Except Error Decision -> Controller -> Prop where
  | uncounted (e : RpcError) :
      Evaluation c [⟨.ask .pendingCount, .error e⟩] (.error (.rpc e)) c.begun
  | unread (pending : UInt64) (e : RpcError) :
      Evaluation c [⟨.ask .pendingCount, .ok pending⟩, ⟨.ask .isMining, .error e⟩]
        (.error (.rpc e)) c.begun
  | started (pending : UInt64) :
      0 < pending ->
      Evaluation c
        [⟨.ask .pendingCount, .ok pending⟩, ⟨.ask .isMining, .ok false⟩,
          ⟨.ask (.startMining c.config.threads), .ok ()⟩]
        (.ok .started) (c.begun.observe false).recordStart
  | unstarted (pending : UInt64) (e : RpcError) :
      0 < pending ->
      Evaluation c
        [⟨.ask .pendingCount, .ok pending⟩, ⟨.ask .isMining, .ok false⟩,
          ⟨.ask (.startMining c.config.threads), .error e⟩]
        (.error (.rpc e)) (c.begun.observe false).uncertain
  | stopped :
      Evaluation c
        [⟨.ask .pendingCount, .ok 0⟩, ⟨.ask .isMining, .ok true⟩, ⟨.ask .stopMining, .ok ()⟩]
        (.ok .stopped) (c.begun.observe true).recordStop
  | unstopped (e : RpcError) :
      Evaluation c
        [⟨.ask .pendingCount, .ok 0⟩, ⟨.ask .isMining, .ok true⟩, ⟨.ask .stopMining, .error e⟩]
        (.error (.rpc e)) (c.begun.observe true).uncertain
  | unchanged (pending : UInt64) (mining : Bool) :
      mining = decide (0 < pending) ->
      Evaluation c [⟨.ask .pendingCount, .ok pending⟩, ⟨.ask .isMining, .ok mining⟩]
        (.ok .unchanged) (c.begun.observe mining)

theorem eq_zero_of_not_pos {n : UInt64} (h : ¬ 0 < n) : n = 0 := by
  rw [UInt64.lt_iff_toNat_lt, UInt64.toNat_zero] at h
  exact UInt64.toNat_inj.mp (by rw [UInt64.toNat_zero]; omega)

/-- Where there is nothing to do, the miner runs exactly if transactions are pending. -/
theorem mining_eq_of_neither {pending : UInt64} {mining : Bool}
    (hstart : ¬ (0 < pending ∧ mining = false)) (hstop : ¬ (pending = 0 ∧ mining = true)) :
    mining = decide (0 < pending) := by
  cases mining with
  | false =>
      have hzero : ¬ 0 < pending := fun hpos => hstart ⟨hpos, rfl⟩
      exact (decide_eq_false hzero).symm
  | true =>
      have hpos : 0 < pending :=
        Decidable.by_contra fun hnone => hstop ⟨eq_zero_of_not_pos hnone, rfl⟩
      exact (decide_eq_true hpos).symm

theorem evaluation_of_yields {c c' : Controller} {history : List Exchange}
    {result : Except Error Decision} (h : Yields c.evaluate history (result, c')) :
    Evaluation c history result c' := by
  rcases yields_act_bind_iff.mp h with ⟨counted, rest, rfl, hrest⟩
  cases counted with
  | error e =>
      cases (yields_done_iff.mp hrest).2
      cases (yields_done_iff.mp hrest).1
      exact Evaluation.uncounted e
  | ok pending =>
      rcases yields_bind_iff.mp hrest with ⟨read, observed, last, hread, hlast, rfl⟩
      rcases reconciliation_of_yields hread with ⟨mining, rfl, rfl⟩ | ⟨e, rfl, rfl⟩
      · by_cases hstart : 0 < pending ∧ mining = false
        · simp only [hstart, and_self, if_true] at hlast
          rcases hstart with ⟨hpending, rfl⟩
          rcases answered_of_yields hlast (fun _ => rfl) (fun _ => rfl) with
            ⟨u, rfl, heq⟩ | ⟨e, rfl, heq⟩
          · cases heq
            exact Evaluation.started pending hpending
          · cases heq
            exact Evaluation.unstarted pending e hpending
        · by_cases hstop : pending = 0 ∧ mining = true
          · rcases hstop with ⟨rfl, rfl⟩
            simp only [hstart, and_self, if_true, if_false] at hlast
            rcases answered_of_yields hlast (fun _ => rfl) (fun _ => rfl) with
              ⟨u, rfl, heq⟩ | ⟨e, rfl, heq⟩
            · cases heq
              exact Evaluation.stopped
            · cases heq
              exact Evaluation.unstopped e
          · simp only [hstart, hstop, if_false] at hlast
            rcases yields_done_iff.mp hlast with ⟨rfl, heq⟩
            cases heq
            exact Evaluation.unchanged pending mining (mining_eq_of_neither hstart hstop)
      · rcases yields_done_iff.mp hlast with ⟨rfl, heq⟩
        cases heq
        exact Evaluation.unread pending e

/-! ## What an evaluation keeps to -/

/-- The rules of an evaluation that takes the controller `before` to `after`. -/
structure Disciplined (before : Controller) (history : List Exchange)
    (result : Except Error Decision) (after : Controller) : Prop where
  commands_le_one : history.countP isCommand ≤ 1
  start_after_reads : forall threads answer,
    (⟨.ask (.startMining threads), answer⟩ : Exchange) ∈ history ->
      ∃ pending, 0 < pending ∧
        history = [⟨.ask .pendingCount, .ok pending⟩, ⟨.ask .isMining, .ok false⟩,
          ⟨.ask (.startMining threads), answer⟩]
  stop_after_reads : forall answer,
    (⟨.ask .stopMining, answer⟩ : Exchange) ∈ history ->
      history = [⟨.ask .pendingCount, .ok 0⟩, ⟨.ask .isMining, .ok true⟩,
        ⟨.ask .stopMining, answer⟩]
  state_of_ok : forall decision, result = .ok decision ->
    ∃ pending observation, (⟨.ask .pendingCount, .ok pending⟩ : Exchange) ∈ history ∧
      after.state = some observation ∧ observation.isMining = decide (0 < pending)
  state_of_failed_start : forall threads e,
    (⟨.ask (.startMining threads), .error e⟩ : Exchange) ∈ history -> after.state = none
  state_of_failed_stop : forall e,
    (⟨.ask .stopMining, .error e⟩ : Exchange) ∈ history -> after.state = none
  quiet_of_failed_query : forall e,
    (⟨.ask .pendingCount, .error e⟩ : Exchange) ∈ history ∨
        (⟨.ask .isMining, .error e⟩ : Exchange) ∈ history ->
      history.countP isCommand = 0 ∧ after.state = before.state

theorem Evaluation.disciplined {c c' : Controller} {history : List Exchange}
    {result : Except Error Decision} (h : Evaluation c history result c') :
    Disciplined c history result c' := by
  cases h with
  | uncounted e => constructor <;> simp [isCommand, begun]
  | unread pending e => constructor <;> simp [isCommand, begun]
  | started pending hpending =>
      constructor <;> simp [isCommand, recordStart, observe, hpending]
  | unstarted pending e hpending =>
      constructor <;> simp [isCommand, uncertain, observe, hpending]
  | stopped => constructor <;> simp [isCommand, recordStop, observe]
  | unstopped e => constructor <;> simp [isCommand, uncertain, observe]
  | unchanged pending mining hmining => constructor <;> simp [isCommand, observe, hmining]

/-! ## The end of a run -/

def StopsAtEnd (c : Controller) : Prop :=
  c.config.stopOnShutdown = true ∧ c.startedMiner = true ∧
    (c.state.map Observation.isMining).getD false = true

inductive Closing (c : Controller) : List Exchange -> Controller -> Prop where
  | idle : ¬ c.StopsAtEnd -> Closing c [] c
  | stopped : c.StopsAtEnd -> Closing c [⟨.ask .stopMining, .ok ()⟩] c.recordStop
  | unstopped (e : RpcError) : c.StopsAtEnd -> Closing c [⟨.ask .stopMining, .error e⟩] c

theorem closing_of_yields {c c' : Controller} {history : List Exchange}
    (h : Yields c.shutdownMiner history c') : Closing c history c' := by
  unfold shutdownMiner at h
  by_cases hstops : c.StopsAtEnd
  · have hcondition : (c.config.stopOnShutdown && c.startedMiner &&
        (c.state.map Observation.isMining).getD false) = true := by
      rw [hstops.1, hstops.2.1, hstops.2.2]
      rfl
    simp only [hcondition, if_true] at h
    rcases answered_of_yields h (fun _ => rfl) (fun _ => rfl) with ⟨u, rfl, rfl⟩ | ⟨e, rfl, rfl⟩
    · exact Closing.stopped hstops
    · exact Closing.unstopped e hstops
  · have hcondition : ¬ (c.config.stopOnShutdown && c.startedMiner &&
        (c.state.map Observation.isMining).getD false) = true := by
      rw [Bool.and_eq_true, Bool.and_eq_true]
      exact fun hall => hstops ⟨hall.1.1, hall.1.2, hall.2⟩
    simp only [hcondition] at h
    rcases yields_done_iff.mp h with ⟨rfl, rfl⟩
    exact Closing.idle hstops

end Controller
end Mining
end KeyRegistry
