import KeyRegistry.Program

/-!
# The mining controller

The controller keeps the node's miner running only while there is pending work.
It follows both event feeds, and after each wake-up it compares the pending
count with the miner state that it reads from the node at that moment.  Events
that are queued together lead to one evaluation.
-/

namespace KeyRegistry
namespace Mining

structure Config where
  threads : UInt32
  stopOnShutdown : Bool
  resubscribeAttempts : UInt32
  resubscribeBackoff : Duration
deriving DecidableEq

def Config.default : Config where
  threads := 1
  stopOnShutdown := true
  resubscribeAttempts := 5
  resubscribeBackoff := Duration.ofSecs 1

inductive Decision where
  | started
  | stopped
  | unchanged
deriving DecidableEq, Repr

structure Observation where
  isMining : Bool
  threads : UInt32
deriving DecidableEq, Repr

/-- The counts of a controller.  They are natural numbers: counters of 64 bits have the same values
as long as fewer than `2 ^ 64` of anything are counted. -/
structure Report where
  evaluations : Nat
  failedEvaluations : Nat
  starts : Nat
  stops : Nat
  events : Nat
deriving DecidableEq, Repr

def Report.zero : Report := ⟨0, 0, 0, 0, 0⟩

inductive Error where
  | rpc (cause : RpcError)
  | subscriptionLost (feed : Feed) (attempts : UInt32)
deriving DecidableEq, Repr

def Error.message : Error -> String
  | .rpc cause => "Node error: " ++ cause.message
  | .subscriptionLost feed attempts =>
      feed.name ++ " subscription lost after " ++ toString attempts.toNat ++
        " resubscribe attempt(s)"

structure Controller where
  config : Config
  state : Option Observation
  startedMiner : Bool
  report : Report
deriving DecidableEq

namespace Controller

def new (config : Config) : Controller :=
  { config, state := none, startedMiner := false, report := Report.zero }

def observe (c : Controller) (isMining : Bool) : Controller :=
  { c with state := some { isMining, threads := c.config.threads } }

def reconcile (c : Controller) : Program (Except Error Bool × Controller) := do
  match <- Program.ask .isMining with
  | .ok isMining => return (.ok isMining, c.observe isMining)
  | .error e => return (.error (.rpc e), c)

def recordStart (c : Controller) : Controller :=
  { c.observe true with
    startedMiner := true, report := { c.report with starts := c.report.starts + 1 } }

def recordStop (c : Controller) : Controller :=
  { c.observe false with
    startedMiner := false, report := { c.report with stops := c.report.stops + 1 } }

/-- Compares pending work with the miner state and acts on the difference.  A command that fails
leaves the miner state unknown. -/
def evaluate (c : Controller) : Program (Except Error Decision × Controller) := do
  let c := { c with report := { c.report with evaluations := c.report.evaluations + 1 } }
  match <- Program.ask .pendingCount with
  | .error e => return (.error (.rpc e), c)
  | .ok pending =>
      match <- c.reconcile with
      | (.error e, c) => return (.error e, c)
      | (.ok isMining, c) =>
          if 0 < pending ∧ isMining = false then
            match <- Program.ask (.startMining c.config.threads) with
            | .ok () => return (.ok .started, c.recordStart)
            | .error e => return (.error (.rpc e), { c with state := none })
          else if pending = 0 ∧ isMining = true then
            match <- Program.ask .stopMining with
            | .ok () => return (.ok .stopped, c.recordStop)
            | .error e => return (.error (.rpc e), { c with state := none })
          else
            return (.ok .unchanged, c)

def evaluateCounted (c : Controller) : Program Controller := do
  match <- c.evaluate with
  | (.ok _, c) => return c
  | (.error _, c) =>
      return { c with
        report := { c.report with failedEvaluations := c.report.failedEvaluations + 1 } }

/-- Subscribes again to a feed whose subscription was closed, with a pause before each try. -/
def resubscribe (config : Config) (feed : Feed) : Nat -> Program (Except Error Nat)
  | 0 => return .error (.subscriptionLost feed config.resubscribeAttempts)
  | left + 1 => do
      Program.sleep config.resubscribeBackoff
      match <- Program.ask (.subscribe feed) with
      | .ok subscription => return .ok subscription
      | .error _ => resubscribe config feed left

def shutdownMiner (c : Controller) : Program Controller := do
  let mining := (c.state.map Observation.isMining).getD false
  if c.config.stopOnShutdown && c.startedMiner && mining then
    match <- Program.ask .stopMining with
    | .ok () => return c.recordStop
    | .error _ => return c
  else
    return c

end Controller

inductive Wake where
  | shutdown
  | event (feed : Feed)
  | closed (feed : Feed)
deriving DecidableEq, Repr

/-- A controller with its two subscriptions, waiting for the next wake-up. -/
structure Run where
  controller : Controller
  latest : Nat
  pending : Nat
deriving DecidableEq

inductive Stage where
  | waiting (run : Run)
  | finished (result : Except Error Report) (controller : Controller)

def Controller.countEvents (c : Controller) (n : Nat) : Controller :=
  { c with report := { c.report with events := c.report.events + n } }

def drain (subscription : Nat) (c : Controller) : Program Controller := do
  let events <- Program.act (.drain subscription)
  return c.countEvents events.length

namespace Run

def replace (r : Run) (feed : Feed) (subscription : Nat) : Run :=
  match feed with
  | .latest => { r with latest := subscription }
  | .pending => { r with pending := subscription }

def finish (r : Run) (result : Except Error Unit) : Program Stage := do
  Program.act (.cancel r.latest)
  Program.act (.cancel r.pending)
  let c <- r.controller.shutdownMiner
  return .finished (result.map fun _ => c.report) c

def settle (r : Run) : Program Stage := do
  let c <- drain r.latest r.controller
  let c <- drain r.pending c
  let c <- c.evaluateCounted
  return .waiting { r with controller := c }

def wake (r : Run) : Wake -> Program Stage
  | .shutdown => r.finish (.ok ())
  | .event _ => settle { r with controller := r.controller.countEvents 1 }
  | .closed feed => do
      let config := r.controller.config
      match <- Controller.resubscribe config feed config.resubscribeAttempts.toNat with
      | .ok subscription => settle (r.replace feed subscription)
      | .error e => r.finish (.error e)

end Run

def start (c : Controller) : Program Stage := do
  match <- Program.ask (.subscribe .latest) with
  | .error e => return .finished (.error (.rpc e)) c
  | .ok latest =>
      match <- Program.ask (.subscribe .pending) with
      | .error e =>
          Program.act (.cancel latest)
          return .finished (.error (.rpc e)) c
      | .ok pending =>
          let c <- c.evaluateCounted
          return .waiting { controller := c, latest, pending }

end Mining
end KeyRegistry
