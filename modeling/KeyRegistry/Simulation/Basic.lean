import KeyRegistry.Mining.Controller
import KeyRegistry.Node.Scripted

/-!
# Tasks on a virtual clock

A main task runs programs against a scripted node.  Beside it run the tasks that
lock the accounts of cancelled scopes, and at most one control loop of a mining
controller.  Other tasks act only while the main task waits, each until it waits
itself, and the clock moves only when no task can run: to the earliest moment at
which one wakes up.
-/

namespace KeyRegistry

inductive MinerTask where
  | ready (program : Program Mining.Stage)
  | asleep (wakeAt : Nat) (program : Program Mining.Stage)
  | waiting (run : Mining.Run)
  | finished (result : Except Mining.Error Mining.Report) (controller : Mining.Controller)

structure Simulation where
  node : Node.State
  /-- Nanoseconds since the start. -/
  now : Nat
  /-- Accounts whose lock tasks have not run yet, the first one first. -/
  locks : List Address
  miner : Option MinerTask
  shutdown : Bool

namespace Simulation

def start : Simulation :=
  { node := Node.State.fresh, now := 0, locks := [], miner := none, shutdown := false }

/-! ## The control loop -/

/-- Why a waiting control loop wakes up now, if it does.  A shutdown comes before events, and
the feed of blocks before that of pending transactions. -/
def wakeOf (s : Simulation) (r : Mining.Run) : Option (Mining.Wake × Simulation) :=
  if s.shutdown then
    some (.shutdown, s)
  else
    match s.node.takeEvent r.latest with
    | (some _, node) => some (.event .latest, { s with node })
    | (none, _) =>
        if s.node.isEnded r.latest then
          some (.closed .latest, s)
        else
          match s.node.takeEvent r.pending with
          | (some _, node) => some (.event .pending, { s with node })
          | (none, _) =>
              if s.node.isEnded r.pending then some (.closed .pending, s) else none

/-- Runs the control loop until it sleeps or one of its stages is over. -/
def stepMiner : Program Mining.Stage -> Simulation -> Simulation
  | .done (.waiting r), s => { s with miner := some (.waiting r) }
  | .done (.finished result c), s => { s with miner := some (.finished result c) }
  | .perform (.ask request) next, s =>
      let (reply, node) := s.node.answer request
      stepMiner (next reply) { s with node }
  | .perform (.sleep d) next, s =>
      if d.nanos = 0 then
        stepMiner (next ()) s
      else
        { s with miner := some (.asleep (s.now + d.nanos) (next ())) }
  | .perform .clock next, s => stepMiner (next s.now) s
  | .perform (.guard _) next, s => stepMiner (next ()) s
  | .perform .release next, s => stepMiner (next ()) s
  | .perform (.drain id) next, s =>
      let (events, node) := s.node.drainEvents id
      stepMiner (next events) { s with node }
  | .perform (.cancel id) next, s => stepMiner (next ()) { s with node := s.node.cancel id }

/-- Runs the control loop until it waits with nothing to wake it. -/
def runMiner : Nat -> Simulation -> Simulation
  | 0, s => s
  | fuel + 1, s =>
      match s.miner with
      | some (.ready program) => runMiner fuel (stepMiner program s)
      | some (.waiting r) =>
          match s.wakeOf r with
          | some (wake, s) => runMiner fuel (stepMiner (r.wake wake) s)
          | none => s
      | _ => s

/-- More than the number of times that a control loop can wake up before it has to wait: each
wake-up uses up a queued event, a closed subscription or the shutdown. -/
def wakeBound (s : Simulation) : Nat :=
  s.node.subscriptions.foldl (fun n sub => n + sub.queue.length + 1) 8

/-! ## Waiting -/

def runLocks (s : Simulation) : Simulation :=
  s.locks.foldl (fun s address => { s with node := (s.node.answer (.lock address)).2 })
    { s with locks := [] }

def runReady (s : Simulation) : Simulation :=
  runLocks (runMiner s.wakeBound s)

def minerTimer? (s : Simulation) : Option Nat :=
  match s.miner with
  | some (.asleep wakeAt _) => some wakeAt
  | _ => none

def fireTimer (s : Simulation) : Simulation :=
  match s.miner with
  | some (.asleep wakeAt program) => { s with now := wakeAt, miner := some (.ready program) }
  | _ => s

def waitUntil (stop : Simulation -> Bool) (target : Nat) : Nat -> Simulation -> Simulation
  | 0, s => { s with now := max s.now target }
  | fuel + 1, s =>
      let s := s.runReady
      if stop s then
        s
      else
        match s.minerTimer? with
        | some wakeAt =>
            if wakeAt ≤ target then
              waitUntil stop target fuel s.fireTimer
            else
              { s with now := max s.now target }
        | none => { s with now := max s.now target }

def pause (s : Simulation) (nanos : Nat) : Simulation :=
  if nanos = 0 then s else waitUntil (fun _ => false) (s.now + nanos) (nanos + 1) s

def isFinished (s : Simulation) : Bool :=
  match s.miner with
  | some (.finished _ _) => true
  | _ => false

/-- Lets the other tasks run until the control loop has ended, for at most `nanos`. -/
def joinMiner (s : Simulation) (nanos : Nat) : Simulation :=
  waitUntil isFinished (s.now + nanos) (nanos + 1) s

def spawnMiner (s : Simulation) (c : Mining.Controller) : Simulation :=
  { s with miner := some (.ready (Mining.start c)), shutdown := false }

/-! ## The main task -/

/-- Runs a program on the main task.  Where a deadline is given and the program still sleeps when
it passes, the program is cancelled there: the accounts of its open guards are locked by tasks of
their own, the innermost first, and there is no result. -/
def exec {α : Type} (deadline : Option Nat) :
    Program α -> List Address -> Simulation -> Option α × Simulation
  | .done a, _, s => (some a, s)
  | .perform (.ask request) next, guards, s =>
      let (reply, node) := s.node.answer request
      exec deadline (next reply) guards { s with node }
  | .perform (.sleep d) next, guards, s =>
      if d.nanos = 0 then
        exec deadline (next ()) guards s
      else
        match deadline with
        | none => exec deadline (next ()) guards (s.pause d.nanos)
        | some moment =>
            if s.now + d.nanos ≤ moment then
              exec deadline (next ()) guards (s.pause d.nanos)
            else
              let s := s.pause (moment - s.now)
              (none, { s with locks := s.locks ++ guards })
  | .perform .clock next, guards, s => exec deadline (next s.now) guards s
  | .perform (.guard address) next, guards, s => exec deadline (next ()) (address :: guards) s
  | .perform .release next, guards, s => exec deadline (next ()) guards.tail s
  | .perform (.drain id) next, guards, s =>
      let (events, node) := s.node.drainEvents id
      exec deadline (next events) guards { s with node }
  | .perform (.cancel id) next, guards, s =>
      exec deadline (next ()) guards { s with node := s.node.cancel id }

def execAll {α : Type} (program : Program α) (s : Simulation) : Option α × Simulation :=
  exec none program [] s

end Simulation
end KeyRegistry
