import KeyRegistry.Pipeline.Config
import KeyRegistry.Pipeline.Error
import KeyRegistry.Program

/-!
# The course of a step

A pipeline carries one call from `built` over `gasEstimated`, `priced` and
`submitted` to `confirmed`; any failure moves it to `failed`.  A course is what a
step does from one pipeline on.  It is a tree like that of a program, and shows
at every action how the pipeline stands there.
-/

namespace KeyRegistry

structure Pipeline where
  config : Pipeline.Config
  call : Call
  state : Pipeline.State
  estimate : Option UInt64
  plan : Option GasPlan
  hash : Option Hash
  /-- A natural number.  A 32-bit counter has the same value wherever fewer than `2 ^ 32 - 1` retries
  are allowed, and would start again from zero where they are not. -/
  attempts : Nat
deriving DecidableEq

namespace Pipeline

def new (call : Call) (config : Config) : Pipeline :=
  { config, call, state := .built, estimate := none, plan := none, hash := none, attempts := 0 }

def margin (p : Pipeline) : UInt32 :=
  if p.call.isDeploy then p.config.deployMarginPercent else p.config.callMarginPercent

/-! ## What a step makes of a pipeline -/

def estimated (p : Pipeline) (gas : UInt64) : Pipeline :=
  { p with estimate := some gas, state := .gasEstimated }

def planned (p : Pipeline) (plan : GasPlan) : Pipeline :=
  { p with plan := some plan, state := .priced }

def attempted (p : Pipeline) : Pipeline :=
  { p with attempts := p.attempts + 1 }

def submitted (p : Pipeline) (hash : Hash) : Pipeline :=
  { p with hash := some hash, state := .submitted }

def confirmed (p : Pipeline) : Pipeline :=
  { p with state := .confirmed }

def failed (p : Pipeline) : Pipeline :=
  { p with state := .failed }

/-! ## Courses -/

inductive Course (α : Type) : Type where
  /-- The step is over with a result, and leaves `p`. -/
  | done (p : Pipeline) (a : α)
  /-- The step acts while the pipeline stands as `p`. -/
  | perform (p : Pipeline) (action : Action) (next : action.Reply -> Course α)

namespace Course

def bind {α β : Type} : Course α -> (Pipeline -> α -> Course β) -> Course β
  | .done p a, f => f p a
  | .perform p action next, f => .perform p action fun reply => (next reply).bind f

def during {α : Type} (p : Pipeline) : Program α -> Course α
  | .done a => .done p a
  | .perform action next => .perform p action fun reply => during p (next reply)

def program {α : Type} : Course α -> Program (α × Pipeline)
  | .done p a => .done (a, p)
  | .perform _ action next => .perform action fun reply => (next reply).program

end Course

abbrev Move (α : Type) : Type :=
  Pipeline -> Course (Except Error α)

namespace Move

def andThen {α β : Type} (move : Move α) (next : α -> Move β) : Move β := fun p =>
  (move p).bind fun p result =>
    match result with
    | .ok a => next a p
    | .error e => .done p (.error e)

def fail {α : Type} (e : Error) : Move α := fun p =>
  .done p.failed (.error e)

def only {α : Type} (allowed : List State) (action : Stage) (move : Move α) : Move α := fun p =>
  if p.state ∈ allowed then
    move p
  else
    .done p (.error (.invalidTransition p.state action))

end Move
end Pipeline
end KeyRegistry
