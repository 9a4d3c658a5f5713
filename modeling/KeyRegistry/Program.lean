import KeyRegistry.Duration
import KeyRegistry.GasPlan
import KeyRegistry.Receipt
import KeyRegistry.Rpc.Event

/-!
# Programs that talk to a node

A program is what one task does, as a tree: it is done, or it performs an action
and goes on with the reply.  Nothing is assumed about the replies; a world that
answers the actions decides them.
-/

namespace KeyRegistry

/-- What can be asked of a node. -/
inductive Request where
  | accounts
  | unlock (address : Address) (passphrase : String) (duration : Duration)
  | lock (address : Address)
  | gasPrice
  | estimateGas (call : Call)
  | execute (call : Call)
  | send (call : Call) (plan : GasPlan)
  | receipt (hash : Hash)
  | pendingCount
  | isMining
  | startMining (threads : UInt32)
  | stopMining
  | blockNumber
  | subscribe (feed : Feed)
deriving DecidableEq

namespace Request

/-- The type of a request's answer; a subscription is answered by its number. -/
@[reducible] def Value : Request -> Type
  | .accounts => List Address
  | .unlock _ _ _ => Bool
  | .lock _ => Bool
  | .gasPrice => BitVec 128
  | .estimateGas _ => UInt64
  | .execute _ => Bytes
  | .send _ _ => Hash
  | .receipt _ => Option Receipt
  | .pendingCount => UInt64
  | .isMining => Bool
  | .startMining _ => Unit
  | .stopMining => Unit
  | .blockNumber => UInt64
  | .subscribe _ => Nat

end Request

inductive Action where
  /-- Asks the node and waits for its answer. -/
  | ask (request : Request)
  /-- Waits for a span of time. -/
  | sleep (duration : Duration)
  /-- Reads the clock. -/
  | clock
  /-- From here on, a cancelled task has the account locked. -/
  | guard (address : Address)
  /-- Ends the innermost guard. -/
  | release
  /-- Takes all events that are already queued on a subscription. -/
  | drain (subscription : Nat)
  /-- Ends a subscription from the consumer's side. -/
  | cancel (subscription : Nat)
deriving DecidableEq

namespace Action

@[reducible] def Reply : Action -> Type
  | .ask request => Except RpcError request.Value
  | .sleep _ => Unit
  | .clock => Nat
  | .guard _ => Unit
  | .release => Unit
  | .drain _ => List ChainEvent
  | .cancel _ => Unit

end Action

inductive Program (α : Type) : Type where
  | done (a : α)
  | perform (action : Action) (next : action.Reply -> Program α)

namespace Program

def bind {α β : Type} : Program α -> (α -> Program β) -> Program β
  | .done a, f => f a
  | .perform action next, f => .perform action fun reply => (next reply).bind f

instance : Monad Program where
  pure := .done
  bind := bind

def act (action : Action) : Program action.Reply :=
  .perform action .done

def ask (request : Request) : Program (Except RpcError request.Value) :=
  act (.ask request)

def sleep (duration : Duration) : Program Unit :=
  act (.sleep duration)

theorem bind_assoc {α β γ : Type} (p : Program α) (f : α -> Program β) (g : β -> Program γ) :
    (p.bind f).bind g = p.bind fun a => (f a).bind g := by
  induction p with
  | done a => rfl
  | perform action next ih =>
      simp only [bind]
      congr 1
      funext reply
      exact ih reply

end Program

/-- A world answers actions, and may change with every one of them. -/
structure World (σ : Type) where
  answer : (action : Action) -> σ -> action.Reply × σ

abbrev Exchange : Type :=
  (action : Action) × action.Reply

namespace Program

def run {σ α : Type} (w : World σ) : Program α -> σ -> α × σ
  | .done a, s => (a, s)
  | .perform action next, s =>
      let (reply, s) := w.answer action s
      run w (next reply) s

def trace {σ α : Type} (w : World σ) : Program α -> σ -> List Exchange
  | .done _, _ => []
  | .perform action next, s =>
      let (reply, s) := w.answer action s
      ⟨action, reply⟩ :: trace w (next reply) s

end Program
end KeyRegistry
