import KeyRegistry.Rpc.Wire

/-!
# Subscriptions over a connection

A subscription has a connection of its own.  After the node has acknowledged it,
a reader forwards the notifications of this subscription, in the order of their
arrival, over a bounded queue to one consumer.  A reader that stops because the
consumer is gone takes leave of the node; one that stops because the connection
has ended does not.
-/

namespace KeyRegistry
namespace Rpc

inductive Frame where
  | text (content : String)
  | close
  | failure (detail : String)
  /-- Binary data and the frames that keep a connection alive. -/
  | other
deriving DecidableEq, Repr

def subscribeId : Nat := 1

def bufferSize : Nat := 256

/-- What a message says as the answer to request `id`: nothing where it is none, else the
subscription's name or an error. -/
def acknowledgement? (id : Nat) (text : String) : Option (Except RpcError String) := do
  let value <- (Json.parse text).toOption
  if (value.member? "id").bind Json.nat64? = some id then
    match value.member? "error" with
    | some error =>
        let code := ((error.member? "code").bind Json.int64?).getD 0
        let message := ((error.member? "message").bind Json.text?).getD "unknown error"
        return .error (.node code message)
    | none =>
        match (value.member? "result").bind Json.text? with
        | some name => return .ok name
        | none => return .error (.decode .unnamedSubscription)
  else
    none

/-- The event that a message announces to the subscription `name` of `feed`, if it does. -/
def notification? (name : String) (feed : Feed) (text : String) : Option ChainEvent := do
  let value <- (Json.parse text).toOption
  let method <- (value.member? "method").bind Json.text?
  if method ≠ "eth_subscription" then
    none
  let params <- value.member? "params"
  let addressee <- (params.member? "subscription").bind Json.text?
  if addressee ≠ name then
    none
  let result <- params.member? "result"
  match feed with
  | .latest =>
      let text <- (result.member? "hash").bind Json.text?
      let hash <- (Hash.parse text).toOption
      let number := do
        let digits <- (result.member? "number").bind Json.text?
        (Quantity.parse64 digits).toOption
      return .newBlock hash number
  | .pending =>
      let text <-
        match result with
        | .text s => some s
        | other => (other.member? "hash").bind Json.text?
      let hash <- (Hash.parse text).toOption
      return .pendingTransaction hash

def awaitAcknowledgement (feed : Feed) : List Frame -> Except RpcError (String × List Frame)
  | [] =>
      .error (.subscription ("connection closed before " ++ feed.name ++ " was acknowledged"))
  | .close :: _ =>
      .error (.subscription ("connection closed before " ++ feed.name ++ " was acknowledged"))
  | .failure detail :: _ => .error (.connection detail)
  | .other :: frames => awaitAcknowledgement feed frames
  | .text text :: frames =>
      match acknowledgement? subscribeId text with
      | none => awaitAcknowledgement feed frames
      | some (.ok name) => .ok (name, frames)
      | some (.error e) => .error e

def announced (name : String) (feed : Feed) : List Frame -> List ChainEvent
  | [] => []
  | .close :: _ => []
  | .failure _ :: _ => []
  | .other :: frames => announced name feed frames
  | .text text :: frames =>
      match notification? name feed text with
      | some event => event :: announced name feed frames
      | none => announced name feed frames

/-- What a client sends on a connection after the acknowledgement. -/
inductive Farewell where
  | unsubscribe (name : String)
  | close
deriving DecidableEq, Repr

/-- The consumer's side of a subscription: what it is told of, and whether it is still open. -/
structure Handle where
  feed : Feed
  hasReader : Bool
  /-- Whether the reader has been told to stop. -/
  told : Bool
  isOpen : Bool
deriving DecidableEq, Repr

namespace Handle

def withReader (feed : Feed) : Handle :=
  { feed, hasReader := true, told := false, isOpen := true }

def release (h : Handle) : Handle :=
  { h with told := h.hasReader, isOpen := false }

end Handle

inductive ReaderState where
  | reading
  /-- Waits for room in the queue. -/
  | holding (event : ChainEvent)
  | stopped
deriving DecidableEq

/-- An acknowledged subscription with its reader and its consumer. -/
structure Feeding where
  name : String
  feed : Feed
  capacity : Nat
  incoming : List Frame
  queue : List ChainEvent
  reader : ReaderState
  /-- Whether the consumer has cancelled or dropped the subscription. -/
  cancelled : Bool
  sent : List Farewell
  delivered : List ChainEvent
deriving DecidableEq

namespace Feeding

def new (name : String) (feed : Feed) (capacity : Nat) (incoming : List Frame) : Feeding :=
  { name, feed, capacity, incoming, queue := [], reader := .reading, cancelled := false,
    sent := [], delivered := [] }

/-- One step of the reader or of the consumer; which is next is for a scheduler to choose. -/
inductive Move where
  /-- The reader takes the next frame. -/
  | read
  /-- The reader puts the event that it holds into the queue. -/
  | forward
  /-- The reader notices that the consumer is gone. -/
  | notice
  /-- The consumer takes the next event. -/
  | take
  /-- The consumer cancels or drops the subscription. -/
  | cancel
deriving DecidableEq, Repr

def leave (s : Feeding) : Feeding :=
  { s with reader := .stopped, sent := s.sent ++ [.unsubscribe s.name, .close] }

def stop (s : Feeding) : Feeding :=
  { s with reader := .stopped }

/-- The state after a move; one that is not possible changes nothing. -/
def step (s : Feeding) : Move -> Feeding
  | .read =>
      match s.reader, s.incoming with
      | .reading, [] => s.stop
      | .reading, .close :: _ => s.stop
      | .reading, .failure _ :: _ => s.stop
      | .reading, .other :: frames => { s with incoming := frames }
      | .reading, .text text :: frames =>
          match notification? s.name s.feed text with
          | some event => { s with incoming := frames, reader := .holding event }
          | none => { s with incoming := frames }
      | _, _ => s
  | .forward =>
      match s.reader with
      | .holding event =>
          if !s.cancelled ∧ s.queue.length < s.capacity then
            { s with queue := s.queue ++ [event], reader := .reading }
          else
            s
      | _ => s
  | .notice =>
      if s.cancelled ∧ s.reader ≠ .stopped then s.leave else s
  | .take =>
      match s.queue with
      | event :: queue =>
          if s.cancelled then s else { s with queue, delivered := s.delivered ++ [event] }
      | [] => s
  | .cancel => { s with cancelled := true }

def run (s : Feeding) (moves : List Move) : Feeding :=
  moves.foldl step s

def isEnded (s : Feeding) : Bool :=
  s.reader = .stopped && s.queue.isEmpty

end Feeding
end Rpc
end KeyRegistry
