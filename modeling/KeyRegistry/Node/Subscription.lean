import KeyRegistry.Rpc.Event

/-!
# Event queues

A subscription is a bounded queue between the node and one consumer, which
either side can close.  Events that were queued before the node closed its side
are still read.
-/

namespace KeyRegistry
namespace Node

structure Subscription where
  feed : Feed
  openAtNode : Bool
  openAtConsumer : Bool
  queue : List ChainEvent
deriving DecidableEq

namespace Subscription

def capacity : Nat := 64

def new (feed : Feed) : Subscription :=
  { feed, openAtNode := true, openAtConsumer := true, queue := [] }

def isLive (s : Subscription) : Bool :=
  s.openAtNode && s.openAtConsumer

def accepts (s : Subscription) (feed : Feed) : Bool :=
  s.feed = feed && s.isLive && s.queue.length < capacity

def deliver (event : ChainEvent) (s : Subscription) : Subscription :=
  if s.accepts event.feed then { s with queue := s.queue ++ [event] } else s

def closeAtNode (feed : Feed) (s : Subscription) : Subscription :=
  if s.feed = feed then { s with openAtNode := false } else s

/-- The subscription after its consumer is gone; what was queued is lost. -/
def closeAtConsumer (s : Subscription) : Subscription :=
  { s with openAtConsumer := false, queue := [] }

def isEnded (s : Subscription) : Bool :=
  !s.openAtNode && s.queue.isEmpty

end Subscription
end Node
end KeyRegistry
