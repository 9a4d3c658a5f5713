import KeyRegistry.Hash
import KeyRegistry.Rpc.Error

/-!
# Chain events

A node announces new blocks and transactions that enter its pending pool, each
on a feed of its own.
-/

namespace KeyRegistry

inductive Feed where
  | latest
  | pending
deriving DecidableEq, Repr

namespace Feed

def name : Feed -> String
  | .latest => "newHeads"
  | .pending => "newPendingTransactions"

def parse (text : String) : Except RpcError Feed :=
  if text = "newHeads" then .ok .latest
  else if text = "newPendingTransactions" then .ok .pending
  else .error (.subscription ("unsupported subscription kind " ++ Text.quote text))

end Feed

inductive ChainEvent where
  | newBlock (hash : Hash) (number : Option UInt64)
  | pendingTransaction (hash : Hash)
deriving DecidableEq

def ChainEvent.feed : ChainEvent -> Feed
  | .newBlock _ _ => .latest
  | .pendingTransaction _ => .pending

end KeyRegistry
