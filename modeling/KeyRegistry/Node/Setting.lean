import KeyRegistry.Node.Scripted

/-!
# Settings of a scripted node

A script changes one setting at a time, or queues one more error behind those that
wait to be used up.  Whatever it sets holds for what is asked from then on.
-/

namespace KeyRegistry
namespace Node

inductive Setting where
  | accounts (accounts : List Address)
  | unlock (result : Except RpcError Bool)
  | lock (result : Except RpcError Bool)
  | gasPrice (price : BitVec 128)
  | gasPriceError (e : RpcError)
  | estimate (result : Except RpcError UInt64)
  | callScript (script : CallScript)
  | onSend (effect : Call -> List (String × String) -> List (String × String))
  | sendError (e : RpcError)
  | receiptStatus (status : Option UInt64)
  | receiptDelay (polls : Nat)
  | contractAddress (address : Option Address)
  | pending (count : UInt64)
  | pendingError (e : RpcError)
  | mining (on : Bool)
  | miningError (e : RpcError)
  | blockNumber (number : UInt64)
  | subscribeError (e : RpcError)

def State.set (s : State) : Setting -> State
  | .accounts accounts => { s with accounts }
  | .unlock result => { s with unlock := result }
  | .lock result => { s with lock := result }
  | .gasPrice price => { s with gasPrice := price }
  | .gasPriceError e => { s with gasPriceErrors := s.gasPriceErrors ++ [e] }
  | .estimate result => { s with estimate := result }
  | .callScript script => { s with callScript := script }
  | .onSend effect => { s with onSend := effect }
  | .sendError e => { s with sendErrors := s.sendErrors ++ [e] }
  | .receiptStatus status => { s with receiptStatus := status }
  | .receiptDelay polls => { s with receiptDelay := polls }
  | .contractAddress address => { s with contractAddress := address }
  | .pending count => { s with pending := count }
  | .pendingError e => { s with pendingErrors := s.pendingErrors ++ [e] }
  | .mining on => { s with mining := on }
  | .miningError e => { s with miningErrors := s.miningErrors ++ [e] }
  | .blockNumber number => { s with blockNumber := number }
  | .subscribeError e => { s with subscribeErrors := s.subscribeErrors ++ [e] }

end Node
end KeyRegistry
