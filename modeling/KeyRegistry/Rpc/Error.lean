import KeyRegistry.Json.Number

/-!
# Errors of node requests

A request fails in transport, by the node's own answer, or because an answer
cannot be read.  Only transport failures and the node's limit error are
transient; every other failure is terminal.
-/

namespace KeyRegistry

inductive Unreadable where
  /-- It is no answer at all. -/
  | body (fault : Json.Fault)
  /-- The result of a method is not what the method returns. -/
  | result (method : String) (fault : Json.Fault)
  /-- A text in it is no value of the expected kind. -/
  | value (cause : ValueError)
  /-- It acknowledges a subscription without naming it. -/
  | unnamedSubscription
  | other (detail : String)
deriving DecidableEq, Repr

def Unreadable.message : Unreadable -> String
  | .body fault => fault.message
  | .result method fault => method ++ ": " ++ fault.message
  | .value cause => cause.message
  | .unnamedSubscription => "subscribe response without id"
  | .other detail => detail

inductive RpcError where
  | connection (detail : String)
  | timeout (detail : String)
  | node (code : Int) (message : String)
  | decode (cause : Unreadable)
  | subscription (detail : String)
deriving DecidableEq, Repr

namespace RpcError

def limitExceeded : Int := -32005

def message : RpcError -> String
  | .connection detail => "Connection error: " ++ detail
  | .timeout detail => "Timeout: " ++ detail
  | .node code text => "Node error " ++ toString code ++ ": " ++ text
  | .decode cause => "Decode error: " ++ cause.message
  | .subscription detail => "Subscription error: " ++ detail

def isRetryable : RpcError -> Bool
  | .connection _ => true
  | .timeout _ => true
  | .node code _ => code = limitExceeded
  | _ => false

def code? : RpcError -> Option Int
  | .node code _ => some code
  | _ => none

def ofValueError (e : ValueError) : RpcError :=
  .decode (.value e)

end RpcError
end KeyRegistry
