import KeyRegistry.Abi.Type
import KeyRegistry.Duration
import KeyRegistry.Hash
import KeyRegistry.Rpc.Error

/-!
# How a transaction can fail

A failure names the step that it ends, so that a caller knows what has happened
at the node before it.
-/

namespace KeyRegistry
namespace Pipeline

inductive State where
  | built
  | gasEstimated
  | priced
  | submitted
  | confirmed
  | failed
deriving DecidableEq, Repr

def State.name : State -> String
  | .built => "built"
  | .gasEstimated => "gas-estimated"
  | .priced => "priced"
  | .submitted => "submitted"
  | .confirmed => "confirmed"
  | .failed => "failed"

inductive Stage where
  | accounts
  | unlock
  | encoding
  | estimation
  | pricing
  | submission
  | confirmation
  | call
deriving DecidableEq, Repr

def Stage.name : Stage -> String
  | .accounts => "accounts"
  | .unlock => "unlock"
  | .encoding => "encoding"
  | .estimation => "estimation"
  | .pricing => "pricing"
  | .submission => "submission"
  | .confirmation => "confirmation"
  | .call => "call"

inductive UnlockFault where
  | refused
  | failed (cause : RpcError)
  | other (reason : String)
deriving DecidableEq, Repr

def UnlockFault.message : UnlockFault -> String
  | .refused => "node refused the unlock"
  | .failed cause => cause.message
  | .other reason => reason

inductive Error where
  | accounts (source : RpcError)
  | noAccounts
  | accountIndex (index available : Nat)
  | unlockFailed (address : Address) (fault : UnlockFault)
  | estimationFailed (source : RpcError)
  | pricingFailed (source : RpcError)
  | submissionFailed (attempts : Nat) (source : RpcError)
  | confirmationFailed (hash : Hash) (source : RpcError)
  | receiptTimeout (hash : Hash) (waited : Duration)
  | callFailed (source : RpcError)
  | stalePlan
  | invalidTransition (state : State) (action : Stage)
  | missingContractAddress (hash : Hash)
  | abi (cause : Abi.Error)
deriving DecidableEq

namespace Error

def message : Error -> String
  | .accounts source => "Failed to list node accounts: " ++ source.message
  | .noAccounts => "Node manages no accounts"
  | .accountIndex index available =>
      "Account index " ++ toString index ++ " out of range, node manages " ++ toString available
  | .unlockFailed address fault =>
      "Failed to unlock " ++ address.toString ++ ": " ++ fault.message
  | .estimationFailed source => "Gas estimation failed: " ++ source.message
  | .pricingFailed source => "Gas price query failed: " ++ source.message
  | .submissionFailed attempts source =>
      "Submission failed after " ++ toString attempts ++ " attempt(s): " ++ source.message
  | .confirmationFailed hash source =>
      "Receipt query for " ++ hash.toString ++ " failed: " ++ source.message
  | .receiptTimeout hash waited =>
      "No receipt for " ++ hash.toString ++ " after " ++ waited.toString
  | .callFailed source => "Call failed: " ++ source.message
  | .stalePlan => "Gas plan was derived for a different call"
  | .invalidTransition state action =>
      "Step " ++ action.name ++ " not allowed in state " ++ state.name
  | .missingContractAddress hash =>
      "Receipt of creation " ++ hash.toString ++ " carries no contract address"
  | .abi cause => "ABI error: " ++ cause.message

def stage : Error -> Stage
  | .accounts _ => .accounts
  | .noAccounts => .accounts
  | .accountIndex _ _ => .accounts
  | .unlockFailed _ _ => .unlock
  | .abi _ => .encoding
  | .estimationFailed _ => .estimation
  | .pricingFailed _ => .pricing
  | .stalePlan => .pricing
  | .submissionFailed _ _ => .submission
  | .invalidTransition _ action => action
  | .confirmationFailed _ _ => .confirmation
  | .receiptTimeout _ _ => .confirmation
  | .missingContractAddress _ => .confirmation
  | .callFailed _ => .call

def rpcError? : Error -> Option RpcError
  | .accounts source => some source
  | .estimationFailed source => some source
  | .pricingFailed source => some source
  | .submissionFailed _ source => some source
  | .confirmationFailed _ source => some source
  | .callFailed source => some source
  | _ => none

end Error
end Pipeline
end KeyRegistry
