import KeyRegistry.AddressFile
import KeyRegistry.Artifact.Store
import KeyRegistry.Mining.Controller
import KeyRegistry.Pipeline.Error

/-!
# Kinds of errors

Reports name an error by one word beside its message, so that a reader can tell
errors apart without parsing text.
-/

namespace KeyRegistry

def ValueError.kind : ValueError -> String
  | .addressWithoutMark _ => "InvalidAddressFormat"
  | .addressLength _ => "InvalidAddressLength"
  | .hashLength _ => "InvalidHashLength"
  | .hex _ => "InvalidHex"
  | .quantityWithoutDigits _ => "InvalidQuantity"
  | .quantityDigit => "InvalidQuantity"
  | .quantityOverflow _ => "QuantityOverflow"

def RpcError.kind : RpcError -> String
  | .connection _ => "Connection"
  | .timeout _ => "Timeout"
  | .node _ _ => "Node"
  | .decode _ => "Decode"
  | .subscription _ => "Subscription"

def Abi.Error.kind : Abi.Error -> String
  | .unreadableInterface => "InvalidInterface"
  | .namelessFunction => "InvalidInterface"
  | .unknownFunction _ => "UnknownFunction"
  | .argumentCount _ _ _ => "ArgumentCount"
  | .typeMismatch _ _ => "TypeMismatch"
  | .unsupportedType _ => "UnsupportedType"
  | .overflow _ => "Overflow"
  | .truncated => "Truncated"
  | .invalidUtf8 => "InvalidUtf8"

def FileError.kind : FileError -> String
  | .notFound => "NotFound"
  | .notADirectory => "NotADirectory"
  | .isADirectory => "IsADirectory"
  | .alreadyExists => "AlreadyExists"
  | .nameTooLong => "InvalidFilename"
  | .zeroByte => "InvalidInput"
  | .invalidText => "InvalidData"

def Artifact.Error.kind : Artifact.Error -> String
  | .notFound _ => "NotFound"
  | .malformed _ _ => "Malformed"
  | .invalidKey _ => "InvalidKey"
  | .io _ _ => "Io"
  | .document _ => "Document"

def AddressFile.Error.kind : AddressFile.Error -> String
  | .io _ _ => "Io"
  | .invalid _ _ => "Invalid"

def Pipeline.Error.kind : Pipeline.Error -> String
  | .accounts _ => "Accounts"
  | .noAccounts => "NoAccounts"
  | .accountIndex _ _ => "AccountIndex"
  | .unlockFailed _ _ => "UnlockFailed"
  | .estimationFailed _ => "EstimationFailed"
  | .pricingFailed _ => "PricingFailed"
  | .submissionFailed _ _ => "SubmissionFailed"
  | .confirmationFailed _ _ => "ConfirmationFailed"
  | .receiptTimeout _ _ => "ReceiptTimeout"
  | .callFailed _ => "CallFailed"
  | .stalePlan => "StalePlan"
  | .invalidTransition _ _ => "InvalidTransition"
  | .missingContractAddress _ => "MissingContractAddress"
  | .abi _ => "Abi"

def Pipeline.State.kind : Pipeline.State -> String
  | .built => "Built"
  | .gasEstimated => "GasEstimated"
  | .priced => "Priced"
  | .submitted => "Submitted"
  | .confirmed => "Confirmed"
  | .failed => "Failed"

def Pipeline.State.ofKind? (kind : String) : Option Pipeline.State :=
  [.built, .gasEstimated, .priced, .submitted, .confirmed, .failed].find? fun s => s.kind = kind

def Pipeline.Stage.kind : Pipeline.Stage -> String
  | .accounts => "Accounts"
  | .unlock => "Unlock"
  | .encoding => "Encoding"
  | .estimation => "Estimation"
  | .pricing => "Pricing"
  | .submission => "Submission"
  | .confirmation => "Confirmation"
  | .call => "Call"

def Pipeline.Stage.ofKind? (kind : String) : Option Pipeline.Stage :=
  [.accounts, .unlock, .encoding, .estimation, .pricing, .submission, .confirmation, .call].find?
    fun s => s.kind = kind

def Mining.Error.kind : Mining.Error -> String
  | .rpc _ => "Rpc"
  | .subscriptionLost _ _ => "SubscriptionLost"

def Mining.Decision.kind : Mining.Decision -> String
  | .started => "Started"
  | .stopped => "Stopped"
  | .unchanged => "Unchanged"

def Feed.kind : Feed -> String
  | .latest => "Latest"
  | .pending => "Pending"

def Json.Fault.kind : Json.Fault -> String
  | .malformed => "syntax"
  | .mismatched => "data"
  | .refused _ => "data"
  | .cutShort => "eof"

end KeyRegistry
