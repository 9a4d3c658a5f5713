import KeyRegistry.AddressFile
import KeyRegistry.Mining.Controller
import KeyRegistry.Settings.Storage

/-!
# Failures of commands

A failure is told as a chain of messages, from what was being done to its cause.
A message may repeat its cause; the cause still follows.
-/

namespace KeyRegistry

def Artifact.Error.messages (e : Artifact.Error) : List String :=
  match e with
  | .io _ cause => [e.message, cause.message]
  | .document fault => [e.message, fault.message]
  | _ => [e.message]

def AddressFile.Error.messages (e : AddressFile.Error) : List String :=
  match e with
  | .io _ cause => [e.message, cause.message]
  | .invalid _ _ => [e.message]

def Pipeline.Error.messages (e : Pipeline.Error) : List String :=
  match e with
  | .abi cause => [e.message, cause.message]
  | _ => e.message :: (e.rpcError?.map RpcError.message).toList

def Mining.Error.messages (e : Mining.Error) : List String :=
  match e with
  | .rpc cause => [e.message, cause.message]
  | .subscriptionLost _ _ => [e.message]

namespace CommandLine

inductive Inquiry where
  | blockNumber
  | gasPrice
  | mining
  | pendingCount
  | accounts
deriving DecidableEq, Repr

def Inquiry.name : Inquiry -> String
  | .blockNumber => "eth_blockNumber"
  | .gasPrice => "eth_gasPrice"
  | .mining => "eth_mining"
  | .pendingCount => "pending transaction count"
  | .accounts => "eth_accounts"

inductive Failure where
  | settings (fault : Settings.FileFault)
  | invalidSettings (fault : Settings.Invalid)
  | logFilter (messages : List String)
  | artifacts (path : String) (cause : Artifact.Error)
  | artifact (cause : Artifact.Error)
  | noContract (cause : AddressFile.Error)
  | step (cause : Pipeline.Error)
  | inquiry (about : Inquiry) (cause : RpcError)
  | mining (cause : Mining.Error)
  | addressUnwritten (cause : AddressFile.Error)
  | creationReverted
  | storeReverted
  | unexpectedCallResult
  | unexpectedOutcome
deriving DecidableEq

namespace Failure

def messages : Failure -> List String
  | .settings fault => fault.messages
  | .invalidSettings fault => ["invalid configuration", fault.message]
  | .logFilter messages => messages
  | .artifacts path cause => ("failed to load contract artifacts from " ++ path) :: cause.messages
  | .artifact cause => cause.messages
  | .noContract cause =>
      "no deployed contract recorded, run `certchain deploy` first" :: cause.messages
  | .step cause => (cause.stage.name ++ " failed") :: cause.messages
  | .inquiry about cause => [about.name, cause.message]
  | .mining cause => "mining controller stopped" :: cause.messages
  | .addressUnwritten cause => cause.messages
  | .creationReverted => ["contract creation reverted"]
  | .storeReverted =>
      ["Unsuccessful: the transaction reverted, the account may lack write privilege"]
  | .unexpectedCallResult => ["unexpected call result from deploy"]
  | .unexpectedOutcome => ["unexpected outcome"]

def message (f : Failure) : String :=
  String.intercalate ": " f.messages

end Failure
end CommandLine
end KeyRegistry
