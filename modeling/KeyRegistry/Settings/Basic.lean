import KeyRegistry.Mining.Controller
import KeyRegistry.Pipeline.Config
import KeyRegistry.Session
import KeyRegistry.StorageContract

/-!
# Settings

What a user sets once: where the node listens, which contract is used and from
which account, how patient transactions are and how the miner is run.  Not every
combination of values can be worked with.
-/

namespace KeyRegistry

structure PipelineSettings where
  deployMarginPercent : UInt32
  callMarginPercent : UInt32
  maxRetries : UInt32
  retryBackoffMs : UInt64
  maxBackoffMs : UInt64
  receiptTimeoutSecs : UInt64
  receiptPollMs : UInt64
deriving DecidableEq

structure MiningSettings where
  threads : UInt32
  stopOnShutdown : Bool
  resubscribeAttempts : UInt32
  resubscribeBackoffMs : UInt64
deriving DecidableEq

structure Settings where
  rpcUrl : String
  wsUrl : String
  requestTimeoutSecs : UInt64
  artifactPath : String
  contract : String
  addressFile : String
  accountIndex : UInt64
  passphrase : String
  unlockDurationSecs : UInt64
  logLevel : String
  jsonLogs : Bool
  pipeline : PipelineSettings
  mining : MiningSettings
deriving DecidableEq

namespace PipelineSettings

def default : PipelineSettings where
  deployMarginPercent := 10
  callMarginPercent := 5
  maxRetries := 3
  retryBackoffMs := 500
  maxBackoffMs := 8000
  receiptTimeoutSecs := 120
  receiptPollMs := 1000

def toConfig (s : PipelineSettings) : Pipeline.Config where
  deployMarginPercent := s.deployMarginPercent
  callMarginPercent := s.callMarginPercent
  maxRetries := s.maxRetries
  retryBackoff := Duration.ofMillis s.retryBackoffMs
  maxBackoff := Duration.ofMillis s.maxBackoffMs
  receiptTimeout := Duration.ofSecs s.receiptTimeoutSecs
  receiptPollInterval := Duration.ofMillis s.receiptPollMs

theorem toConfig_default : default.toConfig = Pipeline.Config.default := by
  decide

end PipelineSettings

namespace MiningSettings

def default : MiningSettings where
  threads := 1
  stopOnShutdown := true
  resubscribeAttempts := 5
  resubscribeBackoffMs := 1000

def toConfig (s : MiningSettings) : Mining.Config where
  threads := s.threads
  stopOnShutdown := s.stopOnShutdown
  resubscribeAttempts := s.resubscribeAttempts
  resubscribeBackoff := Duration.ofMillis s.resubscribeBackoffMs

theorem toConfig_default : default.toConfig = Mining.Config.default := by
  decide

end MiningSettings

namespace Settings

def directory (home : String) : String :=
  home ++ "/.certchain"

def default (home : String) : Settings where
  rpcUrl := "http://localhost:8545"
  wsUrl := "ws://localhost:8546"
  requestTimeoutSecs := 30
  artifactPath := "contract.json"
  contract := StorageContract.artifactKey.toString
  addressFile := directory home ++ "/deployed_contract.txt"
  accountIndex := 0
  passphrase := ""
  unlockDurationSecs := 120
  logLevel := "info"
  jsonLogs := false
  pipeline := PipelineSettings.default
  mining := MiningSettings.default

def session (s : Settings) : Session :=
  { unlockDuration := Duration.ofSecs s.unlockDurationSecs }

def maxMarginPercent : UInt32 := 1000

inductive Invalid where
  | noRpcUrl
  | noThreads
  | noReceiptTimeout
  | noReceiptPoll
  | deployMargin (percent : UInt32)
  | callMargin (percent : UInt32)
  | noUnlockDuration
deriving DecidableEq, Repr

def Invalid.message : Invalid -> String
  | .noRpcUrl => "rpc_url must not be empty"
  | .noThreads => "mining.threads must be at least 1"
  | .noReceiptTimeout => "pipeline.receipt_timeout_secs must be greater than zero"
  | .noReceiptPoll => "pipeline.receipt_poll_ms must be greater than zero"
  | .deployMargin percent =>
      "pipeline.deploy_margin_percent is " ++ toString percent.toNat ++ "%, at most " ++
        toString maxMarginPercent.toNat ++ "% allowed"
  | .callMargin percent =>
      "pipeline.call_margin_percent is " ++ toString percent.toNat ++ "%, at most " ++
        toString maxMarginPercent.toNat ++ "% allowed"
  | .noUnlockDuration => "unlock_duration_secs must be greater than zero"

def fault? (s : Settings) : Option Invalid :=
  if s.rpcUrl = "" then some .noRpcUrl
  else if s.mining.threads = 0 then some .noThreads
  else if s.pipeline.receiptTimeoutSecs = 0 then some .noReceiptTimeout
  else if s.pipeline.receiptPollMs = 0 then some .noReceiptPoll
  else if maxMarginPercent < s.pipeline.deployMarginPercent then
    some (.deployMargin s.pipeline.deployMarginPercent)
  else if maxMarginPercent < s.pipeline.callMarginPercent then
    some (.callMargin s.pipeline.callMarginPercent)
  else if s.unlockDurationSecs = 0 then some .noUnlockDuration
  else none

end Settings
end KeyRegistry
