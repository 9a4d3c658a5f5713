import KeyRegistry.Settings.Basic
import KeyRegistry.Toml.Record

/-!
# Settings as a document

Settings are kept as TOML, with the settings of transactions and of mining in
tables of their own.  What a document does not set has its default.
-/

namespace KeyRegistry

open Toml

def PipelineSettings.fields : List (Toml.Field PipelineSettings) := [
  .uint32 "deploy_margin_percent" (·.deployMarginPercent)
    fun v s => { s with deployMarginPercent := v },
  .uint32 "call_margin_percent" (·.callMarginPercent)
    fun v s => { s with callMarginPercent := v },
  .uint32 "max_retries" (·.maxRetries) fun v s => { s with maxRetries := v },
  .uint64 "retry_backoff_ms" (·.retryBackoffMs) fun v s => { s with retryBackoffMs := v },
  .uint64 "max_backoff_ms" (·.maxBackoffMs) fun v s => { s with maxBackoffMs := v },
  .uint64 "receipt_timeout_secs" (·.receiptTimeoutSecs)
    fun v s => { s with receiptTimeoutSecs := v },
  .uint64 "receipt_poll_ms" (·.receiptPollMs) fun v s => { s with receiptPollMs := v }]

def MiningSettings.fields : List (Toml.Field MiningSettings) := [
  .uint32 "threads" (·.threads) fun v s => { s with threads := v },
  .bool "stop_on_shutdown" (·.stopOnShutdown) fun v s => { s with stopOnShutdown := v },
  .uint32 "resubscribe_attempts" (·.resubscribeAttempts)
    fun v s => { s with resubscribeAttempts := v },
  .uint64 "resubscribe_backoff_ms" (·.resubscribeBackoffMs)
    fun v s => { s with resubscribeBackoffMs := v }]

namespace Settings

def fields : List (Toml.Field Settings) := [
  .text "rpc_url" (·.rpcUrl) fun v s => { s with rpcUrl := v },
  .text "ws_url" (·.wsUrl) fun v s => { s with wsUrl := v },
  .uint64 "request_timeout_secs" (·.requestTimeoutSecs)
    fun v s => { s with requestTimeoutSecs := v },
  .text "artifact_path" (·.artifactPath) fun v s => { s with artifactPath := v },
  .text "contract" (·.contract) fun v s => { s with contract := v },
  .text "address_file" (·.addressFile) fun v s => { s with addressFile := v },
  .uint64 "account_index" (·.accountIndex) fun v s => { s with accountIndex := v },
  .text "passphrase" (·.passphrase) fun v s => { s with passphrase := v },
  .uint64 "unlock_duration_secs" (·.unlockDurationSecs)
    fun v s => { s with unlockDurationSecs := v },
  .text "log_level" (·.logLevel) fun v s => { s with logLevel := v },
  .bool "json_logs" (·.jsonLogs) fun v s => { s with jsonLogs := v },
  .record "pipeline" PipelineSettings.fields (·.pipeline) (fun v s => { s with pipeline := v })
    PipelineSettings.default,
  .record "mining" MiningSettings.fields (·.mining) (fun v s => { s with mining := v })
    MiningSettings.default]

def parse? (home text : String) : Option Settings := do
  setNamed fields (<- Toml.parse? text) (default home)

/-- The document of settings; a number beyond 63 bits has no place in one. -/
def document? (s : Settings) : Option String :=
  write? (entriesOf fields s)

end Settings
end KeyRegistry
