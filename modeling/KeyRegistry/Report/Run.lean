import KeyRegistry.CommandLine.Execution
import KeyRegistry.Report.Record

/-!
# Records of runs

Command lines, settings and the ends of commands as JSON records.
-/

namespace KeyRegistry

def CommandLine.Refusal.kind : CommandLine.Refusal -> String
  | .help => "DisplayHelp"
  | .version => "DisplayVersion"
  | .nothing => "DisplayHelpOnMissingArgumentOrSubcommand"
  | .missingCommand => "MissingSubcommand"
  | .unknownCommand => "InvalidSubcommand"
  | .unknownArgument => "UnknownArgument"
  | .missingArgument => "MissingRequiredArgument"
  | .missingValue => "InvalidValue"
  | .surplusValue => "TooManyValues"
  | .badValue => "ValueValidation"
  | .repeatedOption => "ArgumentConflict"

namespace Report

def millis (d : Duration) : Json :=
  number (UInt64.ofNat d.millis).toNat

def pipelineSettings (s : Pipeline.Config) : Json :=
  .record [
    ("deploy_margin_percent", number s.deployMarginPercent.toNat),
    ("call_margin_percent", number s.callMarginPercent.toNat),
    ("max_retries", number s.maxRetries.toNat),
    ("retry_backoff_ms", millis s.retryBackoff),
    ("max_backoff_ms", millis s.maxBackoff),
    ("receipt_timeout_ms", millis s.receiptTimeout),
    ("receipt_poll_ms", millis s.receiptPollInterval)]

def miningSettings (s : Mining.Config) : Json :=
  .record [
    ("threads", number s.threads.toNat),
    ("stop_on_shutdown", .bool s.stopOnShutdown),
    ("resubscribe_attempts", number s.resubscribeAttempts.toNat),
    ("resubscribe_backoff_ms", millis s.resubscribeBackoff)]

def settings (s : Settings) : Json :=
  .record [
    ("rpc_url", text s.rpcUrl),
    ("ws_url", text s.wsUrl),
    ("request_timeout_ms", millis (Duration.ofSecs s.requestTimeoutSecs)),
    ("artifact_path", text s.artifactPath),
    ("contract", text s.contract),
    ("address_file", text s.addressFile),
    ("account_index", number s.accountIndex.toNat),
    ("passphrase", text s.passphrase),
    ("unlock_duration_ms", millis s.session.unlockDuration),
    ("log_level", text s.logLevel),
    ("json_logs", .bool s.jsonLogs),
    ("pipeline", pipelineSettings s.pipeline.toConfig),
    ("mining", miningSettings s.mining.toConfig)]

def validity (s : Settings) : Json :=
  match s.fault? with
  | none => text "ok"
  | some fault => failure "Invalid" fault.message

def command : Command -> Json
  | .deploy => text "deploy"
  | .authorized account => .record [("authorized", optional address account)]
  | .store id key => .record [("store", .list [text id, text key])]
  | .retrieve id => .record [("retrieve", text id)]
  | .mine threads => .record [("mine", optional (fun n => number n.toNat) threads)]
  | .status => text "status"

def refusal (r : CommandLine.Refusal) : Json :=
  .record [("error", text r.kind), ("exit", number r.exitCode)]

def invocation (i : CommandLine.Invocation) (passphrase : Option String) (defaults : Settings) :
    Json :=
  let s := i.override passphrase defaults
  .record [
    ("command", command i.command),
    ("rpc", optional text i.rpcUrl),
    ("ws", optional text i.wsUrl),
    ("log_level", optional text i.logLevel),
    ("config_file", optional text i.settingsFile),
    ("effective", .record [
      ("rpc_url", text s.rpcUrl),
      ("ws_url", text s.wsUrl),
      ("log_level", text s.logLevel),
      ("passphrase", text s.passphrase),
      ("threads", number s.mining.threads.toNat)]),
    ("validate", validity s)]

end Report
end KeyRegistry
