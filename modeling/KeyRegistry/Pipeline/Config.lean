import KeyRegistry.Duration

/-!
# Tuning of a transaction

Gas margins, retries and waiting times.  The delay before a retry doubles with
each attempt up to a cap.
-/

namespace KeyRegistry
namespace Pipeline

structure Config where
  deployMarginPercent : UInt32
  callMarginPercent : UInt32
  maxRetries : UInt32
  retryBackoff : Duration
  maxBackoff : Duration
  receiptTimeout : Duration
  receiptPollInterval : Duration
deriving DecidableEq

namespace Config

def default : Config where
  deployMarginPercent := 10
  callMarginPercent := 5
  maxRetries := 3
  retryBackoff := Duration.ofMillis 500
  maxBackoff := Duration.ofSecs 8
  receiptTimeout := Duration.ofSecs 120
  receiptPollInterval := Duration.ofSecs 1

/-- By what the first delay is multiplied before the retry after `attempt` attempts; the doubling
ends at the largest 32-bit number. -/
def backoffFactor (attempt : Nat) : Nat :=
  if attempt - 1 < 32 then 1 <<< (attempt - 1) else UInt32.size - 1

def backoff (config : Config) (attempt : Nat) : Duration :=
  match config.retryBackoff.times? (backoffFactor attempt) with
  | some delay => min delay config.maxBackoff
  | none => config.maxBackoff

/-- A bound on how often a receipt is asked for again.  Where the poll interval is positive and a pause
takes at least its length, the waiting time is over first, and the bound never ends a run
(`agrees_runWithin`).  A poll interval of zero has no such bound: a program polls on until the time is
over, and the rounds here end after a 32-bit number of them. -/
def pollLimit (config : Config) : Nat :=
  let poll := config.receiptPollInterval.nanos
  if poll = 0 then UInt32.size else (config.receiptTimeout.nanos + poll - 1) / poll

end Config
end Pipeline
end KeyRegistry
