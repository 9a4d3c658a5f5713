import KeyRegistry.Pipeline.Error
import KeyRegistry.Program

/-!
# Unlocked scopes

The node signs, so an account must be unlocked before a transaction is sent from
it.  A scope keeps the account unlocked as long as its work runs and locks it
again when the work has ended, however it ended.
-/

namespace KeyRegistry

/-- Unlocks the accounts that a node manages, for at most `unlockDuration` each. -/
structure Session where
  unlockDuration : Duration
deriving DecidableEq

namespace Session

/-- How long an account stays unlocked at most, where nothing else is said. -/
def defaultUnlockDuration : Duration := Duration.ofSecs 120

def resolveSender (index : Nat) : Program (Except Pipeline.Error Address) := do
  match <- Program.ask .accounts with
  | .error e => return .error (.accounts e)
  | .ok [] => return .error .noAccounts
  | .ok accounts =>
      match accounts[index]? with
      | some address => return .ok address
      | none => return .error (.accountIndex index accounts.length)

/-- Runs `work` with `address` unlocked.  The work does not run unless the node answers that it
has unlocked the account; the answer to the final lock changes nothing. -/
def withUnlockedAccount {α : Type} (session : Session) (address : Address) (passphrase : String)
    (work : Program (Except Pipeline.Error α)) : Program (Except Pipeline.Error α) := do
  match <- Program.ask (.unlock address passphrase session.unlockDuration) with
  | .ok false => return .error (.unlockFailed address .refused)
  | .error e => return .error (.unlockFailed address (.failed e))
  | .ok true =>
      Program.act (.guard address)
      let result <- work
      let _ <- Program.ask (.lock address)
      Program.act .release
      return result

end Session
end KeyRegistry
