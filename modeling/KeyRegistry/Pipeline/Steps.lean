import KeyRegistry.Pipeline.Course
import KeyRegistry.Pipeline.Outcome

/-!
# The steps of a transaction

Each step is refused in a state that does not allow it, and then asks the node
nothing and changes nothing.  A step is stated as a move of the pipeline, and a
caller runs the program of that move.
-/

namespace KeyRegistry
namespace Pipeline

/-- Asks for the gas price, again after every transient failure while retries are left. -/
def askPrice (config : Config) : Nat -> Nat -> Program (Except RpcError (BitVec 128))
  | left, attempt => do
      match <- Program.ask .gasPrice with
      | .ok price => return .ok price
      | .error e =>
          if e.isRetryable then
            match left with
            | 0 => return .error e
            | left + 1 =>
                Program.sleep (config.backoff attempt)
                askPrice config left (attempt + 1)
          else
            return .error e

def freshPlan (p : Pipeline) : Program (Except Error GasPlan) :=
  match p.estimate with
  | none => return .error (.invalidTransition p.state .pricing)
  | some estimate => do
      match <- askPrice p.config p.config.maxRetries.toNat 1 with
      | .ok price =>
          return .ok (GasPlan.forCall p.call price (GasPlan.limitWithMargin estimate p.margin))
      | .error e => return .error (.pricingFailed e)

namespace Move

def estimateGas : Move UInt64 :=
  only [.built] .estimation fun p =>
    .perform p (.ask (.estimateGas p.call)) fun
      | .ok gas => .done (p.estimated gas) (.ok gas)
      | .error e => fail (.estimationFailed e) p

def price : Move GasPlan :=
  only [.gasEstimated] .pricing fun p =>
    (Course.during p (freshPlan p)).bind fun p answer =>
      match answer with
      | .ok plan => .done (p.planned plan) (.ok plan)
      | .error e => fail e p

def usePlan (plan : GasPlan) : Move Unit :=
  only [.gasEstimated, .priced] .pricing fun p =>
    if plan.belongsTo p.call then
      .done (p.planned plan) (.ok ())
    else
      .done p (.error .stalePlan)

/-- Sends the transaction, again after every transient failure while retries are left, with a
plan for the price of that moment. -/
def sendFrom : Nat -> Move Hash
  | left, p =>
      match p.plan.filter fun plan => plan.belongsTo p.call with
      | none => fail .stalePlan p
      | some plan =>
          .perform p.attempted (.ask (.send p.call plan)) fun
            | .ok hash => .done (p.attempted.submitted hash) (.ok hash)
            | .error e =>
                if e.isRetryable then
                  match left with
                  | 0 => fail (.submissionFailed p.attempted.attempts e) p.attempted
                  | left + 1 =>
                      .perform p.attempted (.sleep (p.config.backoff p.attempted.attempts)) fun _ =>
                        (Course.during p.attempted (freshPlan p.attempted)).bind fun p answer =>
                          match answer with
                          | .ok plan => sendFrom left { p with plan := some plan }
                          | .error e => fail e p
                else
                  fail (.submissionFailed p.attempted.attempts e) p.attempted

def submit : Move Hash :=
  only [.priced] .submission fun p =>
    sendFrom (p.config.maxRetries.toNat - p.attempts) p

/-- Asks for the receipt until it is there or the waiting time that began at `started` is over.  The
clock has no last moment, so that there always is a deadline; a clock with one could not represent a
deadline beyond it. -/
def awaitReceipt (hash : Hash) (started : Nat) : Nat -> Move Receipt
  | left, p =>
      let again : Course (Except Error Receipt) :=
        .perform p .clock fun now =>
          let deadline := started + p.config.receiptTimeout.nanos
          let timeout := fail (.receiptTimeout hash (Duration.ofNanos (now - started))) p
          if deadline ≤ now then
            timeout
          else
            match left with
            | 0 => timeout
            | left + 1 =>
                .perform p
                  (.sleep (min p.config.receiptPollInterval (Duration.ofNanos (deadline - now))))
                  fun _ => awaitReceipt hash started left p
      .perform p (.ask (.receipt hash)) fun
        | .ok (some receipt) => .done p.confirmed (.ok receipt)
        | .ok none => again
        | .error e => if e.isRetryable then again else fail (.confirmationFailed hash e) p

def confirm : Move Receipt :=
  only [.submitted] .confirmation fun p =>
    match p.hash with
    | none => .done p (.error (.invalidTransition p.state .confirmation))
    | some hash =>
        .perform p .clock fun started => awaitReceipt hash started p.config.pollLimit p

def conclude (receipt : Receipt) : Move Outcome := fun p =>
  let success := receipt.succeeded
  if p.call.isDeploy && success then
    match receipt.contractAddress.filter fun a => !a.isZero with
    | some address => .done p (.ok (.deployed address receipt))
    | none => fail (.missingContractAddress receipt.transactionHash) p
  else
    .done p (.ok (.sent receipt success))

def run : Move Outcome :=
  andThen estimateGas fun _ =>
    andThen price fun _ =>
      andThen submit fun _ =>
        andThen confirm conclude

/-- Executes a read-only call; nothing is estimated or sent. -/
def query : Move Outcome :=
  only [.built] .call fun p =>
    .perform p (.ask (.execute p.call)) fun
      | .ok value => .done p.confirmed (.ok (.callResult value))
      | .error e => fail (.callFailed e) p

end Move

/-! ## Steps for a caller -/

abbrev Step (α : Type) : Type :=
  Pipeline -> Program (Except Error α × Pipeline)

def Move.step {α : Type} (move : Move α) : Step α := fun p =>
  (move p).program

def estimateGas : Step UInt64 := Move.estimateGas.step

def price : Step GasPlan := Move.price.step

def usePlan (plan : GasPlan) : Step Unit := (Move.usePlan plan).step

def submit : Step Hash := Move.submit.step

def confirm : Step Receipt := Move.confirm.step

def run : Step Outcome := Move.run.step

def query : Step Outcome := Move.query.step

end Pipeline
end KeyRegistry
