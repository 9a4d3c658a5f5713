import KeyRegistry.Node.Subscription
import KeyRegistry.Program

/-!
# A scriptable node

The node answers every request at once, from settings that its script can change
between requests, and records what it is asked.  Errors that a script queues are
each used up by one request.
-/

namespace KeyRegistry
namespace Node

inductive CallScript where
  | empty
  | fixed (data : Bytes)
  | arguments
  | error (e : RpcError)
  | computed (answer : Call -> List (String × String) -> Bytes)

/-- A transaction that waits for its receipt to be shown. -/
structure Included where
  receipt : Receipt
  delay : Nat
deriving DecidableEq

structure State where
  /-- What was asked, the latest request first. -/
  calls : List Request
  accounts : List Address
  unlock : Except RpcError Bool
  lock : Except RpcError Bool
  gasPrice : BitVec 128
  gasPriceErrors : List RpcError
  estimate : Except RpcError UInt64
  callScript : CallScript
  sendErrors : List RpcError
  /-- What an accepted transaction does to the contract's memory. -/
  onSend : Call -> List (String × String) -> List (String × String)
  memory : List (String × String)
  sent : UInt64
  receiptStatus : Option UInt64
  receiptDelay : Nat
  contractAddress : Option Address
  included : List (Hash × Included)
  pending : UInt64
  pendingErrors : List RpcError
  mining : Bool
  miningErrors : List RpcError
  blockNumber : UInt64
  subscribeErrors : List RpcError
  subscriptions : List Subscription

namespace State

def defaultAccount : Address := Address.repeated 0xaa

def defaultContract : Address := Address.repeated 0xcc

/-- A healthy node with one account, which shows receipts of successful transactions at once. -/
def fresh : State where
  calls := []
  accounts := [defaultAccount]
  unlock := .ok true
  lock := .ok true
  gasPrice := 1000000000
  gasPriceErrors := []
  estimate := .ok 50000
  callScript := .empty
  sendErrors := []
  onSend := fun _ memory => memory
  memory := []
  sent := 0
  receiptStatus := some 1
  receiptDelay := 0
  contractAddress := some defaultContract
  included := []
  pending := 0
  pendingErrors := []
  mining := false
  miningErrors := []
  blockNumber := 0
  subscribeErrors := []
  subscriptions := []

/-! ## Requests -/

def word64 (n : UInt64) : Bytes :=
  Bytes.ofNatBE 8 n.toNat

def transactionHash (n : UInt64) (call : Call) : Hash :=
  Hash.keccakAll [word64 n, call.digest.bytes]

def blockHash (number : UInt64) : Hash :=
  Hash.keccak (word64 number)

def receiptFor (s : State) (call : Call) (plan : GasPlan) : Receipt where
  transactionHash := transactionHash s.sent call
  blockHash := blockHash s.blockNumber
  blockNumber := s.blockNumber
  sender := call.sender
  recipient := call.recipient?
  contractAddress := if call.isDeploy then s.contractAddress else none
  gasUsed :=
    match s.estimate with
    | .ok gas => if plan.limit ≤ gas then plan.limit else gas
    | .error _ => plan.limit
  status := s.receiptStatus

def accept (s : State) (call : Call) (plan : GasPlan) : Hash × State :=
  let s := { s with sent := s.sent + 1, blockNumber := s.blockNumber + 1 }
  let receipt := s.receiptFor call plan
  let entry := (receipt.transactionHash, { receipt, delay := s.receiptDelay : Included })
  (receipt.transactionHash,
    { s with
      included := entry :: s.included.filter fun e => e.1 ≠ receipt.transactionHash,
      memory := s.onSend call s.memory })

def showReceipt (hash : Hash) : List (Hash × Included) -> Option Receipt × List (Hash × Included)
  | [] => (none, [])
  | entry :: entries =>
      if entry.1 = hash then
        match entry.2.delay with
        | 0 => (some entry.2.receipt, entry :: entries)
        | delay + 1 => (none, (entry.1, { entry.2 with delay }) :: entries)
      else
        let (receipt, entries) := showReceipt hash entries
        (receipt, entry :: entries)

def executeCall (s : State) (call : Call) : Except RpcError Bytes :=
  match s.callScript with
  | .empty => .ok []
  | .fixed data => .ok data
  | .arguments => .ok (call.data.drop 4)
  | .error e => .error e
  | .computed answer => .ok (answer call s.memory)

def respond (s : State) : (request : Request) -> Except RpcError request.Value × State
  | .accounts => (.ok s.accounts, s)
  | .unlock _ _ _ => (s.unlock, s)
  | .lock _ => (s.lock, s)
  | .gasPrice =>
      match s.gasPriceErrors with
      | e :: es => (.error e, { s with gasPriceErrors := es })
      | [] => (.ok s.gasPrice, s)
  | .estimateGas _ => (s.estimate, s)
  | .execute call => (s.executeCall call, s)
  | .send call plan =>
      match s.sendErrors with
      | e :: es => (.error e, { s with sendErrors := es })
      | [] =>
          let (hash, s) := s.accept call plan
          (.ok hash, s)
  | .receipt hash =>
      let (receipt, included) := showReceipt hash s.included
      (.ok receipt, { s with included })
  | .pendingCount =>
      match s.pendingErrors with
      | e :: es => (.error e, { s with pendingErrors := es })
      | [] => (.ok s.pending, s)
  | .isMining => (.ok s.mining, s)
  | .startMining _ =>
      match s.miningErrors with
      | e :: es => (.error e, { s with miningErrors := es })
      | [] => (.ok (), { s with mining := true })
  | .stopMining =>
      match s.miningErrors with
      | e :: es => (.error e, { s with miningErrors := es })
      | [] => (.ok (), { s with mining := false })
  | .blockNumber => (.ok s.blockNumber, s)
  | .subscribe feed =>
      match s.subscribeErrors with
      | e :: es => (.error e, { s with subscribeErrors := es })
      | [] =>
          (.ok s.subscriptions.length,
            { s with subscriptions := s.subscriptions ++ [Subscription.new feed] })

def answer (s : State) (request : Request) : Except RpcError request.Value × State :=
  ({ s with calls := request :: s.calls }).respond request

/-! ## Events -/

/-- Emits an event; the count is of the subscriptions that queued it. -/
def emit (s : State) (event : ChainEvent) : Nat × State :=
  ((s.subscriptions.filter fun sub => sub.accepts event.feed).length,
    { s with subscriptions := s.subscriptions.map (Subscription.deliver event) })

def emitBlock (s : State) : Nat × State :=
  let number := s.blockNumber + 1
  ({ s with blockNumber := number }).emit (.newBlock (blockHash number) (some number))

def emitPending (s : State) : Nat × State :=
  s.emit (.pendingTransaction (Hash.keccak (Bytes.ofNatLE 8 s.calls.length)))

def closeFeed (s : State) (feed : Feed) : State :=
  { s with subscriptions := s.subscriptions.map (Subscription.closeAtNode feed) }

def activeCount (s : State) (feed : Feed) : Nat :=
  (s.subscriptions.filter fun sub => sub.feed = feed && sub.isLive).length

def subscription? (s : State) (id : Nat) : Option Subscription :=
  s.subscriptions[id]?

def updateSubscription (s : State) (id : Nat) (f : Subscription -> Subscription) : State :=
  { s with subscriptions := s.subscriptions.modify id f }

def takeEvent (s : State) (id : Nat) : Option ChainEvent × State :=
  match (s.subscription? id).map Subscription.queue with
  | some (event :: _) => (some event, s.updateSubscription id fun sub => { sub with queue := sub.queue.tail })
  | _ => (none, s)

def drainEvents (s : State) (id : Nat) : List ChainEvent × State :=
  (((s.subscription? id).map Subscription.queue).getD [],
    s.updateSubscription id fun sub => { sub with queue := [] })

def cancel (s : State) (id : Nat) : State :=
  s.updateSubscription id Subscription.closeAtConsumer

/-- Whether a subscription has ended; one that never was has. -/
def isEnded (s : State) (id : Nat) : Bool :=
  ((s.subscription? id).map Subscription.isEnded).getD true

end State
end Node
end KeyRegistry
