import KeyRegistry.Node.Setting

/-!
# Records of a scripted node

A node is asked and scripted, emits events and closes feeds, and the consumers of its
subscriptions read and leave.  The record of a run lists what was done, with what came
back of it.  What every turn preserves holds of every record.
-/

namespace KeyRegistry
namespace Node

inductive Emission where
  | event (e : ChainEvent)
  | nextBlock
  | pendingTransaction

/-- One use of a node.  What a hook of the script does to the node is a use of its own, after
the one that has called the hook. -/
inductive Use where
  | ask (request : Request)
  | set (setting : Setting)
  | emit (emission : Emission)
  | close (feed : Feed)
  | take (subscription : Nat)
  | drain (subscription : Nat)
  /-- The consumer cancels its subscription, or drops it. -/
  | leave (subscription : Nat)

/-- What comes back of a use; of an emission, the event and the number of those it reached. -/
@[reducible]
def Use.Reply : Use -> Type
  | .ask request => Except RpcError request.Value
  | .emit _ => ChainEvent × Nat
  | .take _ => Option ChainEvent
  | .drain _ => List ChainEvent
  | _ => Unit

abbrev Turn : Type :=
  (use : Use) × use.Reply

namespace State

def eventOf (s : State) : Emission -> ChainEvent
  | .event e => e
  | .nextBlock => .newBlock (blockHash (s.blockNumber + 1)) (some (s.blockNumber + 1))
  | .pendingTransaction => .pendingTransaction (Hash.keccak (Bytes.ofNatLE 8 s.calls.length))

def issue (s : State) : Emission -> Nat × State
  | .event e => s.emit e
  | .nextBlock => s.emitBlock
  | .pendingTransaction => s.emitPending

def perform (s : State) : (use : Use) -> use.Reply × State
  | .ask request => s.answer request
  | .set setting => ((), s.set setting)
  | .emit emission =>
      let (count, next) := s.issue emission
      ((s.eventOf emission, count), next)
  | .close feed => ((), s.closeFeed feed)
  | .take subscription => s.takeEvent subscription
  | .drain subscription => s.drainEvents subscription
  | .leave subscription => ((), s.cancel subscription)

/-! ## Requests that leave a node's holdings alone -/

def touchesHoldings : Request -> Bool
  | .send _ _ => true
  | .receipt _ => true
  | .subscribe _ => true
  | _ => false

structure SameHoldings (s t : State) : Prop where
  receiptDelay_eq : t.receiptDelay = s.receiptDelay
  receiptStatus_eq : t.receiptStatus = s.receiptStatus
  contractAddress_eq : t.contractAddress = s.contractAddress
  sent_eq : t.sent = s.sent
  included_eq : t.included = s.included
  subscriptions_eq : t.subscriptions = s.subscriptions

theorem sameHoldings_answer (s : State) {request : Request}
    (h : touchesHoldings request = false) : SameHoldings s (s.answer request).2 := by
  cases request with
  | send call plan => cases h
  | receipt hash => cases h
  | subscribe feed => cases h
  | gasPrice =>
      cases he : s.gasPriceErrors <;> simp only [answer, respond, he] <;> constructor <;> rfl
  | pendingCount =>
      cases he : s.pendingErrors <;> simp only [answer, respond, he] <;> constructor <;> rfl
  | startMining threads =>
      cases he : s.miningErrors <;> simp only [answer, respond, he] <;> constructor <;> rfl
  | stopMining =>
      cases he : s.miningErrors <;> simp only [answer, respond, he] <;> constructor <;> rfl
  | _ => constructor <;> rfl

/-! ## Requests that do not -/

variable {s : State} {call : Call} {plan : GasPlan} {feed : Feed} {e : RpcError}
  {es : List RpcError}

/-- A rejected transaction uses up one error and leaves no other trace than that it was sent. -/
theorem answer_send_rejected (h : s.sendErrors = e :: es) :
    s.answer (.send call plan) =
      (.error e, { s with calls := .send call plan :: s.calls, sendErrors := es }) := by
  simp only [answer, respond, h]

theorem answer_send_accepted (h : s.sendErrors = []) :
    (s.answer (.send call plan)).1 = .ok (transactionHash (s.sent + 1) call) := by
  simp only [answer, respond, accept, receiptFor, h]

theorem answer_subscribe_rejected (h : s.subscribeErrors = e :: es) :
    s.answer (.subscribe feed) =
      (.error e, { s with calls := .subscribe feed :: s.calls, subscribeErrors := es }) := by
  simp only [answer, respond, h]

theorem answer_subscribe_accepted (h : s.subscribeErrors = []) :
    s.answer (.subscribe feed) =
      (.ok s.subscriptions.length,
        { s with
          calls := .subscribe feed :: s.calls,
          subscriptions := s.subscriptions ++ [Subscription.new feed] }) := by
  simp only [answer, respond, h]

/-! ## Records -/

def record (s : State) : List Use -> List Turn
  | [] => []
  | use :: uses => ⟨use, (s.perform use).1⟩ :: (s.perform use).2.record uses

def after (s : State) : List Use -> State
  | [] => s
  | use :: uses => (s.perform use).2.after uses

/-- Every turn of a record is played at the state that the uses before it have left. -/
theorem record_eq_append_cons {uses : List Use} {past future : List Turn}
    {turn : Turn} (h : s.record uses = past ++ turn :: future) :
    ∃ before use rest, past = s.record before ∧
      turn = ⟨use, ((s.after before).perform use).1⟩ ∧
      future = ((s.after before).perform use).2.record rest := by
  induction past generalizing s uses with
  | nil =>
      cases uses with
      | nil => cases h
      | cons use uses =>
          cases h
          exact ⟨[], use, uses, rfl, rfl, rfl⟩
  | cons first past ih =>
      cases uses with
      | nil => cases h
      | cons use uses =>
          rcases List.cons.inj h with ⟨rfl, hrest⟩
          rcases ih hrest with ⟨before, use', rest, rfl, hturn, hfuture⟩
          exact ⟨use :: before, use', rest, rfl, hturn, hfuture⟩

theorem invariant_of_perform {P : List Turn -> State -> Prop} {s : State} (hstart : P [] s)
    (hstep : forall past t use, P past t ->
      P (past ++ [⟨use, (t.perform use).1⟩]) (t.perform use).2) (uses : List Use) :
    P (s.record uses) (s.after uses) := by
  -- the uses are played from the front, so the record so far is carried along
  have hall : forall past t, P past t -> P (past ++ t.record uses) (t.after uses) := by
    induction uses with
    | nil =>
        intro past t h
        rw [record, List.append_nil]
        exact h
    | cons use uses ih =>
        intro past t h
        have hrest := ih _ _ (hstep past t use h)
        rw [List.append_assoc] at hrest
        exact hrest
  exact hall [] s hstart

end State
end Node
end KeyRegistry
