import KeyRegistry.Proofs.Pipeline.Resubmission
import KeyRegistry.Proofs.Rpc.Delivery

/-!
# Transactions over a connection

The body that answers a send says one of three things: a hash, an error that the
node reports, or nothing that can be read.  A run over a client sends a further
transaction only where the one before was not answered at all, or where the node
reported that a request is over its limits.
-/

namespace KeyRegistry
namespace Rpc

open Program
open Pipeline (IsSend SentAgain)

/-! ## What the answer to a send says -/

/-- The body reports an error of the node. -/
def Reports (body : Bytes) (code : Int) (message : String) : Prop :=
  ∃ response, Json.read Response.reader (Json.textOf body) = .ok response ∧
    response.error = some ⟨code, message⟩

/-- The body gives the hash of a transaction. -/
def Confirms (body : Bytes) (hash : Hash) : Prop :=
  ∃ response, Json.read Response.reader (Json.textOf body) = .ok response ∧
    response.error = none ∧
    Json.readValue (.parsed Hash.parse) response.result = .ok hash

/-- The body gives no hash, and is understood as an error. -/
inductive Refuses (body : Bytes) : RpcError -> Prop where
  | unreadable {fault : Json.Fault} :
      Json.read Response.reader (Json.textOf body) = .error fault ->
      Refuses body (.decode (.body fault))
  | reported {code : Int} {message : String} :
      Reports body code message -> Refuses body (.node code message)
  | otherResult {response : Response} {fault : Json.Fault} :
      Json.read Response.reader (Json.textOf body) = .ok response -> response.error = none ->
      Json.readValue (.parsed Hash.parse) response.result = .error fault ->
      Refuses body (.decode (.result "eth_sendTransaction" fault))

theorem decode_send_cases (call : Call) (plan : GasPlan) (body : Bytes) :
    (∃ hash, Confirms body hash ∧
        (Request.send call plan).decode (Json.textOf body) = .ok hash) ∨
      ∃ e, Refuses body e ∧ (Request.send call plan).decode (Json.textOf body) = .error e := by
  have hdecode : (Request.send call plan).decode (Json.textOf body) =
      result "eth_sendTransaction" (.parsed Hash.parse) (Json.textOf body) := rfl
  rw [hdecode, result]
  cases hread : Json.read Response.reader (Json.textOf body) with
  | error fault => exact Or.inr ⟨_, Refuses.unreadable hread, rfl⟩
  | ok response =>
      simp only [Response.value]
      cases herror : response.error with
      | some fault => exact Or.inr ⟨_, Refuses.reported ⟨response, hread, herror⟩, rfl⟩
      | none =>
          cases hvalue : Json.readValue (.parsed Hash.parse) response.result with
          | ok hash => exact Or.inl ⟨hash, ⟨response, hread, herror, hvalue⟩, rfl⟩
          | error fault => exact Or.inr ⟨_, Refuses.otherResult hread herror hvalue, rfl⟩

/-- Of all bodies without a hash only the report of a limit is transient. -/
theorem reports_of_retryable {body : Bytes} {e : RpcError} (h : Refuses body e)
    (hretry : e.isRetryable = true) : ∃ message, Reports body (-32005) message := by
  cases h with
  | unreadable _ => cases hretry
  | otherResult _ _ _ => cases hretry
  | @reported code message hreports =>
      have hcode : code = -32005 := of_decide_eq_true hretry
      rw [hcode] at hreports
      exact ⟨message, hreports⟩

theorem terminal_of_unlimited {body : Bytes} {e : RpcError} (h : Refuses body e)
    (hlimit : forall message, ¬ Reports body (-32005) message) : e.isRetryable = false := by
  cases hretry : e.isRetryable with
  | false => rfl
  | true =>
      rcases reports_of_retryable h hretry with ⟨message, hreports⟩
      exact absurd hreports (hlimit message)

/-! ## Runs over a client -/

/-- A send fails in transport: there is no connection, the connection ends without an answer, or
no answer comes in time. -/
def FailsInTransport (fate : Option Delivery) (answer : Except RpcError Hash) : Prop :=
  ((fate = none ∨ fate = some .dropped) ∧ ∃ detail, answer = .error (.connection detail)) ∨
    (fate = some .unanswered ∧ ∃ detail, answer = .error (.timeout detail))

theorem answered_or_failsInTransport (call : Call) (plan : GasPlan) (fate : Option Delivery) :
    (∃ body, fate = some (.answered body) ∧
        (Request.send call plan).answerTo fate =
          (Request.send call plan).decode (Json.textOf body)) ∨
      FailsInTransport fate ((Request.send call plan).answerTo fate) := by
  cases fate with
  | none => exact Or.inr (Or.inl ⟨Or.inl rfl, _, rfl⟩)
  | some delivery =>
      cases delivery with
      | answered body => exact Or.inl ⟨body, rfl, rfl⟩
      | dropped => exact Or.inr (Or.inl ⟨Or.inr rfl, _, rfl⟩)
      | unanswered => exact Or.inr (Or.inr ⟨rfl, _, rfl⟩)

theorem cause_of_retryable {call : Call} {plan : GasPlan} {fate : Option Delivery} {e : RpcError}
    (h : (Request.send call plan).answerTo fate = .error e) (hretry : e.isRetryable = true) :
    FailsInTransport fate ((Request.send call plan).answerTo fate) ∨
      ∃ body message, fate = some (.answered body) ∧ Reports body (-32005) message := by
  rcases answered_or_failsInTransport call plan fate with ⟨body, hfate, hbody⟩ | hfails
  · rw [hbody] at h
    rcases decode_send_cases call plan body with ⟨hash, _, hok⟩ | ⟨e', hrefuses, hrefused⟩
    · rw [hok] at h
      cases h
    · rw [hrefused] at h
      cases h
      rcases reports_of_retryable hrefuses hretry with ⟨message, hreports⟩
      exact Or.inr ⟨body, message, hfate, hreports⟩
  · exact Or.inl hfails

variable (call : Call) (config : Pipeline.Config) (client : Client)

theorem exists_journey_of_run :
    ∃ moments q,
      Pipeline.Journey (Pipeline.new call config) moments q
        (((Pipeline.run (Pipeline.new call config)).run Client.world client).1.1) ∧
      Pipeline.exchanges moments =
        (Pipeline.run (Pipeline.new call config)).trace Client.world client := by
  rcases Pipeline.Course.exists_unfolds_of_yields
    (yields_trace Client.world (Pipeline.run (Pipeline.new call config)) client) with
    ⟨moments, hunfolds, hexchanges⟩
  exact ⟨moments, _, Pipeline.journey_of_unfolds rfl hunfolds, hexchanges⟩

theorem run_sharesConnection :
    forall i, i ∈ inquiries ((Pipeline.run (Pipeline.new call config)).trace Client.world client) ->
      SharesConnection i.1 := by
  have hyields := yields_trace Client.world (Pipeline.run (Pipeline.new call config)) client
  intro i hi feed
  exact Pipeline.no_subscribe_of_transacts (Pipeline.transacts_of_run hyields) i hi feed

/-- Over every network a run sends its transaction again only after a send that failed in
transport or met the node's limit.  A send that is answered in any other way is the last one, and
where the answer gives no hash, the run fails with what the answer says. -/
theorem resends_only_unanswered :
    let program := Pipeline.run (Pipeline.new call config)
    let history := program.trace Client.world client
    let result := (program.run Client.world client).1.1
    (program.run Client.world client).2.received =
      client.received ++ client.network.heard (envelopes client.nextId (inquiries history)) ∧
    forall before after sent plan answer,
      history = before ++ ⟨.ask (.send sent plan), answer⟩ :: after ->
      let fate := client.network.fate (inquiries before).length
      ((∃ later, later ∈ after ∧ IsSend later) ->
        FailsInTransport fate answer ∨
          ∃ body message, fate = some (.answered body) ∧ Reports body (-32005) message) ∧
      (forall body, fate = some (.answered body) ->
        (forall message, ¬ Reports body (-32005) message) ->
        (forall later, later ∈ after -> ¬ IsSend later) ∧
        ((∃ hash, Confirms body hash ∧ answer = .ok hash) ∨
          ∃ e attempts, Refuses body e ∧ answer = .error e ∧
            result = .error (.submissionFailed attempts e))) := by
  intro program history result
  have hshares := run_sharesConnection call config client
  refine ⟨Client.received_run hshares, ?_⟩
  intro before after sent plan answer hsplit fate
  have hanswer : answer = (Request.send sent plan).answerTo fate :=
    Client.answer_of_trace hshares hsplit
  rcases exists_journey_of_run call config client with ⟨moments, q, hjourney, hexchanges⟩
  have hmoments : Pipeline.exchanges moments =
      before ++ ⟨.ask (.send sent plan), answer⟩ :: after := hexchanges.trans hsplit
  constructor
  · rintro ⟨later, hlater, hsend⟩
    rcases Pipeline.retryable_of_later hjourney hmoments hlater hsend with ⟨e, herror, hretry⟩
    rw [hanswer] at herror ⊢
    exact cause_of_retryable herror hretry
  · intro body hfate hlimit
    have hdecoded : answer = (Request.send sent plan).decode (Json.textOf body) := by
      rw [hanswer, hfate]
      rfl
    rcases decode_send_cases sent plan body with ⟨hash, hconfirms, hok⟩ | ⟨e, hrefuses, hrefused⟩
    · have hgiven : answer = .ok hash := hdecoded.trans hok
      refine ⟨Pipeline.last_of_not_retryable hjourney hmoments ?_,
        Or.inl ⟨hash, hconfirms, hgiven⟩⟩
      intro e herror
      cases hgiven.symm.trans herror
    · have herror : answer = .error e := hdecoded.trans hrefused
      have hterminal : e.isRetryable = false := terminal_of_unlimited hrefuses hlimit
      have hmem : (⟨.ask (.send sent plan), .error e⟩ : Exchange) ∈
          Pipeline.exchanges moments := by
        rw [hmoments, herror]
        exact List.mem_append_right before List.mem_cons_self
      rcases Pipeline.journey_of_refused hjourney hmem hterminal with ⟨attempts, hresult⟩
      refine ⟨Pipeline.last_of_not_retryable hjourney hmoments ?_,
        Or.inr ⟨e, attempts, hrefuses, herror, hresult⟩⟩
      intro e' herror'
      cases herror.symm.trans herror'
      exact hterminal

end Rpc
end KeyRegistry
