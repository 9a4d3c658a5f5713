import KeyRegistry.Proofs.Json.Record
import KeyRegistry.Rpc.Subscription
import Mathlib.Data.List.Permutation

/-!
# Acknowledgements and answers

An answer to a request for a subscription is read in two ways: as any answer of the
node, and as the acknowledgement on a connection of its own.  Both find the same
name, or the same error of the node, except where the error is null: that is no
error of an answer, but one of an acknowledgement.
-/

namespace KeyRegistry
namespace Rpc

open Json (Outline)

/-- What the error of an answer reports; an error that is absent or null reports nothing. -/
inductive ErrorReports : Option Json -> Option NodeFault -> Prop where
  | absent : ErrorReports none none
  | null : ErrorReports (some .null) none
  | fault {members : List (String × Json)} {code : Int} {message : String} :
      (Json.record members).member? "code" = some (.ofInt code) ->
      -0x8000_0000_0000_0000 ≤ code ∧ code < 0x8000_0000_0000_0000 ->
      (Json.record members).member? "message" = some (.text message) ->
      ErrorReports (some (.record members)) (some { code, message })

/-- Whether neither an answer nor its error gives two of its own members one name. -/
def Response.namesOnce (answer : Outline) : Bool :=
  answer.hasNamesOnce &&
    answer.entries.all fun entry => entry.1 ≠ "error" || entry.2.hasNamesOnce

/-- A text that answers request `id` with a result that is a name, and with `fault` where its error
reports one. -/
structure AnswersWithName (text : String) (id : UInt64) (members : List (String × Json))
    (name : String) (fault : Option NodeFault) : Prop where
  parse_eq : Json.parse text = .ok (.record members)
  namesOnce : Response.namesOnce (Outline.ofText text).1 = true
  id_eq : (Json.record members).member? "id" = some (.ofNat id.toNat)
  result_eq : (Json.record members).member? "result" = some (.text name)
  reports : ErrorReports ((Json.record members).member? "error") fault

/-! ## The answer as any answer is read -/

theorem NodeFault.reader_of_value {outline : Outline} {members : List (String × Json)} {code : Int}
    {message : String} (hnames : outline.hasNamesOnce = true)
    (hvalue : outline.value = .ok (.record members))
    (hcode : (Json.record members).member? "code" = some (.ofInt code))
    (hrange : -0x8000_0000_0000_0000 ≤ code ∧ code < 0x8000_0000_0000_0000)
    (hmessage : (Json.record members).member? "message" = some (.text message)) :
    NodeFault.reader outline = .ok { code, message } := by
  rcases Outline.exists_entries hnames hvalue with ⟨entries, rfl, hnodup, hvalues⟩
  have hdraft : ∃ draft, Json.Reader.record [
      Json.Reader.field "code" Draft.code (fun n d => { d with code := some n }) Json.Reader.int64,
      Json.Reader.field "message" Draft.message (fun s d => { d with message := some s })
        Json.Reader.text] {} (.record entries none) = .ok draft ∧
      draft.code = some code ∧ draft.message = some message := by
    apply Json.Reader.exists_record_pair (by decide) ⟨rfl, rfl⟩ _ _ hnodup
      fun _ => Outline.skip_of_mem hvalues
    · exact Json.Reader.becomes_of_scalar hvalues hcode nofun nofun (if_pos hrange)
    · exact Json.Reader.becomes_of_scalar hvalues hmessage nofun nofun rfl
    · intro _ _
      exact ⟨rfl, rfl⟩
    · intro _ _
      exact ⟨rfl, rfl⟩
  rcases hdraft with ⟨⟨_, _⟩, hdraft, rfl, rfl⟩
  unfold NodeFault.reader
  rw [hdraft]
  rfl

theorem readError_of_reports {entries : List (String × Outline)} {members : List (String × Json)}
    {fault : Option NodeFault} (hvalues : Outline.memberValues entries = .ok members)
    (hnames : forall error, ("error", error) ∈ entries -> error.hasNamesOnce = true)
    (h : ErrorReports ((Json.record members).member? "error") fault) :
    ∃ error, Json.Reader.Becomes entries "error" (Json.Reader.optional NodeFault.reader) none error ∧
      error.getD none = fault := by
  generalize hmember : (Json.record members).member? "error" = member at h
  cases h with
  | absent => exact ⟨none, Json.Reader.Becomes.kept (Outline.no_entry hvalues hmember), rfl⟩
  | null =>
      exact ⟨some none, Json.Reader.becomes_of_scalar hvalues hmember nofun nofun rfl, rfl⟩
  | @fault inner code message hcode hrange hmessage =>
      rcases Outline.exists_entry hvalues hmember with ⟨error, hmem, hvalue⟩
      have hread := NodeFault.reader_of_value (hnames error hmem) hvalue hcode hrange hmessage
      refine ⟨some (some { code, message }), Json.Reader.Becomes.read hmem ?_, rfl⟩
      rcases Outline.exists_entries (hnames error hmem) hvalue with ⟨_, rfl, _⟩
      change (NodeFault.reader _).map some = _
      rw [hread]
      rfl

theorem Response.reader_of_value {outline : Outline} {members : List (String × Json)}
    {name : String} {fault : Option NodeFault} (hnames : Response.namesOnce outline = true)
    (hvalue : outline.value = .ok (.record members))
    (hresult : (Json.record members).member? "result" = some (.text name))
    (hreports : ErrorReports ((Json.record members).member? "error") fault) :
    Response.reader outline = .ok { result := .text name, error := fault } := by
  rw [Response.namesOnce, Bool.and_eq_true, List.all_eq_true] at hnames
  rcases Outline.exists_entries hnames.1 hvalue with ⟨entries, rfl, hnodup, hvalues⟩
  have herrors : forall error, ("error", error) ∈ entries -> error.hasNamesOnce = true := by
    intro error hmem
    simpa using hnames.2 _ hmem
  rcases readError_of_reports hvalues herrors hreports with ⟨error, herror, rfl⟩
  have hdraft : ∃ draft, Json.Reader.record [
      Json.Reader.field "result" Draft.result (fun v d => { d with result := some v })
        Json.Outline.value,
      Json.Reader.field "error" Draft.error (fun e d => { d with error := some e })
        (Json.Reader.optional NodeFault.reader)] {} (.record entries none) = .ok draft ∧
      draft.result = some (.text name) ∧ draft.error = error := by
    apply Json.Reader.exists_record_pair (by decide) ⟨rfl, rfl⟩ _ _ hnodup
      fun _ => Outline.skip_of_mem hvalues
    · exact Json.Reader.becomes_of_scalar hvalues hresult nofun nofun rfl
    · exact herror
    · intro _ _
      exact ⟨rfl, rfl⟩
    · intro _ _
      exact ⟨rfl, rfl⟩
  rcases hdraft with ⟨⟨_, _⟩, hdraft, rfl, rfl⟩
  unfold Response.reader
  rw [hdraft]
  rfl

/-- What an answer says: its name, unless it reports a fault. -/
def said (name : String) : Option NodeFault -> Except RpcError String
  | none => .ok name
  | some fault => .error (.node fault.code fault.message)

theorem result_of_answers {text : String} {id : UInt64} {members : List (String × Json)}
    {name : String} {fault : Option NodeFault} (h : AnswersWithName text id members name fault)
    (method : String) : result method Json.Reader.text text = said name fault := by
  have hvalue := Json.value_of_parse h.parse_eq
  have hresponse : Json.read Response.reader text = .ok { result := .text name, error := fault } := by
    rw [Json.read_eq_reader Response.reader h.parse_eq]
    exact Response.reader_of_value h.namesOnce hvalue h.result_eq h.reports
  rw [result, hresponse]
  cases fault with
  | none => rfl
  | some fault => rfl

/-! ## The answer as an acknowledgement -/

-- The bounds are variables in these two, so that no tactic computes with the powers of two.
theorem natBelow_ofNat {n bound : Nat} (h : n < bound) :
    (do
      let m <- (Json.ofNat n).int?
      if 0 ≤ m ∧ m < bound then some m.toNat else none) = some n := by
  have hrange : (0 : Int) ≤ (n : Int) ∧ (n : Int) < bound := by omega
  exact if_pos hrange

theorem intWithin_ofInt {n low high : Int} (h : low ≤ n ∧ n < high) :
    (do
      let m <- (Json.ofInt n).int?
      if low ≤ m ∧ m < high then some m else none) = some n :=
  if_pos h

theorem nat64?_ofNat (n : UInt64) : Json.nat64? (.ofNat n.toNat) = some n.toNat :=
  natBelow_ofNat n.toNat_lt_size

theorem int64?_ofInt {n : Int} (h : -0x8000_0000_0000_0000 ≤ n ∧ n < 0x8000_0000_0000_0000) :
    Json.int64? (.ofInt n) = some n :=
  intWithin_ofInt h

def heardFrom (name : String) (members : List (String × Json)) : Except RpcError String :=
  match (Json.record members).member? "error" with
  | none => .ok name
  | some error =>
      .error (.node (((error.member? "code").bind Json.int64?).getD 0)
        (((error.member? "message").bind Json.text?).getD "unknown error"))

theorem acknowledgement_of_answers {text : String} {id : UInt64} {members : List (String × Json)}
    {name : String} {fault : Option NodeFault} (h : AnswersWithName text id members name fault) :
    acknowledgement? id.toNat text = some (heardFrom name members) := by
  have hid : ((Json.record members).member? "id").bind Json.nat64? = some id.toNat := by
    rw [h.id_eq, Option.bind_some, nat64?_ofNat]
  have hresult : ((Json.record members).member? "result").bind Json.text? = some name := by
    rw [h.result_eq]
    rfl
  unfold acknowledgement? heardFrom
  simp only [h.parse_eq, Except.toOption, Option.bind_eq_bind, Option.bind_some]
  rw [if_pos hid, hresult]
  cases (Json.record members).member? "error" with
  | none => rfl
  | some error => rfl

theorem heardFrom_of_reports {members : List (String × Json)} {name : String}
    {fault : Option NodeFault} (h : ErrorReports ((Json.record members).member? "error") fault)
    (hnull : (Json.record members).member? "error" ≠ some .null) :
    heardFrom name members = said name fault := by
  unfold heardFrom
  generalize (Json.record members).member? "error" = member at h hnull
  cases h with
  | absent => rfl
  | null => exact absurd rfl hnull
  | fault hcode hrange hmessage =>
      simp only [hcode, hmessage, Option.bind_some, int64?_ofInt hrange, Json.text?]
      rfl

/-- A connection is told of a subscription what an answer says, except that an error that is null
counts as an error. -/
theorem acknowledged_as_answered {text : String} {id : UInt64} {members : List (String × Json)}
    {name : String} {fault : Option NodeFault} (h : AnswersWithName text id members name fault)
    (method : String) :
    result method Json.Reader.text text = said name fault ∧
      ((Json.record members).member? "error" ≠ some .null ->
        acknowledgement? id.toNat text = some (result method Json.Reader.text text)) ∧
      ((Json.record members).member? "error" = some .null ->
        acknowledgement? id.toNat text = some (.error (.node 0 "unknown error"))) := by
  have hresult := result_of_answers h method
  refine ⟨hresult, ?_, ?_⟩
  · intro hnull
    rw [acknowledgement_of_answers h, hresult, heardFrom_of_reports h.reports hnull]
  · intro hnull
    rw [acknowledgement_of_answers h, heardFrom, hnull]
    rfl

def busyAnswer : String :=
  "\x7b\"id\":1,\"error\":\x7b\"code\":-32000,\"message\":\"busy\"\x7d,\"result\":\"0xcd\"\x7d"

/-- An answer that names a subscription is the error of a busy node in both ways. -/
theorem acknowledged_as_answered_busy :
    AnswersWithName busyAnswer 1
        [("id", .ofNat 1),
          ("error", .record [("code", .ofInt (-32000)), ("message", .text "busy")]),
          ("result", .text "0xcd")]
        "0xcd" (some { code := -32000, message := "busy" }) ∧
      result "eth_subscribe" Json.Reader.text busyAnswer = .error (.node (-32000) "busy") ∧
      acknowledgement? 1 busyAnswer = some (.error (.node (-32000) "busy")) := by
  have hanswers : AnswersWithName busyAnswer 1
      [("id", .ofNat 1),
        ("error", .record [("code", .ofInt (-32000)), ("message", .text "busy")]),
        ("result", .text "0xcd")]
      "0xcd" (some { code := -32000, message := "busy" }) := by
    constructor
    case parse_eq => cbv
    case namesOnce => cbv
    case id_eq => rfl
    case result_eq => rfl
    case reports => exact ErrorReports.fault rfl (by decide) rfl
  rcases acknowledged_as_answered hanswers "eth_subscribe" with ⟨hresult, hheard, -⟩
  have hheard := hheard (by simp [Json.member?])
  rw [hresult] at hheard
  exact ⟨hanswers, hresult, hheard⟩

def nullAnswer : String :=
  "\x7b\"jsonrpc\":\"2.0\",\"id\":1,\"error\":null,\"result\":\"0xcd\"\x7d"

/-- An answer whose error is null names the subscription, but is no acknowledgement of it. -/
theorem null_error_refused :
    AnswersWithName nullAnswer 1
        [("jsonrpc", .text "2.0"), ("id", .ofNat 1), ("error", .null), ("result", .text "0xcd")]
        "0xcd" none ∧
      result "eth_subscribe" Json.Reader.text nullAnswer = .ok "0xcd" ∧
      acknowledgement? subscribeId nullAnswer = some (.error (.node 0 "unknown error")) := by
  have hanswers : AnswersWithName nullAnswer 1
      [("jsonrpc", .text "2.0"), ("id", .ofNat 1), ("error", .null), ("result", .text "0xcd")]
      "0xcd" none := by
    constructor
    case parse_eq => cbv
    case namesOnce => cbv
    case id_eq => rfl
    case result_eq => rfl
    case reports => exact ErrorReports.null
  have hresult := result_of_answers hanswers "eth_subscribe"
  have hheard := acknowledgement_of_answers hanswers
  exact ⟨hanswers, hresult, hheard⟩

end Rpc
end KeyRegistry
