import KeyRegistry.Receipt.Json
import KeyRegistry.Proofs.Json.Printing
import KeyRegistry.Proofs.Json.Table
import KeyRegistry.Proofs.Quantity
import KeyRegistry.Proofs.ValueTexts

/-!
# Parts of receipts

Each part of a receipt has a name, is a hash, an address or a quantity, and is
required or optional.  A record is read as a receipt just where it gives each part:
by one value under its name, or by none where the part may be absent.
-/

namespace KeyRegistry
namespace Receipt

open Hex (IsMarked SameLetters)
open Json (Outline Reader under)

/-! ## Kinds of parts -/

inductive Kind where
  | hash
  | address
  | quantity
deriving DecidableEq, Repr

namespace Kind

def Carrier : Kind -> Type
  | .hash => Hash
  | .address => Address
  | .quantity => UInt64

def parse : (k : Kind) -> String -> Except ValueError k.Carrier
  | .hash => Hash.parse
  | .address => Address.parse
  | .quantity => Quantity.parse64

def format : (k : Kind) -> k.Carrier -> String
  | .hash => Hash.toString
  | .address => Address.toString
  | .quantity => Quantity.format64

def IsText : Kind -> String -> Prop
  | .hash => Hash.IsText
  | .address => Address.IsText
  | .quantity => fun text => ∃ n, n < 2 ^ 64 ∧ Quantity.Denotes text n

variable {k : Kind} {a : k.Carrier} {s t : String} {cs : List Char}

theorem parse_format (k : Kind) (a : k.Carrier) : k.parse (k.format a) = .ok a := by
  cases k with
  | hash => exact Hash.parse_toString a
  | address => exact Address.parse_toString a
  | quantity => exact Quantity.exact64.read_back a

theorem isText_of_parse (h : k.parse s = .ok a) : k.IsText s := by
  cases k with
  | hash => exact Hash.isText_of_parse h
  | address => exact Address.isText_of_parse h
  | quantity => exact ⟨UInt64.toNat a, UInt64.toNat_lt a, Quantity.exact64.accepted s a h⟩

theorem parse_of_sameLetters (hkind : k ≠ .quantity) (hletters : SameLetters s t)
    (h : k.parse s = .ok a) : k.parse t = .ok a := by
  cases k with
  | hash => exact Hash.parse_of_sameLetters hletters h
  | address => exact Address.parse_of_sameLetters hletters h
  | quantity => exact absurd rfl hkind

theorem parse_of_zeros {zeros : Nat} (hkind : k = .quantity) (hs : IsMarked s cs)
    (ht : IsMarked t (List.replicate zeros '0' ++ cs)) (hnumeral : Quantity.IsNumeral cs)
    (h : k.parse s = .ok a) : k.parse t = .ok a := by
  cases hkind
  have hpadded : Quantity.IsNumeral (List.replicate zeros '0' ++ cs) := by
    constructor
    · intro hnil
      exact hnumeral.1 (List.append_eq_nil_iff.mp hnil).2
    · intro c hc
      rcases List.mem_append.mp hc with hzero | hc
      · cases List.eq_of_mem_replicate hzero
        decide
      · exact hnumeral.2 c hc
  have hfits : Hex.number cs < 2 ^ 64 := by
    apply Nat.lt_of_not_le
    intro hlarge
    cases h.symm.trans (Quantity.exact64.overflows s cs hs hnumeral hlarge)
  rcases Quantity.exact64.fits s cs hs hnumeral hfits with ⟨n, hn, hnumber⟩
  have hsame := Hex.number_zeros zeros cs
  rcases Quantity.exact64.fits t _ ht hpadded (hsame ▸ hfits) with ⟨m, hm, hpaddedNumber⟩
  cases h.symm.trans hn
  cases UInt64.toNat_inj.mp ((hpaddedNumber.trans hsame).trans hnumber.symm)
  exact hm

end Kind

/-! ## Required and optional parts -/

inductive Presence where
  | required
  | optional
deriving DecidableEq, Repr

namespace Presence

def Value : Presence -> Type -> Type
  | .required, α => α
  | .optional, α => Option α

variable {α : Type}

def given : (m : Presence) -> α -> m.Value α
  | .required, a => a
  | .optional, a => some a

/-- The value of a part that is absent, if it may be. -/
def absent : (m : Presence) -> Option (m.Value α)
  | .required => none
  | .optional => some none

def reader : (m : Presence) -> Reader α -> Reader (m.Value α)
  | .required, reader => reader
  | .optional, reader => Reader.optional reader

def json (format : α -> String) : (m : Presence) -> m.Value α -> Json
  | .required, a => .text (format a)
  | .optional, a => Json.ofOption (fun a => .text (format a)) a

variable {m : Presence} {parse : String -> Except ValueError α} {format : α -> String}
variable {s : String} {v : m.Value α}

theorem parsed_eq_ok_iff {a : α} :
    Reader.parsed parse (.text s) = .ok a ↔ parse s = .ok a := by
  simp only [Reader.parsed, Reader.text, bind, Except.bind]
  cases parse s with
  | error cause => exact ⟨nofun, nofun⟩
  | ok b =>
      constructor
      · intro h
        cases h
        rfl
      · intro h
        cases h
        rfl

theorem reader_text_eq_ok_iff :
    m.reader (Reader.parsed parse) (.text s) = .ok v ↔ ∃ a, parse s = .ok a ∧ m.given a = v := by
  cases m with
  | required =>
      constructor
      · intro h
        exact ⟨v, parsed_eq_ok_iff.mp h, rfl⟩
      · rintro ⟨a, ha, rfl⟩
        exact parsed_eq_ok_iff.mpr ha
  | optional =>
      change (Reader.parsed parse (.text s)).map some = .ok v ↔ _
      constructor
      · intro h
        cases hread : Reader.parsed parse (.text s) with
        | error fault =>
            rw [hread] at h
            cases h
        | ok a =>
            rw [hread] at h
            cases h
            exact ⟨a, parsed_eq_ok_iff.mp hread, rfl⟩
      · rintro ⟨a, ha, rfl⟩
        exact congrArg (Except.map some) (parsed_eq_ok_iff.mpr ha)

theorem reader_null_eq_ok_iff :
    m.reader (Reader.parsed parse) .null = .ok v ↔ m.absent = some v := by
  cases m with
  | required => exact ⟨nofun, nofun⟩
  | optional =>
      constructor
      · intro h
        cases h
        rfl
      · intro h
        cases h
        rfl

theorem reader_json (hformat : forall a, parse (format a) = .ok a) (v : m.Value α) :
    m.reader (Reader.parsed parse) (Outline.ofJson (m.json format v)) = .ok v := by
  cases m with
  | required => exact parsed_eq_ok_iff.mpr (hformat v)
  | optional =>
      cases v with
      | none => rfl
      | some a => exact congrArg (Except.map some) (parsed_eq_ok_iff.mpr (hformat a))

theorem readsValues_reader {reader : Reader α} (m : Presence) (h : Reader.ReadsValues reader) :
    Reader.ReadsValues (m.reader reader) := by
  cases m with
  | required => exact h
  | optional => exact Reader.readsValues_optional h

theorem isFlat_json (m : Presence) (v : m.Value α) : Json.IsFlat (m.json format v) := by
  cases m with
  | required => exact .inr ⟨format v, rfl⟩
  | optional =>
      cases v with
      | none => exact .inl rfl
      | some a => exact .inr ⟨format a, rfl⟩

end Presence

/-! ## Parts -/

inductive Part where
  | transactionHash
  | blockHash
  | blockNumber
  | sender
  | recipient
  | contractAddress
  | gasUsed
  | status
deriving DecidableEq, Repr

namespace Part

def all : List Part :=
  [.transactionHash, .blockHash, .blockNumber, .sender, .recipient, .contractAddress, .gasUsed,
    .status]

def name : Part -> String
  | .transactionHash => "transactionHash"
  | .blockHash => "blockHash"
  | .blockNumber => "blockNumber"
  | .sender => "from"
  | .recipient => "to"
  | .contractAddress => "contractAddress"
  | .gasUsed => "gasUsed"
  | .status => "status"

def kind : Part -> Kind
  | .transactionHash | .blockHash => .hash
  | .sender | .recipient | .contractAddress => .address
  | .blockNumber | .gasUsed | .status => .quantity

def presence : Part -> Presence
  | .recipient | .contractAddress | .status => .optional
  | .transactionHash | .blockHash | .blockNumber | .sender | .gasUsed => .required

def Value (p : Part) : Type :=
  p.presence.Value p.kind.Carrier

def value : (p : Part) -> Receipt -> p.Value
  | .transactionHash => Receipt.transactionHash
  | .blockHash => Receipt.blockHash
  | .blockNumber => Receipt.blockNumber
  | .sender => Receipt.sender
  | .recipient => Receipt.recipient
  | .contractAddress => Receipt.contractAddress
  | .gasUsed => Receipt.gasUsed
  | .status => Receipt.status

def get : (p : Part) -> Draft -> Option p.Value
  | .transactionHash => Draft.transactionHash
  | .blockHash => Draft.blockHash
  | .blockNumber => Draft.blockNumber
  | .sender => Draft.sender
  | .recipient => Draft.recipient
  | .contractAddress => Draft.contractAddress
  | .gasUsed => Draft.gasUsed
  | .status => Draft.status

def put : (p : Part) -> p.Value -> Draft -> Draft
  | .transactionHash, h, d => { d with transactionHash := some h }
  | .blockHash, h, d => { d with blockHash := some h }
  | .blockNumber, n, d => { d with blockNumber := some n }
  | .sender, a, d => { d with sender := some a }
  | .recipient, a, d => { d with recipient := some a }
  | .contractAddress, a, d => { d with contractAddress := some a }
  | .gasUsed, n, d => { d with gasUsed := some n }
  | .status, n, d => { d with status := some n }

def reader (p : Part) : Reader p.Value :=
  p.presence.reader (Reader.parsed p.kind.parse)

def json (p : Part) (r : Receipt) : Json :=
  p.presence.json p.kind.format (p.value r)

variable (p q : Part)

theorem mem_all : p ∈ all := by
  cases p <;> decide

theorem name_injective (h : p.name = q.name) : p = q :=
  List.inj_on_of_nodup_map (by decide) (mem_all p) (mem_all q) h

end Part

def table : Reader.Table Draft where
  Slot := Part
  slots := Part.all
  name := Part.name
  Value := Part.Value
  get := Part.get
  put := Part.put
  reader := Part.reader
  mem_slots := Part.mem_all
  name_injective := Part.name_injective
  get_put p a d := by
    cases p <;> rfl
  get_put_of_ne p q a d h := by
    cases p <;> cases q <;> first | rfl | exact absurd rfl h

theorem fields_eq_table : fields = table.fields :=
  rfl

theorem toJson_eq_parts (r : Receipt) :
    r.toJson = .record (Part.all.map fun p => (p.name, p.json r)) :=
  rfl

/-! ## Receipts of drafts -/

variable {d : Draft} {r : Receipt}

theorem required_eq_ok_iff {α : Type} {o : Option α} {a : α} :
    Reader.required o = .ok a ↔ o = some a := by
  cases o with
  | none => exact ⟨nofun, nofun⟩
  | some b => rw [Reader.required, Except.ok.injEq, Option.some.injEq]

theorem finish_eq_ok_iff :
    d.finish = .ok r ↔ forall p : Part, (p.get d).or p.presence.absent = some (p.value r) := by
  constructor
  · intro h
    rcases ok_of_bind h with ⟨transactionHash, htransactionHash, h⟩
    rcases ok_of_bind h with ⟨blockHash, hblockHash, h⟩
    rcases ok_of_bind h with ⟨blockNumber, hblockNumber, h⟩
    rcases ok_of_bind h with ⟨sender, hsender, h⟩
    rcases ok_of_bind h with ⟨gasUsed, hgasUsed, h⟩
    cases h
    intro p
    cases p with
    | transactionHash => exact Option.or_none.trans (required_eq_ok_iff.mp htransactionHash)
    | blockHash => exact Option.or_none.trans (required_eq_ok_iff.mp hblockHash)
    | blockNumber => exact Option.or_none.trans (required_eq_ok_iff.mp hblockNumber)
    | sender => exact Option.or_none.trans (required_eq_ok_iff.mp hsender)
    | gasUsed => exact Option.or_none.trans (required_eq_ok_iff.mp hgasUsed)
    | recipient => exact Option.or_some
    | contractAddress => exact Option.or_some
    | status => exact Option.or_some
  · intro h
    have htransactionHash : Reader.required d.transactionHash = .ok r.transactionHash :=
      required_eq_ok_iff.mpr (Option.or_none.symm.trans (h .transactionHash))
    have hblockHash : Reader.required d.blockHash = .ok r.blockHash :=
      required_eq_ok_iff.mpr (Option.or_none.symm.trans (h .blockHash))
    have hblockNumber : Reader.required d.blockNumber = .ok r.blockNumber :=
      required_eq_ok_iff.mpr (Option.or_none.symm.trans (h .blockNumber))
    have hsender : Reader.required d.sender = .ok r.sender :=
      required_eq_ok_iff.mpr (Option.or_none.symm.trans (h .sender))
    have hgasUsed : Reader.required d.gasUsed = .ok r.gasUsed :=
      required_eq_ok_iff.mpr (Option.or_none.symm.trans (h .gasUsed))
    have hrecipient : d.recipient.getD none = r.recipient :=
      Option.some.inj (Option.or_some.symm.trans (h .recipient))
    have hcontractAddress : d.contractAddress.getD none = r.contractAddress :=
      Option.some.inj (Option.or_some.symm.trans (h .contractAddress))
    have hstatus : d.status.getD none = r.status :=
      Option.some.inj (Option.or_some.symm.trans (h .status))
    rw [Draft.finish, bind_of_ok htransactionHash, bind_of_ok hblockHash,
      bind_of_ok hblockNumber, bind_of_ok hsender, bind_of_ok hgasUsed, hrecipient,
      hcontractAddress, hstatus]
    rfl

/-! ## Receipts of records -/

/-- Whether what stands under the name of a part gives the part as the receipt has it. -/
inductive Part.Gives (p : Part) (r : Receipt) : List Json -> Prop where
  | absent : p.presence.absent = some (p.value r) -> Gives p r []
  | present {v : Json} : p.reader (Outline.ofJson v) = .ok (p.value r) -> Gives p r [v]

variable {members : List (String × Json)}

theorem Part.gives_iff_filled {p : Part} {vs : List Json} :
    p.Gives r vs ↔ ∃ after, Reader.Table.Filled p.reader none (vs.map Outline.ofJson) after ∧
      after.or p.presence.absent = some (p.value r) := by
  constructor
  · intro h
    cases h with
    | absent habsent => exact ⟨none, .kept, habsent⟩
    | present hread => exact ⟨some (p.value r), .read rfl hread, rfl⟩
  · rintro ⟨after, hfilled, hvalue⟩
    cases vs with
    | nil =>
        cases hfilled
        exact .absent hvalue
    | cons v vs =>
        cases vs with
        | nil =>
            cases hfilled with
            | read _ hread =>
                cases hvalue
                exact .present hread
        | cons v' vs => cases hfilled

theorem read_record_eq (entries : List (String × Outline)) :
    reader (.record entries none) =
      (Reader.members table.fields {} entries >>= fun d => d.finish) := by
  rw [reader, ← fields_eq_table, Reader.record_entries]

theorem get_start (p : Part) : p.get {} = none := by
  cases p <;> rfl

/-- A record is read as a receipt just where it gives each part as the receipt has it. -/
theorem readValue_eq_ok_iff :
    Json.readValue reader (.record members) = .ok r ↔
      forall p : Part, p.Gives r (under p.name members) := by
  rw [Json.readValue, Outline.ofJson, read_record_eq]
  constructor
  · intro h p
    rcases ok_of_bind h with ⟨d, hd, hfinish⟩
    have hfilled := Reader.Table.filled_of_members hd p
    rw [Json.under_ofMembers] at hfilled
    apply Part.gives_iff_filled.mpr
    exact ⟨p.get d, get_start p ▸ hfilled, finish_eq_ok_iff.mp hfinish p⟩
  · intro h
    have hslots : forall p : Part, ∃ after, Reader.Table.Filled p.reader (p.get {})
        (under p.name (Outline.ofMembers members)) after ∧
        after.or p.presence.absent = some (p.value r) := by
      intro p
      rw [get_start, Json.under_ofMembers]
      exact Part.gives_iff_filled.mp (h p)
    have hread : ∃ d, Reader.members table.fields {} (Outline.ofMembers members) = .ok d := by
      apply Reader.Table.exists_members
      · intro p
        rcases hslots p with ⟨after, hfilled, _⟩
        exact ⟨after, hfilled⟩
      · exact fun _ => Outline.skip_of_mem_ofMembers
    rcases hread with ⟨d, hd⟩
    rw [bind_of_ok hd]
    apply finish_eq_ok_iff.mpr
    intro p
    rcases hslots p with ⟨after, hfilled, hvalue⟩
    have hget : p.get d = after := (Reader.Table.filled_of_members hd p).unique hfilled
    rw [hget]
    exact hvalue

theorem read_of_named {text : String}
    (h : Json.read (Reader.named Outline.value) text = .ok members) :
    Json.read reader text = Json.readValue reader (.record members) := by
  rcases Json.exists_entries_of_named h with ⟨entries, hvalues, hread⟩
  have hparts : forall p : Part, Reader.ReadsValues p.reader :=
    fun p => p.presence.readsValues_reader (Reader.readsValues_parsed p.kind.parse)
  rw [hread, Json.readValue, Outline.ofJson, read_record_eq, read_record_eq,
    Reader.Table.members_of_values hparts hvalues]

end Receipt
end KeyRegistry
