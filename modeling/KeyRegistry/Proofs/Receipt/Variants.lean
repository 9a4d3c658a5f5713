import KeyRegistry.Proofs.Receipt.Parts

/-!
# Receipts read back

A receipt is read back from the record that it is written as, and from every variant
of that record: its members in another order and among other members, its digits in
another letter case or with zeros in front of them, its absent parts left out.  A
record that lacks a required part, or that has a string of another form under the
name of a part, is read as no receipt.
-/

namespace KeyRegistry
namespace Receipt

open Hex (IsMarked SameLetters)
open Json (Outline Reader under without)

variable {r r' : Receipt} {p q : Part} {s t : String} {vs : List Json}
variable {members other : List (String × Json)}

/-! ## Single parts -/

namespace Part

theorem gives_json (p : Part) (r : Receipt) : p.Gives r [p.json r] :=
  .present (Presence.reader_json p.kind.parse_format (p.value r))

theorem gives_nil_iff : p.Gives r [] ↔ p.presence.absent = some (p.value r) := by
  constructor
  · intro h
    cases h with
    | absent habsent => exact habsent
  · exact .absent

theorem gives_null_iff : p.Gives r [.null] ↔ p.presence.absent = some (p.value r) := by
  constructor
  · intro h
    cases h with
    | present hread => exact Presence.reader_null_eq_ok_iff.mp hread
  · intro habsent
    exact .present (Presence.reader_null_eq_ok_iff.mpr habsent)

theorem gives_text_iff :
    p.Gives r [.text s] ↔ ∃ a, p.kind.parse s = .ok a ∧ p.presence.given a = p.value r := by
  constructor
  · intro h
    cases h with
    | present hread => exact Presence.reader_text_eq_ok_iff.mp hread
  · intro htext
    exact .present (Presence.reader_text_eq_ok_iff.mpr htext)

theorem eq_nil_of_gives_cons {v : Json} (h : p.Gives r (v :: vs)) : vs = [] := by
  cases h with
  | present => rfl

theorem tail_of_gives (h : p.Gives r vs) : vs.tail = [] := by
  cases h with
  | absent => rfl
  | present => rfl

theorem gives_of_value (h : p.value r = p.value r') (hgives : p.Gives r vs) : p.Gives r' vs := by
  cases hgives with
  | absent habsent => exact .absent (h ▸ habsent)
  | present hread => exact .present (h ▸ hread)

end Part

def IsGiven (r : Receipt) (members : List (String × Json)) : Prop :=
  forall p : Part, p.Gives r (under p.name members)

theorem under_parts (p : Part) (r : Receipt) :
    under p.name (Part.all.map fun q => (q.name, q.json r)) = [p.json r] := by
  cases p <;> rfl

theorem isGiven_toJson (h : r.toJson = .record members) : r.IsGiven members := by
  rw [toJson_eq_parts] at h
  cases h
  intro p
  rw [under_parts]
  exact p.gives_json r

/-- A record gives all parts just where its first member gives the part of its name and those
after it give the others. -/
theorem isGiven_cons_iff {v : Json} :
    r.IsGiven ((p.name, v) :: members) ↔
      p.Gives r (v :: under p.name members) ∧
        forall q : Part, p ≠ q -> q.Gives r (under q.name members) := by
  constructor
  · intro h
    constructor
    · rw [← Json.under_cons_self]
      exact h p
    · intro q hne
      rw [← Json.under_cons_of_ne fun hname => hne (p.name_injective q hname)]
      exact h q
  · rintro ⟨hfirst, hothers⟩ q
    by_cases hsame : p = q
    · cases hsame
      rw [Json.under_cons_self]
      exact hfirst
    · rw [Json.under_cons_of_ne fun hname => hsame (p.name_injective q hname)]
      exact hothers q hsame

/-- A string under the name of a part may be replaced by one that is read as the same. -/
theorem isGiven_text
    (hparse : forall a, p.kind.parse s = .ok a -> p.kind.parse t = .ok a)
    (h : r.IsGiven ((p.name, .text s) :: members)) : r.IsGiven ((p.name, .text t) :: members) := by
  rw [isGiven_cons_iff] at h ⊢
  refine ⟨?_, h.2⟩
  have htail := Part.eq_nil_of_gives_cons h.1
  rw [htail] at h ⊢
  rcases Part.gives_text_iff.mp h.1 with ⟨a, ha, hvalue⟩
  exact Part.gives_text_iff.mpr ⟨a, hparse a ha, hvalue⟩

/-! ## Variants -/

/-- The records that differ from the one of a receipt in what does not matter. -/
inductive Variant (r : Receipt) : List (String × Json) -> Prop where
  | written {members : List (String × Json)} :
      r.toJson = .record members ->
      Variant r members
  | permuted {members other : List (String × Json)} :
      Variant r members ->
      members.Perm other ->
      Variant r other
  | added {name : String} {v : Json} {members : List (String × Json)} :
      Variant r members ->
      (forall p : Part, p.name ≠ name) ->
      Variant r ((name, v) :: members)
  | recased {p : Part} {s t : String} {members : List (String × Json)} :
      Variant r ((p.name, .text s) :: members) ->
      p.kind ≠ .quantity ->
      SameLetters s t ->
      Variant r ((p.name, .text t) :: members)
  | padded {p : Part} {s t : String} {cs : List Char} {zeros : Nat}
      {members : List (String × Json)} :
      Variant r ((p.name, .text s) :: members) ->
      p.kind = .quantity ->
      Quantity.IsNumeral cs ->
      IsMarked s cs ->
      IsMarked t (List.replicate zeros '0' ++ cs) ->
      Variant r ((p.name, .text t) :: members)
  | omitted {p : Part} {members : List (String × Json)} :
      Variant r ((p.name, .null) :: members) ->
      Variant r members

theorem isGiven_of_perm (h : r.IsGiven members) (hperm : members.Perm other) :
    r.IsGiven other := by
  intro p
  have hunder := Json.under_perm hperm p.name
  have hgives := h p
  generalize under p.name members = vs at hunder hgives
  cases hgives with
  | absent habsent =>
      rw [List.nil_perm.mp hunder]
      exact .absent habsent
  | present hread =>
      rw [← List.singleton_perm.mp hunder]
      exact .present hread

theorem isGiven_of_omitted (h : r.IsGiven ((p.name, .null) :: members)) : r.IsGiven members := by
  rcases isGiven_cons_iff.mp h with ⟨hnull, hothers⟩
  intro q
  by_cases hsame : p = q
  · cases hsame
    have htail := Part.eq_nil_of_gives_cons hnull
    rw [htail] at hnull ⊢
    exact Part.gives_nil_iff.mpr (Part.gives_null_iff.mp hnull)
  · exact hothers q hsame

theorem isGiven_of_variant (h : Variant r members) : r.IsGiven members := by
  induction h with
  | written hwritten => exact isGiven_toJson hwritten
  | permuted _ hperm ih => exact isGiven_of_perm ih hperm
  | added _ hname ih =>
      intro p
      rw [Json.under_cons_of_ne (hname p).symm]
      exact ih p
  | recased _ hkind hletters ih =>
      exact isGiven_text (fun _ => Kind.parse_of_sameLetters hkind hletters) ih
  | padded _ hkind hnumeral hs ht ih =>
      exact isGiven_text (fun _ => Kind.parse_of_zeros hkind hs ht hnumeral) ih
  | omitted _ ih => exact isGiven_of_omitted ih

/-! ## Parts taken away -/

/-- Removing what stands under a name, or writing null in its place. -/
inductive Blanks (name : String) (members : List (String × Json)) :
    List (String × Json) -> Prop where
  | removed : Blanks name members (without name members)
  | nulled : Blanks name members (Json.put name .null members)

theorem under_of_blanks (h : Blanks p.name members other) :
    under p.name other = [] ∨ under p.name other = .null :: (under p.name members).tail := by
  cases h with
  | removed => exact .inl (Json.under_without_self p.name members)
  | nulled => exact .inr (Json.under_put_self p.name .null members)

theorem under_of_blanks_of_ne (hne : p ≠ q) (h : Blanks p.name members other) :
    under q.name other = under q.name members := by
  have hname : p.name ≠ q.name := fun hname => hne (p.name_injective q hname)
  cases h with
  | removed => exact Json.under_without_of_ne hname members
  | nulled => exact Json.under_put_of_ne hname .null members

theorem absent_of_blanks (hblanks : Blanks p.name members other) (h : r.IsGiven other) :
    p.presence.absent = some (p.value r) := by
  have hgives := h p
  rcases under_of_blanks hblanks with hunder | hunder
  · rw [hunder] at hgives
    exact Part.gives_nil_iff.mp hgives
  · rw [hunder] at hgives
    have htail := Part.eq_nil_of_gives_cons hgives
    rw [htail] at hgives
    exact Part.gives_null_iff.mp hgives

namespace Part

def clear : Part -> Receipt -> Receipt
  | .recipient, r => { r with recipient := none }
  | .contractAddress, r => { r with contractAddress := none }
  | .status, r => { r with status := none }
  | .transactionHash, r | .blockHash, r | .blockNumber, r | .sender, r | .gasUsed, r => r

theorem absent_clear (h : p.presence = .optional) (r : Receipt) :
    p.presence.absent = some (p.value (p.clear r)) := by
  cases p with
  | recipient | contractAddress | status => rfl
  | transactionHash | blockHash | blockNumber | sender | gasUsed => cases h

theorem value_clear_of_ne (h : p ≠ q) (r : Receipt) : q.value (p.clear r) = q.value r := by
  cases p <;> cases q <;> first | rfl | exact absurd rfl h

theorem not_absent (h : p.presence = .required) (v : p.Value) : p.presence.absent ≠ some v := by
  cases p with
  | recipient | contractAddress | status => cases h
  | transactionHash | blockHash | blockNumber | sender | gasUsed => exact nofun

end Part

theorem isGiven_clear (h : r.IsGiven members) (hpresence : p.presence = .optional)
    (hblanks : Blanks p.name members other) : (p.clear r).IsGiven other := by
  intro q
  by_cases hsame : p = q
  · cases hsame
    have htail := Part.tail_of_gives (h p)
    rcases under_of_blanks hblanks with hunder | hunder
    · rw [hunder]
      exact Part.gives_nil_iff.mpr (Part.absent_clear hpresence r)
    · rw [hunder, htail]
      exact Part.gives_null_iff.mpr (Part.absent_clear hpresence r)
  · rw [under_of_blanks_of_ne hsame hblanks]
    exact Part.gives_of_value (Part.value_clear_of_ne hsame r).symm (h q)

theorem exists_fault (h : forall r : Receipt, ¬ r.IsGiven members) :
    ∃ fault, Json.readValue reader (.record members) = .error fault := by
  cases hread : Json.readValue reader (.record members) with
  | error fault => exact ⟨fault, rfl⟩
  | ok r => exact absurd (readValue_eq_ok_iff.mp hread) (h r)

theorem isText_of_isGiven (h : r.IsGiven (Json.put p.name (.text s) members)) :
    p.kind.IsText s := by
  have hgives := h p
  rw [Json.under_put_self] at hgives
  have htail := Part.eq_nil_of_gives_cons hgives
  rw [htail] at hgives
  rcases Part.gives_text_iff.mp hgives with ⟨a, ha, _⟩
  exact Kind.isText_of_parse ha

/-! ## Reading receipts -/

theorem read_toText_toJson (r : Receipt) :
    Json.read reader r.toJson.toText = Json.readValue reader r.toJson := by
  rw [toJson_eq_parts]
  apply Json.read_toText
  intro member hmember
  rcases List.mem_map.mp hmember with ⟨p, _, rfl⟩
  exact p.presence.isFlat_json (p.value r)

/-- A reader of receipts that finds a receipt in each of its variants and in no record that
lacks a part or has a string of another form for it. -/
structure ReadsBack (reader : Reader Receipt) : Prop where
  written : forall r : Receipt, Json.read reader r.toJson.toText = .ok r
  text : forall text members, Json.read (Reader.named Outline.value) text = .ok members ->
    Json.read reader text = Json.readValue reader (.record members)
  variant : forall r members, Variant r members ->
    Json.readValue reader (.record members) = .ok r
  cleared : forall r members (p : Part) blanked, p.presence = .optional ->
    Json.readValue reader (.record members) = .ok r -> Blanks p.name members blanked ->
    Json.readValue reader (.record blanked) = .ok (p.clear r)
  incomplete : forall members (p : Part) blanked, p.presence = .required ->
    Blanks p.name members blanked ->
    ∃ fault, Json.readValue reader (.record blanked) = .error fault
  misspelled : forall members (p : Part) text, ¬ p.kind.IsText text ->
    ∃ fault, Json.readValue reader (.record (Json.put p.name (.text text) members)) = .error fault

/-- Receipts are read back from their records and from all variants of these. -/
theorem reader_reads_back : ReadsBack reader where
  written r := by
    rw [read_toText_toJson, toJson_eq_parts]
    exact readValue_eq_ok_iff.mpr (isGiven_toJson (toJson_eq_parts r))
  text _ _ h := read_of_named h
  variant r members h := readValue_eq_ok_iff.mpr (isGiven_of_variant h)
  cleared r members p blanked hpresence hread hblanks :=
    readValue_eq_ok_iff.mpr (isGiven_clear (readValue_eq_ok_iff.mp hread) hpresence hblanks)
  incomplete members p blanked hpresence hblanks := by
    apply exists_fault
    intro r h
    exact Part.not_absent hpresence (p.value r) (absent_of_blanks hblanks h)
  misspelled members p text htext := by
    apply exists_fault
    intro r h
    exact htext (isText_of_isGiven h)

end Receipt
end KeyRegistry
