import KeyRegistry.Proofs.Abi.Resolution
import KeyRegistry.Proofs.Numeral

/-!
# Names of types

The width of an integer type may be spelled with a plus sign and with zeros in front.
In a signature a name stands as it is spelled; only the name of integers without a width
is replaced by one with a width.  A signature therefore names the types of the arguments
exactly where every width is spelled by its digits alone.
-/

namespace KeyRegistry

theorem Text.dropLead?_eq_some_iff {lead cs rest : List Char} :
    Text.dropLead? lead cs = some rest ↔ cs = lead ++ rest := by
  induction lead generalizing cs with
  | nil => exact Option.some_inj
  | cons l lead ih =>
      cases cs with
      | nil => exact ⟨nofun, nofun⟩
      | cons c cs =>
          rw [Text.dropLead?, List.cons_append, List.cons.injEq]
          by_cases hlead : l = c
          · rw [if_pos hlead, ih]
            exact ⟨fun h => ⟨hlead.symm, h⟩, And.right⟩
          · rw [if_neg hlead]
            exact ⟨nofun, fun h => absurd h.1.symm hlead⟩

namespace Abi

def IsWidth (bits : Nat) : Prop :=
  0 < bits ∧ bits ≤ 256 ∧ bits % 8 = 0

/-- The names that are read as a type. -/
inductive Spells : String -> ParamType -> Prop where
  | address : Spells "address" .address
  | bool : Spells "bool" .bool
  | text : Spells "string" .text
  | bytes : Spells "bytes" .bytes
  | integer : Spells "uint" (.uint 256)
  | width {sign : String} {bits : Nat} (zeros : Nat) :
      sign = "" ∨ sign = "+" -> IsWidth bits ->
      Spells ("uint" ++ (sign ++ (String.ofList (List.replicate zeros '0') ++ toString bits)))
        (.uint bits)

/-- The names of types whose width, where they have one, is spelled by its digits alone. -/
def Plain (name : String) : Prop :=
  name ∈ ["address", "bool", "string", "bytes", "uint"] ∨
    ∃ bits, IsWidth bits ∧ name = "uint" ++ toString bits

namespace ParamType

variable {name : String} {type : ParamType} {bits : Nat}

theorem width?_eq_some_iff {cs : List Char} :
    width? cs = some bits ↔
      IsWidth bits ∧ ∃ sign zeros, (sign = [] ∨ sign = ['+']) ∧
        cs = sign ++ List.replicate zeros '0' ++ Numeral.decimalDigits bits := by
  rw [width?, Option.filter_eq_some_iff, decide_eq_true_eq, Numeral.unsigned?_eq_some_iff]
  constructor
  · rintro ⟨⟨_, hspelling⟩, hwidth⟩
    exact ⟨hwidth, hspelling⟩
  · rintro ⟨hwidth, hspelling⟩
    exact ⟨⟨Nat.lt_of_le_of_lt hwidth.2.1 (by decide), hspelling⟩, hwidth⟩

theorem toList_toString (n : Nat) : (toString n).toList = Numeral.decimalDigits n := by
  rw [Nat.toString_eq_repr, Nat.toList_repr]
  rfl

theorem toList_width (sign : String) (zeros bits : Nat) :
    ("uint" ++ (sign ++ (String.ofList (List.replicate zeros '0') ++ toString bits))).toList =
      ['u', 'i', 'n', 't'] ++
        (sign.toList ++ List.replicate zeros '0' ++ Numeral.decimalDigits bits) := by
  simp only [String.toList_append, String.toList_ofList, toList_toString, List.append_assoc]
  rfl

theorem width?_of_spelling {sign : String} (zeros : Nat) (hsign : sign = "" ∨ sign = "+")
    (hwidth : IsWidth bits) :
    width? (sign.toList ++ List.replicate zeros '0' ++ Numeral.decimalDigits bits) = some bits := by
  refine width?_eq_some_iff.mpr ⟨hwidth, sign.toList, zeros, ?_, rfl⟩
  rcases hsign with rfl | rfl
  · exact .inl rfl
  · exact .inr rfl

theorem ne_of_width? {cs : List Char} {word : String}
    (hname : name.toList = ['u', 'i', 'n', 't'] ++ cs) (hcs : width? cs = some bits)
    (hword : forall ds, width? ds = some bits -> word.toList ≠ ['u', 'i', 'n', 't'] ++ ds) :
    name ≠ word := by
  rintro rfl
  exact hword cs hcs hname

theorem ne_uint_of_width? {cs : List Char} (hname : name.toList = ['u', 'i', 'n', 't'] ++ cs)
    (hcs : width? cs = some bits) : name ≠ "uint" := by
  refine ne_of_width? hname hcs fun ds hds heq => ?_
  have hstart : ['u', 'i', 'n', 't'] ++ [] = ['u', 'i', 'n', 't'] ++ ds := heq
  cases List.append_cancel_left hstart
  cases hds

theorem parse_of_width? {cs : List Char} (hname : name.toList = ['u', 'i', 'n', 't'] ++ cs)
    (hcs : width? cs = some bits) : parse name = .ok (.uint bits) := by
  have hspelling : (Text.dropLead? ['u', 'i', 'n', 't'] name.toList).bind width? = some bits := by
    rw [Text.dropLead?_eq_some_iff.mpr hname]
    exact hcs
  have haddress : name ≠ "address" := ne_of_width? hname hcs fun _ _ => nofun
  have hbool : name ≠ "bool" := ne_of_width? hname hcs fun _ _ => nofun
  have htext : name ≠ "string" := ne_of_width? hname hcs fun _ _ => nofun
  have hbytes : name ≠ "bytes" := ne_of_width? hname hcs fun _ _ => nofun
  rw [parse, if_neg haddress, if_neg hbool, if_neg htext, if_neg hbytes,
    if_neg (ne_uint_of_width? hname hcs), hspelling]

theorem canonical_of_width? {cs : List Char} (hname : name.toList = ['u', 'i', 'n', 't'] ++ cs)
    (hcs : width? cs = some bits) : canonical name = name := by
  have hint : name ≠ "int" := ne_of_width? hname hcs fun _ _ => nofun
  rw [canonical, if_neg (ne_uint_of_width? hname hcs), if_neg hint]

theorem spells_of_width? {cs : List Char} (hname : name.toList = ['u', 'i', 'n', 't'] ++ cs)
    (hcs : width? cs = some bits) : Spells name (.uint bits) := by
  rcases width?_eq_some_iff.mp hcs with ⟨hwidth, sign, zeros, hsign, rfl⟩
  have heq : name = "uint" ++ (String.ofList sign ++
      (String.ofList (List.replicate zeros '0') ++ toString bits)) := by
    rw [← String.toList_inj, hname, toList_width, String.toList_ofList]
  rw [heq]
  refine Spells.width zeros ?_ hwidth
  rcases hsign with rfl | rfl
  · exact .inl rfl
  · exact .inr rfl

theorem spells_of_parse (h : parse name = .ok type) : Spells name type := by
  unfold parse at h
  split at h
  · subst name
    cases h
    exact Spells.address
  split at h
  · subst name
    cases h
    exact Spells.bool
  split at h
  · subst name
    cases h
    exact Spells.text
  split at h
  · subst name
    cases h
    exact Spells.bytes
  split at h
  · subst name
    cases h
    exact Spells.integer
  split at h
  · rename_i bits hbits
    cases h
    rcases Option.bind_eq_some_iff.mp hbits with ⟨cs, hlead, hcs⟩
    exact spells_of_width? (Text.dropLead?_eq_some_iff.mp hlead) hcs
  · cases h

theorem parse_of_spells (h : Spells name type) : parse name = .ok type := by
  cases h with
  | address => rfl
  | bool => rfl
  | text => rfl
  | bytes => rfl
  | integer => rfl
  | width zeros hsign hwidth =>
      exact parse_of_width? (toList_width _ zeros _) (width?_of_spelling zeros hsign hwidth)

theorem parse_eq_ok_iff : parse name = .ok type ↔ Spells name type :=
  ⟨spells_of_parse, parse_of_spells⟩

/-! ## Names in signatures -/

theorem canonical_width {sign : String} (zeros : Nat) (hsign : sign = "" ∨ sign = "+")
    (hwidth : IsWidth bits) :
    canonical ("uint" ++ (sign ++ (String.ofList (List.replicate zeros '0') ++ toString bits))) =
      "uint" ++ (sign ++ (String.ofList (List.replicate zeros '0') ++ toString bits)) :=
  canonical_of_width? (toList_width sign zeros bits) (width?_of_spelling zeros hsign hwidth)

theorem spells_plain_width (hwidth : IsWidth bits) :
    Spells ("uint" ++ toString bits) (.uint bits) := by
  have hspells := Spells.width 0 (.inl rfl) hwidth
  rwa [List.replicate_zero, String.ofList_nil, String.empty_append, String.empty_append] at hspells

theorem eq_of_spells {other : ParamType} (h : Spells name type) (hparse : parse name = .ok other) :
    type = other :=
  Except.ok.inj ((parse_of_spells h).symm.trans hparse)

theorem exists_parse_of_plain (h : Plain name) :
    ∃ type, parse name = .ok type ∧ canonical name = type.name := by
  rcases h with hword | ⟨bits, hwidth, rfl⟩
  · simp only [List.mem_cons, List.not_mem_nil, or_false] at hword
    rcases hword with rfl | rfl | rfl | rfl | rfl
    · exact ⟨.address, rfl, rfl⟩
    · exact ⟨.bool, rfl, rfl⟩
    · exact ⟨.text, rfl, rfl⟩
    · exact ⟨.bytes, rfl, rfl⟩
    · exact ⟨.uint 256, rfl, rfl⟩
  · refine ⟨.uint bits, parse_of_spells (spells_plain_width hwidth), ?_⟩
    have hcanonical := canonical_width 0 (.inl rfl) hwidth
    rwa [List.replicate_zero, String.ofList_nil, String.empty_append, String.empty_append]
      at hcanonical

theorem canonical_eq_name_iff (h : Spells name type) : canonical name = type.name ↔ Plain name := by
  constructor
  · intro hcanonical
    cases h with
    | address => exact .inl (by decide)
    | bool => exact .inl (by decide)
    | text => exact .inl (by decide)
    | bytes => exact .inl (by decide)
    | integer => exact .inl (by decide)
    | width zeros hsign hwidth =>
        rw [canonical_width zeros hsign hwidth] at hcanonical
        exact .inr ⟨_, hwidth, hcanonical⟩
  · intro hplain
    rcases exists_parse_of_plain hplain with ⟨other, hparse, hcanonical⟩
    rw [hcanonical, eq_of_spells h hparse]

theorem length_name_le (h : Spells name type) : type.name.length ≤ (canonical name).length := by
  cases h with
  | width zeros hsign hwidth =>
      rw [canonical_width zeros hsign hwidth]
      simp only [ParamType.name, String.length_append]
      omega
  | _ => decide

end ParamType

open ParamType

variable {params : List Param} {types : List ParamType}

theorem Supported.spells (h : Supported params types) :
    List.Forall₂ (fun param type => Spells param.type type) params types := by
  induction params generalizing types with
  | nil =>
      cases types with
      | nil => exact .nil
      | cons type types => cases h
  | cons param params ih =>
      cases types with
      | nil => cases h
      | cons type types =>
          rw [Supported, List.map_cons, List.map_cons, List.cons.injEq] at h
          exact .cons (spells_of_parse h.1) (ih h.2)

theorem names_eq_iff (h : List.Forall₂ (fun param type => Spells param.type type) params types) :
    (params.map fun param => canonical param.type) = types.map ParamType.name ↔
      forall param, param ∈ params -> Plain param.type := by
  induction h with
  | nil => exact ⟨fun _ => nofun, fun _ => rfl⟩
  | cons hspells _ ih =>
      rw [List.map_cons, List.map_cons, List.cons.injEq, canonical_eq_name_iff hspells, ih,
        List.forall_mem_cons]

theorem length_intercalate_le {names others : List String}
    (h : List.Forall₂ (fun name other => other.length ≤ name.length) names others) :
    (String.intercalate "," others).length ≤ (String.intercalate "," names).length := by
  induction h with
  | nil => exact Nat.le_refl _
  | cons hfirst hrest ih =>
      cases hrest with
      | nil =>
          rw [String.intercalate_singleton, String.intercalate_singleton]
          exact hfirst
      | cons _ _ =>
          rw [String.intercalate_cons_cons, String.intercalate_cons_cons]
          simp only [String.length_append]
          omega

theorem append_inj_of_length {first second rest others : String}
    (h : first ++ rest = second ++ others) (hlength : first.length = second.length) :
    first = second ∧ rest = others := by
  have hlists := congrArg String.toList h
  rw [String.toList_append, String.toList_append] at hlists
  rw [← String.length_toList, ← String.length_toList] at hlength
  rcases List.append_inj hlists hlength with ⟨hfirst, hrest⟩
  exact ⟨String.toList_inj.mp hfirst, String.toList_inj.mp hrest⟩

/-- Parts that are no shorter than others make the same text only where they are the same. -/
theorem intercalate_inj {names others : List String}
    (h : List.Forall₂ (fun name other => other.length ≤ name.length) names others) :
    String.intercalate "," names = String.intercalate "," others ↔ names = others := by
  refine ⟨fun heq => ?_, congrArg _⟩
  induction h with
  | nil => rfl
  | cons hfirst hrest ih =>
      cases hrest with
      | nil =>
          rw [String.intercalate_singleton, String.intercalate_singleton] at heq
          rw [heq]
      | cons hnext hlater =>
          rw [String.intercalate_cons_cons, String.intercalate_cons_cons, String.append_assoc,
            String.append_assoc] at heq
          -- The two texts are of one length, so neither their first parts nor what follows can differ
          -- in length.
          have htotal := congrArg String.length heq
          have htails := length_intercalate_le (List.Forall₂.cons hnext hlater)
          simp only [String.length_append] at htotal
          rcases append_inj_of_length heq (by omega) with ⟨rfl, htail⟩
          rw [ih ((String.append_right_inj ",").mp htail)]

/-- The signature of a function of some name whose parameters have some types. -/
def declaration (name : String) (types : List ParamType) : String :=
  name ++ "(" ++ String.intercalate "," (types.map ParamType.name) ++ ")"

theorem signature_eq_declaration_iff {f : Function} (h : Supported f.inputs types) :
    f.signature = declaration f.name types ↔
      forall param, param ∈ f.inputs -> Plain param.type := by
  have hlengths : List.Forall₂ (fun name other => other.length ≤ name.length)
      (f.inputs.map fun param => canonical param.type) (types.map ParamType.name) := by
    rw [List.forall₂_map_left_iff, List.forall₂_map_right_iff]
    exact h.spells.imp fun _ _ => length_name_le
  rw [Function.signature, declaration, String.append_left_inj, String.append_right_inj,
    intercalate_inj hlengths, names_eq_iff h.spells]

/-- A name is read as a type where it spells one, as every plain name does.  It stands in a signature
as the name of its type exactly where it is plain; so a signature names the types of the arguments
exactly where the names of all parameters are plain. -/
theorem type_names_read (name : String) (f : Function) :
    (forall type, ParamType.parse name = .ok type ↔ Spells name type) ∧
    (Plain name -> ∃ type, ParamType.parse name = .ok type) ∧
    (forall type, ParamType.parse name = .ok type ->
      (canonical name = type.name ↔ Plain name)) ∧
    forall types, Supported f.inputs types ->
      (f.signature = declaration f.name types ↔
        forall param, param ∈ f.inputs -> Plain param.type) := by
  refine ⟨fun _ => parse_eq_ok_iff, ?_, ?_, fun _ => signature_eq_declaration_iff⟩
  · intro hplain
    rcases exists_parse_of_plain hplain with ⟨type, hparse, _⟩
    exact ⟨type, hparse⟩
  · intro type hparse
    exact canonical_eq_name_iff (spells_of_parse hparse)

/-- A width with a zero in front is read, and stands in the signature with the zero. -/
theorem padded_width_read :
    ParamType.parse "uint08" = .ok (.uint 8) ∧ ¬ Plain "uint08" ∧
      canonical "uint08" ≠ (ParamType.uint 8).name := by
  have hparse : ParamType.parse "uint08" = .ok (.uint 8) := rfl
  have hname : canonical "uint08" ≠ (ParamType.uint 8).name := by decide
  refine ⟨hparse, ?_, hname⟩
  intro hplain
  exact hname ((canonical_eq_name_iff (spells_of_parse hparse)).mpr hplain)

end Abi
end KeyRegistry
