import KeyRegistry.Proofs.Artifact.Loads

/-!
# The text of a key

The last colon of a text separates the source from the contract.  So a text that is
accepted is the text of its key, a key whose contract holds no colon is read back
from its text, and a text that names a key names the entry that the key loads.
-/

namespace KeyRegistry

namespace Text

variable {c : Char} {cs before after : List Char}

theorem cutLast?_eq_none_iff : cutLast? c cs = none ↔ c ∉ cs := by
  induction cs with
  | nil => exact iff_of_true rfl nofun
  | cons x xs ih =>
      rw [cutLast?, List.mem_cons, not_or, ← ih]
      cases cutLast? c xs with
      | some sides => exact iff_of_false nofun fun h => absurd h.2 nofun
      | none =>
          by_cases hx : x = c
          · simp [hx]
          · simp [hx, Ne.symm hx]

theorem cutLast?_append (before : List Char) (h : c ∉ after) :
    cutLast? c (before ++ c :: after) = some (before, after) := by
  induction before with
  | nil =>
      rw [List.nil_append, cutLast?, cutLast?_eq_none_iff.mpr h]
      exact if_pos rfl
  | cons x before ih => rw [List.cons_append, cutLast?, ih]

theorem sides_of_cutLast? (h : cutLast? c cs = some (before, after)) :
    cs = before ++ c :: after ∧ c ∉ after := by
  induction cs generalizing before with
  | nil => cases h
  | cons x xs ih =>
      rw [cutLast?] at h
      cases hrest : cutLast? c xs with
      | some sides =>
          rw [hrest] at h
          cases h
          rcases ih hrest with ⟨rfl, hafter⟩
          exact ⟨rfl, hafter⟩
      | none =>
          simp only [hrest] at h
          split at h
          · rename_i hx
            cases h
            cases hx
            exact ⟨rfl, cutLast?_eq_none_iff.mp hrest⟩
          · cases h

end Text

namespace Artifact
namespace Key

variable {text : String} {key : Key}

structure IsPlain (key : Key) : Prop where
  source_ne : key.source ≠ ""
  contract_ne : key.contract ≠ ""
  no_colon : ':' ∉ key.contract.toList

theorem toList_toString (key : Key) :
    key.toString.toList = key.source.toList ++ ':' :: key.contract.toList := by
  simp [toString]

theorem isEmpty_toList_iff {s : String} : s.toList.isEmpty = true ↔ s = "" := by
  rw [List.isEmpty_iff, String.toList_eq_nil_iff]

theorem parse?_eq_some_iff : parse? text = some key ↔ key.IsPlain ∧ key.toString = text := by
  unfold parse?
  constructor
  · intro h
    cases hcut : Text.cutLast? ':' text.toList with
    | none =>
        rw [hcut] at h
        cases h
    | some sides =>
        simp only [hcut] at h
        split at h
        · cases h
        · rename_i hfull
          rw [not_or] at hfull
          rcases Text.sides_of_cutLast? hcut with ⟨htext, hcolon⟩
          cases h
          constructor
          · constructor
            case source_ne =>
              intro hempty
              apply hfull.1
              rwa [← isEmpty_toList_iff, String.toList_ofList] at hempty
            case contract_ne =>
              intro hempty
              apply hfull.2
              rwa [← isEmpty_toList_iff, String.toList_ofList] at hempty
            case no_colon => rwa [String.toList_ofList]
          · apply String.toList_inj.mp
            rw [toList_toString, String.toList_ofList, String.toList_ofList, htext]
  · rintro ⟨hplain, rfl⟩
    have hfull : ¬ (key.source.toList.isEmpty = true ∨ key.contract.toList.isEmpty = true) := by
      rw [isEmpty_toList_iff, isEmpty_toList_iff, not_or]
      exact ⟨hplain.source_ne, hplain.contract_ne⟩
    rw [toList_toString, Text.cutLast?_append _ hplain.no_colon]
    simp only [if_neg hfull, String.ofList_toList]

theorem parse_eq_ok_iff : parse text = .ok key ↔ key.IsPlain ∧ key.toString = text := by
  rw [← parse?_eq_some_iff]
  unfold parse
  cases parse? text with
  | none => exact ⟨nofun, nofun⟩
  | some parsed =>
      constructor
      · intro h
        cases h
        rfl
      · intro h
        cases h
        rfl

end Key

/-! ## The entry of a text -/

namespace Store

variable {fresh store : Store} {key : Key} {text : String}

/-- What a load finds of the entry of a name, if there is one. -/
structure FindsEntry (fresh : Store) (name : String) (key : Key)
    (found : Except Error Contract) : Prop where
  entry : forall entry, (name, entry) ∈ fresh.contracts ->
    found = (parseEntry key entry).mapError (.malformed name)
  no_entry : (forall entry, (name, entry) ∉ fresh.contracts) -> found = .error (.notFound name)

theorem findsEntry_find (hnames : (fresh.contracts.map Prod.fst).Nodup)
    (htext : key.toString = text) : FindsEntry fresh text key (fresh.find key) := by
  unfold find
  rw [htext]
  cases hfind : fresh.contracts.find? fun entry => entry.1 = text with
  | none =>
      rw [List.find?_eq_none] at hfind
      constructor
      case entry =>
        intro entry hmem
        exact absurd (decide_eq_true rfl) (hfind (text, entry) hmem)
      case no_entry => exact fun _ => rfl
  | some found =>
      rcases found with ⟨name, found⟩
      have hmem := List.mem_of_find?_eq_some hfind
      have hname := List.find?_some hfind
      rw [decide_eq_true_eq] at hname
      cases hname
      constructor
      case entry =>
        intro entry hentry
        have hsame := List.inj_on_of_nodup_map hnames hmem hentry rfl
        have hvalue : found = entry := congrArg Prod.snd hsame
        rw [hvalue]
        cases hparse : parseEntry key entry with
        | ok contract =>
            simp only [hparse]
            rfl
        | error defect =>
            simp only [hparse]
            rfl
      case no_entry =>
        intro hnone
        exact absurd hmem (hnone found)

end Store

/-- A text is accepted just where both sides of its last colon are not empty, and is then the text
of its key.  A key that can be told from its text is read back from it, and loads the entry of that
name, whatever has been loaded before. -/
theorem key_texts_exact :
    (forall text, (∃ key, Key.parse text = .ok key) ↔
      ∃ source contract, text = source ++ ":" ++ contract ∧ ':' ∉ contract.toList ∧
        source ≠ "" ∧ contract ≠ "") ∧
    (forall text key, Key.parse text = .ok key -> key.toString = text) ∧
    (forall key : Key, key.source ≠ "" -> key.contract ≠ "" -> ':' ∉ key.contract.toList ->
      Key.parse key.toString = .ok key) ∧
    (forall text text' key, Key.parse text = .ok key -> Key.parse text' = .ok key ->
      text = text') ∧
    (forall document fresh keys text key, Store.ofText document = .ok fresh ->
      Key.parse text = .ok key ->
      Store.FindsEntry fresh text key
        (Store.Answer.found (key, ((fresh.loads keys).2.load key).1))) := by
  refine ⟨?_, ?_, ?_, ?_, ?_⟩
  · intro text
    constructor
    · rintro ⟨key, h⟩
      rcases Key.parse_eq_ok_iff.mp h with ⟨hplain, rfl⟩
      exact ⟨key.source, key.contract, rfl, hplain.no_colon, hplain.source_ne,
        hplain.contract_ne⟩
    · rintro ⟨source, contract, rfl, hcolon, hsource, hcontract⟩
      exact ⟨⟨source, contract⟩, Key.parse_eq_ok_iff.mpr ⟨⟨hsource, hcontract, hcolon⟩, rfl⟩⟩
  · intro text key h
    exact (Key.parse_eq_ok_iff.mp h).2
  · intro key hsource hcontract hcolon
    exact Key.parse_eq_ok_iff.mpr ⟨⟨hsource, hcontract, hcolon⟩, rfl⟩
  · intro text text' key h h'
    exact (Key.parse_eq_ok_iff.mp h).2.symm.trans (Key.parse_eq_ok_iff.mp h').2
  · intro document fresh keys text key hdocument h
    rcases Store.fresh_of_ofText hdocument with ⟨hempty, entries, hcontracts⟩
    have hcoherent := (Store.coherent_fresh hempty).loads keys
    rw [hcoherent.found_load key]
    apply Store.findsEntry_find _ (Key.parse_eq_ok_iff.mp h).2
    rw [hcontracts]
    exact Json.nodup_collect entries

end Artifact
end KeyRegistry
