import KeyRegistry.Hash
import KeyRegistry.Proofs.Hexadecimal

/-!
# Texts of addresses, hashes and data

An address is a mark and forty digits, and a hash sixty-four digits behind a mark or
none.  No other text is read as one, and the case of the letters makes no difference.
A hash is read back from its text, and a byte string from its data.
-/

namespace KeyRegistry

open Hex (AreDigits IsMarked SameLetters decode)

namespace Address

variable {text other : String} {a : Address}

def IsText (text : String) : Prop :=
  ∃ cs, IsMarked text cs ∧ AreDigits cs ∧ cs.length = 40

theorem ofBytes_eq_ok_iff {bs : Bytes} : ofBytes bs = .ok a ↔ bs = a.bytes := by
  unfold ofBytes
  constructor
  · intro h
    split at h
    · cases h
      rfl
    · cases h
  · rintro rfl
    exact dif_pos a.length_eq

theorem parse_eq_ok_iff :
    parse text = .ok a ↔
      ∃ cs, Text.dropHexMark? text.toList = some cs ∧ decode cs = .ok a.bytes := by
  unfold parse
  cases Text.dropHexMark? text.toList with
  | none => exact ⟨nofun, nofun⟩
  | some cs =>
      simp only [Option.some.injEq, exists_eq_left']
      cases decode cs with
      | error fault => exact ⟨nofun, nofun⟩
      | ok bs =>
          simp only [Except.ok.injEq]
          exact ofBytes_eq_ok_iff

theorem isText_of_parse (h : parse text = .ok a) : IsText text := by
  rcases parse_eq_ok_iff.mp h with ⟨cs, hmark, hdecode⟩
  rcases Hex.decode_eq_ok_iff.mp hdecode with ⟨hdigits, hlength, _⟩
  rw [a.length_eq] at hlength
  exact ⟨cs, Hex.dropHexMark?_eq_some_iff.mp hmark, hdigits, hlength⟩

theorem parse_of_sameLetters (h : SameLetters text other) (hparse : parse text = .ok a) :
    parse other = .ok a := by
  rcases parse_eq_ok_iff.mp hparse with ⟨cs, hmark, hdecode⟩
  have hlower := Hex.dropHexMark?_toLower text.toList
  rw [h, Hex.dropHexMark?_toLower, hmark, Option.map_some] at hlower
  rcases Option.map_eq_some_iff.mp hlower with ⟨ds, hds, hletters⟩
  apply parse_eq_ok_iff.mpr
  exact ⟨ds, hds, Hex.decode_toLower.mp (hletters ▸ Hex.decode_toLower.mpr hdecode)⟩

end Address

namespace Hash

variable {text other : String} {h : Hash}

def IsText (text : String) : Prop :=
  ∃ cs, (IsMarked text cs ∨ text.toList = cs) ∧ AreDigits cs ∧ cs.length = 64

def unmarked (cs : List Char) : List Char :=
  (Text.dropHexMark? cs).getD cs

theorem unmarked_toLower (cs : List Char) :
    unmarked (cs.map Char.toLower) = (unmarked cs).map Char.toLower := by
  unfold unmarked
  rw [Hex.dropHexMark?_toLower]
  cases Text.dropHexMark? cs with
  | none => rfl
  | some ds => rfl

theorem ofBytes_eq_ok_iff {bs : Bytes} : ofBytes bs = .ok h ↔ bs = h.bytes := by
  unfold ofBytes
  constructor
  · intro hok
    split at hok
    · cases hok
      rfl
    · cases hok
  · rintro rfl
    exact dif_pos h.length_eq

theorem parse_eq_ok_iff : parse text = .ok h ↔ decode (unmarked text.toList) = .ok h.bytes := by
  unfold parse unmarked
  simp only
  cases decode ((Text.dropHexMark? text.toList).getD text.toList) with
  | error fault => exact ⟨nofun, nofun⟩
  | ok bs =>
      simp only [Except.ok.injEq]
      exact ofBytes_eq_ok_iff

theorem isText_of_parse (hparse : parse text = .ok h) : IsText text := by
  rcases Hex.decode_eq_ok_iff.mp (parse_eq_ok_iff.mp hparse) with ⟨hdigits, hlength, _⟩
  rw [h.length_eq] at hlength
  refine ⟨unmarked text.toList, ?_, hdigits, hlength⟩
  unfold unmarked
  cases hmark : Text.dropHexMark? text.toList with
  | none => exact .inr rfl
  | some cs => exact .inl (Hex.dropHexMark?_eq_some_iff.mp hmark)

theorem parse_of_sameLetters (hletters : SameLetters text other) (hparse : parse text = .ok h) :
    parse other = .ok h := by
  rw [parse_eq_ok_iff, ← Hex.decode_toLower, ← unmarked_toLower] at hparse ⊢
  rwa [← hletters]

theorem parse_toString (h : Hash) : parse h.toString = .ok h := by
  have hdigits : h.toString.toList = '0' :: 'x' :: Hex.digits h.bytes := by
    simp [toString, hex, Hex.encode]
  rw [parse, hdigits]
  simp only [Text.dropHexMark?, Option.getD_some, Hex.decode_digits]
  exact dif_pos h.length_eq

end Hash

namespace Data

theorem parse_format (bs : Bytes) : parse (format bs) = .ok bs := by
  have hdigits : (format bs).toList = '0' :: 'x' :: Hex.digits bs := by
    simp [format, Hex.encode]
  unfold parse
  rw [hdigits]
  simp only [Text.dropHexMark?, Option.getD_some, Hex.decode_digits]

end Data

end KeyRegistry
