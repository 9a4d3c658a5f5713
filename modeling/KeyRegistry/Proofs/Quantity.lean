import KeyRegistry.Proofs.Except
import KeyRegistry.Proofs.Hexadecimal

/-!
# Quantities at the limit of their width

A mark and one or more digits denote a number.  A reader of quantities finds that
number where its width can hold it, and an overflow elsewhere, however many zeros
stand in front; nothing is read as a number that it does not denote.
-/

namespace KeyRegistry
namespace Quantity

open Hex (AreDigits IsMarked number)
open Text (hexDigitChar hexNumeral utf8Length)

def IsNumeral (cs : List Char) : Prop :=
  cs ≠ [] ∧ AreDigits cs

/-- Whether a text is a quantity of the number `n`; one plus sign may stand behind its mark. -/
def Denotes (text : String) (n : Nat) : Prop :=
  ∃ sign cs, (sign = [] ∨ sign = ['+']) ∧ IsMarked text (sign ++ cs) ∧ IsNumeral cs ∧
    number cs = n

/-- A codec of the numbers of `bits` bits that reads what a quantity denotes, as far as these
numbers go. -/
structure Exact {α : Type} (bits : Nat) (parse : String -> Except ValueError α)
    (format : α -> String) (toNat : α -> Nat) : Prop where
  read_back : forall a, parse (format a) = .ok a
  leads_without_zero : forall a, ∃ cs, (format a).toList = '0' :: 'x' :: cs ∧ IsNumeral cs ∧
    (cs.head? = some '0' -> cs = ['0'] ∧ toNat a = 0)
  fits : forall text cs, IsMarked text cs -> IsNumeral cs -> number cs < 2 ^ bits ->
    ∃ a, parse text = .ok a ∧ toNat a = number cs
  overflows : forall text cs, IsMarked text cs -> IsNumeral cs -> 2 ^ bits ≤ number cs ->
    parse text = .error (.quantityOverflow text)
  accepted : forall text a, parse text = .ok a -> Denotes text (toNat a)

/-! ## Digits of a number -/

variable {n : Nat} {cs : List Char} {text : String} {width : Nat}

theorem valueFrom?_hexNumeral (n : Nat) :
    Numeral.valueFrom? Hex.digitValue? 16 0 (hexNumeral n) = some n := by
  induction n using Nat.strongRecOn with
  | ind n ih =>
      rw [hexNumeral]
      split
      · rename_i hsmall
        rw [Numeral.valueFrom?, Hex.digitValue?_hexDigitChar n hsmall]
        exact congrArg some (Nat.zero_add n)
      · have hless : n / 16 < n := by omega
        have hlast : n % 16 < 16 := Nat.mod_lt n (by decide)
        rw [Numeral.valueFrom?_append, ih (n / 16) hless, Option.bind_some, Numeral.valueFrom?,
          Hex.digitValue?_hexDigitChar _ hlast]
        exact congrArg some (Nat.div_add_mod n 16)

theorem hexNumeral_ne_nil (n : Nat) : hexNumeral n ≠ [] := by
  rw [hexNumeral]
  split <;> simp

theorem hexNumeral_spec (n : Nat) : IsNumeral (hexNumeral n) ∧ number (hexNumeral n) = n := by
  have hvalue : Numeral.hex? (hexNumeral n) = some n := by
    unfold Numeral.hex? Numeral.value?
    rw [if_neg (mt List.isEmpty_iff.mp (hexNumeral_ne_nil n))]
    exact valueFrom?_hexNumeral n
  rcases Hex.hex?_eq_some_iff.mp hvalue with ⟨hfull, hdigits, hnumber⟩
  exact ⟨⟨hfull, hdigits⟩, hnumber⟩

theorem eq_zero_of_head?_hexNumeral (h : (hexNumeral n).head? = some '0') : n = 0 := by
  induction n using Nat.strongRecOn with
  | ind n ih =>
      rw [hexNumeral] at h
      split at h
      · rename_i hsmall
        have hdigit : forall k, k < 16 -> hexDigitChar k = '0' -> k = 0 := by decide
        exact hdigit n hsmall (Option.some.inj h)
      · rename_i hlarge
        have hfirst : (hexNumeral (n / 16)).head? = some '0' := by
          cases hquotient : hexNumeral (n / 16) with
          | nil => exact absurd hquotient (hexNumeral_ne_nil _)
          | cons c cs =>
              rw [hquotient] at h
              exact h
        have hquotient := ih (n / 16) (by omega) hfirst
        omega

/-! ## Reading -/

theorem digits_of_marked (h : IsMarked text cs) (hfull : cs ≠ []) : digits text = .ok cs := by
  unfold digits
  rw [Hex.dropHexMark?_eq_some_iff.mpr h]
  cases cs with
  | nil => exact absurd rfl hfull
  | cons c cs => rfl

theorem marked_of_digits (h : digits text = .ok cs) : IsMarked text cs := by
  unfold digits at h
  cases hmark : Text.dropHexMark? text.toList with
  | none =>
      rw [hmark] at h
      cases h
  | some ds =>
      rw [hmark] at h
      cases ds with
      | nil => cases h
      | cons d ds =>
          cases h
          exact Hex.dropHexMark?_eq_some_iff.mp hmark

theorem plus_not_mem_of_digits (h : AreDigits cs) : '+' ∉ cs := by
  intro hplus
  exact absurd (h '+' hplus) (by decide)

theorem parse_numeral (hmark : IsMarked text cs) (hnumeral : IsNumeral cs) :
    parse width text =
      if number cs < 16 ^ width then .ok (number cs) else .error (.quantityOverflow text) := by
  have hsignificant := Hex.areDigits_significant hnumeral.2
  have hcount : utf8Length (cs.dropWhile (· = '0')) > width ↔ ¬ number cs < 16 ^ width := by
    rw [Hex.utf8Length_of_digits hsignificant, gt_iff_lt, ← Nat.not_le,
      Hex.length_significant_le_iff hnumeral.2]
  have hvalue : Numeral.hex? (Numeral.dropPlus cs) = some (number cs) := by
    rw [Numeral.dropPlus_of_not_mem (plus_not_mem_of_digits hnumeral.2)]
    exact Hex.hex?_eq_some_iff.mpr ⟨hnumeral.1, hnumeral.2, rfl⟩
  rw [parse, digits_of_marked hmark hnumeral.1]
  by_cases hfits : number cs < 16 ^ width
  · have hfew : ¬ utf8Length (cs.dropWhile (· = '0')) > width :=
      fun hmany => hcount.mp hmany hfits
    simp only [bind, Except.bind, hfew, hvalue, hfits, if_false, if_true]
    rfl
  · have hmany := hcount.mpr hfits
    simp only [bind, Except.bind, hmany, hfits, if_false, if_true]
    rfl

theorem number_lt_of_signed (hcount : ¬ utf8Length (('+' :: cs).dropWhile (· = '0')) > width)
    (hdigits : AreDigits cs) : number cs < 16 ^ width := by
  have hlength : utf8Length (('+' :: cs).dropWhile (· = '0')) = 1 + cs.length := by
    rw [List.dropWhile_cons, if_neg (by decide), ← Hex.utf8Length_of_digits hdigits]
    rfl
  rw [hlength] at hcount
  exact Nat.lt_of_lt_of_le (Hex.number_lt hdigits) (Nat.pow_le_pow_right (by decide) (by omega))

theorem denotes_of_parse (h : parse width text = .ok n) : n < 16 ^ width ∧ Denotes text n := by
  rw [parse] at h
  rcases ok_of_bind h with ⟨cs, hdigits, hrest⟩
  have hmark := marked_of_digits hdigits
  by_cases hcount : utf8Length (cs.dropWhile (· = '0')) > width
  · simp only [hcount, if_true] at hrest
    cases hrest
  · simp only [hcount, if_false] at hrest
    generalize hdrop : Numeral.dropPlus cs = ds at hrest
    cases hvalue : Numeral.hex? ds with
    | none =>
        rw [hvalue] at hrest
        cases hrest
    | some m =>
        rw [hvalue] at hrest
        cases hrest
        rcases Hex.hex?_eq_some_iff.mp hvalue with ⟨hfull, hds, rfl⟩
        rcases Numeral.eq_of_dropPlus hdrop with rfl | rfl
        · rw [Hex.utf8Length_of_digits (Hex.areDigits_significant hds)] at hcount
          constructor
          · exact (Hex.length_significant_le_iff hds).mp (Nat.le_of_not_lt hcount)
          · exact ⟨[], cs, .inl rfl, hmark, ⟨hfull, hds⟩, rfl⟩
        · exact ⟨number_lt_of_signed hcount hds, ['+'], ds, .inr rfl, hmark, ⟨hfull, hds⟩, rfl⟩

theorem parse_format (h : n < 16 ^ width) : parse width (format n) = .ok n := by
  have hmark : IsMarked (format n) (hexNumeral n) := .inl String.toList_ofList
  rw [parse_numeral hmark (hexNumeral_spec n).1, (hexNumeral_spec n).2, if_pos h]

/-! ## Codecs -/

theorem exact_of_width (width : Nat) {α : Type} {bits : Nat} {ofNat : Nat -> α} {toNat : α -> Nat}
    (hbits : 16 ^ width = 2 ^ bits) (hlt : forall a, toNat a < 2 ^ bits)
    (hto : forall n, n < 2 ^ bits -> toNat (ofNat n) = n)
    (hof : forall a, ofNat (toNat a) = a) :
    Exact bits (fun text => (parse width text).map ofNat) (fun a => format (toNat a)) toNat where
  read_back a := by
    have hread : parse width (format (toNat a)) = .ok (toNat a) :=
      parse_format (hbits ▸ hlt a)
    rw [hread]
    exact congrArg Except.ok (hof a)
  leads_without_zero a := by
    refine ⟨hexNumeral (toNat a), String.toList_ofList, (hexNumeral_spec _).1, ?_⟩
    intro hfirst
    have hzero := eq_zero_of_head?_hexNumeral hfirst
    have hdigit : hexNumeral 0 = ['0'] := by
      rw [hexNumeral]
      rfl
    rw [hzero]
    exact ⟨hdigit, rfl⟩
  fits text cs hmark hnumeral hnumber := by
    refine ⟨ofNat (number cs), ?_, hto _ hnumber⟩
    rw [parse_numeral hmark hnumeral, hbits, if_pos hnumber]
    rfl
  overflows text cs hmark hnumeral hnumber := by
    rw [parse_numeral hmark hnumeral, hbits, if_neg (Nat.not_lt.mpr hnumber)]
    rfl
  accepted text a h := by
    cases hread : parse width text with
    | error cause =>
        rw [hread] at h
        cases h
    | ok n =>
        rw [hread] at h
        cases h
        rcases denotes_of_parse hread with ⟨hnumber, hdenotes⟩
        rwa [hto n (hbits ▸ hnumber)]

theorem exact64 : Exact 64 parse64 format64 UInt64.toNat := by
  apply exact_of_width 16
  · decide
  · exact UInt64.toNat_lt
  · intro n hn
    exact UInt64.toNat_ofNat_of_lt hn
  · intro n
    exact UInt64.ofNat_toNat

theorem exact128 : Exact 128 parse128 format128 BitVec.toNat := by
  apply exact_of_width 32
  · decide
  · exact BitVec.isLt
  · intro n hn
    rw [BitVec.toNat_ofNat, Nat.mod_eq_of_lt hn]
  · intro n
    exact BitVec.ofNat_toNat 128 n

/-- Both codecs of quantities are exact up to the limit of their width. -/
theorem quantities_exact :
    Exact 64 parse64 format64 UInt64.toNat ∧ Exact 128 parse128 format128 BitVec.toNat :=
  ⟨exact64, exact128⟩

end Quantity

end KeyRegistry
