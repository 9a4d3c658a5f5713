import KeyRegistry.Proofs.Address
import KeyRegistry.Proofs.Numeral
import Mathlib.Data.Nat.Digits.Defs

/-!
# Hexadecimal numbers

Sixteen digits, of either letter case, denote the numbers below sixteen, and a
sequence of digits denotes a number to the base sixteen.  The readers of numerals
and of byte strings accept just these digits, and see no case of a letter.
-/

namespace KeyRegistry
namespace Hex

open Text (utf8Length)

def alphabet : List Char :=
  ['0', '1', '2', '3', '4', '5', '6', '7', '8', '9', 'a', 'b', 'c', 'd', 'e', 'f']

def AreDigits (cs : List Char) : Prop :=
  forall c, c ∈ cs -> c.toLower ∈ alphabet

instance (cs : List Char) : Decidable (AreDigits cs) :=
  inferInstanceAs (Decidable (forall c, c ∈ cs -> c.toLower ∈ alphabet))

/-- The number that digits denote, the first one the most significant. -/
def number (cs : List Char) : Nat :=
  Nat.ofDigits 16 (cs.reverse.map fun c => alphabet.idxOf c.toLower)

/-- Whether a text is a mark with `cs` behind it. -/
def IsMarked (text : String) (cs : List Char) : Prop :=
  text.toList = '0' :: 'x' :: cs ∨ text.toList = '0' :: 'X' :: cs

def SameLetters (s t : String) : Prop :=
  s.toList.map Char.toLower = t.toList.map Char.toLower

/-! ## Single digits -/

variable {c : Char} {cs : List Char} {n : Nat}

theorem of_ascii {p : Char -> Prop} (h : forall k, k < 128 -> p (Char.ofNat k))
    (hc : c.toNat < 128) : p c := by
  have hp := h c.toNat hc
  rwa [Char.ofNat_toNat] at hp

theorem ascii_of_toLower (h : c.toLower.toNat < 128) : c.toNat < 128 := by
  unfold Char.toLower at h
  split at h
  · rename_i hupper
    have hbound : c.toNat ≤ 90 := hupper.2
    omega
  · exact h

theorem ascii_of_digit (h : c.toLower ∈ alphabet) : c.toNat < 128 := by
  have hlower : (alphabet.all fun d => d.toNat < 128) = true := rfl
  exact ascii_of_toLower (of_decide_eq_true (List.all_eq_true.mp hlower _ h))

theorem digitValue?_of_digit (h : c.toLower ∈ alphabet) :
    digitValue? c = some (alphabet.idxOf c.toLower) := by
  revert h
  by_cases hc : c.toNat < 128
  · exact of_ascii (p := fun c => c.toLower ∈ alphabet ->
      digitValue? c = some (alphabet.idxOf c.toLower)) (by decide) hc
  · intro h
    exact absurd (ascii_of_digit h) hc

theorem digitValue?_of_not_digit (h : c.toLower ∉ alphabet) : digitValue? c = none := by
  by_cases hc : c.toNat < 128
  · revert h
    exact of_ascii (p := fun c => c.toLower ∉ alphabet -> digitValue? c = none) (by decide) hc
  · have hbound : forall d : Char, d.toNat < 128 -> ¬ c ≤ d := by
      intro d hd hle
      have hnat : c.toNat ≤ d.toNat := hle
      omega
    unfold digitValue?
    rw [if_neg fun hrange => hbound '9' (by decide) hrange.2,
      if_neg fun hrange => hbound 'f' (by decide) hrange.2,
      if_neg fun hrange => hbound 'F' (by decide) hrange.2]

theorem isDigit_iff : isDigit c = true ↔ c.toLower ∈ alphabet := by
  unfold isDigit
  by_cases h : c.toLower ∈ alphabet
  · rw [digitValue?_of_digit h]
    exact iff_of_true rfl h
  · rw [digitValue?_of_not_digit h]
    exact iff_of_false nofun h

theorem idxOf_lt (h : c.toLower ∈ alphabet) : alphabet.idxOf c.toLower < 16 :=
  List.idxOf_lt_length_of_mem h

theorem eq_zero_of_idxOf (h : alphabet.idxOf c.toLower = 0) : c = '0' := by
  have hdigit : c.toLower ∈ alphabet := by
    apply List.idxOf_lt_length_iff.mp
    rw [h]
    decide
  revert h
  exact of_ascii (p := fun c => alphabet.idxOf c.toLower = 0 -> c = '0') (by decide)
    (ascii_of_digit hdigit)

theorem toLower_toLower (c : Char) : c.toLower.toLower = c.toLower := by
  by_cases hc : c.toNat < 128
  · exact of_ascii (p := fun c => c.toLower.toLower = c.toLower) (by decide) hc
  · have hkept : c.toLower = c := by
      unfold Char.toLower
      apply dif_neg
      intro hupper
      have hbound : c.toNat ≤ 90 := hupper.2
      omega
    rw [hkept, hkept]

/-! ## Numbers -/

theorem areDigits_cons : AreDigits (c :: cs) ↔ c.toLower ∈ alphabet ∧ AreDigits cs :=
  List.forall_mem_cons

theorem number_cons (c : Char) (cs : List Char) :
    number (c :: cs) = alphabet.idxOf c.toLower * 16 ^ cs.length + number cs := by
  unfold number
  rw [List.reverse_cons, List.map_append, List.map_singleton, Nat.ofDigits_append,
    Nat.ofDigits_singleton, List.length_map, List.length_reverse, Nat.mul_comm, Nat.add_comm]

theorem number_lt (h : AreDigits cs) : number cs < 16 ^ cs.length := by
  induction cs with
  | nil => exact Nat.one_pos
  | cons c cs ih =>
      rw [areDigits_cons] at h
      have hdigit := idxOf_lt h.1
      have hrest := ih h.2
      rw [number_cons, List.length_cons, Nat.pow_succ]
      calc
        alphabet.idxOf c.toLower * 16 ^ cs.length + number cs
            < alphabet.idxOf c.toLower * 16 ^ cs.length + 16 ^ cs.length :=
          Nat.add_lt_add_left hrest _
        _ = (alphabet.idxOf c.toLower + 1) * 16 ^ cs.length := (Nat.succ_mul _ _).symm
        _ ≤ 16 * 16 ^ cs.length := Nat.mul_le_mul_right _ hdigit
        _ = 16 ^ cs.length * 16 := Nat.mul_comm _ _

theorem valueFrom?_of_digits (h : AreDigits cs) (acc : Nat) :
    Numeral.valueFrom? digitValue? 16 acc cs = some (acc * 16 ^ cs.length + number cs) := by
  induction cs generalizing acc with
  | nil =>
      rw [Numeral.valueFrom?, List.length_nil, Nat.pow_zero, Nat.mul_one]
      rfl
  | cons c cs ih =>
      rw [areDigits_cons] at h
      rw [Numeral.valueFrom?, digitValue?_of_digit h.1]
      simp only
      rw [ih h.2, number_cons, List.length_cons, Nat.pow_succ, Nat.add_mul]
      congr 1
      rw [Nat.mul_comm 16 acc, Nat.mul_assoc, Nat.mul_comm 16, Nat.add_assoc]

theorem digits_of_valueFrom? {acc : Nat}
    (h : Numeral.valueFrom? digitValue? 16 acc cs = some n) : AreDigits cs := by
  induction cs generalizing acc with
  | nil => exact nofun
  | cons c cs ih =>
      rw [Numeral.valueFrom?] at h
      by_cases hdigit : c.toLower ∈ alphabet
      · rw [digitValue?_of_digit hdigit] at h
        exact areDigits_cons.mpr ⟨hdigit, ih h⟩
      · rw [digitValue?_of_not_digit hdigit] at h
        cases h

theorem hex?_eq_some_iff :
    Numeral.hex? cs = some n ↔ cs ≠ [] ∧ AreDigits cs ∧ number cs = n := by
  unfold Numeral.hex? Numeral.value?
  cases cs with
  | nil => exact ⟨nofun, fun h => absurd rfl h.1⟩
  | cons c cs =>
      rw [List.isEmpty_cons, if_neg Bool.false_ne_true]
      constructor
      · intro h
        have hdigits := digits_of_valueFrom? h
        rw [valueFrom?_of_digits hdigits, Nat.zero_mul, Nat.zero_add] at h
        cases h
        exact ⟨nofun, hdigits, rfl⟩
      · intro h
        rw [valueFrom?_of_digits h.2.1, Nat.zero_mul, Nat.zero_add, h.2.2]

theorem number_zeros (zeros : Nat) (cs : List Char) :
    number (List.replicate zeros '0' ++ cs) = number cs := by
  induction zeros with
  | zero => rfl
  | succ zeros ih =>
      have hzero : alphabet.idxOf '0'.toLower = 0 := by decide
      rw [List.replicate_succ, List.cons_append, number_cons, hzero, Nat.zero_mul, Nat.zero_add, ih]

theorem number_significant (cs : List Char) : number (cs.dropWhile (· = '0')) = number cs := by
  induction cs with
  | nil => rfl
  | cons c cs ih =>
      rw [List.dropWhile_cons]
      split
      · rename_i hzero
        cases of_decide_eq_true hzero
        exact ih.trans (number_zeros 1 cs).symm
      · rfl

theorem areDigits_significant (h : AreDigits cs) : AreDigits (cs.dropWhile (· = '0')) :=
  fun c hc => h c ((List.dropWhile_suffix _).mem hc)

/-- The significant digits of a number are no more than `width` just where `width` digits can
denote it. -/
theorem length_significant_le_iff {width : Nat} (h : AreDigits cs) :
    (cs.dropWhile (· = '0')).length ≤ width ↔ number cs < 16 ^ width := by
  rw [← number_significant]
  have hdigits := areDigits_significant h
  have hfirst := List.head?_dropWhile_not (fun c => decide (c = '0')) cs
  generalize cs.dropWhile (fun c => decide (c = '0')) = ds at hdigits hfirst ⊢
  constructor
  · intro hwidth
    exact Nat.lt_of_lt_of_le (number_lt hdigits) (Nat.pow_le_pow_right (by decide) hwidth)
  · intro hnumber
    cases ds with
    | nil => exact Nat.zero_le width
    | cons c ds =>
        -- The first digit is not zero, so the number has its place or more.
        have hplace : 16 ^ ds.length ≤ number (c :: ds) := by
          have hpositive : 0 < alphabet.idxOf c.toLower := by
            apply Nat.pos_of_ne_zero
            intro hzero
            simp [eq_zero_of_idxOf hzero] at hfirst
          rw [number_cons]
          exact Nat.le_trans (Nat.le_mul_of_pos_left _ hpositive) (Nat.le_add_right _ _)
        exact (Nat.pow_lt_pow_iff_right (by decide)).mp (Nat.lt_of_le_of_lt hplace hnumber)

/-! ## Digits in texts -/

theorem utf8Length_of_forall {cs : List Char} (h : forall c, c ∈ cs -> c.utf8Size = 1) :
    utf8Length cs = cs.length := by
  induction cs with
  | nil => rfl
  | cons c cs ih =>
      have hrest := ih fun c hc => h c (List.mem_cons_of_mem _ hc)
      unfold utf8Length at hrest ⊢
      rw [List.foldr_cons, h c List.mem_cons_self, hrest, List.length_cons]
      exact Nat.add_comm _ _

theorem utf8Length_of_digits (h : AreDigits cs) : utf8Length cs = cs.length := by
  apply utf8Length_of_forall
  intro c hc
  have hascii := ascii_of_digit (h c hc)
  exact of_ascii (p := fun c => c.utf8Size = 1) (by decide) hascii

theorem firstBad?_eq_none_iff (position : Nat) : firstBad? position cs = none ↔ AreDigits cs := by
  induction cs generalizing position with
  | nil => exact iff_of_true rfl fun c hc => absurd hc List.not_mem_nil
  | cons c cs ih =>
      rw [firstBad?, areDigits_cons, ← isDigit_iff]
      by_cases hdigit : isDigit c = true
      · rw [if_pos hdigit, ih, and_iff_right hdigit]
      · rw [if_neg hdigit]
        exact iff_of_false (Option.some_ne_none _) fun h => hdigit h.1

theorem length_bytesOf : forall {cs : List Char}, cs.length % 2 = 0 ->
    cs.length = 2 * (bytesOf cs).length
  | [], _ => rfl
  | [_], h => by cases h
  | _ :: _ :: cs, h => by
      have hrest : cs.length % 2 = 0 := by
        rw [List.length_cons, List.length_cons] at h
        omega
      rw [bytesOf, List.length_cons, List.length_cons, List.length_cons, length_bytesOf hrest,
        Nat.mul_succ]

theorem decode_eq_ok_iff {bs : Bytes} :
    decode cs = .ok bs ↔ AreDigits cs ∧ cs.length = 2 * bs.length ∧ bytesOf cs = bs := by
  unfold decode
  constructor
  · intro h
    split at h
    · cases h
    · rename_i heven
      split at h
      · cases h
      · rename_i hbad
        have hdigits := (firstBad?_eq_none_iff 0).mp hbad
        rw [utf8Length_of_digits hdigits] at heven
        cases h
        exact ⟨hdigits, length_bytesOf (by omega), rfl⟩
  · rintro ⟨hdigits, hlength, rfl⟩
    have heven : ¬ utf8Length cs % 2 = 1 := by
      rw [utf8Length_of_digits hdigits]
      omega
    rw [if_neg heven, (firstBad?_eq_none_iff 0).mpr hdigits]

/-! ## Letter case -/

theorem digitValue?_toLower (c : Char) : digitValue? c.toLower = digitValue? c := by
  by_cases h : c.toLower ∈ alphabet
  · have hlower : c.toLower.toLower ∈ alphabet := by rwa [toLower_toLower]
    rw [digitValue?_of_digit hlower, digitValue?_of_digit h, toLower_toLower]
  · have hlower : c.toLower.toLower ∉ alphabet := by rwa [toLower_toLower]
    rw [digitValue?_of_not_digit hlower, digitValue?_of_not_digit h]

theorem areDigits_toLower : AreDigits (cs.map Char.toLower) ↔ AreDigits cs := by
  simp only [AreDigits, List.forall_mem_map, toLower_toLower]

theorem bytesOf_toLower : forall cs : List Char, bytesOf (cs.map Char.toLower) = bytesOf cs
  | [] => rfl
  | [_] => rfl
  | high :: low :: cs => by
      rw [List.map_cons, List.map_cons, bytesOf, bytesOf, digitValue?_toLower,
        digitValue?_toLower, bytesOf_toLower cs]

theorem decode_toLower {bs : Bytes} :
    decode (cs.map Char.toLower) = .ok bs ↔ decode cs = .ok bs := by
  rw [decode_eq_ok_iff, decode_eq_ok_iff, areDigits_toLower, List.length_map, bytesOf_toLower]

/-! ## Marks -/

theorem dropHexMark?_single (a : Char) : Text.dropHexMark? [a] = none := by
  unfold Text.dropHexMark?
  split <;> simp_all

theorem dropHexMark?_cons (a b : Char) (cs : List Char) :
    Text.dropHexMark? (a :: b :: cs) =
      if a = '0' ∧ (b = 'x' ∨ b = 'X') then some cs else none := by
  unfold Text.dropHexMark?
  split <;> simp_all

theorem dropHexMark?_eq_some_iff {text : String} :
    Text.dropHexMark? text.toList = some cs ↔ IsMarked text cs := by
  unfold IsMarked
  generalize text.toList = ds
  constructor
  · intro h
    unfold Text.dropHexMark? at h
    split at h
    · cases h
      exact .inl rfl
    · cases h
      exact .inr rfl
    · cases h
  · rintro (rfl | rfl)
    · rfl
    · rfl

theorem toLower_eq_zero_iff : c.toLower = '0' ↔ c = '0' := by
  constructor
  · intro h
    apply eq_zero_of_idxOf
    rw [h]
    decide
  · rintro rfl
    decide

theorem toLower_eq_mark_iff : c.toLower = 'x' ∨ c.toLower = 'X' ↔ c = 'x' ∨ c = 'X' := by
  by_cases hc : c.toNat < 128
  · exact of_ascii (p := fun c => c.toLower = 'x' ∨ c.toLower = 'X' ↔ c = 'x' ∨ c = 'X')
      (by decide) hc
  · constructor
    · intro h
      apply absurd (ascii_of_toLower _) hc
      rcases h with h | h
      · rw [h]
        decide
      · rw [h]
        decide
    · rintro (rfl | rfl)
      · exact absurd (by decide) hc
      · exact absurd (by decide) hc

theorem dropHexMark?_toLower : forall cs : List Char,
    Text.dropHexMark? (cs.map Char.toLower) = (Text.dropHexMark? cs).map (List.map Char.toLower)
  | [] => rfl
  | [a] => by
      rw [List.map_singleton, dropHexMark?_single, dropHexMark?_single]
      rfl
  | a :: b :: cs => by
      rw [List.map_cons, List.map_cons, dropHexMark?_cons, dropHexMark?_cons]
      simp only [toLower_eq_zero_iff, toLower_eq_mark_iff]
      split
      · rfl
      · rfl

end Hex
end KeyRegistry
