import KeyRegistry.Numeral

/-!
# Spellings of numbers

A decimal numeral denotes a number exactly where it is the digits of the number,
with any count of zeros in front.  A reader of unsigned numbers allows a plus sign
before them.
-/

namespace KeyRegistry
namespace Numeral

theorem decimalValue?_digitChar {d : Nat} (h : d < 10) : decimalValue? (Nat.digitChar d) = some d :=
  (show forall d, d < 10 -> decimalValue? (Nat.digitChar d) = some d by decide) d h

theorem digitChar_of_decimalValue? {c : Char} {d : Nat} (h : decimalValue? c = some d) :
    d < 10 ∧ c = Nat.digitChar d := by
  unfold decimalValue? at h
  split at h
  · rename_i hdigit
    have hlow : 48 ≤ c.toNat := hdigit.1
    have hhigh : c.toNat ≤ 57 := hdigit.2
    cases h
    have hlt : c.toNat - 48 < 10 := by omega
    refine ⟨hlt, Char.toNat_inj.mp ?_⟩
    rw [Nat.toNat_digitChar_of_lt_ten hlt]
    omega
  · cases h

variable {cs : List Char} {n : Nat}

theorem decimalDigits_append {d : Nat} (hpos : 0 < n) (h : d < 10) :
    decimalDigits n ++ [Nat.digitChar d] = decimalDigits (10 * n + d) := by
  have hdigits := Nat.toDigits_append_toDigits (by decide) hpos h
  rw [Nat.toDigits_of_lt_base h] at hdigits
  exact hdigits

theorem valueFrom?_append (digit : Char -> Option Nat) (radix acc : Nat) (xs ys : List Char) :
    valueFrom? digit radix acc (xs ++ ys) =
      (valueFrom? digit radix acc xs).bind fun m => valueFrom? digit radix m ys := by
  induction xs generalizing acc with
  | nil => rfl
  | cons x xs ih =>
      rw [List.cons_append, valueFrom?, valueFrom?]
      cases digit x with
      | none => rfl
      | some d => exact ih (radix * acc + d)

theorem valueFrom?_digits (n : Nat) :
    valueFrom? decimalValue? 10 0 (decimalDigits n) = some n := by
  induction n using Nat.strongRecOn with
  | ind n ih =>
      by_cases hsmall : n < 10
      · rw [decimalDigits, Nat.toDigits_of_lt_base hsmall, valueFrom?,
          decimalValue?_digitChar hsmall]
        exact congrArg some (Nat.zero_add n)
      · have hlast : n % 10 < 10 := Nat.mod_lt n (by decide)
        have hpos : 0 < n / 10 := by omega
        have hless : n / 10 < n := by omega
        rw [← Nat.div_add_mod n 10, ← decimalDigits_append hpos hlast, valueFrom?_append,
          ih (n / 10) hless, Option.bind_some, valueFrom?, decimalValue?_digitChar hlast]
        rfl

theorem valueFrom?_zeros (zeros : Nat) (cs : List Char) :
    valueFrom? decimalValue? 10 0 (List.replicate zeros '0' ++ cs) =
      valueFrom? decimalValue? 10 0 cs := by
  induction zeros with
  | zero => rfl
  | succ zeros ih => exact ih

theorem first_of_valueFrom? {acc : Nat} {c : Char}
    (h : valueFrom? decimalValue? 10 acc (c :: cs) = some n) :
    ∃ d, d < 10 ∧ c = Nat.digitChar d ∧
      valueFrom? decimalValue? 10 (10 * acc + d) cs = some n := by
  rw [valueFrom?] at h
  cases hvalue : decimalValue? c with
  | none =>
      rw [hvalue] at h
      cases h
  | some d =>
      rw [hvalue] at h
      rcases digitChar_of_decimalValue? hvalue with ⟨hlt, hchar⟩
      exact ⟨d, hlt, hchar, h⟩

theorem digits_of_valueFrom? {acc : Nat} (hpos : 0 < acc)
    (h : valueFrom? decimalValue? 10 acc cs = some n) :
    decimalDigits acc ++ cs = decimalDigits n := by
  induction cs generalizing acc with
  | nil =>
      cases h
      exact List.append_nil _
  | cons c cs ih =>
      rcases first_of_valueFrom? h with ⟨d, hlt, rfl, hrest⟩
      have hnext : 0 < 10 * acc + d := by omega
      rw [← ih hnext hrest, ← decimalDigits_append hpos hlt, List.append_assoc]
      rfl

theorem spelling_of_valueFrom? (hcs : cs ≠ []) (h : valueFrom? decimalValue? 10 0 cs = some n) :
    ∃ zeros, cs = List.replicate zeros '0' ++ decimalDigits n := by
  induction cs with
  | nil => exact absurd rfl hcs
  | cons c cs ih =>
      rcases first_of_valueFrom? h with ⟨d, hlt, rfl, hrest⟩
      rw [Nat.mul_zero, Nat.zero_add] at hrest
      -- After a zero the number is still zero; any other digit is the first one of the number.
      rcases Nat.eq_zero_or_pos d with rfl | hpos
      · by_cases hend : cs = []
        · cases hend
          cases hrest
          exact ⟨0, rfl⟩
        · rcases ih hend hrest with ⟨zeros, rfl⟩
          exact ⟨zeros + 1, rfl⟩
      · have hdigits := digits_of_valueFrom? hpos hrest
        rw [decimalDigits, Nat.toDigits_of_lt_base hlt] at hdigits
        exact ⟨0, hdigits⟩

theorem decimal?_eq_some_iff :
    decimal? cs = some n ↔ ∃ zeros, cs = List.replicate zeros '0' ++ decimalDigits n := by
  have hdigits : decimalDigits n ≠ [] := Nat.toDigits_ne_nil
  unfold decimal? value?
  constructor
  · intro h
    split at h
    · cases h
    · rename_i hcs
      exact spelling_of_valueFrom? (fun hnil => hcs (List.isEmpty_iff.mpr hnil)) h
  · rintro ⟨zeros, rfl⟩
    have hcs : List.replicate zeros '0' ++ decimalDigits n ≠ [] := by simp [hdigits]
    rw [if_neg (fun hempty => hcs (List.isEmpty_iff.mp hempty)), valueFrom?_zeros]
    exact valueFrom?_digits n

/-! ## Signs -/

theorem plus_not_mem_spelling (zeros : Nat) :
    '+' ∉ List.replicate zeros '0' ++ decimalDigits n := by
  intro h
  rcases List.mem_append.mp h with hzero | hdigit
  · cases List.eq_of_mem_replicate hzero
  · exact absurd (Nat.isDigit_of_mem_toDigits (by decide) (by decide) hdigit) (by decide)

theorem dropPlus_of_not_mem (h : '+' ∉ cs) : dropPlus cs = cs := by
  unfold dropPlus
  split
  · exact absurd List.mem_cons_self h
  · rfl

theorem eq_of_dropPlus {ds : List Char} (h : dropPlus cs = ds) : cs = ds ∨ cs = '+' :: ds := by
  unfold dropPlus at h
  split at h
  · exact .inr (congrArg ('+' :: ·) h)
  · exact .inl h

/-- An unsigned numeral is one of a number below the bound, after a plus sign or none. -/
theorem unsigned?_eq_some_iff {bound : Nat} :
    unsigned? bound cs = some n ↔
      n < bound ∧ ∃ sign zeros, (sign = [] ∨ sign = ['+']) ∧
        cs = sign ++ List.replicate zeros '0' ++ decimalDigits n := by
  rw [unsigned?, Option.filter_eq_some_iff, decide_eq_true_eq, decimal?_eq_some_iff, and_comm]
  refine and_congr_right fun _ => ?_
  constructor
  · rintro ⟨zeros, h⟩
    rcases eq_of_dropPlus h with rfl | rfl
    · exact ⟨[], zeros, .inl rfl, rfl⟩
    · exact ⟨['+'], zeros, .inr rfl, rfl⟩
  · rintro ⟨sign, zeros, rfl | rfl, rfl⟩
    · exact ⟨zeros, dropPlus_of_not_mem (plus_not_mem_spelling zeros)⟩
    · exact ⟨zeros, rfl⟩

end Numeral
end KeyRegistry
