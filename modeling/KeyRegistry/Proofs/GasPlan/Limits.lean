import KeyRegistry.GasPlan
import Mathlib.Algebra.Order.Floor.Div

/-!
# Limits with a margin

The margin is a share of the limit in per cent.  Rounding up the share rounds up the
whole, because the limit itself is a whole number; only a result beyond 64 bits is cut.
On words of 128 bits the same steps never overflow: a product of words of 64 and 32 bits
has 96, and what is added to it afterwards stays far below 128.
-/

namespace KeyRegistry
namespace GasPlan

/-! ## On natural numbers -/

/-- A limit with its margin in per cent, rounded up to a whole number. -/
def exactLimit (limit percent : Nat) : Nat :=
  (limit * (100 + percent)) ⌈/⌉ 100

theorem exactLimit_eq (limit percent : Nat) :
    exactLimit limit percent = limit + (limit * percent + 99) / 100 := by
  have hwhole : limit * (100 + percent) + 100 - 1 = limit * percent + 99 + 100 * limit := by
    rw [Nat.mul_add, Nat.mul_comm limit 100]
    omega
  rw [exactLimit, Nat.ceilDiv_eq_add_pred_div, hwhole, Nat.add_mul_div_left _ _ (by decide),
    Nat.add_comm]

theorem toNat_limitWithMargin (limit : UInt64) (percent : UInt32) :
    (limitWithMargin limit percent).toNat =
      min (exactLimit limit.toNat percent.toNat) (2 ^ 64 - 1) := by
  rw [exactLimit_eq]
  exact UInt64.toNat_ofNat_of_lt' (Nat.lt_of_le_of_lt (Nat.min_le_right _ _) (by decide))

theorem le_limitWithMargin (limit : UInt64) (percent : UInt32) :
    limit ≤ limitWithMargin limit percent := by
  rw [UInt64.le_iff_toNat_le, toNat_limitWithMargin, exactLimit_eq]
  exact Nat.le_min.mpr ⟨Nat.le_add_right _ _, Nat.le_sub_one_of_lt limit.toNat_lt⟩

theorem limitWithMargin_mono {limit limit' : UInt64} {percent percent' : UInt32}
    (hlimit : limit ≤ limit') (hpercent : percent ≤ percent') :
    limitWithMargin limit percent ≤ limitWithMargin limit' percent' := by
  rw [UInt64.le_iff_toNat_le] at *
  rw [UInt32.le_iff_toNat_le] at hpercent
  rw [toNat_limitWithMargin, toNat_limitWithMargin, exactLimit_eq, exactLimit_eq]
  have hproduct := Nat.mul_le_mul hlimit hpercent
  have hextra := Nat.div_le_div_right (c := 100) (Nat.add_le_add_right hproduct 99)
  exact min_le_min_right _ (Nat.add_le_add hlimit hextra)

/-! ## On words of 128 bits -/

def product? (a b : BitVec 128) : Option (BitVec 128) :=
  if a.umulOverflow b then none else some (a * b)

def sum? (a b : BitVec 128) : Option (BitVec 128) :=
  if a.uaddOverflow b then none else some (a + b)

/-- The quotient rounded up: where something is left over, one is added. -/
def ceilQuotient? (a b : BitVec 128) : Option (BitVec 128) :=
  if a % b = 0 then some (a / b) else sum? (a / b) 1

/-- The limit with its margin, computed on words.  Nothing comes out where a step overflows, and
the last step keeps the low 64 bits. -/
def wideLimit? (limit : UInt64) (percent : UInt32) : Option UInt64 := do
  let wide := limit.toBitVec.setWidth 128
  let product <- product? wide (percent.toBitVec.setWidth 128)
  let extra <- ceilQuotient? product 100
  let sum <- sum? wide extra
  let largest : BitVec 128 := 0xffff_ffff_ffff_ffff
  let cut := if sum ≤ largest then sum else largest
  return UInt64.ofBitVec (cut.setWidth 64)

section

variable {a b : BitVec 128}

theorem product?_of_lt (h : a.toNat * b.toNat < 2 ^ 128) : product? a b = some (a * b) := by
  rw [product?, BitVec.umulOverflow, decide_eq_false (Nat.not_le_of_lt h)]
  rfl

theorem sum?_of_lt (h : a.toNat + b.toNat < 2 ^ 128) : sum? a b = some (a + b) := by
  rw [sum?, BitVec.uaddOverflow, decide_eq_false (Nat.not_le_of_lt h)]
  rfl

theorem ceilDiv_of_mod_eq_zero {n d : Nat} (hd : 0 < d) (h : n % d = 0) : n ⌈/⌉ d = n / d := by
  have hn : n + d - 1 = d - 1 + d * (n / d) := by
    have hsplit := Nat.div_add_mod n d
    omega
  rw [Nat.ceilDiv_eq_add_pred_div, hn, Nat.add_mul_div_left _ _ hd,
    Nat.div_eq_of_lt (Nat.sub_one_lt_of_lt hd), Nat.zero_add]

theorem ceilDiv_of_mod_ne_zero {n d : Nat} (hd : 0 < d) (h : n % d ≠ 0) :
    n ⌈/⌉ d = n / d + 1 := by
  have hrest : n % d - 1 < d := Nat.lt_of_le_of_lt (Nat.sub_le _ _) (Nat.mod_lt n hd)
  have hn : n + d - 1 = n % d - 1 + d * (n / d + 1) := by
    have hsplit := Nat.div_add_mod n d
    rw [Nat.mul_add]
    omega
  rw [Nat.ceilDiv_eq_add_pred_div, hn, Nat.add_mul_div_left _ _ hd, Nat.div_eq_of_lt hrest,
    Nat.zero_add]

theorem exists_ceilQuotient (hb : 1 < b.toNat) :
    ∃ q, ceilQuotient? a b = some q ∧ q.toNat = a.toNat ⌈/⌉ b.toNat := by
  have hpos : 0 < b.toNat := Nat.lt_trans Nat.zero_lt_one hb
  have hzero : a % b = 0 ↔ a.toNat % b.toNat = 0 := by
    rw [← BitVec.toNat_inj, BitVec.toNat_umod]
    rfl
  unfold ceilQuotient?
  by_cases hexact : a % b = 0
  · rw [if_pos hexact, ceilDiv_of_mod_eq_zero hpos (hzero.mp hexact)]
    exact ⟨a / b, rfl, BitVec.toNat_udiv⟩
  · have hhalf : a.toNat / b.toNat * 2 ≤ a.toNat :=
      Nat.le_trans (Nat.mul_le_mul_left _ hb) (Nat.div_mul_le_self _ _)
    have hroom : (a / b).toNat + (1 : BitVec 128).toNat < 2 ^ 128 := by
      have ha := a.isLt
      rw [BitVec.toNat_udiv, show (1 : BitVec 128).toNat = 1 from rfl]
      omega
    rw [if_neg hexact, sum?_of_lt hroom, ceilDiv_of_mod_ne_zero hpos (mt hzero.mpr hexact)]
    exact ⟨a / b + 1, rfl, (BitVec.toNat_add_of_lt hroom).trans (by rw [BitVec.toNat_udiv]; rfl)⟩

theorem toNat_narrowed (h : a.toNat < 2 ^ 64) :
    (UInt64.ofBitVec (a.setWidth 64)).toNat = a.toNat := by
  show (a.setWidth 64).toNat = a.toNat
  rw [BitVec.toNat_setWidth, Nat.mod_eq_of_lt h]

end

theorem wideLimit?_eq (limit : UInt64) (percent : UInt32) :
    wideLimit? limit percent = some (limitWithMargin limit percent) := by
  have hlimit := limit.toNat_lt
  have hpercent := percent.toNat_lt
  have hwide : (limit.toBitVec.setWidth 128).toNat = limit.toNat :=
    BitVec.toNat_setWidth_of_le (by decide)
  have hshare : (percent.toBitVec.setWidth 128).toNat = percent.toNat :=
    BitVec.toNat_setWidth_of_le (by decide)
  have hbits : limit.toNat * percent.toNat < 2 ^ 64 * 2 ^ 32 := Nat.mul_lt_mul'' hlimit hpercent
  have hproduct : (limit.toBitVec.setWidth 128).toNat * (percent.toBitVec.setWidth 128).toNat <
      2 ^ 128 := by
    rw [hwide, hshare]
    exact Nat.lt_trans hbits (by decide)
  rcases exists_ceilQuotient (a := limit.toBitVec.setWidth 128 * percent.toBitVec.setWidth 128)
    (b := 100) (by decide) with ⟨extra, hextra, hquotient⟩
  have hshared : extra.toNat = (limit.toNat * percent.toNat + 99) / 100 := by
    rw [hquotient, BitVec.toNat_mul_of_lt hproduct, hwide, hshare]
    rfl
  have hroom : (limit.toBitVec.setWidth 128).toNat + extra.toNat < 2 ^ 128 := by
    rw [hwide, hshared]
    omega
  have hsum : (limit.toBitVec.setWidth 128 + extra).toNat =
      exactLimit limit.toNat percent.toNat := by
    rw [BitVec.toNat_add_of_lt hroom, hwide, hshared, exactLimit_eq]
  simp only [wideLimit?, product?_of_lt hproduct, hextra, sum?_of_lt hroom, Option.bind_eq_bind,
    Option.bind_some, Option.pure_def]
  congr 1
  rw [← UInt64.toNat_inj, toNat_limitWithMargin, ← hsum]
  split
  · rename_i hfits
    have hle : (limit.toBitVec.setWidth 128 + extra).toNat ≤ 2 ^ 64 - 1 := hfits
    rw [toNat_narrowed (Nat.lt_of_le_sub_one (by decide) hle), Nat.min_eq_left hle]
  · rename_i hbeyond
    have hle : 2 ^ 64 - 1 ≤ (limit.toBitVec.setWidth 128 + extra).toNat :=
      Nat.le_of_lt (Nat.lt_of_not_le hbeyond)
    rw [Nat.min_eq_right hle]
    rfl

end GasPlan
end KeyRegistry
