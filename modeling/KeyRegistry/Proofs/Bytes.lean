import KeyRegistry.Bytes

/-!
# Numbers and regions in byte strings

A number that its width can hold is read back from its bytes.  A region of a
byte string is described by the bytes that stand in it, so that what is read from
the region does not depend on what stands around it.
-/

namespace KeyRegistry
namespace Bytes

/-! ## Numbers -/

def capacity : Nat -> Nat
  | 0 => 1
  | width + 1 => 256 * capacity width

theorem toNatBE_append_singleton (bs : Bytes) (b : UInt8) :
    toNatBE (bs ++ [b]) = 256 * toNatBE bs + b.toNat := by
  simp [toNatBE]

theorem toNatBE_ofNatBE (width n : Nat) : toNatBE (ofNatBE width n) = n % capacity width := by
  induction width generalizing n with
  | zero => simp [ofNatBE, toNatBE, capacity, Nat.mod_one]
  | succ width ih =>
      have hdigit : (UInt8.ofNat n).toNat = n % 256 := UInt8.toNat_ofNat'
      rw [ofNatBE, toNatBE_append_singleton, ih, hdigit, capacity, Nat.mod_mul]
      exact Nat.add_comm _ _

theorem toNatBE_ofNatBE_of_lt {width n : Nat} (h : n < capacity width) :
    toNatBE (ofNatBE width n) = n := by
  rw [toNatBE_ofNatBE, Nat.mod_eq_of_lt h]

theorem ofNatBE_zero (width : Nat) : ofNatBE width 0 = List.replicate width 0 := by
  induction width with
  | zero => rfl
  | succ width ih =>
      rw [ofNatBE, Nat.zero_div, ih, List.replicate_succ']
      rfl

theorem ofNatBE_add (high low n : Nat) :
    ofNatBE (high + low) n = ofNatBE high (n / capacity low) ++ ofNatBE low n := by
  induction low generalizing n with
  | zero => simp [ofNatBE, capacity]
  | succ low ih =>
      rw [← Nat.add_assoc, ofNatBE, ofNatBE, ih, Nat.div_div_eq_div_mul, capacity,
        List.append_assoc]

theorem ofNatBE_add_of_lt {low n : Nat} (high : Nat) (h : n < capacity low) :
    ofNatBE (high + low) n = List.replicate high 0 ++ ofNatBE low n := by
  rw [ofNatBE_add, Nat.div_eq_of_lt h, ofNatBE_zero]

theorem toNatBE_zeros_append (count : Nat) (bs : Bytes) :
    toNatBE (List.replicate count 0 ++ bs) = toNatBE bs := by
  induction count with
  | zero => rfl
  | succ count ih => exact ih

theorem foldl_digits_lt (bs : Bytes) (acc : Nat) :
    bs.foldl (fun acc b => 256 * acc + b.toNat) acc < (acc + 1) * capacity bs.length := by
  induction bs generalizing acc with
  | nil => simp [capacity]
  | cons b bs ih =>
      have hdigit : 256 * acc + b.toNat + 1 ≤ 256 * (acc + 1) := by
        have := b.toNat_lt
        omega
      have hrest := ih (256 * acc + b.toNat)
      have hscaled := Nat.mul_le_mul_right (capacity bs.length) hdigit
      rw [List.length_cons, capacity, Nat.mul_left_comm, ← Nat.mul_assoc]
      exact Nat.lt_of_lt_of_le hrest hscaled

theorem toNatBE_lt (bs : Bytes) : toNatBE bs < capacity bs.length := by
  have h := foldl_digits_lt bs 0
  rwa [Nat.zero_add, Nat.one_mul] at h

theorem foldl_digits_eq (bs : Bytes) (acc : Nat) :
    bs.foldl (fun acc b => 256 * acc + b.toNat) acc = acc * capacity bs.length + toNatBE bs := by
  induction bs generalizing acc with
  | nil => simp [capacity, toNatBE]
  | cons b bs ih =>
      rw [toNatBE, List.foldl_cons, List.foldl_cons, ih, ih, List.length_cons, capacity,
        Nat.mul_zero, Nat.zero_add, Nat.add_mul, Nat.add_assoc, Nat.mul_comm 256 acc,
        Nat.mul_assoc]

theorem toNatBE_append (high low : Bytes) :
    toNatBE (high ++ low) = toNatBE high * capacity low.length + toNatBE low := by
  rw [toNatBE, List.foldl_append, foldl_digits_eq]
  rfl

theorem capacity_pos (width : Nat) : 0 < capacity width := by
  induction width with
  | zero => exact Nat.one_pos
  | succ width ih => exact Nat.mul_pos (by decide) ih

theorem any_ne_zero_iff (bs : Bytes) : bs.any (· ≠ 0) = true ↔ 0 < toNatBE bs := by
  induction bs with
  | nil => exact ⟨nofun, nofun⟩
  | cons b bs ih =>
      have hsplit : toNatBE (b :: bs) = b.toNat * capacity bs.length + toNatBE bs := by
        rw [← List.singleton_append, toNatBE_append]
        simp [toNatBE]
      have hpos := capacity_pos bs.length
      rw [List.any_cons, Bool.or_eq_true, ih, hsplit]
      by_cases hb : b = 0
      · simp [hb]
      · have hnat : 0 < b.toNat := Nat.pos_of_ne_zero fun h => hb (UInt8.toNat_inj.mp h)
        have hscaled := Nat.mul_pos hnat hpos
        simp [hb]
        omega

/-! ## Regions -/

def StandsAt (data : Bytes) (offset : Nat) (part : Bytes) : Prop :=
  ∃ before after, data = before ++ (part ++ after) ∧ before.length = offset

variable {data part rest : Bytes} {offset : Nat}

theorem standsAt_start (part rest : Bytes) : StandsAt (part ++ rest) 0 part :=
  ⟨[], rest, rfl, rfl⟩

theorem StandsAt.left (h : StandsAt data offset (part ++ rest)) : StandsAt data offset part := by
  rcases h with ⟨before, after, rfl, hlength⟩
  exact ⟨before, rest ++ after, by simp, hlength⟩

theorem StandsAt.right (h : StandsAt data offset (part ++ rest)) :
    StandsAt data (offset + part.length) rest := by
  rcases h with ⟨before, after, rfl, rfl⟩
  exact ⟨before ++ part, after, by simp, by simp⟩

theorem StandsAt.prepend (h : StandsAt data offset part) (front : Bytes) :
    StandsAt (front ++ data) (front.length + offset) part := by
  rcases h with ⟨before, after, rfl, rfl⟩
  exact ⟨front ++ before, after, by simp, by simp⟩

theorem StandsAt.le_length (h : StandsAt data offset part) :
    offset + part.length ≤ data.length := by
  rcases h with ⟨before, after, rfl, rfl⟩
  simp only [List.length_append]
  omega

theorem StandsAt.take_drop (h : StandsAt data offset part) :
    (data.drop offset).take part.length = part := by
  rcases h with ⟨before, after, rfl, rfl⟩
  rw [List.drop_left, List.take_left]

end Bytes
end KeyRegistry
