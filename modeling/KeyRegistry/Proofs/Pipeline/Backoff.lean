import KeyRegistry.Pipeline.Config
import KeyRegistry.Proofs.Duration
import Mathlib.Algebra.Order.Ring.Nat

/-!
# Delays before retries

The delay before a retry is the first delay doubled with every attempt, up to the
cap.  The factor stays below the limit of 32 bits, and a product beyond the longest
duration is beyond every cap; so the delays never get shorter, and they follow the
doubling except where a cap lies above the largest multiple of the first delay.
-/

namespace KeyRegistry
namespace Pipeline
namespace Config

def topFactor : Nat :=
  2 ^ 32 - 1

theorem topFactor_lt (k : Nat) : topFactor < 2 ^ (32 + k) := by
  have hsize : topFactor < 2 ^ 32 := by decide
  exact Nat.lt_of_lt_of_le hsize (Nat.pow_le_pow_right (by decide) (Nat.le_add_right 32 k))

theorem backoffFactor_eq (n : Nat) : backoffFactor n = min (2 ^ (n - 1)) topFactor := by
  unfold backoffFactor
  split
  · rename_i hshift
    have hle : 2 ^ (n - 1) ≤ 2 ^ 31 := Nat.pow_le_pow_right (by decide) (Nat.le_of_lt_succ hshift)
    have htop : 2 ^ 31 ≤ topFactor := by decide
    rw [Nat.one_shiftLeft, Nat.min_eq_left (Nat.le_trans hle htop)]
  · rename_i hshift
    have hlt := topFactor_lt (n - 1 - 32)
    rw [Nat.add_sub_cancel' (Nat.le_of_not_lt hshift)] at hlt
    rw [Nat.min_eq_right (Nat.le_of_lt hlt)]
    rfl

theorem nanos_backoff (config : Config) (n : Nat) :
    (config.backoff n).nanos =
      min (config.retryBackoff.nanos * backoffFactor n) config.maxBackoff.nanos := by
  unfold backoff Duration.times?
  by_cases hfits : config.retryBackoff.nanos * backoffFactor n ≤ Duration.longest
  · rw [dif_pos hfits]
    exact Duration.nanos_min _ _
  · have hcap := Nat.le_trans config.maxBackoff.nanos_le (Nat.le_of_not_le hfits)
    rw [dif_neg hfits, Nat.min_eq_right hcap]

theorem backoffFactor_mono (n : Nat) : backoffFactor n ≤ backoffFactor (n + 1) := by
  have hpow : 2 ^ (n - 1) ≤ 2 ^ (n + 1 - 1) :=
    Nat.pow_le_pow_right (by decide) (Nat.sub_le_sub_right (Nat.le_succ n) 1)
  rw [backoffFactor_eq, backoffFactor_eq]
  exact Nat.le_min.mpr
    ⟨Nat.le_trans (Nat.min_le_left _ _) hpow, Nat.min_le_right _ _⟩

/-- Below a cap, a factor is told from a larger one, unless there is nothing to multiply. -/
theorem min_mul_eq_iff {delay cap small large : Nat} (h : small < large) :
    min (delay * small) cap = min (delay * large) cap ↔ cap ≤ small * delay ∨ delay = 0 := by
  rw [Nat.mul_comm small delay]
  constructor
  · intro heq
    by_cases hcap : cap ≤ delay * small
    · exact .inl hcap
    · apply Or.inr
      have hsmall := Nat.lt_of_not_le hcap
      rw [Nat.min_eq_left (Nat.le_of_lt hsmall)] at heq
      by_contra hpos
      have hlarge : delay * small < delay * large :=
        Nat.mul_lt_mul_of_pos_left h (Nat.pos_of_ne_zero hpos)
      exact Nat.ne_of_lt (Nat.lt_min.mpr ⟨hlarge, hsmall⟩) heq
  · intro hreach
    rcases hreach with hcap | hzero
    · have hlarge : cap ≤ delay * large :=
        Nat.le_trans hcap (Nat.mul_le_mul_left delay (Nat.le_of_lt h))
      rw [Nat.min_eq_right hcap, Nat.min_eq_right hlarge]
    · rw [hzero, Nat.zero_mul, Nat.zero_mul]

theorem nanos_backoff_eq_iff (config : Config) (n : Nat) :
    (config.backoff n).nanos =
        min (config.retryBackoff.nanos * 2 ^ (n - 1)) config.maxBackoff.nanos ↔
      n ≤ 32 ∨ config.maxBackoff.nanos ≤ topFactor * config.retryBackoff.nanos ∨
        config.retryBackoff.nanos = 0 := by
  rw [nanos_backoff, backoffFactor_eq]
  by_cases hn : n ≤ 32
  · have hshift : n - 1 ≤ 31 := Nat.sub_le_sub_right hn 1
    have hle : 2 ^ (n - 1) ≤ topFactor :=
      Nat.le_trans (Nat.pow_le_pow_right (by decide) hshift) (by decide)
    rw [Nat.min_eq_left hle]
    exact iff_of_true rfl (.inl hn)
  · have hlt := topFactor_lt (n - 33)
    have hexponent : 32 + (n - 33) = n - 1 := by omega
    rw [hexponent] at hlt
    rw [Nat.min_eq_right (Nat.le_of_lt hlt), min_mul_eq_iff hlt]
    exact (or_iff_right hn).symm

/-- No delay is longer than the cap or than the delay after it, and a delay is the first one doubled
with every attempt or the cap, just where the factor has 32 bits, or its largest value reaches the
cap, or there is no first delay. -/
theorem backoff_doubles_to_cap (config : Config) (n : Nat) :
    (config.backoff n).nanos ≤ config.maxBackoff.nanos ∧
      (config.backoff n).nanos ≤ (config.backoff (n + 1)).nanos ∧
      ((config.backoff n).nanos =
          min (config.retryBackoff.nanos * 2 ^ (n - 1)) config.maxBackoff.nanos ↔
        n ≤ 32 ∨ config.maxBackoff.nanos ≤ (2 ^ 32 - 1) * config.retryBackoff.nanos ∨
          config.retryBackoff.nanos = 0) := by
  refine ⟨?_, ?_, nanos_backoff_eq_iff config n⟩
  · rw [nanos_backoff]
    exact Nat.min_le_right _ _
  · have hproduct := Nat.mul_le_mul_left config.retryBackoff.nanos (backoffFactor_mono n)
    rw [nanos_backoff, nanos_backoff]
    exact Nat.le_min.mpr
      ⟨Nat.le_trans (Nat.min_le_left _ _) hproduct, Nat.min_le_right _ _⟩

end Config
end Pipeline
end KeyRegistry
