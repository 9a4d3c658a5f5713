import KeyRegistry.Duration

/-!
# Arithmetic of durations

Durations are compared and cut off as their nanoseconds are.
-/

namespace KeyRegistry
namespace Duration

theorem ofNanos_nanos (d : Duration) : ofNanos d.nanos = d := by
  cases d with
  | mk nanos hle => simp [ofNanos, hle]

theorem nanos_min (a b : Duration) : (min a b).nanos = min a.nanos b.nanos := by
  show (if a.nanos ≤ b.nanos then a else b).nanos = _
  rw [Nat.min_def]
  split
  · rfl
  · rfl

theorem nanos_min_ofNanos (d : Duration) (n : Nat) :
    (min d (ofNanos n)).nanos = min d.nanos n := by
  rw [nanos_min]
  show min d.nanos (min n longest) = min d.nanos n
  rw [Nat.min_comm n, ← Nat.min_assoc, Nat.min_eq_left d.nanos_le]

end Duration
end KeyRegistry
