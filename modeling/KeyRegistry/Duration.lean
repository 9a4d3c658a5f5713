import KeyRegistry.Numeral

/-!
# Durations

A span of time is a whole number of nanoseconds below 2^64 seconds.  Its text
uses the largest unit of which it holds one, with as many decimals as it needs.
-/

namespace KeyRegistry

def Duration.longest : Nat := 18_446_744_073_709_551_615_999_999_999

structure Duration where
  nanos : Nat
  nanos_le : nanos ≤ Duration.longest
deriving DecidableEq

namespace Duration

/-- The span of `n` nanoseconds, or the longest one when `n` is beyond it. -/
def ofNanos (n : Nat) : Duration :=
  ⟨min n longest, Nat.min_le_right n longest⟩

instance : Inhabited Duration := ⟨ofNanos 0⟩

def ofMillis (ms : UInt64) : Duration :=
  ofNanos (ms.toNat * 1_000_000)

def ofSecs (secs : UInt64) : Duration :=
  ofNanos (secs.toNat * 1_000_000_000)

def secs (d : Duration) : Nat :=
  d.nanos / 1_000_000_000

def millis (d : Duration) : Nat :=
  d.nanos / 1_000_000

instance : Min Duration := ⟨fun a b => if a.nanos ≤ b.nanos then a else b⟩

def times? (d : Duration) (n : Nat) : Option Duration :=
  if h : d.nanos * n ≤ longest then some ⟨d.nanos * n, h⟩ else none

/-- The decimals of `part` units of which `whole` make one, without zeros at the end. -/
def decimals (places part : Nat) : List Char :=
  let ds := ((Numeral.padded places part).reverse.dropWhile (· = '0')).reverse
  if ds.isEmpty then [] else '.' :: ds

def toString (d : Duration) : String :=
  let render := fun (places : Nat) (unit : String) =>
    String.ofList (Numeral.decimalDigits (d.nanos / Nat.pow 10 places) ++
      decimals places (d.nanos % Nat.pow 10 places)) ++ unit
  if d.nanos ≥ 1_000_000_000 then render 9 "s"
  else if d.nanos ≥ 1_000_000 then render 6 "ms"
  else if d.nanos ≥ 1_000 then render 3 "µs"
  else render 0 "ns"

end Duration
end KeyRegistry
