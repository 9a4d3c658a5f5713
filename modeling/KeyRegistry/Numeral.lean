import KeyRegistry.Hex

/-!
# Numerals

Positional numerals as texts denote them: one or more digits, with a sign where
the reader allows one.  A reader of a bounded number refuses a value above its
bound; it never wraps.
-/

namespace KeyRegistry
namespace Numeral

def decimalValue? (c : Char) : Option Nat :=
  if '0' ≤ c ∧ c ≤ '9' then some (c.toNat - 48) else none

def valueFrom? (digit : Char -> Option Nat) (radix : Nat) : Nat -> List Char -> Option Nat
  | acc, [] => some acc
  | acc, c :: cs =>
      match digit c with
      | none => none
      | some d => valueFrom? digit radix (radix * acc + d) cs

def value? (digit : Char -> Option Nat) (radix : Nat) (cs : List Char) : Option Nat :=
  if cs.isEmpty then none else valueFrom? digit radix 0 cs

def dropPlus : List Char -> List Char
  | '+' :: cs => cs
  | cs => cs

def hex? (cs : List Char) : Option Nat :=
  value? Hex.digitValue? 16 cs

def decimal? (cs : List Char) : Option Nat :=
  value? decimalValue? 10 cs

def unsigned? (bound : Nat) (cs : List Char) : Option Nat :=
  (decimal? (dropPlus cs)).filter (· < bound)

/-- A decimal numeral of either sign whose value lies in the signed range of `bits` bits. -/
def signed? (bits : Nat) (cs : List Char) : Option Int :=
  match cs with
  | '-' :: digits =>
      ((decimal? digits).filter (· ≤ 1 <<< (bits - 1))).map fun n => -(n : Int)
  | cs => (unsigned? (1 <<< (bits - 1)) cs).map fun n => (n : Int)

def decimalDigits (n : Nat) : List Char :=
  Nat.toDigits 10 n

def padded (width n : Nat) : List Char :=
  let ds := decimalDigits n
  List.replicate (width - ds.length) '0' ++ ds

end Numeral
end KeyRegistry
