/-!
# Binary floating-point values

A finite non-negative value of the 64-bit binary format is `mantissa * 2 ^ exponent`
with a mantissa below 2^53 and an exponent between -1074 and 971.  Rounding takes
an exact quotient to the nearest value, and an exact tie to the value with the even
mantissa.
-/

namespace KeyRegistry

structure Binary64 where
  mantissa : Nat
  exponent : Int
deriving DecidableEq, Repr, Inhabited

namespace Binary64

def zero : Binary64 := ⟨0, 0⟩

def ratio (x : Binary64) : Nat × Nat :=
  if x.exponent < 0 then
    (x.mantissa, 1 <<< x.exponent.natAbs)
  else
    (x.mantissa <<< x.exponent.natAbs, 1)

/-- The integer nearest to a quotient; a tie goes to the even one. -/
def roundQuotient (n d : Nat) : Nat :=
  let q := n / d
  let twice := 2 * (n % d)
  if twice < d then q
  else if d < twice then q + 1
  else if q % 2 = 0 then q else q + 1

/-- The quotient `n / d` divided by `2 ^ e`, as a numerator and a denominator. -/
def shifted (n d : Nat) (e : Int) : Nat × Nat :=
  if e < 0 then (n <<< e.natAbs, d) else (n, d <<< e.natAbs)

/-- Whether a quotient has a mantissa of at most 53 bits at an exponent. -/
def fits (n d : Nat) (e : Int) : Bool :=
  let q := shifted n d e
  q.1 < q.2 <<< 53

def exponentFor (n d : Nat) : Int :=
  let estimate : Int := Int.ofNat n.log2 - Int.ofNat d.log2 - 52
  let e : Int :=
    if fits n d (estimate - 1) then estimate - 1
    else if fits n d estimate then estimate
    else estimate + 1
  max e (-1074)

/-- The value nearest to the quotient `n / d`, or nothing when it is beyond the largest one. -/
def ofRatio (n d : Nat) : Option Binary64 :=
  if n = 0 then
    some zero
  else
    let e := exponentFor n d
    let q := shifted n d e
    let m := roundQuotient q.1 q.2
    let value : Binary64 := if m = 1 <<< 53 then ⟨1 <<< 52, e + 1⟩ else ⟨m, e⟩
    if value.exponent > 971 then none else some value

def ofNat (n : Nat) : Option Binary64 :=
  ofRatio n 1

def mul (x y : Binary64) : Option Binary64 :=
  ofRatio (x.ratio.1 * y.ratio.1) (x.ratio.2 * y.ratio.2)

def div (x y : Binary64) : Option Binary64 :=
  ofRatio (x.ratio.1 * y.ratio.2) (x.ratio.2 * y.ratio.1)

def powerOfTen (k : Nat) : Option Binary64 :=
  ofNat (Nat.pow 10 k)

def toFixed (places : Nat) (x : Binary64) : List Char :=
  let scaled := roundQuotient (x.ratio.1 * Nat.pow 10 places) x.ratio.2
  let ds := Nat.toDigits 10 scaled
  let ds := List.replicate (places + 1 - ds.length) '0' ++ ds
  if places = 0 then ds else ds.take (ds.length - places) ++ '.' :: ds.drop (ds.length - places)

/-- The quotient `n / d` divided by `10 ^ e`, as a numerator and a denominator. -/
def shiftedDecimal (n d : Nat) (e : Int) : Nat × Nat :=
  if e < 0 then (n * Nat.pow 10 e.natAbs, d) else (n, d * Nat.pow 10 e.natAbs)

/-- The digits and the decimal exponent of the nearest decimal with `count` significant digits. -/
def decimalWith (count : Nat) (x : Binary64) : Nat × Int :=
  let n := x.ratio.1
  let d := x.ratio.2
  let top : Int :=
    if n / d = 0 then
      1 - Int.ofNat (Nat.toDigits 10 (d / n)).length
    else
      Int.ofNat (Nat.toDigits 10 (n / d)).length
  let e : Int := top - Int.ofNat count
  let q := shiftedDecimal n d e
  (roundQuotient q.1 q.2, e)

def ofDecimal (digits : Nat) (exponent : Int) : Option Binary64 :=
  if exponent < 0 then
    ofRatio digits (Nat.pow 10 exponent.natAbs)
  else
    ofNat (digits * Nat.pow 10 exponent.natAbs)

/-- The first decimal of 1, 2, … 17 significant digits that rounds to the value. -/
def shortest (x : Binary64) : Nat × Int :=
  let candidates := (List.range 17).map fun k => decimalWith (k + 1) x
  (candidates.find? fun c => ofDecimal c.1 c.2 = some x).getD (decimalWith 18 x)

end Binary64
end KeyRegistry
