import KeyRegistry.Binary64
import KeyRegistry.Numeral
import KeyRegistry.Toml.Value

/-!
# Numbers and moments in TOML

Integers have 64 bits and a sign; those written with another radix have no sign
in front.  Underscores may stand between digits, and no zero in front of others.
Of floats and of dates and times only the form and the range are checked.
-/

namespace KeyRegistry
namespace Toml

/-- One or more digits with single underscores between them, and the rest of the text. -/
def digits? (digit : Char -> Option Nat) : List Char -> Option (List Char × List Char)
  | [] => none
  | c :: cs =>
      match digit c with
      | none => none
      | some _ =>
          let rest := match cs with
            | '_' :: cs => digits? digit cs
            | cs => digits? digit cs
          match rest, cs with
          | some (ds, rest), _ => some (c :: ds, rest)
          | none, '_' :: _ => none
          | none, cs => some ([c], cs)

def sign : List Char -> Bool × List Char
  | '-' :: cs => (true, cs)
  | '+' :: cs => (false, cs)
  | cs => (false, cs)

/-- The digits of a decimal number, which start with zero only where they are one zero. -/
def wholeDigits? : List Char -> Option (List Char × List Char)
  | '0' :: cs => some (['0'], cs)
  | cs => digits? Numeral.decimalValue? cs

def signed? (negative : Bool) (n : Nat) : Option Value :=
  if negative then
    if n ≤ 0x8000_0000_0000_0000 then some (.integer (-(n : Int))) else none
  else
    if n < 0x8000_0000_0000_0000 then some (.integer n) else none

def octalValue? (c : Char) : Option Nat :=
  (Numeral.decimalValue? c).filter (· < 8)

def binaryValue? (c : Char) : Option Nat :=
  (Numeral.decimalValue? c).filter (· < 2)

def radixInteger? (digit : Char -> Option Nat) (radix : Nat) (cs : List Char) :
    Option (Value × List Char) := do
  let (ds, rest) <- digits? digit cs
  let n <- Numeral.value? digit radix ds
  return (<- signed? false n, rest)

def integer? : List Char -> Option (Value × List Char)
  | '0' :: 'x' :: cs => radixInteger? Hex.digitValue? 16 cs
  | '0' :: 'o' :: cs => radixInteger? octalValue? 8 cs
  | '0' :: 'b' :: cs => radixInteger? binaryValue? 2 cs
  | cs => do
      let (negative, cs) := sign cs
      let (ds, rest) <- wholeDigits? cs
      let n <- Numeral.decimal? ds
      return (<- signed? negative n, rest)

def exponent? : List Char -> Option (Int × List Char)
  | [] => none
  | c :: cs =>
      if c = 'e' ∨ c = 'E' then do
        let (negative, cs) := sign cs
        let (ds, rest) <- digits? Numeral.decimalValue? cs
        let n <- Numeral.decimal? ds
        return (if negative then -(n : Int) else n, rest)
      else
        none

/-- Whether the decimal `digits * 10 ^ exponent` lies in the range of 64-bit floats. -/
def inRange (digits : List Char) (exponent : Int) : Bool :=
  let ds := digits.dropWhile (· = '0')
  let top : Int := ds.length + exponent
  if ds.isEmpty ∨ top ≤ 308 then
    true
  else if 309 < top then
    false
  else
    (Binary64.ofDecimal ((Numeral.decimal? ds).getD 0) exponent).isSome

/-- A float; one below the range is read, and one above it is not. -/
def float? (cs : List Char) : Option (Value × List Char) := do
  let (negative, cs) := sign cs
  match cs with
  | 'i' :: 'n' :: 'f' :: rest => return (.float, rest)
  | 'n' :: 'a' :: 'n' :: rest => return (.float, rest)
  | cs =>
      let (whole, rest) <- wholeDigits? cs
      let (fraction, rest, isFloat) <-
        match rest with
        | '.' :: rest => do
            let (ds, rest) <- digits? Numeral.decimalValue? rest
            pure (ds, rest, true)
        | rest => pure ([], rest, false)
      match exponent? rest with
      | some (e, rest) =>
          if negative ∨ inRange (whole ++ fraction) (e - fraction.length) then
            return (.float, rest)
          else
            none
      | none =>
          if isFloat ∧ (negative ∨ inRange (whole ++ fraction) (-(fraction.length : Int))) then
            return (.float, rest)
          else
            none

/-! ## Dates and times -/

def fixed? (count : Nat) (cs : List Char) : Option (Nat × List Char) := do
  let ds := cs.take count
  if ds.length < count then
    none
  return (<- Numeral.decimal? ds, cs.drop count)

def expect? (c : Char) : List Char -> Option (List Char)
  | d :: cs => if d = c then some cs else none
  | [] => none

def daysIn (year month : Nat) : Nat :=
  if month = 2 then
    if year % 4 = 0 ∧ (year % 100 ≠ 0 ∨ year % 400 = 0) then 29 else 28
  else if month = 4 ∨ month = 6 ∨ month = 9 ∨ month = 11 then 30
  else 31

def date? (cs : List Char) : Option (List Char) := do
  let (year, cs) <- fixed? 4 cs
  let cs <- expect? '-' cs
  let (month, cs) <- fixed? 2 cs
  let cs <- expect? '-' cs
  let (day, cs) <- fixed? 2 cs
  if 1 ≤ month ∧ month ≤ 12 ∧ 1 ≤ day ∧ day ≤ daysIn year month then some cs else none

def time? (cs : List Char) : Option (List Char) := do
  let (hour, cs) <- fixed? 2 cs
  let cs <- expect? ':' cs
  let (minute, cs) <- fixed? 2 cs
  let cs <- expect? ':' cs
  let (second, cs) <- fixed? 2 cs
  if 23 < hour ∨ 59 < minute ∨ 60 < second then
    none
  match cs with
  | '.' :: c :: rest =>
      if (Numeral.decimalValue? c).isSome then
        some (rest.dropWhile fun c => (Numeral.decimalValue? c).isSome)
      else
        some cs
  | cs => some cs

/-- The distance from universal time; none is given by a text that starts otherwise. -/
def offset? : List Char -> Option (List Char)
  | [] => some []
  | c :: cs =>
      if c = 'Z' ∨ c = 'z' then
        some cs
      else if c = '+' ∨ c = '-' then do
        let (hour, cs) <- fixed? 2 cs
        let cs <- expect? ':' cs
        let (minute, cs) <- fixed? 2 cs
        if hour ≤ 23 ∧ minute ≤ 59 then some cs else none
      else
        some (c :: cs)

def moment? (cs : List Char) : Option (Value × List Char) :=
  match date? cs with
  | none => (time? cs).map fun rest => (.moment, rest)
  | some [] => some (.moment, [])
  | some (c :: rest) =>
      if c = 'T' ∨ c = 't' ∨ c = ' ' then
        match (time? rest).bind offset? with
        | some rest => some (.moment, rest)
        | none => some (.moment, c :: rest)
      else
        some (.moment, c :: rest)

def numeric? (cs : List Char) : Option (Value × List Char) :=
  (moment? cs).or ((float? cs).or (integer? cs))

end Toml
end KeyRegistry
