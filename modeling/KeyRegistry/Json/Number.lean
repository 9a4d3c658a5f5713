import KeyRegistry.Json.Value
import KeyRegistry.ValueError

/-!
# Numbers in JSON text

An integer that 64 bits hold is read exactly.  Every other number is a float:
its first digits up to 64 bits, times a power of ten, both rounded.  A number
whose value would be infinite is refused.
-/

namespace KeyRegistry
namespace Json

/-- What is wrong with a JSON text: it is no JSON, it is JSON of another shape, it
holds a string that is no value of the expected kind, or it ends too early. -/
inductive Fault where
  | malformed
  | mismatched
  | refused (cause : ValueError)
  | cutShort
deriving DecidableEq, Repr

def Fault.message : Fault -> String
  | .malformed => "not a JSON document"
  | .mismatched => "a value of another shape was expected"
  | .refused cause => cause.message
  | .cutShort => "the document ends too early"

def digit? (c : Char) : Option Nat :=
  if '0' ≤ c ∧ c ≤ '9' then some (c.toNat - 48) else none

def isDigit (c : Char) : Bool :=
  (digit? c).isSome

/-- The digits of the integer part after those that denote `acc`: their value as long as it has
64 bits, the number of digits dropped after that, and the rest of the text. -/
def wholeDigits (acc : Nat) : List Char -> Nat × Nat × List Char
  | [] => (acc, 0, [])
  | c :: cs =>
      match digit? c with
      | none => (acc, 0, c :: cs)
      | some d =>
          if 10 * acc + d < UInt64.size then
            wholeDigits (10 * acc + d) cs
          else
            (acc, ((c :: cs).takeWhile isDigit).length, (c :: cs).dropWhile isDigit)

/-- The digits after the point, in the same way; the count is of the digits kept, and nothing is
returned where no digit follows the point. -/
def fractionDigits (acc kept : Nat) : List Char -> Option (Nat × Nat × List Char)
  | [] => if kept = 0 then none else some (acc, kept, [])
  | c :: cs =>
      match digit? c with
      | none => if kept = 0 then none else some (acc, kept, c :: cs)
      | some d =>
          if 10 * acc + d < UInt64.size then
            fractionDigits (10 * acc + d) (kept + 1) cs
          else
            some (acc, kept, (c :: cs).dropWhile isDigit)

/-- Divides by a power of ten, in steps of at most 308 places. -/
def scaleDown : Nat -> Binary64 -> Nat -> Option Binary64
  | 0, x, _ => some x
  | fuel + 1, x, places =>
      if places ≤ 308 then do
        x.div (<- Binary64.powerOfTen places)
      else if x.mantissa = 0 then
        some x
      else do
        scaleDown fuel (<- x.div (<- Binary64.powerOfTen 308)) (places - 308)

def scale (digits : Nat) (exponent : Int) : Option Binary64 := do
  let x <- Binary64.ofNat digits
  if exponent < 0 then
    scaleDown 8 x exponent.natAbs
  else if exponent ≤ 308 then
    x.mul (<- Binary64.powerOfTen exponent.natAbs)
  else if digits = 0 then
    some x
  else
    none

def floatOf (negative : Bool) (digits : Nat) (exponent : Int) : Except Fault Number :=
  match scale digits exponent with
  | some x => .ok (.float negative x)
  | none => .error .malformed

/-- The exponent after the mark `e`, its sign included, and the rest of the text. -/
def exponentDigits (cs : List Char) : Except Fault (Bool × Nat × List Char) :=
  let (positive, cs) :=
    match cs with
    | '+' :: cs => (true, cs)
    | '-' :: cs => (false, cs)
    | cs => (true, cs)
  match cs with
  | [] => .error .cutShort
  | c :: rest =>
      if isDigit c then
        let ds := (c :: rest).takeWhile isDigit
        .ok (positive, ds.foldl (fun acc d => 10 * acc + (digit? d).getD 0) 0,
          (c :: rest).dropWhile isDigit)
      else
        .error .malformed

/-- The float whose digits and exponent so far are given, with the exponent that may follow. -/
def finishFloat (negative : Bool) (digits : Nat) (exponent : Int) (cs : List Char) :
    Except Fault (Number × List Char) :=
  let plain := (floatOf negative digits exponent).map fun x => (x, cs)
  match cs with
  | c :: rest =>
      if c = 'e' ∨ c = 'E' then do
        let (positive, e, rest) <- exponentDigits rest
        if e < 0x8000_0000 then
          let x <- floatOf negative digits (if positive then exponent + e else exponent - e)
          return (x, rest)
        else if positive ∧ digits ≠ 0 then
          throw .malformed
        else
          return (.float negative Binary64.zero, rest)
      else
        plain
  | [] => plain

def finishNumber (negative : Bool) (digits dropped : Nat) (cs : List Char) :
    Except Fault (Number × List Char) :=
  match cs with
  | '.' :: rest =>
      match fractionDigits digits 0 rest with
      | some (digits, kept, rest) => finishFloat negative digits ((dropped : Int) - kept) rest
      | none => .error (if rest.isEmpty then .cutShort else .malformed)
  | cs =>
      if cs.head? = some 'e' ∨ cs.head? = some 'E' ∨ dropped ≠ 0 then
        finishFloat negative digits dropped cs
      else if negative then
        if digits = 0 ∨ 0x8000_0000_0000_0000 < digits then
          (floatOf true digits 0).map fun x => (x, cs)
        else
          .ok (.integer (-(digits : Int)), cs)
      else
        .ok (.integer digits, cs)

def readNumber (negative : Bool) (cs : List Char) : Except Fault (Number × List Char) :=
  match cs with
  | [] => .error .cutShort
  | '0' :: rest =>
      if (rest.head?.map isDigit).getD false then
        .error .malformed
      else
        finishNumber negative 0 0 rest
  | c :: rest =>
      if isDigit c then
        let (digits, dropped, rest) := wholeDigits 0 (c :: rest)
        finishNumber negative digits dropped rest
      else
        .error .malformed

def skipExponent (cs : List Char) : Except Fault (List Char) :=
  let cs :=
    match cs with
    | '+' :: cs => cs
    | '-' :: cs => cs
    | cs => cs
  if (cs.head?.map isDigit).getD false then .ok (cs.dropWhile isDigit) else .error .malformed

def skipExponentAt (cs : List Char) : Except Fault (List Char) :=
  match cs with
  | 'e' :: rest => skipExponent rest
  | 'E' :: rest => skipExponent rest
  | cs => .ok cs

def skipNumber (cs : List Char) : Except Fault (List Char) := do
  let rest <-
    match cs with
    | '0' :: rest => if (rest.head?.map isDigit).getD false then throw .malformed else pure rest
    | c :: rest => if isDigit c then pure (rest.dropWhile isDigit) else throw .malformed
    | [] => throw .malformed
  match rest with
  | '.' :: fraction =>
      if (fraction.head?.map isDigit).getD false then
        skipExponentAt (fraction.dropWhile isDigit)
      else
        throw .malformed
  | rest => skipExponentAt rest

end Json
end KeyRegistry
