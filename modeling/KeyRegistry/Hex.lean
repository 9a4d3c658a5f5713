import KeyRegistry.Text.Utf8
import KeyRegistry.Text.Quoted

/-!
# Hexadecimal digits

Byte strings are written as two lower-case digits a byte.  Reading accepts
digits of either case and names the first byte of the text that is no digit.
-/

namespace KeyRegistry
namespace Hex

/-- Why a text is not a sequence of digit pairs. -/
inductive Fault where
  | oddLength
  | badDigit (byte : UInt8) (position : Nat)
deriving DecidableEq, Repr

def Fault.message : Fault -> String
  | .oddLength => "Odd number of digits"
  | .badDigit byte position =>
      "Invalid character " ++ Text.quoteChar (Char.ofNat byte.toNat) ++
        " at position " ++ toString position

def digitValue? (c : Char) : Option Nat :=
  if '0' ≤ c ∧ c ≤ '9' then some (c.toNat - 48)
  else if 'a' ≤ c ∧ c ≤ 'f' then some (c.toNat - 87)
  else if 'A' ≤ c ∧ c ≤ 'F' then some (c.toNat - 55)
  else none

def isDigit (c : Char) : Bool :=
  (digitValue? c).isSome

def upperDigitChar (n : Nat) : Char :=
  if n < 10 then Char.ofNat (48 + n) else Char.ofNat (55 + n)

def digits : Bytes -> List Char
  | [] => []
  | b :: bs =>
      Text.hexDigitChar (b.toNat / 16) :: Text.hexDigitChar (b.toNat % 16) :: digits bs

def upperDigits : Bytes -> List Char
  | [] => []
  | b :: bs => upperDigitChar (b.toNat / 16) :: upperDigitChar (b.toNat % 16) :: upperDigits bs

def encode (bs : Bytes) : String :=
  String.ofList (digits bs)

def encodeUpper (bs : Bytes) : String :=
  String.ofList (upperDigits bs)

def firstBad? : Nat -> List Char -> Option (Char × Nat)
  | _, [] => none
  | position, c :: cs => if isDigit c then firstBad? (position + 1) cs else some (c, position)

def bytesOf : List Char -> Bytes
  | high :: low :: cs =>
      UInt8.ofNat (16 * (digitValue? high).getD 0 + (digitValue? low).getD 0) :: bytesOf cs
  | _ => []

/-- Reads digit pairs.  An odd number of bytes is found before a bad digit. -/
def decode (cs : List Char) : Except Fault Bytes :=
  if Text.utf8Length cs % 2 = 1 then
    .error .oddLength
  else
    match firstBad? 0 cs with
    | some (c, position) => .error (.badDigit (Text.leadByte c) position)
    | none => .ok (bytesOf cs)

end Hex
end KeyRegistry
