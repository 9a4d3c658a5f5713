import KeyRegistry.Numeral
import KeyRegistry.ValueError

/-!
# Quantities and data

A node writes numbers as hexadecimal quantities after the mark `0x`, without
leading zeros, and byte strings as hexadecimal data after the same mark.
Reading a quantity accepts either case, leading zeros and one plus sign; a
number that needs more significant digits than its width holds is an overflow.
-/

namespace KeyRegistry
namespace Quantity

def digits (text : String) : Except ValueError (List Char) :=
  match Text.dropHexMark? text.toList with
  | none => .error (.quantityWithoutDigits text)
  | some [] => .error (.quantityWithoutDigits text)
  | some cs => .ok cs

def parse (width : Nat) (text : String) : Except ValueError Nat := do
  let cs <- digits text
  if Text.utf8Length (cs.dropWhile (· = '0')) > width then
    throw (.quantityOverflow text)
  match Numeral.hex? (Numeral.dropPlus cs) with
  | none => throw .quantityDigit
  | some n => return n

def parse64 (text : String) : Except ValueError UInt64 :=
  (parse 16 text).map UInt64.ofNat

def parse128 (text : String) : Except ValueError (BitVec 128) :=
  (parse 32 text).map (BitVec.ofNat 128)

def format (n : Nat) : String :=
  String.ofList ('0' :: 'x' :: Text.hexNumeral n)

def format64 (n : UInt64) : String :=
  format n.toNat

def format128 (n : BitVec 128) : String :=
  format n.toNat

end Quantity

namespace Data

def format (bs : Bytes) : String :=
  "0x" ++ Hex.encode bs

/-- Reads data, with or without the mark; the mark alone is the empty byte string. -/
def parse (text : String) : Except ValueError Bytes :=
  let cs := text.toList
  match Hex.decode ((Text.dropHexMark? cs).getD cs) with
  | .ok bs => .ok bs
  | .error fault => .error (.hex fault)

end Data
end KeyRegistry
