import KeyRegistry.Json.Number
import KeyRegistry.Hex

/-!
# Strings in JSON text

Reading a string resolves its escapes and refuses half of a surrogate pair.
Passing over one checks only the form of the escapes.
-/

namespace KeyRegistry
namespace Json

/-- The code unit of four hexadecimal digits; fewer than four bytes of text are a text cut short. -/
def codeUnit (cs : List Char) : Except Fault (Nat × List Char) :=
  match cs with
  | a :: b :: c :: d :: rest =>
      match Hex.digitValue? a, Hex.digitValue? b, Hex.digitValue? c, Hex.digitValue? d with
      | some a, some b, some c, some d => .ok (4096 * a + 256 * b + 16 * c + d, rest)
      | _, _, _, _ => .error .malformed
  | cs => .error (if Text.utf8Length cs < 4 then .cutShort else .malformed)

def simpleEscape? : Char -> Option Char
  | '"' => some '"'
  | '\\' => some '\\'
  | '/' => some '/'
  | 'b' => some (Char.ofNat 8)
  | 'f' => some (Char.ofNat 12)
  | 'n' => some '\n'
  | 'r' => some '\r'
  | 't' => some '\t'
  | _ => none

def unicodeEscape (cs : List Char) : Except Fault (Char × List Char) := do
  let (unit, rest) <- codeUnit cs
  if 0xDC00 ≤ unit ∧ unit ≤ 0xDFFF then
    throw .malformed
  else if 0xD800 ≤ unit ∧ unit ≤ 0xDBFF then
    match rest with
    | [] => throw .cutShort
    | '\\' :: [] => throw .cutShort
    | '\\' :: 'u' :: rest =>
        let (low, rest) <- codeUnit rest
        if 0xDC00 ≤ low ∧ low ≤ 0xDFFF then
          return (Char.ofNat (0x10000 + 1024 * (unit - 0xD800) + (low - 0xDC00)), rest)
        else
          throw .malformed
    | _ => throw .malformed
  else
    return (Char.ofNat unit, rest)

/-- Reads a string after its opening quote; `acc` holds the characters so far, last first. -/
def readText : Nat -> List Char -> List Char -> Except Fault (String × List Char)
  | 0, _, _ => .error .cutShort
  | _, _, [] => .error .cutShort
  | _, acc, '"' :: rest => .ok (String.ofList acc.reverse, rest)
  | _, _, '\\' :: [] => .error .cutShort
  | fuel + 1, acc, '\\' :: 'u' :: rest =>
      match unicodeEscape rest with
      | .ok (c, rest) => readText fuel (c :: acc) rest
      | .error fault => .error fault
  | fuel + 1, acc, '\\' :: c :: rest =>
      match simpleEscape? c with
      | some c => readText fuel (c :: acc) rest
      | none => .error .malformed
  | fuel + 1, acc, c :: rest =>
      if c.toNat < 0x20 then .error .malformed else readText fuel (c :: acc) rest

def skipText : Nat -> List Char -> Except Fault (List Char)
  | 0, _ => .error .cutShort
  | _, [] => .error .cutShort
  | _, '"' :: rest => .ok rest
  | _, '\\' :: [] => .error .cutShort
  | fuel + 1, '\\' :: 'u' :: rest =>
      match codeUnit rest with
      | .ok (_, rest) => skipText fuel rest
      | .error fault => .error fault
  | fuel + 1, '\\' :: c :: rest =>
      if (simpleEscape? c).isSome then skipText fuel rest else .error .malformed
  | fuel + 1, c :: rest =>
      if c.toNat < 0x20 then .error .malformed else skipText fuel rest

def escapeUnits (c : Char) : List Char :=
  let unit := fun (n : Nat) =>
    ['\\', 'u', Text.hexDigitChar (n / 4096 % 16), Text.hexDigitChar (n / 256 % 16),
      Text.hexDigitChar (n / 16 % 16), Text.hexDigitChar (n % 16)]
  let n := c.toNat
  if n < 0x10000 then unit n
  else unit (0xD800 + (n - 0x10000) / 1024) ++ unit (0xDC00 + (n - 0x10000) % 1024)

def escapeChar (c : Char) : List Char :=
  if c = '"' ∨ c = '\\' then ['\\', c]
  else if 0x20 ≤ c.toNat ∧ c.toNat < 0x7F then [c]
  else escapeUnits c

def quoteText (s : String) : String :=
  String.ofList ('"' :: s.toList.flatMap escapeChar ++ ['"'])

/-! ## Documents as bytes -/

/-- An escape of the right form that stands for no character, whatever escape stands beside it. -/
def strayEscape : List Char :=
  "\\udc00\\udc00".toList

/-- The characters as which bytes are read.  `inside` counts the bytes still to come of the last
character, and `escaping` says that this is a backslash which opens an escape.  A byte of no character
counts as a stray escape: a string with one is refused where it is read, and is passed over where it
is skipped.  After a backslash such a byte makes no escape at all. -/
def charsOf : Nat -> Bool -> Bytes -> List Char
  | _, _, [] => []
  | inside + 1, escaping, _ :: bs => charsOf inside escaping bs
  | 0, escaping, b :: bs =>
      match Text.firstChar? (b :: bs) with
      | some c => c :: charsOf (c.utf8Size - 1) (c = '\\' && !escaping) bs
      | none => (if escaping then ['?'] else strayEscape) ++ charsOf 0 false bs

def textOf (bs : Bytes) : String :=
  String.ofList (charsOf 0 false bs)

end Json
end KeyRegistry
