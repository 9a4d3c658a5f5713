import KeyRegistry.Bytes

/-!
# Text as bytes

Lengths and positions that a node or a file counts are counted in the bytes of
the UTF-8 form of a text.
-/

namespace KeyRegistry
namespace Text

def utf8Length (cs : List Char) : Nat :=
  cs.foldr (fun c n => c.utf8Size + n) 0

def encode (s : String) : Bytes :=
  s.toUTF8.toList

def decode? (bs : Bytes) : Option String :=
  String.fromUTF8? (ByteArray.mk bs.toArray)

def firstChar? (bs : Bytes) : Option Char :=
  (ByteArray.mk (bs.take 4).toArray).utf8DecodeChar? 0

def leadByte (c : Char) : UInt8 :=
  (String.utf8EncodeChar c).headD 0

def dropLead? : List Char -> List Char -> Option (List Char)
  | [], cs => some cs
  | _ :: _, [] => none
  | l :: lead, c :: cs => if l = c then dropLead? lead cs else none

def dropHexMark? : List Char -> Option (List Char)
  | '0' :: 'x' :: cs => some cs
  | '0' :: 'X' :: cs => some cs
  | _ => none

/-- Cuts a text at every `c`; a text without one is a single piece. -/
def splitAt (c : Char) : List Char -> List (List Char)
  | [] => [[]]
  | x :: xs =>
      if x = c then
        [] :: splitAt c xs
      else
        match splitAt c xs with
        | [] => [[x]]
        | piece :: pieces => (x :: piece) :: pieces

def cutFirst? (c : Char) : List Char -> Option (List Char × List Char)
  | [] => none
  | x :: xs =>
      if x = c then
        some ([], xs)
      else
        (cutFirst? c xs).map fun sides => (x :: sides.1, sides.2)

def cutLast? (c : Char) : List Char -> Option (List Char × List Char)
  | [] => none
  | x :: xs =>
      match cutLast? c xs with
      | some (before, after) => some (x :: before, after)
      | none => if x = c then some ([], xs) else none

end Text
end KeyRegistry
