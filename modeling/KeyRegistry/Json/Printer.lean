import KeyRegistry.Json.Text
import KeyRegistry.Numeral

/-!
# JSON text of values

The text is ASCII on one line, and a float stays recognisable as one.
-/

namespace KeyRegistry
namespace Json

namespace Number

def toText : Number -> String
  | .integer n => if n < 0 then "-" ++ toString n.natAbs else toString n.natAbs
  | .float negative x =>
      let sign := if negative then "-" else ""
      if x.mantissa = 0 then
        sign ++ "0.0"
      else
        let (digits, exponent) := x.shortest
        sign ++ toString digits ++ "e" ++
          (if exponent < 0 then "-" ++ toString exponent.natAbs else toString exponent.natAbs)

end Number

mutual

def pieces : Json -> List String
  | .null => ["null"]
  | .bool true => ["true"]
  | .bool false => ["false"]
  | .number n => [n.toText]
  | .text s => [quoteText s]
  | .list items => "[" :: itemPieces "" items ++ ["]"]
  | .record members => "\x7b" :: memberPieces "" members ++ ["\x7d"]

def itemPieces (separator : String) : List Json -> List String
  | [] => []
  | item :: items => separator :: pieces item ++ itemPieces "," items

def memberPieces (separator : String) : List (String × Json) -> List String
  | [] => []
  | (name, value) :: members =>
      separator :: quoteText name :: ":" :: pieces value ++ memberPieces "," members

end

def toText (value : Json) : String :=
  String.join (pieces value)

end Json
end KeyRegistry
