import KeyRegistry.Address
import KeyRegistry.Numeral

/-!
# Parameter types and values of contract calls

The supported types are addresses, truth values, unsigned integers, strings and
byte strings.  Integers carry values of at most 128 bits whatever the width of
their type.
-/

namespace KeyRegistry
namespace Abi

inductive ParamType where
  | address
  | bool
  | uint (bits : Nat)
  | text
  | bytes
deriving DecidableEq, Repr

inductive Token where
  | address (a : Address)
  | bool (b : Bool)
  | uint (n : BitVec 128)
  | text (s : String)
  | bytes (bs : Bytes)
deriving DecidableEq

/-- Why a call cannot be encoded or its result not decoded. -/
inductive Error where
  | unreadableInterface
  | namelessFunction
  | unknownFunction (name : String)
  | argumentCount (function : String) (expected got : Nat)
  | typeMismatch (expected got : String)
  | unsupportedType (name : String)
  | overflow (type : String)
  | truncated
  | invalidUtf8
deriving DecidableEq, Repr

def Error.message : Error -> String
  | .unreadableInterface => "Invalid interface description"
  | .namelessFunction => "Invalid interface description: function entry without a name"
  | .unknownFunction name => "Unknown function: " ++ name
  | .argumentCount function expected got =>
      function ++ " expects " ++ toString expected ++ " argument(s), got " ++ toString got
  | .typeMismatch expected got => "Type mismatch: expected " ++ expected ++ ", got " ++ got
  | .unsupportedType name => "Unsupported ABI type: " ++ name
  | .overflow type => "Value does not fit " ++ type
  | .truncated => "Return data truncated"
  | .invalidUtf8 => "Return data is not valid UTF-8"

namespace ParamType

/-- The width that follows `uint` in a type name: a multiple of 8 up to 256. -/
def width? (cs : List Char) : Option Nat :=
  (Numeral.unsigned? UInt16.size cs).filter fun bits => 0 < bits ∧ bits ≤ 256 ∧ bits % 8 = 0

def parse (name : String) : Except Error ParamType :=
  if name = "address" then .ok .address
  else if name = "bool" then .ok .bool
  else if name = "string" then .ok .text
  else if name = "bytes" then .ok .bytes
  else if name = "uint" then .ok (.uint 256)
  else
    match (Text.dropLead? ['u', 'i', 'n', 't'] name.toList).bind width? with
    | some bits => .ok (.uint bits)
    | none => .error (.unsupportedType name)

def name : ParamType -> String
  | .address => "address"
  | .bool => "bool"
  | .uint bits => "uint" ++ toString bits
  | .text => "string"
  | .bytes => "bytes"

def isDynamic : ParamType -> Bool
  | .text => true
  | .bytes => true
  | _ => false

def canonical (name : String) : String :=
  if name = "uint" then "uint256"
  else if name = "int" then "int256"
  else name

end ParamType

namespace Token

def typeName : Token -> String
  | .address _ => "address"
  | .bool _ => "bool"
  | .uint _ => "uint"
  | .text _ => "string"
  | .bytes _ => "bytes"

def toText : Token -> Except Error String
  | .text s => .ok s
  | other => .error (.typeMismatch "string" other.typeName)

def toBool : Token -> Except Error Bool
  | .bool b => .ok b
  | other => .error (.typeMismatch "bool" other.typeName)

end Token
end Abi
end KeyRegistry
