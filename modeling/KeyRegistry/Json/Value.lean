import KeyRegistry.Binary64

/-!
# JSON values

Numbers are integers of 64 bits, with or without a sign, or binary
floating-point values.  A record keeps one value under each name.
-/

namespace KeyRegistry

namespace Json

inductive Number where
  | integer (n : Int)
  | float (negative : Bool) (magnitude : Binary64)
deriving DecidableEq, Repr

end Json

inductive Json where
  | null
  | bool (b : Bool)
  | number (n : Json.Number)
  | text (s : String)
  | list (items : List Json)
  | record (members : List (String × Json))
deriving Inhabited

namespace Json

/-- The members with `value` under `name`, in the place of an earlier value of that name. -/
def put (name : String) (value : Json) : List (String × Json) -> List (String × Json)
  | [] => [(name, value)]
  | member :: members =>
      if member.1 = name then
        (name, value) :: members
      else
        member :: put name value members

def collect (members : List (String × Json)) : List (String × Json) :=
  members.foldl (fun acc member => put member.1 member.2 acc) []

def member? (name : String) : Json -> Option Json
  | .record members => (members.find? fun member => member.1 = name).map Prod.snd
  | _ => none

def text? : Json -> Option String
  | .text s => some s
  | _ => none

def bool? : Json -> Option Bool
  | .bool b => some b
  | _ => none

def items? : Json -> Option (List Json)
  | .list items => some items
  | _ => none

def int? : Json -> Option Int
  | .number (.integer n) => some n
  | _ => none

def nat64? (value : Json) : Option Nat := do
  let n <- value.int?
  if 0 ≤ n ∧ n < UInt64.size then some n.toNat else none

/-- The number of an integer that 64 bits with a sign hold. -/
def int64? (value : Json) : Option Int := do
  let n <- value.int?
  if -0x8000_0000_0000_0000 ≤ n ∧ n < 0x8000_0000_0000_0000 then some n else none

def ofNat (n : Nat) : Json :=
  .number (.integer n)

def ofInt (n : Int) : Json :=
  .number (.integer n)

def ofOption {α : Type} (f : α -> Json) : Option α -> Json
  | none => .null
  | some a => f a

end Json
end KeyRegistry
