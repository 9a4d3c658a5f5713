import KeyRegistry.Toml.Reader

/-!
# Typed records in TOML

A record has named fields of fixed types.  Reading starts from a record with a
value in every field, ignores names that are not fields, and refuses a value of
the wrong type; a list gives the fields in their order.  Writing puts one field on
a line, and the records inside a record after its other fields.
-/

namespace KeyRegistry
namespace Toml

/-- A field of a record: how its value is written, and how one is read. -/
structure Field (σ : Type) where
  name : String
  get : σ -> Value
  set : Value -> σ -> Option σ

namespace Field

def text {σ : Type} (name : String) (get : σ -> String) (put : String -> σ -> σ) : Field σ where
  name := name
  get s := .text (get s)
  set
    | .text v, s => some (put v s)
    | _, _ => none

def bool {σ : Type} (name : String) (get : σ -> Bool) (put : Bool -> σ -> σ) : Field σ where
  name := name
  get s := .bool (get s)
  set
    | .bool v, s => some (put v s)
    | _, _ => none

def uint32 {σ : Type} (name : String) (get : σ -> UInt32) (put : UInt32 -> σ -> σ) : Field σ where
  name := name
  get s := .integer (get s).toNat
  set
    | .integer n, s =>
        if 0 ≤ n ∧ n < UInt32.size then some (put (UInt32.ofNat n.toNat) s) else none
    | _, _ => none

def uint64 {σ : Type} (name : String) (get : σ -> UInt64) (put : UInt64 -> σ -> σ) : Field σ where
  name := name
  get s := .integer (get s).toNat
  set
    | .integer n, s =>
        if 0 ≤ n ∧ n < UInt64.size then some (put (UInt64.ofNat n.toNat) s) else none
    | _, _ => none

end Field

def setNamed {σ : Type} (fields : List (Field σ)) : Entries -> σ -> Option σ
  | [], s => some s
  | (name, value) :: entries, s =>
      match fields.find? fun f => f.name = name with
      | none => setNamed fields entries s
      | some f =>
          match f.set value s with
          | some s => setNamed fields entries s
          | none => none

/-- Sets fields in their order; values beyond the last field count for nothing. -/
def setInOrder {σ : Type} : List (Field σ) -> List Value -> σ -> Option σ
  | f :: fields, value :: values, s =>
      match f.set value s with
      | some s => setInOrder fields values s
      | none => none
  | _, _, s => some s

def setAll {σ : Type} (fields : List (Field σ)) : Value -> σ -> Option σ
  | .table _ entries, s => setNamed fields entries s
  | .list items, s => setInOrder fields items s
  | .tables earlier last, s => setInOrder fields (earlier ++ [.table .headed last]) s
  | .moment, s => some s
  | _, _ => none

def entriesOf {σ : Type} (fields : List (Field σ)) (s : σ) : Entries :=
  fields.map fun f => (f.name, f.get s)

/-- A field that is a record itself, read on top of the value it has. -/
def Field.record {σ τ : Type} (name : String) (fields : List (Field τ)) (get : σ -> τ)
    (put : τ -> σ -> σ) (start : τ) : Field σ where
  name := name
  get s := .table .headed (entriesOf fields (get s))
  set value s := (setAll fields value start).map fun v => put v s

/-! ## Writing -/

def writeScalar : Value -> Option (List Char)
  | .text s => some (writeText s)
  | .integer n =>
      if -0x8000_0000_0000_0000 ≤ n ∧ n < 0x8000_0000_0000_0000 then some (toString n).toList else none
  | .bool b => some (toString b).toList
  | _ => none

def writeLines : Entries -> Option (List Char)
  | [] => some []
  | (_, .table _ _) :: entries => writeLines entries
  | (name, value) :: entries => do
      let line := name.toList ++ [' ', '=', ' '] ++ (<- writeScalar value) ++ ['\n']
      return line ++ (<- writeLines entries)

def writeTables : Entries -> Option (List Char)
  | [] => some []
  | (name, .table _ inner) :: entries => do
      let header := ['\n', '['] ++ name.toList ++ [']', '\n']
      let body <- writeLines inner
      return header ++ body ++ (<- writeTables entries)
  | _ :: entries => writeTables entries

def write? (entries : Entries) : Option String := do
  return String.ofList ((<- writeLines entries) ++ (<- writeTables entries))

end Toml
end KeyRegistry
