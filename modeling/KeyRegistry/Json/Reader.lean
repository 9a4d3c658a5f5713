import KeyRegistry.Json.Outline

/-!
# Typed readers of JSON documents

A reader takes an outline to a typed value, or to the first fault that it meets.
A record ignores members with other names, refuses a second member of one name,
and may also be written as the list of its fields in their order.
-/

namespace KeyRegistry
namespace Json

abbrev Reader (α : Type) : Type :=
  Outline -> Except Fault α

namespace Outline

def close : Option Stop -> Except Fault Unit
  | none => .ok ()
  | some stop => .error stop.strict

def closeSkipped : Option Stop -> Except Fault Unit
  | some ⟨_, some fault⟩ => .error fault
  | _ => .ok ()

mutual

def skip : Reader Unit
  | .list items tail => do
      skipAll items
      closeSkipped tail
  | .record members tail => do
      skipMembers members
      closeSkipped tail
  | .stopped ⟨_, some fault⟩ => .error fault
  | _ => .ok ()

def skipAll : List Outline -> Except Fault Unit
  | [] => .ok ()
  | item :: items => do
      skip item
      skipAll items

def skipMembers : List (String × Outline) -> Except Fault Unit
  | [] => .ok ()
  | (_, value) :: members => do
      skip value
      skipMembers members

end

mutual

/-- Any value.  Of two members of one name the last counts. -/
def value : Reader Json
  | .null => .ok .null
  | .bool b => .ok (.bool b)
  | .number n => .ok (.number n)
  | .text s => .ok (.text s)
  | .list items tail => do
      let items <- values items
      close tail
      return .list items
  | .record members tail => do
      let members <- memberValues members
      close tail
      return .record (collect members)
  | .stopped stop => .error stop.strict

def values : List Outline -> Except Fault (List Json)
  | [] => .ok []
  | item :: items => do
      let item <- value item
      let items <- values items
      return item :: items

def memberValues : List (String × Outline) -> Except Fault (List (String × Json))
  | [] => .ok []
  | (name, member) :: members => do
      let member <- value member
      let members <- memberValues members
      return (name, member) :: members

end

end Outline

namespace Reader

def refuse {α : Type} : Reader α
  | .stopped stop => .error stop.strict
  | _ => .error .mismatched

def text : Reader String
  | .text s => .ok s
  | other => refuse other

def bool : Reader Bool
  | .bool b => .ok b
  | other => refuse other

def int64 : Reader Int
  | .number (.integer n) =>
      if -0x8000_0000_0000_0000 ≤ n ∧ n < 0x8000_0000_0000_0000 then .ok n else .error .mismatched
  | other => refuse other

def parsed {α : Type} (parse : String -> Except ValueError α) : Reader α := fun outline => do
  let s <- text outline
  match parse s with
  | .ok a => return a
  | .error cause => throw (.refused cause)

def optional {α : Type} (reader : Reader α) : Reader (Option α)
  | .null => .ok none
  | other => (reader other).map some

def itemsWith {α : Type} (reader : Reader α) : List Outline -> Except Fault (List α)
  | [] => .ok []
  | item :: items => do
      let a <- reader item
      let as <- itemsWith reader items
      return a :: as

def list {α : Type} (reader : Reader α) : Reader (List α)
  | .list items tail => do
      let as <- itemsWith reader items
      Outline.close tail
      return as
  | other => refuse other

def namedWith {α : Type} (reader : Reader α) :
    List (String × Outline) -> Except Fault (List (String × α))
  | [] => .ok []
  | (name, member) :: members => do
      let a <- reader member
      let as <- namedWith reader members
      return (name, a) :: as

def named {α : Type} (reader : Reader α) : Reader (List (String × α))
  | .record members tail => do
      let as <- namedWith reader members
      Outline.close tail
      return as
  | other => refuse other

/-- A field of a record under construction: whether it is set, and how it is read. -/
structure Field (σ : Type) where
  name : String
  isSet : σ -> Bool
  read : Outline -> σ -> Except Fault σ

def field {σ α : Type} (name : String) (get : σ -> Option α) (put : α -> σ -> σ)
    (reader : Reader α) : Field σ where
  name := name
  isSet s := (get s).isSome
  read outline s := (reader outline).map fun a => put a s

def members {σ : Type} (fields : List (Field σ)) :
    σ -> List (String × Outline) -> Except Fault σ
  | s, [] => .ok s
  | s, (name, member) :: rest =>
      match fields.find? fun f => f.name = name with
      | none => do
          Outline.skip member
          members fields s rest
      | some f => do
          if f.isSet s then
            throw .mismatched
          let s <- f.read member s
          members fields s rest

def inOrder {σ : Type} (tail : Option Stop) :
    List (Field σ) -> σ -> List Outline -> Except Fault σ
  | [], s, [] => do
      Outline.close tail
      return s
  | [], _, _ :: _ => .error .malformed
  | _ :: _, s, [] => do
      Outline.close tail
      return s
  | f :: fields, s, item :: items => do
      let s <- f.read item s
      inOrder tail fields s items

def record {σ : Type} (fields : List (Field σ)) (start : σ) : Reader σ
  | .record entries tail => do
      let s <- members fields start entries
      Outline.close tail
      return s
  | .list items tail => inOrder tail fields start items
  | other => refuse other

def required {α : Type} : Option α -> Except Fault α
  | some a => .ok a
  | none => .error .mismatched

end Reader

def read {α : Type} (reader : Reader α) (s : String) : Except Fault α := do
  let (outline, rest) := Outline.ofText s
  let a <- reader outline
  match rest with
  | some rest => if (dropBlank rest).isEmpty then return a else throw .malformed
  | none => throw .malformed

def readValue {α : Type} (reader : Reader α) (value : Json) : Except Fault α :=
  reader (Outline.ofJson value)

def parse (s : String) : Except Fault Json :=
  read Outline.value s

end Json
end KeyRegistry
