import KeyRegistry.Abi.Interface
import KeyRegistry.Proofs.Json.Order
import Mathlib.Data.List.Permutation

/-!
# Both spellings of an interface

A description is a list of entries, or a string that holds the text of such a list.
The fields of an entry and of a parameter are tables, so neither the spelling nor the
order of members makes a difference to the interface that is read.
-/

namespace KeyRegistry
namespace Abi

open Json (Alike Reader)
open Json.Reader (IgnoresOrder)

/-! ## Parameters -/

namespace Param

inductive Slot where
  | name
  | type
deriving DecidableEq

namespace Slot

def label : Slot -> String
  | .name => "name"
  | .type => "type"

def get : Slot -> Draft -> Option String
  | .name => Draft.name
  | .type => Draft.type

def put : Slot -> String -> Draft -> Draft
  | .name, s, d => { d with name := some s }
  | .type, s, d => { d with type := some s }

end Slot

def table : Reader.Table Draft where
  Slot := Slot
  slots := [.name, .type]
  name := Slot.label
  Value _ := String
  get := Slot.get
  put := Slot.put
  reader _ := Reader.text
  mem_slots i := by
    cases i <;> decide
  name_injective i j := by
    cases i <;> cases j <;> decide
  get_put i s d := by
    cases i <;> rfl
  get_put_of_ne i j s d h := by
    cases i <;> cases j <;> first | rfl | exact absurd rfl h

theorem isComplete_table : table.IsComplete := by
  intro d d' h
  have hname : d.name = d'.name := h .name
  have htype : d.type = d'.type := h .type
  cases d
  cases d'
  cases hname
  cases htype
  rfl

theorem ignoresOrder_reader : IgnoresOrder reader := by
  intro v w h
  exact (Reader.Table.ignoresOrder_record isComplete_table
    (fun _ => Reader.ignoresOrder_text) {} h).bind fun d => Agree.refl _

end Param

/-! ## Entries -/

namespace Entry

inductive Slot where
  | kind
  | name
  | inputs
  | outputs
  | mutability
  | constant
deriving DecidableEq

namespace Slot

def label : Slot -> String
  | .kind => "type"
  | .name => "name"
  | .inputs => "inputs"
  | .outputs => "outputs"
  | .mutability => "stateMutability"
  | .constant => "constant"

def Value : Slot -> Type
  | .kind | .name => String
  | .inputs | .outputs => List Param
  | .mutability => Option String
  | .constant => Option Bool

def get : (i : Slot) -> Entry -> Option i.Value
  | .kind => Entry.kind
  | .name => Entry.name
  | .inputs => Entry.inputs
  | .outputs => Entry.outputs
  | .mutability => Entry.mutability
  | .constant => Entry.constant

def put : (i : Slot) -> i.Value -> Entry -> Entry
  | .kind, s, e => { e with kind := some s }
  | .name, s, e => { e with name := some s }
  | .inputs, ps, e => { e with inputs := some ps }
  | .outputs, ps, e => { e with outputs := some ps }
  | .mutability, s, e => { e with mutability := some s }
  | .constant, b, e => { e with constant := some b }

def reader : (i : Slot) -> Reader i.Value
  | .kind | .name => Reader.text
  | .inputs | .outputs => Reader.list Param.reader
  | .mutability => Reader.optional Reader.text
  | .constant => Reader.optional Reader.bool

theorem ignoresOrder_reader (i : Slot) : IgnoresOrder i.reader := by
  cases i with
  | kind | name => exact Reader.ignoresOrder_text
  | inputs | outputs => exact Reader.ignoresOrder_list Param.ignoresOrder_reader
  | mutability => exact Reader.ignoresOrder_optional Reader.ignoresOrder_text
  | constant => exact Reader.ignoresOrder_optional Reader.ignoresOrder_bool

end Slot

def table : Reader.Table Entry where
  Slot := Slot
  slots := [.kind, .name, .inputs, .outputs, .mutability, .constant]
  name := Slot.label
  Value := Slot.Value
  get := Slot.get
  put := Slot.put
  reader := Slot.reader
  mem_slots i := by
    cases i <;> decide
  name_injective i j := by
    cases i <;> cases j <;> decide
  get_put i a e := by
    cases i <;> rfl
  get_put_of_ne i j a e h := by
    cases i <;> cases j <;> first | rfl | exact absurd rfl h

theorem isComplete_table : table.IsComplete := by
  intro e e' h
  have hkind : e.kind = e'.kind := h .kind
  have hname : e.name = e'.name := h .name
  have hinputs : e.inputs = e'.inputs := h .inputs
  have houtputs : e.outputs = e'.outputs := h .outputs
  have hmutability : e.mutability = e'.mutability := h .mutability
  have hconstant : e.constant = e'.constant := h .constant
  cases e
  cases e'
  cases hkind
  cases hname
  cases hinputs
  cases houtputs
  cases hmutability
  cases hconstant
  rfl

theorem ignoresOrder_reader : IgnoresOrder reader :=
  Reader.Table.ignoresOrder_record isComplete_table Slot.ignoresOrder_reader {}

end Entry

/-! ## Interfaces -/

namespace Interface

variable {v w : Json}

theorem agree_entries (h : Alike v w) : Agree (entries v) (entries w) := by
  have hread := Reader.ignoresOrder_list Entry.ignoresOrder_reader h
  cases h with
  | text => exact Agree.refl _
  | null | bool | number | list | record => exact hread

theorem agree_ofJson_of_entries (h : Agree (entries v) (entries w)) :
    Agree (ofJson v) (ofJson w) := by
  unfold ofJson
  generalize entries v = first at h
  generalize entries w = second at h
  cases h with
  | ok es => exact Agree.refl _
  | error => exact Agree.error _ _

/-- A text of a list is read as the list is, whatever order the members of its records are kept
in. -/
theorem spellings_agree {text : String} {items : List Json} (hnames : Json.namesOnce text = true)
    (hparse : Json.parse text = .ok (.list items)) :
    Agree (ofJson (.text text)) (ofJson (.list items)) ∧
      forall value, Alike (.list items) value -> Agree (ofJson (.text text)) (ofJson value) := by
  have hentries : entries (.text text) = entries (.list items) :=
    Json.read_of_parse (Reader.list Entry.reader) hnames hparse
  have hagree : forall value, Alike (.list items) value ->
      Agree (ofJson (.text text)) (ofJson value) := by
    intro value h
    apply agree_ofJson_of_entries
    rw [hentries]
    exact agree_entries h
  exact ⟨hagree _ (Alike.refl _), hagree⟩

/-- A function with a member of no field and a constructor that is written as a list. -/
def unevenText : String :=
  "[\x7b\"name\":\"f\",\"gas\":[1,null],\"constant\":null,\"inputs\":[[\"x\",\"uint\"]]\x7d," ++
    "[\"constructor\",\"\",[\x7b\"type\":\"bool\"\x7d]]]"

def unevenConstructor : Json :=
  .list [.text "constructor", .text "", .list [.record [("type", .text "bool")]]]

def unevenFunction (members : List (String × Json)) : Json :=
  .record (members ++ [("constant", .null), ("inputs", .list [.list [.text "x", .text "uint"]])])

/-- The members of the function may change places. -/
theorem spellings_agree_uneven :
    let gas := ("gas", Json.list [.number (.integer 1), .null])
    let name := ("name", Json.text "f")
    Json.namesOnce unevenText = true ∧
      Json.parse unevenText = .ok (.list [unevenFunction [name, gas], unevenConstructor]) ∧
      ofJson (.list [unevenFunction [gas, name], unevenConstructor]) = .ok
        { functions := [{ name := "f", inputs := [⟨"x", "uint"⟩], outputs := [], readOnly := false }],
          constructorInputs := [⟨"", "bool"⟩] } := by
  intro gas name
  have hnames : Json.namesOnce unevenText = true := by
    decide +kernel
  have hparse :
      Json.parse unevenText = .ok (.list [unevenFunction [name, gas], unevenConstructor]) := by
    cbv
  have halike : Alike (.list [unevenFunction [name, gas], unevenConstructor])
      (.list [unevenFunction [gas, name], unevenConstructor]) := by
    have hfunction : Alike (unevenFunction [name, gas]) (unevenFunction [gas, name]) :=
      Json.alike_of_perm (by decide) (.swap _ _ _)
    exact .list (.cons hfunction (.cons (Alike.refl _) .nil))
  refine ⟨hnames, hparse, ?_⟩
  apply ((spellings_agree hnames hparse).2 _ halike).eq_ok
  decide +kernel

/-- A text that repeats a name is refused, while its value keeps the last member of the name. -/
example :
    let text := "[\x7b\"name\":\"f\",\"name\":\"g\"\x7d]"
    ofJson (.text text) = .error .unreadableInterface ∧
      Json.parse text = .ok (.list [.record [("name", .text "g")]]) ∧
      ofJson (.list [.record [("name", .text "g")]]) = .ok
        { functions := [{ name := "g", inputs := [], outputs := [], readOnly := false }],
          constructorInputs := [] } := by
  refine ⟨by decide +kernel, by cbv, by decide +kernel⟩

end Interface
end Abi
end KeyRegistry
