import KeyRegistry.Abi.Layout
import KeyRegistry.Hash
import KeyRegistry.Json.Reader

/-!
# Contract interfaces

An interface lists the functions of a contract and the parameters of its
constructor.  Parameter types stay names until a call is encoded or decoded, so
that an interface that mentions an unsupported type can still be read.
-/

namespace KeyRegistry
namespace Abi

/-- One named parameter with the name of its type. -/
structure Param where
  name : String
  type : String
deriving DecidableEq, Repr

structure Function where
  name : String
  inputs : List Param
  outputs : List Param
  readOnly : Bool
deriving DecidableEq, Repr

/-- The functions of a contract, in the order of its description. -/
structure Interface where
  functions : List Function
  constructorInputs : List Param
deriving DecidableEq, Repr

/-- The types of parameters, or the first one that is not supported. -/
def paramTypes : List Param -> Except Error (List ParamType)
  | [] => .ok []
  | param :: params => do
      let type <- ParamType.parse param.type
      let types <- paramTypes params
      return type :: types

def selector (signature : String) : Bytes :=
  (Hash.keccak (Text.encode signature)).bytes.take 4

def encodeArguments (function : String) (params : List Param) (args : List Token) :
    Except Error Bytes := do
  let types <- paramTypes params
  if types.length ≠ args.length then
    throw (.argumentCount function types.length args.length)
  encode types args

namespace Function

def signature (f : Function) : String :=
  f.name ++ "(" ++ String.intercalate "," (f.inputs.map fun p => ParamType.canonical p.type) ++ ")"

def selector (f : Function) : Bytes :=
  Abi.selector f.signature

def encodeInput (f : Function) (args : List Token) : Except Error Bytes := do
  let data <- encodeArguments f.name f.inputs args
  return f.selector ++ data

def decodeOutput (f : Function) (data : Bytes) : Except Error (List Token) := do
  decode (<- paramTypes f.outputs) data

end Function

/-! ## Reading a description -/

open Json

structure Param.Draft where
  name : Option String := none
  type : Option String := none

def Param.reader : Reader Param := fun outline => do
  let draft <- Reader.record [
    Reader.field "name" Draft.name (fun s d => { d with name := some s }) Reader.text,
    Reader.field "type" Draft.type (fun s d => { d with type := some s }) Reader.text] {} outline
  return { name := draft.name.getD "", type := <- Reader.required draft.type }

structure Entry where
  kind : Option String := none
  name : Option String := none
  inputs : Option (List Param) := none
  outputs : Option (List Param) := none
  mutability : Option (Option String) := none
  constant : Option (Option Bool) := none

def Entry.reader : Reader Entry :=
  Reader.record [
    Reader.field "type" Entry.kind (fun s e => { e with kind := some s }) Reader.text,
    Reader.field "name" Entry.name (fun s e => { e with name := some s }) Reader.text,
    Reader.field "inputs" Entry.inputs (fun ps e => { e with inputs := some ps })
      (Reader.list Param.reader),
    Reader.field "outputs" Entry.outputs (fun ps e => { e with outputs := some ps })
      (Reader.list Param.reader),
    Reader.field "stateMutability" Entry.mutability (fun s e => { e with mutability := some s })
      (Reader.optional Reader.text),
    Reader.field "constant" Entry.constant (fun b e => { e with constant := some b })
      (Reader.optional Reader.bool)] {}

def Entry.isReadOnly (e : Entry) : Bool :=
  let mutability := e.mutability.getD none
  mutability = some "view" || mutability = some "pure" || e.constant.getD none = some true

namespace Interface

def empty : Interface := { functions := [], constructorInputs := [] }

/-- The interface with one more entry.  An entry without a kind is a function; the last
constructor counts; entries of other kinds are left out. -/
def add (interface : Interface) (e : Entry) : Except Error Interface :=
  let kind := e.kind.getD "function"
  if kind = "function" then
    let name := e.name.getD ""
    if name = "" then
      .error .namelessFunction
    else
      .ok { interface with
        functions := interface.functions ++ [{
          name, inputs := e.inputs.getD [], outputs := e.outputs.getD [],
          readOnly := e.isReadOnly }] }
  else if kind = "constructor" then
    .ok { interface with constructorInputs := e.inputs.getD [] }
  else
    .ok interface

def ofEntries : Interface -> List Entry -> Except Error Interface
  | interface, [] => .ok interface
  | interface, e :: es => do
      let interface <- interface.add e
      ofEntries interface es

/-- The entries of a description: a list, or a string that holds the text of one. -/
def entries : Json -> Except Fault (List Entry)
  | .text s => Json.read (Reader.list Entry.reader) s
  | value => Json.readValue (Reader.list Entry.reader) value

def ofJson (value : Json) : Except Error Interface :=
  match entries value with
  | .ok es => ofEntries empty es
  | .error _ => .error .unreadableInterface

/-- The first function of a name, and of an arity where one is given. -/
def function (interface : Interface) (name : String) (arity : Option Nat) :
    Except Error Function :=
  let found := interface.functions.find? fun f =>
    f.name = name && arity.all fun n => f.inputs.length = n
  match found with
  | some f => .ok f
  | none => .error (.unknownFunction name)

/-- The function that a call of `name` with `arity` arguments uses: one of that arity where there
is one. -/
def resolve (interface : Interface) (name : String) (arity : Nat) : Except Error Function :=
  match interface.function name (some arity) with
  | .ok f => .ok f
  | .error _ => interface.function name none

def encodeCall (interface : Interface) (name : String) (args : List Token) :
    Except Error Bytes := do
  let f <- interface.resolve name args.length
  f.encodeInput args

def decodeOutput (interface : Interface) (name : String) (data : Bytes) :
    Except Error (List Token) := do
  let f <- interface.function name none
  f.decodeOutput data

def encodeConstructor (interface : Interface) (args : List Token) : Except Error Bytes :=
  encodeArguments "constructor" interface.constructorInputs args

end Interface
end Abi
end KeyRegistry
