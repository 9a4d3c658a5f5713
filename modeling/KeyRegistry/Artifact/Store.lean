import KeyRegistry.Abi.Interface
import KeyRegistry.Artifact.Key
import KeyRegistry.FileSystem

/-!
# Compiled contracts

A store holds the entries of one artifact document.  A contract is parsed when
it is first loaded, and every later load of an equal key returns the same
object; a failed load leaves nothing behind.
-/

namespace KeyRegistry
namespace Artifact

inductive Defect where
  | missingInterface
  | badInterface (cause : Abi.Error)
  | missingPayload
  | emptyPayload
  | badPayload (cause : Hex.Fault)
deriving DecidableEq, Repr

def Defect.message : Defect -> String
  | .missingInterface => "missing abi"
  | .badInterface cause => cause.message
  | .missingPayload => "missing bin"
  | .emptyPayload => "empty bin"
  | .badPayload cause => "bin is not hex: " ++ cause.message

inductive Error where
  | notFound (key : String)
  | malformed (key : String) (defect : Defect)
  | invalidKey (text : String)
  | io (path : String) (cause : FileError)
  | document (fault : Json.Fault)
deriving DecidableEq, Repr

def Error.message : Error -> String
  | .notFound key => "Artifact " ++ key ++ " not found"
  | .malformed key defect => "Artifact " ++ key ++ " is malformed: " ++ defect.message
  | .invalidKey text =>
      "Invalid artifact key " ++ Text.quote text ++ ", expected <source>:<Contract>"
  | .io path cause => "Cannot read artifact document " ++ path ++ ": " ++ cause.message
  | .document _ => "Artifact document is not valid JSON"

def Key.parse (text : String) : Except Error Key :=
  match Key.parse? text with
  | some key => .ok key
  | none => .error (.invalidKey text)

/-- A compiled contract: its interface and its creation bytecode. -/
structure Contract where
  key : Key
  interface : Abi.Interface
  payload : Bytes
deriving DecidableEq, Repr

def Contract.creationPayload (c : Contract) (args : List Abi.Token) : Except Abi.Error Bytes := do
  return c.payload ++ (<- c.interface.encodeConstructor args)

def parseEntry (key : Key) (entry : Json) : Except Defect Contract := do
  let some abi := entry.member? "abi" | throw .missingInterface
  let interface <-
    match Abi.Interface.ofJson abi with
    | .ok interface => pure interface
    | .error cause => throw (.badInterface cause)
  let some bin := (entry.member? "bin").bind Json.text? | throw .missingPayload
  let digits := (Text.dropLead? ['0', 'x'] bin.toList).getD bin.toList
  if digits.isEmpty then
    throw .emptyPayload
  match Hex.decode digits with
  | .ok payload => return { key, interface, payload }
  | .error cause => throw (.badPayload cause)

/-- A value that loads share, told apart from equal values by its handle. -/
structure Shared (α : Type) where
  handle : Nat
  value : α

structure Store where
  contracts : List (String × Json)
  cache : List (Key × Shared Contract)

namespace Store

structure Draft where
  contracts : Option (List (String × Json)) := none

/-- The document with its entries under `contracts`; of two entries of one name the last counts. -/
def reader : Json.Reader Store := fun outline => do
  let draft <- Json.Reader.record [
    Json.Reader.field "contracts" Draft.contracts (fun cs d => { d with contracts := some cs })
      (Json.Reader.named Json.Outline.value)] {} outline
  let entries <- Json.Reader.required draft.contracts
  return { contracts := Json.collect entries, cache := [] }

def ofText (text : String) : Except Error Store :=
  match Json.read reader text with
  | .ok store => .ok store
  | .error fault => .error (.document fault)

def ofFile (tree : FileTree) (path : String) : Except Error Store :=
  match tree.readText path with
  | .ok text => ofText text
  | .error cause => .error (.io path cause)

def keys (store : Store) : List String :=
  (store.contracts.map Prod.fst).mergeSort fun a b => !decide (b < a)

def find (store : Store) (key : Key) : Except Error Contract :=
  match store.contracts.find? fun entry => entry.1 = key.toString with
  | none => .error (.notFound key.toString)
  | some entry =>
      match parseEntry key entry.2 with
      | .ok contract => .ok contract
      | .error defect => .error (.malformed key.toString defect)

/-- Loads a contract, from the cache where an equal key has been loaded before. -/
def load (store : Store) (key : Key) : Except Error (Shared Contract) × Store :=
  match store.cache.find? fun cached => cached.1 = key with
  | some cached => (.ok cached.2, store)
  | none =>
      match store.find key with
      | .error e => (.error e, store)
      | .ok contract =>
          let shared := { handle := store.cache.length, value := contract }
          (.ok shared, { store with cache := (key, shared) :: store.cache })

end Store
end Artifact
end KeyRegistry
