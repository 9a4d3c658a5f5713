import KeyRegistry.Abi.Layout
import KeyRegistry.Node.Scripted

/-!
# An emulated storage contract

A scripted node can stand in for a node on which the storage contract is
deployed: accepted `storeKey` transactions write to the contract's memory, and
read-only calls read from it.
-/

namespace KeyRegistry
namespace Node
namespace StorageEmulation

def twoStrings? (call : Call) : Option (String × String) :=
  match Abi.decode [.text, .text] (call.data.drop 4) with
  | .ok [.text id, .text key] => some (id, key)
  | _ => none

def insert (id key : String) (memory : List (String × String)) : List (String × String) :=
  (id, key) :: memory.filter fun entry => entry.1 ≠ id

def store (call : Call) (memory : List (String × String)) : List (String × String) :=
  if call.method? = some "storeKey" then
    match twoStrings? call with
    | some (id, key) => insert id key memory
    | none => memory
  else
    memory

def lookup (id : String) (memory : List (String × String)) : String :=
  ((memory.find? fun entry => entry.1 = id).map Prod.snd).getD ""

def encoded (type : Abi.ParamType) (token : Abi.Token) : Bytes :=
  ((Abi.encode [type] [token]).toOption).getD []

def read (writer : Address) (call : Call) (memory : List (String × String)) : Bytes :=
  let arguments := call.data.drop 4
  if call.method? = some "retrieveKey" then
    match Abi.decode [.text] arguments with
    | .ok [.text id] => encoded .text (.text (lookup id memory))
    | _ => []
  else if call.method? = some "hasWritePrivilege" then
    match Abi.decode [.address] arguments with
    | .ok [.address a] => encoded .bool (.bool (a = writer))
    | _ => []
  else
    []

def install (writer : Address) (s : State) : State :=
  { s with callScript := .computed (read writer), onSend := store }

end StorageEmulation
end Node
end KeyRegistry
