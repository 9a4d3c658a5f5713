import KeyRegistry.Artifact.Store
import KeyRegistry.Pipeline.Steps
import KeyRegistry.Session

/-!
# The storage contract

The contract keeps one key under each identifier and knows who may write:

- `storeKey(string id, string key)`
- `retrieveKey(string id) -> string`
- `hasWritePrivilege(address account) -> bool`
-/

namespace KeyRegistry

structure StorageContract where
  artifact : Artifact.Contract
  address : Address
  config : Pipeline.Config

namespace StorageContract

def artifactKey : Artifact.Key := { source := "contract.sol", contract := "Storage" }

def transact (session : Session) (passphrase : String) (config : Pipeline.Config) (call : Call) :
    Program (Except Pipeline.Error Pipeline.Outcome) :=
  session.withUnlockedAccount call.sender passphrase do
    return (<- Pipeline.run (Pipeline.new call config)).1

def deploy (artifact : Artifact.Contract) (config : Pipeline.Config) (session : Session)
    (sender : Address) (passphrase : String) :
    Program (Except Pipeline.Error Pipeline.Outcome) :=
  match artifact.creationPayload [] with
  | .error e => return .error (.abi e)
  | .ok payload => transact session passphrase config (Call.deploy sender payload)

def storeKey (contract : StorageContract) (session : Session) (sender : Address)
    (passphrase id key : String) : Program (Except Pipeline.Error Pipeline.Outcome) :=
  match contract.artifact.interface.encodeCall "storeKey" [.text id, .text key] with
  | .error e => return .error (.abi e)
  | .ok data =>
      transact session passphrase contract.config
        (Call.invoke sender contract.address "storeKey" data)

def query (contract : StorageContract) (caller : Address) (method : String)
    (args : List Abi.Token) : Program (Except Pipeline.Error Abi.Token) :=
  match contract.artifact.interface.encodeCall method args with
  | .error e => return .error (.abi e)
  | .ok data => do
      let call := Call.invoke caller contract.address method data
      match (<- Pipeline.query (Pipeline.new call contract.config)).1 with
      | .error e => return .error e
      | .ok (.callResult value) =>
          match contract.artifact.interface.decodeOutput method value with
          | .error e => return .error (.abi e)
          | .ok [] => return .error (.abi .truncated)
          | .ok (token :: _) => return .ok token
      | .ok _ => return .error (.abi .truncated)

def retrieveKey (contract : StorageContract) (caller : Address) (id : String) :
    Program (Except Pipeline.Error String) := do
  match <- contract.query caller "retrieveKey" [.text id] with
  | .error e => return .error e
  | .ok token => return token.toText.mapError .abi

def hasWritePrivilege (contract : StorageContract) (caller account : Address) :
    Program (Except Pipeline.Error Bool) := do
  match <- contract.query caller "hasWritePrivilege" [.address account] with
  | .error e => return .error e
  | .ok token => return token.toBool.mapError .abi

end StorageContract
end KeyRegistry
