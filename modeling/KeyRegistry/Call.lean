import KeyRegistry.Address
import KeyRegistry.Hash

/-!
# Calls

A call is one intended contract interaction: the creation of a contract from a
payload, or the invocation of a method of a deployed contract.  The digest of a
call binds sender, kind, recipient, value and data, and leaves the method label
out.
-/

namespace KeyRegistry

inductive Call.Target where
  | creation
  | method (contract : Address) (name : String)
deriving DecidableEq

structure Call where
  sender : Address
  target : Call.Target
  data : Bytes
  value : BitVec 128
deriving DecidableEq

namespace Call

def deploy (sender : Address) (payload : Bytes) : Call :=
  { sender, target := .creation, data := payload, value := 0 }

def invoke (sender contract : Address) (name : String) (data : Bytes) : Call :=
  { sender, target := .method contract name, data, value := 0 }

def withValue (call : Call) (value : BitVec 128) : Call :=
  { call with value }

def recipient? (call : Call) : Option Address :=
  match call.target with
  | .creation => none
  | .method contract _ => some contract

def method? (call : Call) : Option String :=
  match call.target with
  | .creation => none
  | .method _ name => some name

def isDeploy (call : Call) : Bool :=
  call.recipient?.isNone

def label (call : Call) : String :=
  call.method?.getD "deploy"

def preimage (call : Call) : List Bytes :=
  [Text.encode (if call.isDeploy then "create" else "call"),
    call.sender.bytes,
    (call.recipient?.getD Address.zero).bytes,
    Bytes.ofNatBE 16 call.value.toNat,
    call.data]

def digest (call : Call) : Hash :=
  Hash.keccakAll call.preimage

end Call
end KeyRegistry
