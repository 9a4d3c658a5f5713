import KeyRegistry.Program
import KeyRegistry.Receipt.Json

/-!
# Requests and answers on the wire

A request is a method name with its parameters under a number.  An answer holds a
result or an error of the node; an error counts first.  The result is read in the
way that the request expects, and quantities and data are texts.
-/

namespace KeyRegistry
namespace Rpc

/-- The record of a transaction.  A plan adds the gas limit and the gas price. -/
def transaction (call : Call) (plan : Option GasPlan) : Json :=
  let recipient :=
    match call.recipient? with
    | some a => [("to", Json.text a.toString)]
    | none => []
  let gas :=
    match plan with
    | some p =>
        [("gas", Json.text (Quantity.format64 p.limit)),
          ("gasPrice", Json.text (Quantity.format128 p.price))]
    | none => []
  .record ([("from", Json.text call.sender.toString)] ++ recipient ++
    [("data", Json.text (Data.format call.data)),
      ("value", Json.text (Quantity.format128 call.value))] ++ gas)

def envelope (id : Nat) (method : String) (params : List Json) : Json :=
  .record [
    ("jsonrpc", .text "2.0"),
    ("id", .ofNat id),
    ("method", .text method),
    ("params", .list params)]

/-! ## Answers -/

structure NodeFault where
  code : Int
  message : String
deriving DecidableEq, Repr

namespace NodeFault

structure Draft where
  code : Option Int := none
  message : Option String := none

def reader : Json.Reader NodeFault := fun outline => do
  let draft <- Json.Reader.record [
    Json.Reader.field "code" Draft.code (fun n d => { d with code := some n }) Json.Reader.int64,
    Json.Reader.field "message" Draft.message (fun s d => { d with message := some s })
      Json.Reader.text] {} outline
  let code <- Json.Reader.required draft.code
  let message <- Json.Reader.required draft.message
  return { code, message }

end NodeFault

/-- The body of an answer; a missing result is null. -/
structure Response where
  result : Json
  error : Option NodeFault

namespace Response

structure Draft where
  result : Option Json := none
  error : Option (Option NodeFault) := none

def reader : Json.Reader Response := fun outline => do
  let draft <- Json.Reader.record [
    Json.Reader.field "result" Draft.result (fun v d => { d with result := some v })
      Json.Outline.value,
    Json.Reader.field "error" Draft.error (fun e d => { d with error := some e })
      (Json.Reader.optional NodeFault.reader)] {} outline
  return { result := draft.result.getD .null, error := draft.error.getD none }

/-- The result of `method`, read by `reader`; the error of the node counts first. -/
def value {α : Type} (method : String) (reader : Json.Reader α) (response : Response) :
    Except RpcError α :=
  match response.error with
  | some fault => .error (.node fault.code fault.message)
  | none =>
      match Json.readValue reader response.result with
      | .ok a => .ok a
      | .error fault => .error (.decode (.result method fault))

end Response

def result {α : Type} (method : String) (reader : Json.Reader α) (body : String) :
    Except RpcError α :=
  match Json.read Response.reader body with
  | .ok response => response.value method reader
  | .error fault => .error (.decode (.body fault))

def textResult {α : Type} (method : String) (parse : String -> Except ValueError α)
    (body : String) : Except RpcError α :=
  match result method Json.Reader.text body with
  | .error e => .error e
  | .ok text =>
      match parse text with
      | .ok a => .ok a
      | .error cause => .error (.ofValueError cause)

end Rpc

namespace Request

def method : Request -> String
  | .accounts => "eth_accounts"
  | .unlock _ _ _ => "personal_unlockAccount"
  | .lock _ => "personal_lockAccount"
  | .gasPrice => "eth_gasPrice"
  | .estimateGas _ => "eth_estimateGas"
  | .execute _ => "eth_call"
  | .send _ _ => "eth_sendTransaction"
  | .receipt _ => "eth_getTransactionReceipt"
  | .pendingCount => "eth_getBlockTransactionCountByNumber"
  | .isMining => "eth_mining"
  | .startMining _ => "miner_start"
  | .stopMining => "miner_stop"
  | .blockNumber => "eth_blockNumber"
  | .subscribe _ => "eth_subscribe"

def params : Request -> List Json
  | .accounts => []
  | .unlock address passphrase duration =>
      [.text address.toString, .text passphrase, .ofNat duration.secs]
  | .lock address => [.text address.toString]
  | .gasPrice => []
  | .estimateGas call => [Rpc.transaction call none]
  | .execute call => [Rpc.transaction call none, .text "latest"]
  | .send call plan => [Rpc.transaction call (some plan)]
  | .receipt hash => [.text hash.toString]
  | .pendingCount => [.text "pending"]
  | .isMining => []
  | .startMining threads => [.ofNat threads.toNat]
  | .stopMining => []
  | .blockNumber => []
  | .subscribe feed => [.text feed.name]

/-- The error of a subscription that has no connection of its own. -/
def noEndpoint : RpcError :=
  .subscription "no websocket endpoint configured"

/-- What the text of an answer says to a request.  A subscription is never answered here. -/
def decode : (request : Request) -> String -> Except RpcError request.Value
  | .accounts => Rpc.result "eth_accounts" (.list (.parsed Address.parse))
  | .unlock _ _ _ => Rpc.result "personal_unlockAccount" .bool
  | .lock _ => Rpc.result "personal_lockAccount" .bool
  | .gasPrice => Rpc.textResult "eth_gasPrice" Quantity.parse128
  | .estimateGas _ => Rpc.textResult "eth_estimateGas" Quantity.parse64
  | .execute _ => Rpc.textResult "eth_call" Data.parse
  | .send _ _ => Rpc.result "eth_sendTransaction" (.parsed Hash.parse)
  | .receipt _ => Rpc.result "eth_getTransactionReceipt" (.optional Receipt.reader)
  | .pendingCount => Rpc.textResult "eth_getBlockTransactionCountByNumber" Quantity.parse64
  | .isMining => Rpc.result "eth_mining" .bool
  | .startMining _ => fun body => (Rpc.result "miner_start" Json.Outline.value body).map fun _ => ()
  | .stopMining => fun body => (Rpc.result "miner_stop" Json.Outline.value body).map fun _ => ()
  | .blockNumber => Rpc.textResult "eth_blockNumber" Quantity.parse64
  | .subscribe _ => fun _ => .error noEndpoint

end Request
end KeyRegistry
