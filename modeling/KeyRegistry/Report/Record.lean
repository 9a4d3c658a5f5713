import KeyRegistry.Pipeline.Steps
import KeyRegistry.Receipt.Json
import KeyRegistry.Report.Kind
import KeyRegistry.Rpc.Client

/-!
# Records of values

Values, results and errors as JSON records.  Amounts that may exceed the range
of a JSON reader's integers are written as decimal text.
-/

namespace KeyRegistry
namespace Report

def text (s : String) : Json := .text s

def decimal (n : Nat) : Json := .text (String.ofList (Numeral.decimalDigits n))

def number (n : Nat) : Json := .ofNat n

def bytes (bs : Bytes) : Json := .text (Hex.encode bs)

def address (a : Address) : Json := .text a.toString

def hash (h : Hash) : Json := .text h.toString

def optional {α : Type} (f : α -> Json) (a : Option α) : Json := Json.ofOption f a

def success (value : Json) : Json := .record [("ok", value)]

def failure (kind message : String) : Json :=
  .record [("error", text kind), ("message", text message)]

def result {ε : Type} (error : ε -> Json) : Except ε Json -> Json
  | .ok value => success value
  | .error e => error e

def valueError (e : ValueError) : Json :=
  failure e.kind e.message

def rpcError (e : RpcError) : Json :=
  .record ([("error", text e.kind), ("message", text e.message)] ++
    (e.code?.map fun code => ("code", Json.ofInt code)).toList)

def abiError (e : Abi.Error) : Json :=
  if e = .unreadableInterface then
    .record [("error", text e.kind)]
  else
    failure e.kind e.message

def artifactError (e : Artifact.Error) : Json :=
  match e with
  | .malformed key (.badInterface .unreadableInterface) =>
      .record [("error", text e.kind), ("key", text key),
        ("reason", text Abi.Error.unreadableInterface.message)]
  | .malformed key defect =>
      .record [("error", text e.kind), ("key", text key), ("reason", text defect.message),
        ("message", text e.message)]
  | .io _ cause => .record [("error", text e.kind), ("kind", text cause.kind)]
  | .document fault => .record [("error", text e.kind), ("category", text fault.kind)]
  | _ => failure e.kind e.message

def addressFileError (e : AddressFile.Error) : Json :=
  match e with
  | .io _ cause => .record [("error", text e.kind), ("kind", text cause.kind)]
  | .invalid _ cause => .record [("error", text e.kind), ("reason", text cause.message)]

def pipelineError (e : Pipeline.Error) : Json :=
  .record [("error", text e.kind), ("message", text e.message), ("stage", text e.stage.name),
    ("rpc", optional rpcError e.rpcError?)]

def miningError (e : Mining.Error) : Json :=
  match e with
  | .rpc cause =>
      .record [("error", text e.kind), ("message", text e.message), ("rpc", rpcError cause)]
  | .subscriptionLost _ _ => failure e.kind e.message

def plan (p : GasPlan) : Json :=
  .record [("price", decimal p.price.toNat), ("limit", decimal p.limit.toNat),
    ("max_fee", decimal p.maxFee)]

def outcome (o : Pipeline.Outcome) : Json :=
  let members :=
    match o with
    | .deployed a r => [("outcome", text "Deployed"), ("address", address a), ("receipt", r.toJson)]
    | .callResult value => [("outcome", text "CallResult"), ("value", bytes value)]
    | .sent r b => [("outcome", text "Sent"), ("receipt", r.toJson), ("success", .bool b)]
  .record (members ++ [("is_success", .bool o.isSuccess), ("has_receipt", .bool o.receipt?.isSome)])

def token : Abi.Token -> Json
  | .address a => .record [("address", address a)]
  | .bool b => .record [("bool", .bool b)]
  | .uint n => .record [("uint", decimal n.toNat)]
  | .text s => .record [("string", text s)]
  | .bytes bs => .record [("bytes", bytes bs)]

def tokens (ts : List Abi.Token) : Json :=
  .list (ts.map token)

def paramType : Abi.ParamType -> Json
  | .address => text "Address"
  | .bool => text "Bool"
  | .text => text "String"
  | .bytes => text "Bytes"
  | .uint bits => text ("Uint(" ++ toString bits ++ ")")

def params (ps : List Abi.Param) : Json :=
  .list (ps.map fun p => .list [text p.name, text p.type])

def function (f : Abi.Function) : Json :=
  .record [("name", text f.name), ("inputs", params f.inputs), ("outputs", params f.outputs),
    ("signature", text f.signature), ("selector", bytes f.selector),
    ("read_only", .bool f.readOnly)]

/-- A request as a node records it; of a call only its label. -/
def request : Request -> Json
  | .accounts => text "ListAccounts"
  | .unlock a _ d =>
      .record [("Unlock", .record [("address", address a), ("secs", decimal d.secs)])]
  | .lock a => .record [("Lock", address a)]
  | .gasPrice => text "GasPrice"
  | .estimateGas call => .record [("EstimateGas", text call.label)]
  | .execute call => .record [("Call", text call.label)]
  | .send call p =>
      .record [("Send", .record [("label", text call.label),
        ("gas_limit", decimal p.limit.toNat), ("gas_price", decimal p.price.toNat)])]
  | .receipt h => .record [("Receipt", hash h)]
  | .pendingCount => text "PendingCount"
  | .isMining => text "IsMining"
  | .startMining threads => .record [("StartMining", number threads.toNat)]
  | .stopMining => text "StopMining"
  | .blockNumber => text "BlockNumber"
  | .subscribe feed => .record [("Subscribe", text feed.name)]

def reply : (request : Request) -> request.Value -> Json
  | .accounts, accounts => .list (accounts.map address)
  | .unlock _ _ _, b => .bool b
  | .lock _, b => .bool b
  | .gasPrice, n => decimal n.toNat
  | .estimateGas _, n => decimal n.toNat
  | .execute _, value => bytes value
  | .send _ _, h => hash h
  | .receipt _, r => optional Receipt.toJson r
  | .pendingCount, n => decimal n.toNat
  | .isMining, b => .bool b
  | .startMining _, _ => .null
  | .stopMining, _ => .null
  | .blockNumber, n => decimal n.toNat
  | .subscribe feed, _ => text feed.name

def event : ChainEvent -> Json
  | .newBlock h n =>
      .record [("event", text "NewBlock"), ("hash", hash h),
        ("number", optional (fun n => decimal n.toNat) n)]
  | .pendingTransaction h => .record [("event", text "PendingTransaction"), ("hash", hash h)]

def miningReport (r : Mining.Report) : Json :=
  .record [("evaluations", number r.evaluations), ("failed_evaluations", number r.failedEvaluations),
    ("starts", number r.starts), ("stops", number r.stops), ("events", number r.events)]

def subscription (h : Rpc.Handle) : Json :=
  text ("Subscription \x7b kind: " ++ h.feed.kind ++ ", has_reader: " ++ toString h.hasReader ++ " \x7d")

/-- Whether the text of an error is fixed by the error; the text of a fault of transport or of a
document is not. -/
def isFixed : RpcError -> Bool
  | .connection _ => false
  | .timeout _ => false
  | .decode (.body _) => false
  | .decode (.result _ (.refused _)) => true
  | .decode (.result _ _) => false
  | _ => true

def requestError (e : RpcError) : Json :=
  if isFixed e then rpcError e else .record [("error", text e.kind)]

def controller (r : Except Mining.Error Json) (c : Mining.Controller) : Json :=
  .record [("result", result miningError r), ("report", miningReport c.report),
    ("state", optional (fun (o : Mining.Observation) =>
      .record [("is_mining", .bool o.isMining), ("threads", number o.threads.toNat)]) c.state)]

def pipeline (r : Except Pipeline.Error Json) (p : Pipeline) : Json :=
  .record [("result", result pipelineError r), ("state", text p.state.name),
    ("attempts", number p.attempts), ("plan", optional plan p.plan),
    ("hash", optional hash p.hash), ("label", text p.call.label)]

end Report
end KeyRegistry
