import KeyRegistry.Rpc.Subscription

/-!
# The client of a node

The client numbers its requests from one, sends each of them once, and reads the
answer, whatever the status under which it comes.  What becomes of a request in
transport is up to the network.
-/

namespace KeyRegistry
namespace Rpc

/-- What becomes of a request that has reached the node. -/
inductive Delivery where
  | answered (body : Bytes)
  /-- The connection ends before an answer has come. -/
  | dropped
  /-- No answer comes in time. -/
  | unanswered
deriving DecidableEq, Repr

/-- Whether connections to the node can be made, and how it treats the requests to come; where
nothing is said of a request, it is dropped. -/
inductive Network where
  | unreachable
  | serving (script : List Delivery)
deriving DecidableEq, Repr

/-- How the node treats the subscriptions to come: the frames that arrive on each connection. -/
inductive Endpoint where
  | missing
  | unreachable
  | serving (connections : List (List Frame))
deriving DecidableEq, Repr

structure Client where
  network : Network
  endpoint : Endpoint
  nextId : UInt64
  /-- The requests that have reached the node, in order. -/
  received : List Json
  subscriptions : List Feeding
  /-- Nanoseconds since the start. -/
  now : Nat

namespace Client

def new (network : Network) (endpoint : Endpoint) : Client :=
  { network, endpoint, nextId := 1, received := [], subscriptions := [], now := 0 }

def exchange (c : Client) (method : String) (params : List Json) :
    Except RpcError String × Client :=
  let message := envelope c.nextId.toNat method params
  let c := { c with nextId := c.nextId + 1 }
  match c.network with
  | .unreachable => (.error (.connection "no connection to the node"), c)
  | .serving script =>
      let c := { c with network := .serving script.tail, received := c.received ++ [message] }
      match script with
      | .answered body :: _ => (.ok (Json.textOf body), c)
      | .unanswered :: _ => (.error (.timeout "no answer from the node in time"), c)
      | _ => (.error (.connection "the node closed the connection"), c)

def subscribe (c : Client) (feed : Feed) : Except RpcError Nat × Client :=
  match c.endpoint with
  | .missing => (.error Request.noEndpoint, c)
  | .unreachable => (.error (.connection "no connection to the node"), c)
  | .serving [] => (.error (.connection "no connection to the node"), c)
  | .serving (frames :: connections) =>
      let c := { c with endpoint := .serving connections }
      match awaitAcknowledgement feed frames with
      | .error e => (.error e, c)
      | .ok (name, frames) =>
          (.ok c.subscriptions.length,
            { c with subscriptions := c.subscriptions ++ [Feeding.new name feed bufferSize frames] })

def ask (c : Client) : (request : Request) -> Except RpcError request.Value × Client
  | .subscribe feed => c.subscribe feed
  | request =>
      match c.exchange request.method request.params with
      | (.ok body, c) => (request.decode body, c)
      | (.error e, c) => (.error e, c)

def withSubscription (c : Client) (subscription : Nat) (f : Feeding -> Feeding) : Client :=
  { c with subscriptions := c.subscriptions.modify subscription f }

/-- The world of a program that talks to a node over a client, and that alone makes time pass. -/
def world : World Client where
  answer
    | .ask request, c => c.ask request
    | .sleep d, c => ((), { c with now := c.now + d.nanos })
    | .clock, c => (c.now, c)
    | .guard _, c => ((), c)
    | .release, c => ((), c)
    | .drain subscription, c =>
        let queued := ((c.subscriptions[subscription]?).map Feeding.queue).getD []
        (queued, c.withSubscription subscription fun s =>
          s.run (List.replicate queued.length .take))
    | .cancel subscription, c =>
        ((), c.withSubscription subscription fun s => s.run [.cancel, .notice])

end Client
end Rpc
end KeyRegistry
