import KeyRegistry.Proofs.Program.History
import KeyRegistry.Proofs.Text.Utf8
import KeyRegistry.Rpc.Client

/-!
# What becomes of requests in transport

Where a program only asks the node, its requests meet the entries of the
network's script one after another: the answer to each request is decided by the
entry at its place, and every request reaches a serving node as one numbered
message.  The body of an answer is any byte string; one in UTF-8 is read as its text.
-/

namespace KeyRegistry

open Program

namespace Json

/-! ## Bodies -/

theorem charsOf_drop {inside : Nat} (escaping : Bool) {dropped : Bytes} (h : dropped.length = inside)
    (bs : Bytes) : charsOf inside escaping (dropped ++ bs) = charsOf 0 escaping bs := by
  induction dropped generalizing inside with
  | nil =>
      subst h
      rfl
  | cons b dropped ih =>
      subst h
      exact ih rfl

theorem charsOf_encode (cs : List Char) (escaping : Bool) :
    charsOf 0 escaping (cs.flatMap String.utf8EncodeChar) = cs := by
  induction cs generalizing escaping with
  | nil => rfl
  | cons c cs ih =>
      have hsize := String.length_utf8EncodeChar c
      have hfirst := Text.firstChar?_append c (cs.flatMap String.utf8EncodeChar)
      rw [List.flatMap_cons]
      cases hbytes : String.utf8EncodeChar c with
      | nil =>
          rw [hbytes] at hsize
          exact absurd hsize (Nat.ne_of_lt c.utf8Size_pos)
      | cons b dropped =>
          rw [hbytes] at hsize hfirst
          have hinside : dropped.length = c.utf8Size - 1 := by
            rw [← hsize]
            rfl
          rw [List.cons_append] at hfirst ⊢
          rw [charsOf, hfirst]
          show c :: charsOf (c.utf8Size - 1) _ (dropped ++ _) = c :: cs
          rw [charsOf_drop _ hinside, ih]

theorem textOf_encode (s : String) : textOf (Text.encode s) = s := by
  rw [← String.ofList_toList (s := s), Text.encode_ofList, textOf, charsOf_encode]

theorem readText_strayEscape (fuel : Nat) (acc rest : List Char) :
    readText (fuel + 1) acc (strayEscape ++ rest) = .error .malformed := rfl

theorem skipText_strayEscape (fuel : Nat) (rest : List Char) :
    skipText (fuel + 2) (strayEscape ++ rest) = skipText fuel rest := rfl

end Json

/-- The answer to a request by what becomes of it in transport; `none` stands for a connection
that cannot be made. -/
def Request.answerTo (request : Request) : Option Rpc.Delivery -> Except RpcError request.Value
  | none => .error (.connection "no connection to the node")
  | some .dropped => .error (.connection "the node closed the connection")
  | some .unanswered => .error (.timeout "no answer from the node in time")
  | some (.answered body) => request.decode (Json.textOf body)

namespace Rpc

namespace Network

/-- What becomes of the request that follows `n` others. -/
def fate : Network -> Nat -> Option Delivery
  | .unreachable, _ => none
  | .serving script, n => some ((script[n]?).getD .dropped)

def rest : Network -> Network
  | .unreachable => .unreachable
  | .serving script => .serving script.tail

def heard : Network -> List Json -> List Json
  | .unreachable, _ => []
  | .serving _, messages => messages

theorem fate_rest (network : Network) (n : Nat) : network.rest.fate n = network.fate (n + 1) := by
  cases network with
  | unreachable => rfl
  | serving script => simp [rest, fate]

theorem heard_cons (network : Network) (message : Json) (messages : List Json) :
    network.heard (message :: messages) =
      network.heard [message] ++ network.rest.heard messages := by
  cases network with
  | unreachable => rfl
  | serving script => rfl

end Network

/-- The messages of requests that are numbered from `id` on. -/
def envelopes : UInt64 -> List Inquiry -> List Json
  | _, [] => []
  | id, i :: asked => envelope id.toNat i.1.method i.1.params :: envelopes (id + 1) asked

def SharesConnection (request : Request) : Prop :=
  forall feed, request ≠ .subscribe feed

namespace Client

def requested (c : Client) (request : Request) : Client :=
  { c with
    network := c.network.rest
    nextId := c.nextId + 1
    received := c.received ++
      c.network.heard [envelope c.nextId.toNat request.method request.params] }

theorem ask_eq {request : Request} (c : Client) (hshares : SharesConnection request) :
    c.ask request = (request.answerTo (c.network.fate 0), c.requested request) := by
  have hask : c.ask request =
      ((c.exchange request.method request.params).1.bind request.decode,
        (c.exchange request.method request.params).2) := by
    rw [ask]
    · cases hexchange : c.exchange request.method request.params with
      | mk answer after => cases answer <;> rfl
    · exact hshares
  rw [hask, exchange, requested]
  cases hnetwork : c.network with
  | unreachable =>
      simp [Network.fate, Network.rest, Network.heard, Request.answerTo, Except.bind]
  | serving script =>
      cases script with
      | nil => rfl
      | cons delivery script =>
          cases delivery with
          | answered body => rfl
          | dropped => rfl
          | unanswered => rfl

/-- An action that asks the node nothing leaves the connection alone, and is no part of the
conversation. -/
theorem answer_silent {action : Action} (c : Client) (h : forall request, action ≠ .ask request) :
    (world.answer action c).2.network = c.network ∧
      (world.answer action c).2.nextId = c.nextId ∧
      (world.answer action c).2.received = c.received ∧
      forall history : List Exchange,
        inquiries (⟨action, (world.answer action c).1⟩ :: history) = inquiries history := by
  cases action with
  | ask request => exact absurd rfl (h request)
  | _ => exact ⟨rfl, rfl, rfl, fun _ => rfl⟩

theorem asks_or_silent (action : Action) :
    (∃ request, action = .ask request) ∨ forall request, action ≠ .ask request := by
  cases action with
  | ask request => exact Or.inl ⟨request, rfl⟩
  | _ => exact Or.inr fun request heq => by cases heq

theorem answer_of_trace {α : Type} {program : Program α} {c : Client}
    {before after : List Exchange} {request : Request} {answer : Except RpcError request.Value}
    (hshares : forall i, i ∈ inquiries (program.trace world c) -> SharesConnection i.1)
    (h : program.trace world c = before ++ ⟨.ask request, answer⟩ :: after) :
    answer = request.answerTo (c.network.fate (inquiries before).length) := by
  induction program generalizing c before with
  | done a => simp [trace] at h
  | perform action next ih =>
      rw [trace_perform] at h hshares
      cases before with
      | nil =>
          rcases Sigma.mk.inj (List.cons.inj h).1 with ⟨rfl, hanswer⟩
          rw [← eq_of_heq hanswer]
          have hfirst : SharesConnection request := hshares _ List.mem_cons_self
          exact congrArg Prod.fst (ask_eq c hfirst)
      | cons e before =>
          rcases List.cons.inj h with ⟨rfl, hrest⟩
          rcases asks_or_silent action with ⟨asked, rfl⟩ | hsilent
          · rw [inquiries_ask, List.forall_mem_cons] at hshares
            have hafter : (world.answer (.ask asked) c).2 = c.requested asked :=
              congrArg Prod.snd (ask_eq c hshares.1)
            rw [inquiries_ask, List.length_cons, ← Network.fate_rest, ih _ hshares.2 hrest, hafter]
            rfl
          · rcases answer_silent c hsilent with ⟨hnetwork, _, _, hnone⟩
            rw [hnone] at hshares ⊢
            rw [ih _ hshares hrest, hnetwork]

theorem received_run {α : Type} {program : Program α} {c : Client}
    (hshares : forall i, i ∈ inquiries (program.trace world c) -> SharesConnection i.1) :
    (program.run world c).2.received =
      c.received ++
        c.network.heard (envelopes c.nextId (inquiries (program.trace world c))) := by
  induction program generalizing c with
  | done a =>
      rw [trace, inquiries_nil, envelopes]
      cases hnetwork : c.network <;> simp [Network.heard, run]
  | perform action next ih =>
      rw [trace_perform] at hshares ⊢
      have hrun : ((Program.perform action next).run world c).2.received =
          ((next (world.answer action c).1).run world (world.answer action c).2).2.received := rfl
      rcases asks_or_silent action with ⟨asked, rfl⟩ | hsilent
      · rw [inquiries_ask, List.forall_mem_cons] at hshares
        have hafter : (world.answer (.ask asked) c).2 = c.requested asked :=
          congrArg Prod.snd (ask_eq c hshares.1)
        rw [hrun, ih _ hshares.2, inquiries_ask, envelopes, Network.heard_cons, hafter,
          ← List.append_assoc]
        rfl
      · rcases answer_silent c hsilent with ⟨hnetwork, hid, hreceived, hnone⟩
        rw [hnone] at hshares ⊢
        rw [hrun, ih _ hshares, hreceived, hnetwork, hid]

end Client
end Rpc
end KeyRegistry
