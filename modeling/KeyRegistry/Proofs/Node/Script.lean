import KeyRegistry.Node.StorageEmulation
import KeyRegistry.Proofs.Program.History

/-!
# Scripted runs of an emulated contract

A script changes the settings of a node before every action, and leaves alone the
contract that is deployed on it.  What is stored after a run then depends on the
conversation only: accepted transactions write to the memory, and nothing else
does.
-/

namespace KeyRegistry
namespace Node

open Program

/-- The settings of a node before each action, and the clock. -/
structure Script where
  setting : Nat -> State -> State
  clock : Nat -> Nat
  callScript_setting : forall n s, (setting n s).callScript = s.callScript
  onSend_setting : forall n s, (setting n s).onSend = s.onSend
  memory_setting : forall n s, (setting n s).memory = s.memory

namespace Script

def reply (now : Nat) (node : State) : (action : Action) -> action.Reply × State
  | .ask request => node.answer request
  | .sleep _ => ((), node)
  | .clock => (now, node)
  | .guard _ => ((), node)
  | .release => ((), node)
  | .drain subscription => node.drainEvents subscription
  | .cancel subscription => ((), node.cancel subscription)

/-- The world of a node that follows a script; its state counts the actions. -/
def world (script : Script) : World (State × Nat) where
  answer action s :=
    let (answer, node) := reply (script.clock s.2) (script.setting s.2 s.1) action
    (answer, (node, s.2 + 1))

end Script

namespace StorageEmulation

structure Hosts (writer : Address) (node : State) : Prop where
  callScript_eq : node.callScript = .computed (read writer)
  onSend_eq : node.onSend = store

def accepts : Inquiry -> Bool
  | ⟨.send _ _, .ok _⟩ => true
  | _ => false

def written : List (String × String) -> Inquiry -> List (String × String)
  | memory, ⟨.send call _, .ok _⟩ => store call memory
  | memory, _ => memory

def applied (asked : List Inquiry) (memory : List (String × String)) : List (String × String) :=
  asked.foldl written memory

theorem applied_append (first rest : List Inquiry) (memory : List (String × String)) :
    applied (first ++ rest) memory = applied rest (applied first memory) :=
  List.foldl_append

variable {writer : Address} {node : State}

theorem hosts_install (writer : Address) (node : State) : Hosts writer (install writer node) :=
  ⟨rfl, rfl⟩

theorem hosts_respond (h : Hosts writer node) (request : Request) :
    Hosts writer (node.respond request).2 ∧
      (node.respond request).2.memory =
        applied [⟨request, (node.respond request).1⟩] node.memory := by
  cases request with
  | send call plan =>
      rw [State.respond]
      cases hqueued : node.sendErrors with
      | nil =>
          refine ⟨⟨h.callScript_eq, h.onSend_eq⟩, ?_⟩
          simp only [State.accept, applied, List.foldl, written, h.onSend_eq]
      | cons e es => exact ⟨⟨h.callScript_eq, h.onSend_eq⟩, rfl⟩
  | gasPrice =>
      rw [State.respond]
      split <;> exact ⟨⟨h.callScript_eq, h.onSend_eq⟩, rfl⟩
  | pendingCount =>
      rw [State.respond]
      split <;> exact ⟨⟨h.callScript_eq, h.onSend_eq⟩, rfl⟩
  | startMining threads =>
      rw [State.respond]
      split <;> exact ⟨⟨h.callScript_eq, h.onSend_eq⟩, rfl⟩
  | stopMining =>
      rw [State.respond]
      split <;> exact ⟨⟨h.callScript_eq, h.onSend_eq⟩, rfl⟩
  | subscribe feed =>
      rw [State.respond]
      split <;> exact ⟨⟨h.callScript_eq, h.onSend_eq⟩, rfl⟩
  | _ => exact ⟨⟨h.callScript_eq, h.onSend_eq⟩, rfl⟩

theorem hosts_answer (h : Hosts writer node) (request : Request) :
    Hosts writer (node.answer request).2 ∧
      (node.answer request).2.memory =
        applied [⟨request, (node.answer request).1⟩] node.memory := by
  have hrecorded : Hosts writer { node with calls := request :: node.calls } :=
    ⟨h.callScript_eq, h.onSend_eq⟩
  exact hosts_respond hrecorded request

theorem hosts_setting (script : Script) (n : Nat) (h : Hosts writer node) :
    Hosts writer (script.setting n node) :=
  ⟨(script.callScript_setting n node).trans h.callScript_eq,
    (script.onSend_setting n node).trans h.onSend_eq⟩

theorem hosts_reply (now : Nat) (h : Hosts writer node) (action : Action) :
    Hosts writer (Script.reply now node action).2 ∧
      (Script.reply now node action).2.memory =
        applied (inquiries [⟨action, (Script.reply now node action).1⟩]) node.memory := by
  cases action with
  | ask request => exact hosts_answer h request
  | sleep duration => exact ⟨h, rfl⟩
  | clock => exact ⟨h, rfl⟩
  | guard address => exact ⟨h, rfl⟩
  | release => exact ⟨h, rfl⟩
  | drain subscription => exact ⟨⟨h.callScript_eq, h.onSend_eq⟩, rfl⟩
  | cancel subscription => exact ⟨⟨h.callScript_eq, h.onSend_eq⟩, rfl⟩

theorem hosts_world (script : Script) {s : State × Nat} (h : Hosts writer s.1)
    (action : Action) :
    Hosts writer (script.world.answer action s).2.1 ∧
      (script.world.answer action s).2.1.memory =
        applied (inquiries [⟨action, (script.world.answer action s).1⟩]) s.1.memory := by
  have hset := hosts_setting script s.2 h
  rw [← script.memory_setting s.2 s.1]
  exact hosts_reply (script.clock s.2) hset action

/-- Through every run the contract stays deployed, and the memory is what the conversation
makes of it. -/
theorem hosts_run {α : Type} (script : Script) (program : Program α) {s : State × Nat}
    (h : Hosts writer s.1) :
    Hosts writer (program.run script.world s).2.1 ∧
      (program.run script.world s).2.1.memory =
        applied (inquiries (program.trace script.world s)) s.1.memory := by
  induction program generalizing s with
  | done a => exact ⟨h, rfl⟩
  | perform action next ih =>
      rcases hosts_world script h action with ⟨hnext, hmemory⟩
      rcases ih (script.world.answer action s).1 hnext with ⟨hrun, hrest⟩
      refine ⟨hrun, ?_⟩
      rw [trace_perform, ← List.singleton_append, inquiries_append, applied_append, ← hmemory]
      exact hrest

theorem answer_execute (script : Script) {s : State × Nat} (h : Hosts writer s.1) (call : Call) :
    (script.world.answer (.ask (.execute call)) s).1 = .ok (read writer call s.1.memory) := by
  have hset := hosts_setting script s.2 h
  have hanswer : (script.world.answer (.ask (.execute call)) s).1 =
      (script.setting s.2 s.1).executeCall call := rfl
  rw [hanswer, State.executeCall, hset.callScript_eq, script.memory_setting]

theorem execute_of_inquiries {α : Type} (script : Script) (program : Program α)
    {s : State × Nat} (h : Hosts writer s.1) {call : Call} {answer : Except RpcError Bytes}
    {rest : List Inquiry}
    (hasked : inquiries (program.trace script.world s) = ⟨.execute call, answer⟩ :: rest) :
    answer = .ok (read writer call s.1.memory) := by
  induction program generalizing s with
  | done a => cases hasked
  | perform action next ih =>
      rcases hosts_world script h action with ⟨hnext, hmemory⟩
      rw [trace_perform] at hasked
      cases action with
      | ask request =>
          rcases Sigma.mk.inj (List.cons.inj hasked).1 with ⟨rfl, hsame⟩
          rw [← eq_of_heq hsame]
          exact answer_execute script h call
      | _ =>
          have hread := ih _ hnext hasked
          rw [hmemory] at hread
          exact hread

end StorageEmulation
end Node
end KeyRegistry
