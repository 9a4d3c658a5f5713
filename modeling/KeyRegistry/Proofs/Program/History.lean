import KeyRegistry.Program

/-!
# Histories of programs

A history lists the exchanges of one run.  A program yields every history whose
replies lead it to an end, whatever world gives these replies.  What a sequence
of two programs yields is made of what each of them yields.
-/

namespace KeyRegistry
namespace Program

/-- `program` can have the exchanges of a history, in order, and end with a result. -/
inductive Yields {α : Type} : Program α -> List Exchange -> α -> Prop where
  | done (a : α) : Yields (.done a) [] a
  | perform {action : Action} {next : action.Reply -> Program α} {history : List Exchange}
      {a : α} (reply : action.Reply) :
      Yields (next reply) history a ->
      Yields (.perform action next) (⟨action, reply⟩ :: history) a

theorem yields_done_iff {α : Type} {a b : α} {history : List Exchange} :
    Yields (.done a) history b ↔ history = [] ∧ b = a := by
  constructor
  · intro h
    cases h
    exact ⟨rfl, rfl⟩
  · rintro ⟨rfl, rfl⟩
    exact Yields.done b

theorem yields_perform_iff {α : Type} {action : Action} {next : action.Reply -> Program α}
    {history : List Exchange} {b : α} :
    Yields (.perform action next) history b ↔
      ∃ reply rest, history = ⟨action, reply⟩ :: rest ∧ Yields (next reply) rest b := by
  constructor
  · intro h
    cases h with
    | perform reply hrest => exact ⟨reply, _, rfl, hrest⟩
  · rintro ⟨reply, rest, rfl, hrest⟩
    exact Yields.perform reply hrest

theorem yields_bind_iff {α β : Type} {program : Program α} {f : α -> Program β}
    {history : List Exchange} {b : β} :
    Yields (program.bind f) history b ↔
      ∃ first a rest, Yields program first a ∧ Yields (f a) rest b ∧ history = first ++ rest := by
  induction program generalizing history with
  | done a =>
      constructor
      · intro h
        exact ⟨[], a, history, Yields.done a, h, rfl⟩
      · rintro ⟨first, a', rest, hfirst, hrest, rfl⟩
        rcases yields_done_iff.mp hfirst with ⟨rfl, rfl⟩
        exact hrest
  | perform action next ih =>
      constructor
      · intro h
        rcases yields_perform_iff.mp h with ⟨reply, tail, rfl, htail⟩
        rcases (ih reply).mp htail with ⟨first, a, rest, hfirst, hrest, rfl⟩
        exact ⟨_ :: first, a, rest, Yields.perform reply hfirst, hrest, rfl⟩
      · rintro ⟨first, a, rest, hfirst, hrest, rfl⟩
        rcases yields_perform_iff.mp hfirst with ⟨reply, tail, rfl, htail⟩
        exact Yields.perform reply ((ih reply).mpr ⟨tail, a, rest, htail, hrest, rfl⟩)

theorem yields_act_bind_iff {β : Type} {action : Action} {f : action.Reply -> Program β}
    {history : List Exchange} {b : β} :
    Yields (act action >>= f) history b ↔
      ∃ reply rest, history = ⟨action, reply⟩ :: rest ∧ Yields (f reply) rest b :=
  yields_perform_iff

theorem trace_perform {σ α : Type} (w : World σ) (action : Action)
    (next : action.Reply -> Program α) (s : σ) :
    trace w (.perform action next) s =
      ⟨action, (w.answer action s).1⟩ ::
        trace w (next (w.answer action s).1) (w.answer action s).2 :=
  rfl

theorem run_perform {σ α : Type} (w : World σ) (action : Action)
    (next : action.Reply -> Program α) (s : σ) :
    run w (.perform action next) s =
      run w (next (w.answer action s).1) (w.answer action s).2 :=
  rfl

theorem yields_trace {σ α : Type} (w : World σ) (program : Program α) (s : σ) :
    Yields program (program.trace w s) (program.run w s).1 := by
  induction program generalizing s with
  | done a => exact Yields.done a
  | perform action next ih => exact Yields.perform _ (ih _ _)

theorem bind_eq_bind_bind {α β γ : Type} {program : Program α} {f : α -> Program γ}
    {g : α -> Program β} {h : β -> Program γ} (heq : forall a, f a = (g a).bind h) :
    program.bind f = (program.bind g).bind h := by
  rw [bind_assoc]
  congr 1
  funext a
  exact heq a

/-! ## Sequences in a world -/

theorem run_bind {σ α β : Type} (w : World σ) (program : Program α) (f : α -> Program β) (s : σ) :
    (program.bind f).run w s = (f (program.run w s).1).run w (program.run w s).2 := by
  induction program generalizing s with
  | done a => rfl
  | perform action next ih => exact ih _ _

theorem trace_bind {σ α β : Type} (w : World σ) (program : Program α) (f : α -> Program β)
    (s : σ) :
    (program.bind f).trace w s =
      program.trace w s ++ (f (program.run w s).1).trace w (program.run w s).2 := by
  induction program generalizing s with
  | done a => rfl
  | perform action next ih =>
      rw [Program.bind, trace_perform, trace_perform, ih]
      rfl

/-! ## Requests of a history -/

/-- A request with the node's answer to it. -/
abbrev Inquiry : Type :=
  (request : Request) × Except RpcError request.Value

def inquiry? : Exchange -> Option Inquiry
  | ⟨.ask request, answer⟩ => some ⟨request, answer⟩
  | _ => none

/-- What a history asks of the node, and what the node answers. -/
def inquiries (history : List Exchange) : List Inquiry :=
  history.filterMap inquiry?

@[simp] theorem inquiries_nil : inquiries [] = [] := rfl

@[simp] theorem inquiries_append (first rest : List Exchange) :
    inquiries (first ++ rest) = inquiries first ++ inquiries rest :=
  List.filterMap_append

@[simp] theorem inquiries_ask (request : Request) (answer : Except RpcError request.Value)
    (history : List Exchange) :
    inquiries (⟨.ask request, answer⟩ :: history) = ⟨request, answer⟩ :: inquiries history :=
  rfl

@[simp] theorem inquiries_sleep (d : Duration) (u : Unit) (history : List Exchange) :
    inquiries (⟨.sleep d, u⟩ :: history) = inquiries history :=
  rfl

@[simp] theorem inquiries_clock (now : Nat) (history : List Exchange) :
    inquiries (⟨.clock, now⟩ :: history) = inquiries history :=
  rfl

@[simp] theorem inquiries_guard (address : Address) (u : Unit) (history : List Exchange) :
    inquiries (⟨.guard address, u⟩ :: history) = inquiries history :=
  rfl

@[simp] theorem inquiries_release (u : Unit) (history : List Exchange) :
    inquiries (⟨.release, u⟩ :: history) = inquiries history :=
  rfl

/-- What `program` asks in a world, and its result there, are as described. -/
def Conforms {σ α : Type} (w : World σ) (s : σ) (program : Program α)
    (description : List Inquiry -> α -> Prop) : Prop :=
  description (inquiries (program.trace w s)) (program.run w s).1

end Program
end KeyRegistry
