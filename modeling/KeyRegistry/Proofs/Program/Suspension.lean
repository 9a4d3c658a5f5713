import KeyRegistry.Proofs.Program.History

/-!
# Suspended programs and open guards

A program can be cancelled only where it sleeps.  Which guards are open there is
a matter of the exchanges so far.  A balanced program closes every guard that it
has opened, and none that was open before it.
-/

namespace KeyRegistry

def Action.held : Action -> List Address -> List Address
  | .guard address, guards => address :: guards
  | .release, guards => guards.tail
  | _, guards => guards

namespace Program

/-! ## Suspension -/

/-- `program` can have the exchanges of a history, in order, and sleep then. -/
inductive Suspends {α : Type} : Program α -> List Exchange -> Prop where
  | asleep {d : Duration} {next : Unit -> Program α} : Suspends (.perform (.sleep d) next) []
  | perform {action : Action} {next : action.Reply -> Program α} {history : List Exchange}
      (reply : action.Reply) :
      Suspends (next reply) history ->
      Suspends (.perform action next) (⟨action, reply⟩ :: history)

theorem not_suspends_done {α : Type} {a : α} {history : List Exchange} :
    ¬ Suspends (.done a) history := by
  intro h
  cases h

theorem suspends_perform_iff {α : Type} {action : Action} {next : action.Reply -> Program α}
    {history : List Exchange} :
    Suspends (.perform action next) history ↔
      (∃ d, action = .sleep d) ∧ history = [] ∨
        ∃ reply rest, history = ⟨action, reply⟩ :: rest ∧ Suspends (next reply) rest := by
  constructor
  · intro h
    cases h with
    | asleep => exact Or.inl ⟨⟨_, rfl⟩, rfl⟩
    | perform reply hrest => exact Or.inr ⟨reply, _, rfl, hrest⟩
  · rintro (⟨⟨d, rfl⟩, rfl⟩ | ⟨reply, rest, rfl, hrest⟩)
    · exact Suspends.asleep
    · exact Suspends.perform reply hrest

theorem suspends_bind_iff {α β : Type} {program : Program α} {f : α -> Program β}
    {history : List Exchange} :
    Suspends (program.bind f) history ↔
      Suspends program history ∨
        ∃ first a rest, Yields program first a ∧ Suspends (f a) rest ∧ history = first ++ rest := by
  induction program generalizing history with
  | done a =>
      constructor
      · intro h
        exact Or.inr ⟨[], a, history, Yields.done a, h, rfl⟩
      · rintro (h | ⟨first, a', rest, hfirst, hrest, rfl⟩)
        · exact absurd h not_suspends_done
        · rcases yields_done_iff.mp hfirst with ⟨rfl, rfl⟩
          exact hrest
  | perform action next ih =>
      constructor
      · intro h
        rcases suspends_perform_iff.mp h with ⟨hsleep, rfl⟩ | ⟨reply, tail, rfl, htail⟩
        · exact Or.inl (suspends_perform_iff.mpr (Or.inl ⟨hsleep, rfl⟩))
        · rcases (ih reply).mp htail with hnext | ⟨first, a, rest, hfirst, hrest, rfl⟩
          · exact Or.inl (Suspends.perform reply hnext)
          · exact Or.inr ⟨_ :: first, a, rest, Yields.perform reply hfirst, hrest, rfl⟩
      · rintro (h | ⟨first, a, rest, hfirst, hrest, rfl⟩)
        · rcases suspends_perform_iff.mp h with ⟨hsleep, rfl⟩ | ⟨reply, tail, rfl, htail⟩
          · exact suspends_perform_iff.mpr (Or.inl ⟨hsleep, rfl⟩)
          · exact Suspends.perform reply ((ih reply).mpr (Or.inl htail))
        · rcases yields_perform_iff.mp hfirst with ⟨reply, tail, rfl, htail⟩
          exact Suspends.perform reply ((ih reply).mpr (Or.inr ⟨tail, a, rest, htail, hrest, rfl⟩))

/-- How a program ends: with a result, or cancelled in its sleep. -/
def Ends {α : Type} (program : Program α) (history : List Exchange) : Option α -> Prop
  | some a => Yields program history a
  | none => Suspends program history

theorem Ends.perform {α : Type} {action : Action} {next : action.Reply -> Program α}
    {reply : action.Reply} {history : List Exchange} {outcome : Option α}
    (h : (next reply).Ends history outcome) :
    (Program.perform action next).Ends (⟨action, reply⟩ :: history) outcome := by
  cases outcome with
  | some a => exact Yields.perform reply h
  | none => exact Suspends.perform reply h

theorem ends_act_bind {β : Type} {action : Action} {f : action.Reply -> Program β}
    {history : List Exchange} {outcome : Option β} (hawake : forall d, action ≠ .sleep d)
    (h : (act action >>= f).Ends history outcome) :
    ∃ reply rest, history = ⟨action, reply⟩ :: rest ∧ (f reply).Ends rest outcome := by
  cases outcome with
  | some b => exact yields_act_bind_iff.mp h
  | none =>
      rcases suspends_perform_iff.mp h with ⟨⟨d, hsleep⟩, _⟩ | hmore
      · exact absurd hsleep (hawake d)
      · exact hmore

theorem ends_bind {α β : Type} {program : Program α} {f : α -> Program β}
    {history : List Exchange} {outcome : Option β} (h : (program.bind f).Ends history outcome) :
    outcome = none ∧ Suspends program history ∨
      ∃ first a rest, Yields program first a ∧ (f a).Ends rest outcome ∧
        history = first ++ rest := by
  cases outcome with
  | some b => exact Or.inr (yields_bind_iff.mp h)
  | none =>
      rcases suspends_bind_iff.mp h with hsuspends | hmore
      · exact Or.inl ⟨rfl, hsuspends⟩
      · exact Or.inr hmore

theorem ends_done {α : Type} {a : α} {history : List Exchange} {outcome : Option α}
    (h : (Program.done a).Ends history outcome) : history = [] ∧ outcome = some a := by
  cases outcome with
  | some b =>
      rcases yields_done_iff.mp h with ⟨rfl, rfl⟩
      exact ⟨rfl, rfl⟩
  | none => exact absurd h not_suspends_done

/-! ## Open guards -/

def openGuards (guards : List Address) (history : List Exchange) : List Address :=
  history.foldl (fun guards e => e.1.held guards) guards

@[simp] theorem openGuards_nil (guards : List Address) : openGuards guards [] = guards := rfl

@[simp] theorem openGuards_cons (guards : List Address) (e : Exchange) (history : List Exchange) :
    openGuards guards (e :: history) = openGuards (e.1.held guards) history :=
  rfl

/-- The program keeps to its own guards: none of them is open when it is done, and where it sleeps
those that were open before it are still open. -/
structure Balanced {α : Type} (program : Program α) : Prop where
  closes : forall history a, Yields program history a ->
    forall guards, openGuards guards history = guards
  keeps : forall history, Suspends program history ->
    forall guards, openGuards guards history = openGuards [] history ++ guards

def Every {α : Type} (allowed : Action -> Prop) : Program α -> Prop
  | .done _ => True
  | .perform action next => allowed action ∧ forall reply, Every allowed (next reply)

theorem Every.mono {α : Type} {allowed allowed' : Action -> Prop} {program : Program α}
    (h : program.Every allowed) (himp : forall action, allowed action -> allowed' action) :
    program.Every allowed' := by
  induction program with
  | done a => trivial
  | perform action next ih => exact ⟨himp action h.1, fun reply => ih reply (h.2 reply)⟩

theorem Every.bind {α β : Type} {allowed : Action -> Prop} {program : Program α}
    {f : α -> Program β} (h : program.Every allowed) (hf : forall a, (f a).Every allowed) :
    (program.bind f).Every allowed := by
  induction program with
  | done a => exact hf a
  | perform action next ih => exact ⟨h.1, fun reply => ih reply (h.2 reply)⟩

theorem Every.of_ends {α : Type} {allowed : Action -> Prop} {program : Program α}
    (hevery : program.Every allowed) {history : List Exchange} {outcome : Option α}
    (h : program.Ends history outcome) : forall e, e ∈ history -> allowed e.1 := by
  induction program generalizing history with
  | done a =>
      rcases ends_done h with ⟨rfl, rfl⟩
      simp
  | perform action next ih =>
      have hcases : history = [] ∨
          ∃ reply rest, history = ⟨action, reply⟩ :: rest ∧ (next reply).Ends rest outcome := by
        cases outcome with
        | some a => exact Or.inr (yields_perform_iff.mp h)
        | none =>
            rcases suspends_perform_iff.mp h with ⟨_, hnil⟩ | hmore
            · exact Or.inl hnil
            · exact Or.inr hmore
      rcases hcases with rfl | ⟨reply, rest, rfl, hrest⟩
      · simp
      · exact List.forall_mem_cons.mpr ⟨hevery.1, ih reply (hevery.2 reply) hrest⟩

def Unguarded (action : Action) : Prop :=
  forall guards, action.held guards = guards

theorem openGuards_of_unguarded {history : List Exchange}
    (h : forall e, e ∈ history -> Unguarded e.1) (guards : List Address) :
    openGuards guards history = guards := by
  induction history with
  | nil => rfl
  | cons e history ih =>
      rw [openGuards_cons, h e List.mem_cons_self guards]
      exact ih fun e he => h e (List.mem_cons_of_mem _ he)

theorem balanced_of_unguarded {α : Type} {program : Program α} (h : program.Every Unguarded) :
    Balanced program where
  closes history a hyields guards :=
    openGuards_of_unguarded (h.of_ends (show program.Ends history (some a) from hyields)) guards
  keeps history hsuspends guards := by
    have hnone := h.of_ends (show program.Ends history none from hsuspends)
    rw [openGuards_of_unguarded hnone, openGuards_of_unguarded hnone]
    rfl

end Program
end KeyRegistry
