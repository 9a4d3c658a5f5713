import KeyRegistry.Pipeline.Course
import KeyRegistry.Proofs.Program.History

/-!
# Histories of courses

A moment is one exchange together with the pipeline as it stood when the action
was performed.  A course unfolds in a list of moments; the exchanges of these
are a history of its program, and every history of its program comes from such a
list.
-/

namespace KeyRegistry
namespace Pipeline

open Program

structure Moment where
  pipeline : Pipeline
  exchange : Exchange

def exchanges (moments : List Moment) : List Exchange :=
  moments.map Moment.exchange

@[simp] theorem exchanges_nil : exchanges [] = [] := rfl

@[simp] theorem exchanges_cons (m : Moment) (moments : List Moment) :
    exchanges (m :: moments) = m.exchange :: exchanges moments :=
  rfl

@[simp] theorem exchanges_append (first rest : List Moment) :
    exchanges (first ++ rest) = exchanges first ++ exchanges rest :=
  List.map_append

@[simp] theorem exchanges_map_mk (p : Pipeline) (history : List Exchange) :
    exchanges (history.map (Moment.mk p)) = history := by
  induction history with
  | nil => rfl
  | cons e rest ih => rw [List.map_cons, exchanges_cons, ih]

namespace Course

inductive Unfolds {α : Type} : Course α -> List Moment -> Pipeline -> α -> Prop where
  | done (p : Pipeline) (a : α) : Unfolds (.done p a) [] p a
  | perform {p : Pipeline} {action : Action} {next : action.Reply -> Course α}
      {moments : List Moment} {q : Pipeline} {a : α} (reply : action.Reply) :
      Unfolds (next reply) moments q a ->
      Unfolds (.perform p action next) (⟨p, ⟨action, reply⟩⟩ :: moments) q a

theorem unfolds_done_iff {α : Type} {p q : Pipeline} {a b : α} {moments : List Moment} :
    Unfolds (.done p a) moments q b ↔ moments = [] ∧ q = p ∧ b = a := by
  constructor
  · intro h
    cases h
    exact ⟨rfl, rfl, rfl⟩
  · rintro ⟨rfl, rfl, rfl⟩
    exact Unfolds.done q b

theorem unfolds_perform_iff {α : Type} {p q : Pipeline} {action : Action}
    {next : action.Reply -> Course α} {moments : List Moment} {b : α} :
    Unfolds (.perform p action next) moments q b ↔
      ∃ reply rest, moments = ⟨p, ⟨action, reply⟩⟩ :: rest ∧ Unfolds (next reply) rest q b := by
  constructor
  · intro h
    cases h with
    | perform reply hrest => exact ⟨reply, _, rfl, hrest⟩
  · rintro ⟨reply, rest, rfl, hrest⟩
    exact Unfolds.perform reply hrest

theorem unfolds_bind_iff {α β : Type} {course : Course α} {f : Pipeline -> α -> Course β}
    {moments : List Moment} {q : Pipeline} {b : β} :
    Unfolds (course.bind f) moments q b ↔
      ∃ first p a rest,
        Unfolds course first p a ∧ Unfolds (f p a) rest q b ∧ moments = first ++ rest := by
  induction course generalizing moments with
  | done p a =>
      constructor
      · intro h
        exact ⟨[], p, a, moments, Unfolds.done p a, h, rfl⟩
      · rintro ⟨first, p', a', rest, hfirst, hrest, rfl⟩
        rcases unfolds_done_iff.mp hfirst with ⟨rfl, rfl, rfl⟩
        exact hrest
  | perform p action next ih =>
      constructor
      · intro h
        rcases unfolds_perform_iff.mp h with ⟨reply, tail, rfl, htail⟩
        rcases (ih reply).mp htail with ⟨first, p', a, rest, hfirst, hrest, rfl⟩
        exact ⟨_ :: first, p', a, rest, Unfolds.perform reply hfirst, hrest, rfl⟩
      · rintro ⟨first, p', a, rest, hfirst, hrest, rfl⟩
        rcases unfolds_perform_iff.mp hfirst with ⟨reply, tail, rfl, htail⟩
        exact Unfolds.perform reply ((ih reply).mpr ⟨tail, p', a, rest, htail, hrest, rfl⟩)

theorem unfolds_during_iff {α : Type} {p q : Pipeline} {program : Program α}
    {moments : List Moment} {a : α} :
    Unfolds (during p program) moments q a ↔
      ∃ history, Yields program history a ∧ moments = history.map (Moment.mk p) ∧ q = p := by
  induction program generalizing moments with
  | done b =>
      constructor
      · intro h
        rcases unfolds_done_iff.mp h with ⟨rfl, rfl, rfl⟩
        exact ⟨[], Yields.done a, rfl, rfl⟩
      · rintro ⟨history, hyields, rfl, rfl⟩
        rcases yields_done_iff.mp hyields with ⟨rfl, rfl⟩
        exact Unfolds.done q a
  | perform action next ih =>
      constructor
      · intro h
        rcases unfolds_perform_iff.mp h with ⟨reply, tail, rfl, htail⟩
        rcases (ih reply).mp htail with ⟨history, hyields, rfl, rfl⟩
        exact ⟨⟨action, reply⟩ :: history, Yields.perform reply hyields, rfl, rfl⟩
      · rintro ⟨history, hyields, rfl, rfl⟩
        rcases yields_perform_iff.mp hyields with ⟨reply, rest, rfl, hrest⟩
        exact Unfolds.perform reply ((ih reply).mpr ⟨rest, hrest, rfl, rfl⟩)

/-! ## Courses and their programs -/

theorem program_bind {α β : Type} (course : Course α) (f : Pipeline -> α -> Course β) :
    (course.bind f).program = course.program.bind fun answer => (f answer.2 answer.1).program := by
  induction course with
  | done p a => rfl
  | perform p action next ih =>
      simp only [bind, program, Program.bind]
      congr 1
      funext reply
      exact ih reply

theorem exists_unfolds_of_yields {α : Type} {course : Course α} {history : List Exchange}
    {q : Pipeline} {a : α} (h : Yields course.program history (a, q)) :
    ∃ moments, Unfolds course moments q a ∧ exchanges moments = history := by
  induction course generalizing history with
  | done p b =>
      rcases yields_done_iff.mp h with ⟨rfl, heq⟩
      cases heq
      exact ⟨[], Unfolds.done q a, rfl⟩
  | perform p action next ih =>
      rcases yields_perform_iff.mp h with ⟨reply, rest, rfl, hrest⟩
      rcases ih reply hrest with ⟨moments, hmoments, rfl⟩
      exact ⟨⟨p, ⟨action, reply⟩⟩ :: moments, Unfolds.perform reply hmoments, rfl⟩

/-- The moments of a course that runs in a world. -/
def moments {σ α : Type} (w : World σ) : Course α -> σ -> List Moment
  | .done _ _, _ => []
  | .perform p action next, s =>
      let (reply, s) := w.answer action s
      ⟨p, ⟨action, reply⟩⟩ :: moments w (next reply) s

theorem unfolds_moments {σ α : Type} (w : World σ) (course : Course α) (s : σ) :
    Unfolds course (course.moments w s)
      (course.program.run w s).1.2 (course.program.run w s).1.1 := by
  induction course generalizing s with
  | done p a => exact Unfolds.done p a
  | perform p action next ih => exact Unfolds.perform _ (ih _ _)

theorem exchanges_moments {σ α : Type} (w : World σ) (course : Course α) (s : σ) :
    exchanges (course.moments w s) = course.program.trace w s := by
  induction course generalizing s with
  | done p a => rfl
  | perform p action next ih =>
      simp only [moments, exchanges_cons, program, trace]
      rw [ih]

end Course
end Pipeline
end KeyRegistry
