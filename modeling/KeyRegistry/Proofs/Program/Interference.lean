import KeyRegistry.Proofs.Program.Suspension

/-!
# Programs among others

A program may share its world with others, who move between any two of its
actions.  What it ensures then depends on what the others can do in between; the
rules below take a program apart action by action, with the others' moves before
each of them.
-/

namespace KeyRegistry

structure Commons (σ : Type) where
  /-- How an action can be answered in a world, and what world it leaves. -/
  answers : (action : Action) -> σ -> action.Reply -> σ -> Prop
  /-- What the others can have made of a world in the meantime. -/
  meanwhile : σ -> σ -> Prop
  refl : forall s, meanwhile s s
  trans : forall s t u, meanwhile s t -> meanwhile t u -> meanwhile s u

namespace Program

variable {σ α β : Type} {world : Commons σ}

/-- Whatever the others do in the meantime, `program` ends with a result and a world as described
by `post`, if it ends. -/
def Ensures (world : Commons σ) : Program α -> (α -> σ -> Prop) -> σ -> Prop
  | .done a, post, s => forall t, world.meanwhile s t -> post a t
  | .perform action next, post, s =>
      forall t, world.meanwhile s t -> forall reply u, world.answers action t reply u ->
        Ensures world (next reply) post u

theorem Ensures.later {program : Program α} {post : α -> σ -> Prop} {s t : σ}
    (h : Ensures world program post s) (hmeanwhile : world.meanwhile s t) :
    Ensures world program post t := by
  cases program with
  | done a =>
      intro u hmore
      exact h u (world.trans s t u hmeanwhile hmore)
  | perform action next =>
      intro u hmore
      exact h u (world.trans s t u hmeanwhile hmore)

theorem ensures_bind {program : Program α} {f : α -> Program β} {post : β -> σ -> Prop} {s : σ} :
    Ensures world (program.bind f) post s ↔
      Ensures world program (fun a => Ensures world (f a) post) s := by
  induction program generalizing s with
  | done a =>
      constructor
      · intro h t hmeanwhile
        exact h.later hmeanwhile
      · intro h
        exact h s (world.refl s)
  | perform action next ih =>
      constructor
      · intro h t hmeanwhile reply u hanswers
        exact (ih reply).mp (h t hmeanwhile reply u hanswers)
      · intro h t hmeanwhile reply u hanswers
        exact (ih reply).mpr (h t hmeanwhile reply u hanswers)

theorem Ensures.mono {program : Program α} {post post' : α -> σ -> Prop} {s : σ}
    (h : Ensures world program post s) (himp : forall a t, post a t -> post' a t) :
    Ensures world program post' s := by
  induction program generalizing s with
  | done a =>
      intro t hmeanwhile
      exact himp a t (h t hmeanwhile)
  | perform action next ih =>
      intro t hmeanwhile reply u hanswers
      exact ih reply (h t hmeanwhile reply u hanswers)

theorem Ensures.and {program : Program α} {post post' : α -> σ -> Prop} {s : σ}
    (h : Ensures world program post s) (h' : Ensures world program post' s) :
    Ensures world program (fun a t => post a t ∧ post' a t) s := by
  induction program generalizing s with
  | done a => exact fun t hmeanwhile => ⟨h t hmeanwhile, h' t hmeanwhile⟩
  | perform action next ih =>
      intro t hmeanwhile reply u hanswers
      exact ih reply (h t hmeanwhile reply u hanswers) (h' t hmeanwhile reply u hanswers)

theorem ensures_of_every {program : Program α} {allowed : Action -> Prop} {p : σ -> Prop} {s : σ}
    (hevery : program.Every allowed)
    (hothers : forall s t, world.meanwhile s t -> p s -> p t)
    (hown : forall action s reply t, allowed action -> world.answers action s reply t -> p s -> p t)
    (hs : p s) : Ensures world program (fun _ => p) s := by
  induction program generalizing s with
  | done a => exact fun t hmeanwhile => hothers s t hmeanwhile hs
  | perform action next ih =>
      intro t hmeanwhile reply u hanswers
      exact ih reply (hevery.2 reply)
        (hown action t reply u hevery.1 hanswers (hothers s t hmeanwhile hs))

theorem ensures_of_forall {post : α -> σ -> Prop} (h : forall a t, post a t) (program : Program α)
    (s : σ) : Ensures world program post s := by
  induction program generalizing s with
  | done a => exact fun t _ => h a t
  | perform action next ih => exact fun t _ reply u _ => ih reply u

end Program
end KeyRegistry
