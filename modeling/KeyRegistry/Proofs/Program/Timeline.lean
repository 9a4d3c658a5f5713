import KeyRegistry.Proofs.Program.History

/-!
# Timelines of programs

A timeline lists what a program asks of the node in a world, and when.  A world is
punctual where time passes only while a program sleeps, and by as much as it sleeps
for; the clock of a program that sleeps for whole milliseconds can then be computed.
-/

namespace KeyRegistry
namespace Program

/-- What a program asks the node in a world, in order, each with the time at which it asks. -/
def timeline {σ α : Type} (w : World σ) (time : σ -> Nat) : Program α -> σ -> List (Nat × Inquiry)
  | .done _, _ => []
  | .perform (.ask request) next, s =>
      (time s, ⟨request, (w.answer (.ask request) s).1⟩) ::
        timeline w time (next (w.answer (.ask request) s).1) (w.answer (.ask request) s).2
  | .perform action next, s =>
      timeline w time (next (w.answer action s).1) (w.answer action s).2

section

variable {σ α : Type} {w : World σ} {time : σ -> Nat}

theorem timeline_ask (request : Request)
    (next : Except RpcError request.Value -> Program α) (s : σ) :
    timeline w time (.perform (.ask request) next) s =
      (time s, ⟨request, (w.answer (.ask request) s).1⟩) ::
        timeline w time (next (w.answer (.ask request) s).1) (w.answer (.ask request) s).2 :=
  rfl

theorem timeline_clock (next : Nat -> Program α) (s : σ) :
    timeline w time (.perform .clock next) s =
      timeline w time (next (w.answer .clock s).1) (w.answer .clock s).2 :=
  rfl

theorem map_snd_timeline (program : Program α) (s : σ) :
    (program.timeline w time s).map Prod.snd = inquiries (program.trace w s) := by
  induction program generalizing s with
  | done a => rfl
  | perform action next ih =>
      cases action with
      | ask request =>
          rw [timeline_ask, trace_perform, inquiries_ask, List.map_cons, ih]
      | _ => exact ih _ _

end

/-- From the steady states of a world, the clock shows the time and takes none, and neither does a
request of some kind; a pause of whole milliseconds takes as long as it says. -/
structure Punctual {σ : Type} (w : World σ) (time : σ -> Nat) (steady : σ -> Prop)
    (instant : Request -> Prop) : Prop where
  reads {s : σ} : steady s -> (w.answer .clock s).1 = time s
  shows {s : σ} : steady s ->
    steady (w.answer .clock s).2 ∧ time (w.answer .clock s).2 = time s
  asks {s : σ} (request : Request) : instant request -> steady s ->
    steady (w.answer (.ask request) s).2 ∧ time (w.answer (.ask request) s).2 = time s
  sleeps {s : σ} (d : Duration) : 1_000_000 ∣ d.nanos -> steady s ->
    steady (w.answer (.sleep d) s).2 ∧ time (w.answer (.sleep d) s).2 = time s + d.nanos

theorem Punctual.mono {σ : Type} {w : World σ} {time : σ -> Nat} {steady : σ -> Prop}
    {instant few : Request -> Prop} (h : Punctual w time steady instant)
    (hfew : forall request, few request -> instant request) : Punctual w time steady few where
  reads := h.reads
  shows := h.shows
  asks request hrequest := h.asks request (hfew request hrequest)
  sleeps := h.sleeps

end Program
end KeyRegistry
