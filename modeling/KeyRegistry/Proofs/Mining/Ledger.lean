import KeyRegistry.Proofs.Mining.Schedule
import KeyRegistry.Proofs.Program.Interference
import Mathlib.Logic.Relation

/-!
# Ledgers of a schedule

A ledger notes something about a schedule, moment by moment.  To the loop it is
part of the world that it shares with others, so what a path makes of the ledger
follows from what the loop's programs ensure about it, one wake-up at a time.
-/

namespace KeyRegistry
namespace Mining

open Node Program

structure Ledger (γ : Type) where
  admits : State -> (Feed -> Option Nat) -> Prop
  note : State -> (Feed -> Option Nat) -> Happening -> γ -> γ

structure Noted (γ : Type) where
  node : State
  held : Feed -> Option Nat
  entry : γ

namespace Ledger

variable {γ : Type} (ledger : Ledger γ)

structure Exchanges (action : Action) (w : Noted γ) (reply : action.Reply) (w' : Noted γ) :
    Prop where
  admitted : ledger.admits w.node w.held
  reply_eq : ∃ now, Script.reply now w.node action = (reply, w'.node)
  held_eq : w'.held = heldAfter w.held ⟨action, reply⟩
  entry_eq : w'.entry = ledger.note w.node w.held (.own (.exchange ⟨action, reply⟩)) w.entry

def Interferes (w w' : Noted γ) : Prop :=
  ledger.admits w.node w.held ∧ ∃ deed : Deed,
    w' = ⟨deed.effect w.node, w.held, ledger.note w.node w.held (.deed deed) w.entry⟩

def commons : Commons (Noted γ) where
  answers := ledger.Exchanges
  meanwhile := Relation.ReflTransGen ledger.Interferes
  refl _ := Relation.ReflTransGen.refl
  trans _ _ _ := Relation.ReflTransGen.trans

def after (path : List Moment) (entry : γ) : γ :=
  path.foldl
    (fun entry moment => ledger.note moment.before.node moment.before.held moment.happening entry)
    entry

variable {ledger}

theorem after_append (first rest : List Moment) (entry : γ) :
    ledger.after (first ++ rest) entry = ledger.after rest (ledger.after first entry) :=
  List.foldl_append

theorem stable_of_deed {p : Noted γ -> Prop}
    (hdeed : forall w w', ledger.Interferes w w' -> p w -> p w') {w w' : Noted γ} (h : p w)
    (hmeanwhile : ledger.commons.meanwhile w w') : p w' := by
  induction hmeanwhile with
  | refl => exact h
  | tail _ hlast ih => exact hdeed _ _ hlast ih

/-- Where waking up from what `post` says of a waiting run ensures `post` again, every path keeps
to it. -/
theorem ensures_of_path {post : Stage -> Noted γ -> Prop}
    (hwake : forall (w : Noted γ) (r : Run) (wake : Wake) (node' : State),
      post (.waiting r) w -> Wakes w.node r wake node' ->
        Ensures ledger.commons (r.wake wake) post
          ⟨node', w.held, ledger.note w.node w.held (.own (.wake wake)) w.entry⟩)
    {s last : Scene} {path : List Moment} {entry : γ} (hpath : Path s path last)
    (hadmits : forall moment, moment ∈ path -> ledger.admits moment.before.node moment.before.held)
    (hs : Ensures ledger.commons s.loop post ⟨s.node, s.held, entry⟩) :
    Ensures ledger.commons last.loop post ⟨last.node, last.held, ledger.after path entry⟩ := by
  induction hpath generalizing entry with
  | nil s => exact hs
  | cons hstep _ ih =>
      rcases List.forall_mem_cons.mp hadmits with ⟨hadmitted, hmore⟩
      refine ih hmore ?_
      cases hstep with
      | exchange node node' held now action next reply hreply =>
          exact hs _ Relation.ReflTransGen.refl reply _ ⟨hadmitted, ⟨now, hreply⟩, rfl, rfl⟩
      | wake node node' held r wake hwakes =>
          exact hwake _ r wake node' (hs _ Relation.ReflTransGen.refl) hwakes
      | deed s deed =>
          exact hs.later (Relation.ReflTransGen.single ⟨hadmitted, deed, rfl⟩)

end Ledger

/-! ## What a run holds -/

def AboutMiner (action : Action) : Prop :=
  action = .ask .isMining ∨ (∃ threads, action = .ask (.startMining threads)) ∨
    action = .ask .stopMining

theorem AboutMiner.unsubscribing {action : Action} (h : AboutMiner action) :
    Unsubscribing action := by
  rcases h with rfl | ⟨threads, rfl⟩ | rfl <;> simp [Unsubscribing]

/-- An evaluation begins by asking for the pending count, and then is about the miner only. -/
theorem exists_evaluation (c : Controller) :
    ∃ next, c.evaluateCounted = .perform (.ask .pendingCount) next ∧
      forall answer, (next answer).Every AboutMiner := by
  refine ⟨_, rfl, fun counted => Every.bind ?_ fun answer => ?_⟩
  · cases counted with
    | error e => trivial
    | ok pending =>
        refine ⟨.inl rfl, fun read => ?_⟩
        cases read with
        | error e => trivial
        | ok mining =>
            show (if _ then _ else _ : Program _).Every _
            split
            · exact ⟨.inr (.inl ⟨_, rfl⟩), fun answer => by cases answer <;> trivial⟩
            · split
              · exact ⟨.inr (.inr rfl), fun answer => by cases answer <;> trivial⟩
              · trivial
  · rcases answer with ⟨result, c'⟩
    cases result <;> trivial

theorem every_evaluateCounted (c : Controller) : c.evaluateCounted.Every Unsubscribing := by
  rcases exists_evaluation c with ⟨next, heq, hnext⟩
  rw [heq]
  exact ⟨by simp [Unsubscribing], fun answer => (hnext answer).mono fun _ h => h.unsubscribing⟩

theorem every_drain (subscription : Nat) (c : Controller) :
    (drain subscription c).Every Unsubscribing :=
  ⟨by simp [Unsubscribing], fun _ => trivial⟩

theorem every_shutdownMiner (c : Controller) : c.shutdownMiner.Every AboutMiner := by
  unfold Controller.shutdownMiner
  dsimp only
  split
  · exact ⟨.inr (.inr rfl), fun answer => by cases answer <;> trivial⟩
  · trivial

namespace Ledger

variable {γ : Type} {ledger : Ledger γ} {w : Noted γ}

theorem held_of_meanwhile {w' : Noted γ} (h : ledger.commons.meanwhile w w') :
    w'.held = w.held := by
  refine stable_of_deed (p := fun u => u.held = w.held) ?_ rfl h
  rintro u _ ⟨_, deed, rfl⟩ hu
  exact hu

theorem ensures_held {α : Type} {program : Program α} {held : Feed -> Option Nat}
    (h : program.Every Unsubscribing) (hheld : w.held = held) :
    Ensures ledger.commons program (fun _ w' => w'.held = held) w := by
  refine ensures_of_every h ?_ ?_ hheld
  · intro s t hmeanwhile hs
    rw [held_of_meanwhile hmeanwhile, hs]
  · intro action s reply t hallowed hanswers hs
    rw [hanswers.held_eq, heldAfter_of_unsubscribing hallowed, hs]

def Holds : Stage -> Noted γ -> Prop
  | .waiting r, w => w.held = fun feed => some (r.subscription feed)
  | .finished _ _, _ => True

theorem ensures_finish {post : Stage -> Noted γ -> Prop}
    (h : forall result c w, post (.finished result c) w) (r : Run) (result : Except Error Unit) :
    Ensures ledger.commons (r.finish result) post w := by
  intro w1 _ _ w2 _ w3 _ _ w4 _
  show Ensures _ (r.controller.shutdownMiner.bind _) _ _
  refine ensures_bind.mpr (ensures_of_forall ?_ _ _)
  intro c w5 w6 _
  exact h _ _ w6

theorem holds_evaluated {r : Run} (hheld : w.held = fun feed => some (r.subscription feed))
    (c : Controller) :
    Ensures ledger.commons
      (c.evaluateCounted.bind fun c => .done (.waiting { r with controller := c })) Holds w := by
  refine ensures_bind.mpr ((ensures_held (every_evaluateCounted c) hheld).mono ?_)
  intro c w1 h1 w2 hmeanwhile
  show w2.held = _
  rw [held_of_meanwhile hmeanwhile, h1]
  funext feed
  cases feed <;> rfl

theorem holds_settle {r : Run} (hheld : w.held = fun feed => some (r.subscription feed)) :
    Ensures ledger.commons r.settle Holds w := by
  refine ensures_bind.mpr ((ensures_held (every_drain r.latest r.controller) hheld).mono ?_)
  intro c w1 h1
  refine ensures_bind.mpr ((ensures_held (every_drain r.pending c) h1).mono ?_)
  intro c w2 h2
  exact holds_evaluated h2 c

theorem ensures_resubscribe {held : Feed -> Option Nat} (config : Config) (feed : Feed)
    (left : Nat) (hheld : w.held = held) :
    Ensures ledger.commons (Controller.resubscribe config feed left)
      (fun answer w' => forall id, answer = .ok id ->
        w'.held = fun feed' => if feed' = feed then some id else held feed') w := by
  induction left generalizing w with
  | zero =>
      intro w' _ id h
      cases h
  | succ left ih =>
      intro w1 h1 _ w2 h2 w3 h3 tried w4 h4
      have hheld3 : w3.held = held := by
        rw [held_of_meanwhile h3, h2.held_eq, held_of_meanwhile h1, hheld]
        rfl
      cases tried with
      | ok id =>
          intro w5 h5 id' hid
          cases hid
          rw [held_of_meanwhile h5, h4.held_eq, hheld3]
          rfl
      | error e =>
          refine ih ?_
          rw [h4.held_eq, hheld3]
          rfl

theorem holds_wake {r : Run} (hheld : w.held = fun feed => some (r.subscription feed))
    (wake : Wake) : Ensures ledger.commons (r.wake wake) Holds w := by
  cases wake with
  | shutdown => exact ensures_finish (fun _ _ _ => trivial) r _
  | event feed =>
      refine holds_settle ?_
      rw [hheld]
      funext feed
      cases feed <;> rfl
  | closed feed =>
      refine ensures_bind.mpr ((ensures_resubscribe _ feed _ hheld).mono ?_)
      intro answer w1 h1
      cases answer with
      | error e => exact ensures_finish (fun _ _ _ => trivial) r _
      | ok id =>
          refine holds_settle ?_
          rw [h1 id rfl]
          funext feed'
          cases feed <;> cases feed' <;> rfl

theorem holds_start {c : Controller} : Ensures ledger.commons (start c) Holds w := by
  intro w1 _ answer w2 h2
  cases answer with
  | error e => exact fun _ _ => trivial
  | ok latest =>
      intro w3 h3 answer w4 h4
      cases answer with
      | error e => exact fun _ _ _ _ _ _ _ => trivial
      | ok pending =>
          refine holds_evaluated (r := ⟨c, latest, pending⟩) ?_ c
          rw [h4.held_eq, held_of_meanwhile h3, h2.held_eq]
          funext feed
          cases feed <;> rfl

end Ledger

def blank : Ledger Unit where
  admits _ _ := True
  note _ _ _ entry := entry

theorem held_of_path {c : Controller} {node : State} {path : List Moment} {last : Scene} {r : Run}
    (hpath : Path (Scene.opening c node) path last) (hrests : last.loop = .done (.waiting r)) :
    last.held = fun feed => some (r.subscription feed) := by
  have hensures : Ensures blank.commons last.loop Ledger.Holds
      ⟨last.node, last.held, blank.after path ()⟩ :=
    Ledger.ensures_of_path (fun w r wake node' hwaiting _ => Ledger.holds_wake hwaiting wake) hpath
      (fun _ _ => trivial) Ledger.holds_start
  rw [hrests] at hensures
  exact hensures _ (blank.commons.refl _)

end Mining
end KeyRegistry
