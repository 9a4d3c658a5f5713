import KeyRegistry.Proofs.Mining.Ledger
import KeyRegistry.Proofs.Mining.Rounds

/-!
# Release of the loop's subscriptions

While the loop waits, at most its two current subscriptions are open.  One that
it replaces was closed by the node before; the others it cancels when it ends.
-/

namespace KeyRegistry
namespace Mining

open Node Program

def register : Ledger (Nat -> Prop) where
  admits _ _ := True
  note _ _ happening opened id :=
    opened id ∨ ∃ feed, happening = .own (.exchange ⟨.ask (.subscribe feed), .ok id⟩)

/-- Of the subscriptions that the loop has opened, at most some are not closed; these exist. -/
structure Bounded (ids : List Nat) (w : Noted (Nat -> Prop)) : Prop where
  exists_of_mem : forall id, id ∈ ids -> ∃ sub, w.node.subscription? id = some sub
  closed_or_mem : forall id, w.entry id -> w.node.Closed id ∨ id ∈ ids

section

variable {ids ids' : List Nat} {w w' : Noted (Nat -> Prop)}

theorem Bounded.kept (h : Bounded ids w) (hkeeps : State.Keeps Subscription.Ages w.node w'.node)
    (hentry : forall id, w'.entry id -> w.entry id) : Bounded ids w' where
  exists_of_mem id hid := by
    rcases h.exists_of_mem id hid with ⟨sub, hsub⟩
    rcases hkeeps id sub hsub with ⟨sub', hsub', _⟩
    exact ⟨sub', hsub'⟩
  closed_or_mem id hid := (h.closed_or_mem id (hentry id hid)).imp_left fun hc => hc.kept hkeeps

theorem Bounded.narrow (h : Bounded ids w) (hsub : forall id, id ∈ ids' -> id ∈ ids)
    (hclosed : forall id, id ∈ ids -> id ∈ ids' ∨ w.node.Closed id) : Bounded ids' w where
  exists_of_mem id hid := h.exists_of_mem id (hsub id hid)
  closed_or_mem id hid := by
    rcases h.closed_or_mem id hid with hdone | hmem
    · exact Or.inl hdone
    · exact (hclosed id hmem).symm

theorem Bounded.later (h : Bounded ids w) (hmeanwhile : register.commons.meanwhile w w') :
    Bounded ids w' := by
  refine Ledger.stable_of_deed ?_ h hmeanwhile
  rintro u _ ⟨_, deed, rfl⟩ hu
  refine hu.kept ((grows_effect deed u.node).mono fun _ _ hgrows => hgrows.toAges) ?_
  rintro id (hid | ⟨feed, hown⟩)
  · exact hid
  · cases hown

theorem ages_exchange {action : Action} {reply : action.Reply}
    (h : register.Exchanges action w reply w') :
    State.Keeps Subscription.Ages w.node w'.node := by
  rcases h.reply_eq with ⟨now, hreply⟩
  have hages := State.ages_reply now w.node action
  rw [hreply] at hages
  exact hages

theorem Bounded.acted {action : Action} {reply : action.Reply} (h : Bounded ids w)
    (haction : Unsubscribing action) (hanswers : register.Exchanges action w reply w') :
    Bounded ids w' := by
  refine h.kept (ages_exchange hanswers) fun id hid => ?_
  rw [hanswers.entry_eq] at hid
  rcases hid with hid | ⟨feed, hown⟩
  · exact hid
  · cases hown
    exact absurd rfl (haction feed)

theorem Bounded.subscribed {feed : Feed} {id : Nat} (h : Bounded ids w)
    (hanswers : register.Exchanges (.ask (.subscribe feed)) w (.ok id) w') :
    Bounded (id :: ids) w' := by
  have hages := ages_exchange hanswers
  rcases hanswers.reply_eq with ⟨now, hreply⟩
  constructor
  · intro id' hid
    rcases List.mem_cons.mp hid with rfl | hid
    · exact ⟨_, State.subscription_of_subscribe hreply⟩
    · rcases h.exists_of_mem id' hid with ⟨sub, hsub⟩
      rcases hages id' sub hsub with ⟨sub', hsub', _⟩
      exact ⟨sub', hsub'⟩
  · intro id' hid
    rw [hanswers.entry_eq] at hid
    rcases hid with hid | ⟨feed', hown⟩
    · exact (h.closed_or_mem id' hid).imp (fun hc => hc.kept hages) (List.mem_cons_of_mem _)
    · cases hown
      exact Or.inr List.mem_cons_self

theorem Bounded.refused {feed : Feed} {e : RpcError} (h : Bounded ids w)
    (hanswers : register.Exchanges (.ask (.subscribe feed)) w (.error e) w') :
    Bounded ids w' := by
  refine h.kept (ages_exchange hanswers) fun id hid => ?_
  rw [hanswers.entry_eq] at hid
  rcases hid with hid | ⟨feed', hown⟩
  · exact hid
  · cases hown

theorem Bounded.cancelled {id : Nat} {u : Unit} (h : Bounded ids w)
    (hanswers : register.Exchanges (.cancel id) w u w') :
    Bounded (ids.filter fun id' => id' ≠ id) w' := by
  have hkept := h.acted (by simp [Unsubscribing]) hanswers
  refine hkept.narrow (fun id' hid => (List.mem_filter.mp hid).1) fun id' hid => ?_
  by_cases hsame : id' = id
  · rcases h.exists_of_mem id' hid with ⟨sub, hsub⟩
    rcases hanswers.reply_eq with ⟨now, hreply⟩
    have hnode : w'.node = w.node.cancel id := (congrArg Prod.snd hreply).symm
    rw [hnode, hsame]
    exact Or.inr (State.closed_cancel (hsame ▸ hsub))
  · exact Or.inl (List.mem_filter.mpr ⟨hid, by simpa using hsame⟩)

theorem bounded_of_every {α : Type} {program : Program α} (hevery : program.Every Unsubscribing)
    (h : Bounded ids w) : Ensures register.commons program (fun _ => Bounded ids) w :=
  ensures_of_every hevery (fun _ _ hmeanwhile hs => hs.later hmeanwhile)
    (fun _ _ _ _ hallowed hanswers hs => hs.acted hallowed hanswers) h

/-! ## Rounds -/

def Released : Stage -> Noted (Nat -> Prop) -> Prop
  | .waiting r, w => Bounded [r.latest, r.pending] w
  | .finished _ _, w => Bounded [] w

theorem released_finish {r : Run} (h : Bounded ids w)
    (hids : forall id, id ∈ ids -> id = r.latest ∨ id = r.pending) (result : Except Error Unit) :
    Ensures register.commons (r.finish result) Released w := by
  intro w1 h1 _ w2 h2 w3 h3 _ w4 h4
  have hcancelled := (((h.later h1).cancelled h2).later h3).cancelled h4
  have hnone : Bounded [] w4 := by
    refine hcancelled.narrow (by simp) fun id hid => ?_
    rcases List.mem_filter.mp hid with ⟨hid, hpending⟩
    rcases List.mem_filter.mp hid with ⟨hid, hlatest⟩
    rcases hids id hid with rfl | rfl
    · simp at hlatest
    · simp at hpending
  show Ensures _ (r.controller.shutdownMiner.bind _) _ _
  have hshutdown := (every_shutdownMiner r.controller).mono fun _ h => h.unsubscribing
  refine ensures_bind.mpr ((bounded_of_every hshutdown hnone).mono ?_)
  intro c w5 h5 w6 hmeanwhile
  exact h5.later hmeanwhile

theorem released_evaluated (c : Controller) {f : Controller -> Run}
    (hf : forall c, ids = [(f c).latest, (f c).pending]) (h : Bounded ids w) :
    Ensures register.commons (c.evaluateCounted.bind fun c => .done (.waiting (f c))) Released
      w := by
  refine ensures_bind.mpr ((bounded_of_every (every_evaluateCounted c) h).mono ?_)
  intro c w1 h1 w2 hmeanwhile
  show Bounded _ w2
  rw [<- hf c]
  exact h1.later hmeanwhile

theorem released_settle {r : Run} (h : Bounded [r.latest, r.pending] w) :
    Ensures register.commons r.settle Released w := by
  refine ensures_bind.mpr ((bounded_of_every (every_drain r.latest r.controller) h).mono ?_)
  intro c w1 h1
  refine ensures_bind.mpr ((bounded_of_every (every_drain r.pending c) h1).mono ?_)
  intro c w2 h2
  exact released_evaluated c (fun _ => rfl) h2

theorem bounded_resubscribe (config : Config) (feed : Feed) (left : Nat) (h : Bounded ids w) :
    Ensures register.commons (Controller.resubscribe config feed left)
      (fun answer w' => match answer with
        | .ok id => Bounded (id :: ids) w'
        | .error _ => Bounded ids w') w := by
  induction left generalizing w with
  | zero => exact fun w' hmeanwhile => h.later hmeanwhile
  | succ left ih =>
      intro w1 h1 _ w2 h2 w3 h3 tried w4 h4
      have hslept : Bounded ids w3 := ((h.later h1).acted (by simp [Unsubscribing]) h2).later h3
      cases tried with
      | ok id => exact fun w5 hmeanwhile => (hslept.subscribed h4).later hmeanwhile
      | error e => exact ih (hslept.refused h4)

theorem released_closed {r : Run} {feed : Feed} (h : Bounded [r.latest, r.pending] w)
    (hended : w.node.isEnded (r.subscription feed) = true) :
    Ensures register.commons (r.wake (.closed feed)) Released w := by
  have hmem : r.subscription feed ∈ [r.latest, r.pending] := by
    cases feed <;> simp [Run.subscription]
  rcases h.exists_of_mem _ hmem with ⟨sub, hsub⟩
  have hclosed := State.closed_of_isEnded hsub hended
  cases feed with
  | latest =>
      -- while the loop tries, only the other subscription can be open
      have hother : Bounded [r.pending] w := by
        refine h.narrow (by simp) fun id hid => ?_
        rcases List.mem_cons.mp hid with rfl | hid
        · exact Or.inr hclosed
        · exact Or.inl hid
      refine ensures_bind.mpr ((bounded_resubscribe _ _ _ hother).mono fun answer w1 h1 => ?_)
      cases answer with
      | ok id => exact released_settle (r := r.replace .latest id) h1
      | error e => exact released_finish h1 (by simp) _
  | pending =>
      have hother : Bounded [r.latest] w := by
        refine h.narrow (by simp) fun id hid => ?_
        rcases List.mem_cons.mp hid with rfl | hid
        · exact Or.inl List.mem_cons_self
        · exact Or.inr (List.mem_singleton.mp hid ▸ hclosed)
      refine ensures_bind.mpr ((bounded_resubscribe _ _ _ hother).mono fun answer w1 h1 => ?_)
      cases answer with
      | ok id =>
          have hboth : Bounded [r.latest, id] w1 :=
            h1.narrow (by simp) fun id' hid => Or.inl (by simpa [or_comm] using hid)
          exact released_settle (r := r.replace .pending id) hboth
      | error e => exact released_finish h1 (by simp) _

theorem released_start {c : Controller} (h : Bounded [] w) :
    Ensures register.commons (start c) Released w := by
  intro w1 h1 answer w2 h2
  cases answer with
  | error e => exact fun w3 hmeanwhile => ((h.later h1).refused h2).later hmeanwhile
  | ok latest =>
      have hlatest : Bounded [latest] w2 := (h.later h1).subscribed h2
      intro w3 h3 answer w4 h4
      cases answer with
      | error e =>
          intro w5 h5 _ w6 h6 w7 h7
          have hcancelled := (((hlatest.later h3).refused h4).later h5).cancelled h6
          exact (hcancelled.narrow (by simp) (by simp)).later h7
      | ok pending =>
          have hboth : Bounded [latest, pending] w4 :=
            ((hlatest.later h3).subscribed h4).narrow (by simp)
              fun id hid => Or.inl (by simpa [or_comm] using hid)
          exact released_evaluated c (fun _ => rfl) hboth

end

theorem released_wake {w : Noted (Nat -> Prop)} {r : Run} {wake : Wake} {node' : State}
    (h : Bounded [r.latest, r.pending] w) (hwakes : Wakes w.node r wake node') :
    Ensures register.commons (r.wake wake) Released
      ⟨node', w.held, register.note w.node w.held (.own (.wake wake)) w.entry⟩ := by
  have hkept : Bounded [r.latest, r.pending]
      ⟨node', w.held, register.note w.node w.held (.own (.wake wake)) w.entry⟩ := by
    refine h.kept (ages_wakes hwakes) ?_
    rintro id (hid | ⟨feed, hown⟩)
    · exact hid
    · cases hown
  cases hwakes with
  | shutdown => exact released_finish hkept (by simp) _
  | event feed event _ htaken => exact released_settle hkept
  | closed feed hended => exact released_closed hkept hended

/-! ## Schedules -/

theorem entry_of_mem_acts {path : List Moment} {feed : Feed} {id : Nat} {opened : Nat -> Prop}
    (h : opened id ∨ .exchange ⟨.ask (.subscribe feed), .ok id⟩ ∈ acts path) :
    register.after path opened id := by
  induction path generalizing opened with
  | nil =>
      rcases h with h | hmem
      · exact h
      · cases hmem
  | cons moment path ih =>
      refine ih ?_
      rcases h with h | hmem
      · exact Or.inl (Or.inl h)
      · rcases moment with ⟨before, happening, after⟩
        cases happening with
        | deed deed => exact Or.inr hmem
        | own act =>
            rcases List.mem_cons.mp hmem with heq | hmore
            · exact Or.inl (Or.inr ⟨feed, congrArg Happening.own heq.symm⟩)
            · exact Or.inr hmore

/-- Once the loop has ended, whatever the schedule, all that it has ever opened is closed. -/
theorem released_of_path {c c' : Controller} {node : State} {path : List Moment} {last : Scene}
    {result : Except Error Report} {feed : Feed} {id : Nat}
    (hpath : Path (Scene.opening c node) path last)
    (hends : last.loop = .done (.finished result c'))
    (hopened : .exchange ⟨.ask (.subscribe feed), .ok id⟩ ∈ acts path) :
    last.node.isLive id = false := by
  have hstart : Bounded [] (⟨node, fun _ => none, fun _ => False⟩ : Noted (Nat -> Prop)) :=
    ⟨by simp, by simp⟩
  have hensures : Ensures register.commons last.loop Released
      ⟨last.node, last.held, register.after path fun _ => False⟩ :=
    Ledger.ensures_of_path (fun _ _ _ _ hwaiting hwakes => released_wake hwaiting hwakes) hpath
      (fun _ _ => trivial) (released_start hstart)
  rw [hends] at hensures
  have hbounded : Bounded [] ⟨last.node, last.held, register.after path fun _ => False⟩ :=
    hensures _ (register.commons.refl _)
  rcases hbounded.closed_or_mem id (entry_of_mem_acts (Or.inr hopened)) with hclosed | hnone
  · exact hclosed.isLive_eq
  · cases hnone

end Mining
end KeyRegistry
