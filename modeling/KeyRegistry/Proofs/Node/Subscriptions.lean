import KeyRegistry.Proofs.Node.Script

/-!
# What becomes of subscriptions

A node never forgets a subscription and never opens a closed one again.  While
its consumer leaves it alone, a subscription keeps the events that it holds;
whatever else is asked of the node only adds to them.
-/

namespace KeyRegistry
namespace Node

namespace Subscription

/-- What can become of a subscription: the feed stays, and what was closed on one side is closed
for good. -/
structure Ages (before after : Subscription) : Prop where
  feed_eq : after.feed = before.feed
  closed : before.isLive = false -> after.isLive = false

structure Grows (before after : Subscription) : Prop extends Ages before after where
  queue_eq : ∃ more, after.queue = before.queue ++ more

theorem Ages.refl (sub : Subscription) : Ages sub sub :=
  ⟨rfl, id⟩

theorem Grows.refl (sub : Subscription) : Grows sub sub :=
  ⟨Ages.refl sub, [], (List.append_nil _).symm⟩

theorem grows_deliver (event : ChainEvent) (sub : Subscription) :
    Grows sub (sub.deliver event) := by
  unfold deliver
  split
  · exact ⟨⟨rfl, id⟩, [event], rfl⟩
  · exact Grows.refl sub

theorem grows_closeAtNode (feed : Feed) (sub : Subscription) :
    Grows sub (sub.closeAtNode feed) := by
  unfold closeAtNode
  split
  · exact ⟨⟨rfl, fun _ => rfl⟩, [], (List.append_nil _).symm⟩
  · exact Grows.refl sub

theorem ages_closeAtConsumer (sub : Subscription) : Ages sub sub.closeAtConsumer :=
  ⟨rfl, fun _ => Bool.and_false _⟩

/-- A live subscription has something to read once an event of its feed was emitted, also where
the event itself did not fit. -/
theorem queue_deliver_ne_nil {event : ChainEvent} {sub : Subscription}
    (hfeed : sub.feed = event.feed) (hlive : sub.isLive = true) :
    (sub.deliver event).queue ≠ [] := by
  unfold deliver
  split
  · exact List.append_ne_nil_of_right_ne_nil _ (List.cons_ne_nil _ _)
  · rename_i hrefused
    intro hempty
    apply hrefused
    unfold accepts
    rw [hlive, hempty, decide_eq_true hfeed]
    rfl

end Subscription

namespace State

open Subscription

def queued (s : State) (id : Nat) : List ChainEvent :=
  ((s.subscription? id).map Subscription.queue).getD []

def isLive (s : State) (id : Nat) : Bool :=
  ((s.subscription? id).map Subscription.isLive).getD false

def Closed (s : State) (id : Nat) : Prop :=
  ∃ sub, s.subscription? id = some sub ∧ sub.isLive = false

/-- Every subscription of `s` is one of `t`, as changed by `R`. -/
def Keeps (R : Subscription -> Subscription -> Prop) (s t : State) : Prop :=
  forall id sub, s.subscription? id = some sub ->
    ∃ sub', t.subscription? id = some sub' ∧ R sub sub'

theorem Closed.isLive_eq {s : State} {id : Nat} (h : s.Closed id) : s.isLive id = false := by
  rcases h with ⟨sub, hsub, hclosed⟩
  rw [isLive, hsub]
  exact hclosed

section

variable {R : Subscription -> Subscription -> Prop} {s t u : State}

theorem Keeps.mono {R' : Subscription -> Subscription -> Prop} (h : Keeps R s t)
    (himp : forall a b, R a b -> R' a b) : Keeps R' s t := by
  intro id sub hsub
  rcases h id sub hsub with ⟨sub', hsub', hone⟩
  exact ⟨sub', hsub', himp sub sub' hone⟩

theorem keeps_of_append (hR : forall sub, R sub sub) {opened : List Subscription}
    (h : t.subscriptions = s.subscriptions ++ opened) : Keeps R s t := by
  intro id sub hsub
  refine ⟨sub, ?_, hR sub⟩
  rw [subscription?, h]
  exact (List.getElem?_append_left (List.getElem?_eq_some_iff.mp hsub).1).trans hsub

theorem keeps_of_subscriptions_eq (hR : forall sub, R sub sub)
    (h : t.subscriptions = s.subscriptions) : Keeps R s t :=
  keeps_of_append hR (h.trans (List.append_nil _).symm)

theorem keeps_of_map {f : Subscription -> Subscription} (hf : forall sub, R sub (f sub))
    (h : t.subscriptions = s.subscriptions.map f) : Keeps R s t := by
  intro id sub hsub
  refine ⟨f sub, ?_, hf sub⟩
  rw [subscription?, h, List.getElem?_map]
  exact congrArg (Option.map f) hsub

theorem keeps_updateSubscription (hR : forall sub, R sub sub) {f : Subscription -> Subscription}
    (hf : forall sub, R sub (f sub)) (id : Nat) : Keeps R s (s.updateSubscription id f) := by
  intro id' sub hsub
  have hget : (s.updateSubscription id f).subscription? id' =
      (if id = id' then f sub else sub) := by
    rw [subscription?, updateSubscription, List.getElem?_modify]
    exact (congrArg _ hsub).trans (by split <;> rfl)
  refine ⟨_, hget, ?_⟩
  split
  · exact hf sub
  · exact hR sub

end

/-! ## Requests and events -/

theorem subscriptions_respond (s : State) (request : Request) :
    ∃ opened, (s.respond request).2.subscriptions = s.subscriptions ++ opened := by
  have hsame : ∃ opened, s.subscriptions = s.subscriptions ++ opened :=
    ⟨[], (List.append_nil _).symm⟩
  cases request with
  | gasPrice => cases h : s.gasPriceErrors <;> simpa only [respond, h] using hsame
  | send call plan => cases h : s.sendErrors <;> simpa only [respond, accept, h] using hsame
  | pendingCount => cases h : s.pendingErrors <;> simpa only [respond, h] using hsame
  | startMining threads => cases h : s.miningErrors <;> simpa only [respond, h] using hsame
  | stopMining => cases h : s.miningErrors <;> simpa only [respond, h] using hsame
  | subscribe feed =>
      cases h : s.subscribeErrors with
      | nil => exact ⟨[Subscription.new feed], by simp only [respond, h]⟩
      | cons e es => simpa only [respond, h] using hsame
  | _ => exact hsame

theorem grows_answer (s : State) (request : Request) : Keeps Grows s (s.answer request).2 := by
  rcases subscriptions_respond { s with calls := request :: s.calls } request with ⟨opened, h⟩
  exact keeps_of_append Grows.refl h

theorem grows_emit (s : State) (event : ChainEvent) : Keeps Grows s (s.emit event).2 :=
  keeps_of_map (grows_deliver event) rfl

theorem grows_closeFeed (s : State) (feed : Feed) : Keeps Grows s (s.closeFeed feed) :=
  keeps_of_map (grows_closeAtNode feed) rfl

theorem ages_takeEvent (s : State) (id : Nat) : Keeps Ages s (s.takeEvent id).2 := by
  have htaken : forall sub : Subscription, Ages sub { sub with queue := sub.queue.tail } :=
    fun _ => ⟨rfl, fun h => h⟩
  unfold takeEvent
  split
  · exact keeps_updateSubscription Ages.refl htaken id
  · exact keeps_of_subscriptions_eq Ages.refl rfl

theorem ages_reply (now : Nat) (s : State) (action : Action) :
    Keeps Ages s (Script.reply now s action).2 := by
  cases action with
  | ask request => exact (grows_answer s request).mono fun _ _ h => h.toAges
  | drain id =>
      have hemptied : forall sub : Subscription, Ages sub { sub with queue := [] } :=
        fun _ => ⟨rfl, fun h => h⟩
      exact keeps_updateSubscription Ages.refl hemptied id
  | cancel id => exact keeps_updateSubscription Ages.refl ages_closeAtConsumer id
  | _ => exact keeps_of_subscriptions_eq Ages.refl rfl

theorem Keeps.queued_ne_nil {s t : State} {id : Nat} (h : Keeps Grows s t)
    (hqueued : s.queued id ≠ []) : t.queued id ≠ [] := by
  unfold queued at *
  cases hsub : s.subscription? id with
  | none =>
      rw [hsub] at hqueued
      exact absurd rfl hqueued
  | some sub =>
      rw [hsub] at hqueued
      rcases h id sub hsub with ⟨sub', hsub', hgrows⟩
      rcases hgrows.queue_eq with ⟨more, hmore⟩
      rw [hsub']
      show sub'.queue ≠ []
      rw [hmore]
      exact List.append_ne_nil_of_left_ne_nil hqueued more

theorem queued_emit_ne_nil {s : State} {event : ChainEvent} {id : Nat} {sub : Subscription}
    (hsub : s.subscription? id = some sub) (hfeed : sub.feed = event.feed)
    (hlive : s.isLive id = true) : (s.emit event).2.queued id ≠ [] := by
  rw [isLive, hsub] at hlive
  have hdelivered : (s.emit event).2.subscription? id = some (sub.deliver event) := by
    rw [subscription?, emit, List.getElem?_map]
    exact congrArg (Option.map _) hsub
  rw [queued, hdelivered]
  exact queue_deliver_ne_nil hfeed hlive

theorem Closed.kept {s t : State} {id : Nat} (h : s.Closed id) (hkeeps : Keeps Ages s t) :
    t.Closed id := by
  rcases h with ⟨sub, hsub, hclosed⟩
  rcases hkeeps id sub hsub with ⟨sub', hsub', hages⟩
  exact ⟨sub', hsub', hages.closed hclosed⟩

theorem subscription_of_subscribe {s t : State} {feed : Feed} {id : Nat}
    (h : s.answer (.subscribe feed) = (.ok id, t)) :
    t.subscription? id = some (Subscription.new feed) := by
  cases hrefused : s.subscribeErrors with
  | nil =>
      simp only [answer, respond, hrefused] at h
      cases h
      exact List.getElem?_concat_length
  | cons e es =>
      simp only [answer, respond, hrefused] at h
      cases h

theorem closed_cancel {s : State} {id : Nat} {sub : Subscription}
    (h : s.subscription? id = some sub) : (s.cancel id).Closed id := by
  refine ⟨sub.closeAtConsumer, ?_, Bool.and_false _⟩
  rw [subscription?, cancel, updateSubscription, List.getElem?_modify_eq]
  exact congrArg (Option.map closeAtConsumer) h

theorem closed_of_isEnded {s : State} {id : Nat} {sub : Subscription}
    (h : s.subscription? id = some sub) (hended : s.isEnded id = true) : s.Closed id := by
  refine ⟨sub, h, ?_⟩
  rw [isEnded, h] at hended
  have hnode : sub.openAtNode = false := by
    cases hopen : sub.openAtNode with
    | false => rfl
    | true =>
        simp [Subscription.isEnded, hopen] at hended
  rw [Subscription.isLive, hnode]
  rfl

/-! ## Queues that stay empty -/

def Unfilled (before after : Subscription) : Prop :=
  before.queue = [] -> after.queue = []

theorem queued_ne_nil_of_takeEvent {s t : State} {id : Nat} {event : ChainEvent}
    (h : s.takeEvent id = (some event, t)) : s.queued id ≠ [] := by
  intro hempty
  rw [queued] at hempty
  rw [takeEvent] at h
  cases hqueue : (s.subscription? id).map Subscription.queue with
  | none => simp [hqueue] at h
  | some queue =>
      rw [hqueue] at hempty
      cases hempty
      simp [hqueue] at h

theorem queued_drainEvents (s : State) (id : Nat) : (s.drainEvents id).2.queued id = [] := by
  show ((s.subscriptions.modify id fun sub => { sub with queue := [] })[id]?.map
    Subscription.queue).getD [] = []
  rw [List.getElem?_modify_eq]
  cases s.subscriptions[id]? <;> rfl

theorem Keeps.queued_eq_nil {s t : State} {id : Nat} {sub : Subscription}
    (h : Keeps Unfilled s t) (hsub : s.subscription? id = some sub) (hempty : s.queued id = []) :
    t.queued id = [] := by
  rcases h id sub hsub with ⟨sub', hsub', hunfilled⟩
  rw [queued, hsub] at hempty
  rw [queued, hsub']
  exact hunfilled hempty

theorem unfilled_answer (s : State) (request : Request) :
    Keeps Unfilled s (s.answer request).2 := by
  rcases subscriptions_respond { s with calls := request :: s.calls } request with ⟨opened, h⟩
  exact keeps_of_append (fun _ hempty => hempty) h

theorem unfilled_closeFeed (s : State) (feed : Feed) : Keeps Unfilled s (s.closeFeed feed) := by
  refine keeps_of_map (fun sub hempty => ?_) rfl
  unfold closeAtNode
  split <;> exact hempty

theorem unfilled_takeEvent (s : State) (id : Nat) : Keeps Unfilled s (s.takeEvent id).2 := by
  have htaken : forall sub : Subscription, Unfilled sub { sub with queue := sub.queue.tail } := by
    intro sub hempty
    show sub.queue.tail = []
    rw [hempty]
    rfl
  unfold takeEvent
  split
  · exact keeps_updateSubscription (fun _ hempty => hempty) htaken id
  · exact keeps_of_subscriptions_eq (fun _ hempty => hempty) rfl

theorem unfilled_reply (now : Nat) (s : State) (action : Action) :
    Keeps Unfilled s (Script.reply now s action).2 := by
  cases action with
  | ask request => exact unfilled_answer s request
  | drain id => exact keeps_updateSubscription (fun _ hempty => hempty) (fun _ _ => rfl) id
  | cancel id => exact keeps_updateSubscription (fun _ hempty => hempty) (fun _ _ => rfl) id
  | _ => exact keeps_of_subscriptions_eq (fun _ hempty => hempty) rfl

end State
end Node
end KeyRegistry
