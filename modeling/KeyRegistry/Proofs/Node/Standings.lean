import KeyRegistry.Proofs.Node.Turns
import Mathlib.Data.List.Induction
import Mathlib.Data.List.Infix

/-!
# What subscriptions deliver

How a subscription stands can be told from the record of a run: which events were queued
on it, which of them its consumer has read, and who has left.  The node answers
accordingly: readers find the queued events in the order of their emission, each once
and none missing, and a subscription ends when the node has closed it and everything
queued is read.
-/

namespace KeyRegistry
namespace Node

structure Standing where
  feed : Feed
  /-- The node has closed its side. -/
  closed : Bool
  /-- The consumer has cancelled the subscription or dropped it. -/
  left : Bool
  /-- The events that were queued, in order. -/
  taken : List ChainEvent
  /-- The events that the consumer has read, in order. -/
  read : List ChainEvent

namespace Standing

def opened (feed : Feed) : Standing :=
  { feed, closed := false, left := false, taken := [], read := [] }

def unread (x : Standing) : Nat :=
  x.taken.length - x.read.length

def isActive (x : Standing) (feed : Feed) : Bool :=
  x.feed = feed && !x.closed && !x.left

/-- Whether an event that is emitted now is queued. -/
def takes (event : ChainEvent) (x : Standing) : Bool :=
  x.isActive event.feed && x.unread < 64

def offer (event : ChainEvent) (x : Standing) : Standing :=
  if x.takes event then { x with taken := x.taken ++ [event] } else x

def close (feed : Feed) (x : Standing) : Standing :=
  if x.feed = feed then { x with closed := true } else x

def yield (events : List ChainEvent) (x : Standing) : Standing :=
  { x with read := x.read ++ events }

def leave (x : Standing) : Standing :=
  { x with left := true }

end Standing

def heed (table : List Standing) : Turn -> List Standing
  | ⟨.ask (.subscribe feed), .ok _⟩ => table ++ [Standing.opened feed]
  | ⟨.emit _, (event, _)⟩ => table.map (Standing.offer event)
  | ⟨.close feed, _⟩ => table.map (Standing.close feed)
  | ⟨.take subscription, some event⟩ => table.modify subscription (Standing.yield [event])
  | ⟨.drain subscription, events⟩ => table.modify subscription (Standing.yield events)
  | ⟨.leave subscription, _⟩ => table.modify subscription Standing.leave
  | _ => table

/-- How the subscriptions stand after a record, in the order in which they were opened. -/
def standings (record : List Turn) : List Standing :=
  record.foldl heed []

def emittedEvent? (feed : Feed) : Turn -> Option ChainEvent
  | ⟨.emit _, (event, _)⟩ => if event.feed = feed then some event else none
  | _ => none

/-- The events of a feed, in the order of their emission. -/
def emitted (feed : Feed) (record : List Turn) : List ChainEvent :=
  record.filterMap (emittedEvent? feed)

theorem standings_concat (past : List Turn) (turn : Turn) :
    standings (past ++ [turn]) = heed (standings past) turn :=
  List.foldl_append

/-! ## One subscription -/

/-- What a subscription of the node has to do with how it stands.  Of what was queued when the
consumer left, nothing is kept. -/
structure Shows (sub : Subscription) (x : Standing) : Prop where
  feed_eq : sub.feed = x.feed
  node_eq : sub.openAtNode = !x.closed
  consumer_eq : sub.openAtConsumer = !x.left
  taken_eq : x.left = false -> x.taken = x.read ++ sub.queue
  left_behind : x.left = true -> sub.queue = [] ∧ x.read <+: x.taken

section

variable {sub : Subscription} {x : Standing}

theorem shows_new (feed : Feed) : Shows (Subscription.new feed) (Standing.opened feed) :=
  ⟨rfl, rfl, rfl, fun _ => rfl, nofun⟩

theorem Shows.isActive_eq (h : Shows sub x) (feed : Feed) :
    x.isActive feed = (decide (sub.feed = feed) && sub.isLive) := by
  rw [Standing.isActive, Subscription.isLive, h.feed_eq, h.node_eq, h.consumer_eq, Bool.and_assoc]

theorem Shows.read_prefix (h : Shows sub x) : x.read <+: x.taken := by
  cases hleft : x.left with
  | false => exact ⟨sub.queue, (h.taken_eq hleft).symm⟩
  | true => exact (h.left_behind hleft).2

theorem Shows.drop_eq (h : Shows sub x) (hleft : x.left = false) :
    x.taken.drop x.read.length = sub.queue := by
  rw [h.taken_eq hleft, List.drop_left]

theorem Shows.accepts_eq (h : Shows sub x) (event : ChainEvent) :
    sub.accepts event.feed = x.takes event := by
  rw [Subscription.accepts, Standing.takes, h.isActive_eq]
  cases hleft : x.left with
  | false =>
      rw [Standing.unread, ← List.length_drop, h.drop_eq hleft, Subscription.capacity]
  | true =>
      have hclosed : sub.isLive = false := by
        rw [Subscription.isLive, h.consumer_eq, hleft]
        exact Bool.and_false _
      rw [hclosed, Bool.and_false, Bool.false_and, Bool.false_and]

theorem Standing.left_eq_of_takes {event : ChainEvent} (h : x.takes event = true) :
    x.left = false := by
  rw [takes, isActive] at h
  simp only [Bool.and_eq_true, Bool.not_eq_true'] at h
  exact h.1.2

theorem Standing.feed_eq_of_takes {event : ChainEvent} (h : x.takes event = true) :
    x.feed = event.feed := by
  rw [takes, isActive] at h
  simp only [Bool.and_eq_true, decide_eq_true_eq] at h
  exact h.1.1.1

theorem Shows.deliver (h : Shows sub x) (event : ChainEvent) :
    Shows (sub.deliver event) (x.offer event) := by
  rw [Subscription.deliver, Standing.offer, h.accepts_eq]
  by_cases htakes : x.takes event = true
  · have hleft := Standing.left_eq_of_takes htakes
    rw [if_pos htakes, if_pos htakes]
    refine ⟨h.feed_eq, h.node_eq, h.consumer_eq, fun _ => ?_, fun hgone => ?_⟩
    · show x.taken ++ [event] = x.read ++ (sub.queue ++ [event])
      rw [h.taken_eq hleft, List.append_assoc]
    · rw [hleft] at hgone
      cases hgone
  · rw [if_neg htakes, if_neg htakes]
    exact h

theorem Shows.closeAtNode (h : Shows sub x) (feed : Feed) :
    Shows (sub.closeAtNode feed) (x.close feed) := by
  rw [Subscription.closeAtNode, Standing.close, h.feed_eq]
  split
  · exact ⟨rfl, rfl, h.consumer_eq, h.taken_eq, h.left_behind⟩
  · exact h

theorem Shows.closeAtConsumer (h : Shows sub x) : Shows sub.closeAtConsumer x.leave :=
  ⟨h.feed_eq, h.node_eq, rfl, nofun, fun _ => ⟨rfl, h.read_prefix⟩⟩

theorem Shows.yield (h : Shows sub x) {events rest : List ChainEvent}
    (hqueue : sub.queue = events ++ rest) :
    Shows { sub with queue := rest } (x.yield events) := by
  refine ⟨h.feed_eq, h.node_eq, h.consumer_eq, fun hleft => ?_, fun hleft => ?_⟩
  · show x.taken = x.read ++ events ++ rest
    rw [h.taken_eq hleft, hqueue, List.append_assoc]
  · rcases h.left_behind hleft with ⟨hempty, hprefix⟩
    rcases List.append_eq_nil_iff.mp (hqueue.symm.trans hempty) with ⟨rfl, rfl⟩
    refine ⟨rfl, ?_⟩
    show x.read ++ [] <+: x.taken
    rw [List.append_nil]
    exact hprefix

end

/-! ## All subscriptions -/

structure Tallies (s : State) (table : List Standing) : Prop where
  length_eq : s.subscriptions.length = table.length
  shows : forall (id : Nat) sub x, s.subscriptions[id]? = some sub -> table[id]? = some x ->
    Shows sub x

namespace Tallies

variable {s t : State} {table : List Standing}

theorem of_subscriptions_eq (h : Tallies s table) (hsame : t.subscriptions = s.subscriptions) :
    Tallies t table := by
  constructor
  · rw [hsame]
    exact h.length_eq
  · rw [hsame]
    exact h.shows

theorem opened (h : Tallies s table) {feed : Feed}
    (hopened : t.subscriptions = s.subscriptions ++ [Subscription.new feed]) :
    Tallies t (table ++ [Standing.opened feed]) := by
  constructor
  · rw [hopened, List.length_append, List.length_append, h.length_eq]
    rfl
  · intro id sub x hsub hx
    rw [hopened] at hsub
    by_cases hid : id < table.length
    · rw [List.getElem?_append_left hid] at hx
      rw [List.getElem?_append_left (h.length_eq ▸ hid)] at hsub
      exact h.shows id sub x hsub hx
    · have hlast : table.length ≤ id := Nat.le_of_not_lt hid
      rw [List.getElem?_append_right hlast] at hx
      rw [List.getElem?_append_right (h.length_eq ▸ hlast), h.length_eq] at hsub
      have hx' := List.mem_singleton.mp (List.mem_of_getElem? hx)
      have hsub' := List.mem_singleton.mp (List.mem_of_getElem? hsub)
      rw [hx', hsub']
      exact shows_new feed

theorem map (h : Tallies s table) {f : Subscription -> Subscription} {g : Standing -> Standing}
    (hchange : forall sub x, Shows sub x -> Shows (f sub) (g x))
    (hmapped : t.subscriptions = s.subscriptions.map f) : Tallies t (table.map g) := by
  constructor
  · rw [hmapped, List.length_map, List.length_map, h.length_eq]
  · intro id sub x hsub hx
    rw [hmapped, List.getElem?_map] at hsub
    rw [List.getElem?_map] at hx
    rcases Option.map_eq_some_iff.mp hsub with ⟨sub', hsub', rfl⟩
    rcases Option.map_eq_some_iff.mp hx with ⟨x', hx', rfl⟩
    exact hchange sub' x' (h.shows id sub' x' hsub' hx')

theorem modify (h : Tallies s table) {id : Nat} {f : Subscription -> Subscription}
    {g : Standing -> Standing}
    (hchange : forall sub x, s.subscriptions[id]? = some sub -> Shows sub x ->
      Shows (f sub) (g x))
    (hmodified : t.subscriptions = s.subscriptions.modify id f) :
    Tallies t (table.modify id g) := by
  constructor
  · rw [hmodified, List.length_modify, List.length_modify, h.length_eq]
  · intro id' sub x hsub hx
    rw [hmodified, List.getElem?_modify] at hsub
    rw [List.getElem?_modify] at hx
    rcases Option.map_eq_some_iff.mp hsub with ⟨sub', hsub', rfl⟩
    rcases Option.map_eq_some_iff.mp hx with ⟨x', hx', rfl⟩
    have hone := h.shows id' sub' x' hsub' hx'
    by_cases hid : id = id'
    · subst hid
      rw [if_pos rfl, if_pos rfl]
      exact hchange sub' x' hsub' hone
    · rw [if_neg hid, if_neg hid]
      exact hone

theorem exists_shows (h : Tallies s table) {id : Nat} {x : Standing}
    (hx : table[id]? = some x) : ∃ sub, s.subscription? id = some sub ∧ Shows sub x := by
  have hid : id < s.subscriptions.length := by
    rw [h.length_eq]
    exact (List.getElem?_eq_some_iff.mp hx).1
  have hsub : s.subscriptions[id]? = some s.subscriptions[id] := List.getElem?_eq_getElem hid
  exact ⟨_, hsub, h.shows id _ x hsub hx⟩

theorem countP_eq (h : Tallies s table) {p : Subscription -> Bool} {q : Standing -> Bool}
    (hpq : forall sub x, Shows sub x -> p sub = q x) :
    s.subscriptions.countP p = table.countP q := by
  have hmap : s.subscriptions.map p = table.map q := by
    apply List.ext_getElem
    · rw [List.length_map, List.length_map, h.length_eq]
    · intro id hsub hx
      rw [List.length_map] at hsub hx
      rw [List.getElem_map, List.getElem_map]
      exact hpq _ _ (h.shows id _ _ (List.getElem?_eq_getElem hsub) (List.getElem?_eq_getElem hx))
  have hcount := congrArg (List.countP id) hmap
  rw [List.countP_map, List.countP_map] at hcount
  exact hcount

/-! ## Turns -/

theorem emit (h : Tallies s table) (event : ChainEvent) :
    (s.emit event).1 = table.countP (Standing.takes event) ∧
      Tallies (s.emit event).2 (table.map (Standing.offer event)) := by
  constructor
  · rw [← h.countP_eq fun sub x hone => hone.accepts_eq event, List.countP_eq_length_filter]
    rfl
  · exact h.map (fun sub x hone => hone.deliver event) rfl

theorem issue (h : Tallies s table) (emission : Emission) :
    (s.issue emission).1 = table.countP (Standing.takes (s.eventOf emission)) ∧
      Tallies (s.issue emission).2 (table.map (Standing.offer (s.eventOf emission))) := by
  cases emission with
  | event e => exact h.emit e
  | nextBlock =>
      have hnext : Tallies { s with blockNumber := s.blockNumber + 1 } table :=
        h.of_subscriptions_eq rfl
      exact hnext.emit _
  | pendingTransaction => exact h.emit _

theorem answer (h : Tallies s table) (request : Request) :
    Tallies (s.answer request).2 (heed table ⟨.ask request, (s.answer request).1⟩) := by
  cases request with
  | subscribe feed =>
      cases hqueued : s.subscribeErrors with
      | nil =>
          rw [State.answer_subscribe_accepted hqueued]
          exact h.opened rfl
      | cons e es =>
          rw [State.answer_subscribe_rejected hqueued]
          exact h.of_subscriptions_eq rfl
  | send call plan =>
      cases hqueued : s.sendErrors with
      | nil =>
          simp only [State.answer, State.respond, State.accept, hqueued]
          exact h.of_subscriptions_eq rfl
      | cons e es =>
          rw [State.answer_send_rejected hqueued]
          exact h.of_subscriptions_eq rfl
  | receipt hash => exact h.of_subscriptions_eq rfl
  | _ => exact h.of_subscriptions_eq (State.sameHoldings_answer s (by rfl)).subscriptions_eq

theorem takeEvent (h : Tallies s table) (id : Nat) :
    Tallies (s.takeEvent id).2 (heed table ⟨.take id, (s.takeEvent id).1⟩) := by
  unfold State.takeEvent
  split
  · rename_i event rest hqueue
    rcases Option.map_eq_some_iff.mp hqueue with ⟨front, hfront, hevent⟩
    refine h.modify (fun sub x hsub hone => ?_) rfl
    rw [State.subscription?, hsub] at hfront
    cases hfront
    rw [hevent]
    exact hone.yield hevent
  · exact h

theorem perform (h : Tallies s table) (use : Use) :
    Tallies (s.perform use).2 (heed table ⟨use, (s.perform use).1⟩) := by
  cases use with
  | ask request => exact h.answer request
  | set setting => cases setting <;> exact h.of_subscriptions_eq rfl
  | emit emission => exact (h.issue emission).2
  | close feed => exact h.map (fun sub x hone => hone.closeAtNode feed) rfl
  | take id => exact h.takeEvent id
  | drain id =>
      refine h.modify (fun sub x hsub hone => ?_) rfl
      have hqueue : sub.queue = (((s.subscription? id).map Subscription.queue).getD []) ++ [] := by
        rw [State.subscription?, hsub, List.append_nil]
        rfl
      exact hone.yield hqueue
  | leave id => exact h.modify (fun sub x _ hone => hone.closeAtConsumer) rfl

theorem subscribed (h : Tallies s table) {feed : Feed} {id : Nat}
    (hanswer : (s.answer (.subscribe feed)).1 = .ok id) : id = table.length := by
  cases hqueued : s.subscribeErrors with
  | nil =>
      rw [State.answer_subscribe_accepted hqueued] at hanswer
      cases hanswer
      exact h.length_eq
  | cons e es =>
      rw [State.answer_subscribe_rejected hqueued] at hanswer
      cases hanswer

theorem activeCount_eq (h : Tallies s table) (feed : Feed) :
    s.activeCount feed = table.countP fun x => x.isActive feed := by
  rw [State.activeCount, ← List.countP_eq_length_filter]
  exact h.countP_eq fun sub x hone => (hone.isActive_eq feed).symm

end Tallies

/-! ## Runs -/

theorem emitted_append (feed : Feed) (past more : List Turn) :
    emitted feed (past ++ more) = emitted feed past ++ emitted feed more :=
  List.filterMap_append

/-- A turn puts at most the event that it emits on a subscription that was there before. -/
structure Follows (turn : Turn) (x y : Standing) : Prop where
  feed_eq : y.feed = x.feed
  taken_sublist : y.taken.Sublist (x.taken ++ emitted x.feed [turn])

theorem follows_of_taken_eq (turn : Turn) {x y : Standing} (hfeed : y.feed = x.feed)
    (htaken : y.taken = x.taken) : Follows turn x y :=
  ⟨hfeed, htaken ▸ List.sublist_append_left _ _⟩

theorem follows_offer (emission : Emission) (event : ChainEvent) (count : Nat) (x : Standing) :
    Follows ⟨.emit emission, (event, count)⟩ x (x.offer event) := by
  unfold Standing.offer
  by_cases htakes : x.takes event = true
  · rw [if_pos htakes]
    refine ⟨rfl, ?_⟩
    rw [Standing.feed_eq_of_takes htakes, emitted, List.filterMap_cons, emittedEvent?,
      if_pos rfl]
    exact List.Sublist.refl _
  · rw [if_neg htakes]
    exact follows_of_taken_eq _ rfl rfl

theorem follows_close (turn : Turn) (feed : Feed) (x : Standing) :
    Follows turn x (x.close feed) := by
  unfold Standing.close
  split <;> exact follows_of_taken_eq turn rfl rfl

section

variable {turn : Turn} {table : List Standing} {g : Standing -> Standing} {id : Nat}
  {y : Standing}

theorem origin_of_map (h : (table.map g)[id]? = some y) (hg : forall x, Follows turn x (g x)) :
    ∃ x, table[id]? = some x ∧ Follows turn x y := by
  rw [List.getElem?_map] at h
  rcases Option.map_eq_some_iff.mp h with ⟨x, hx, rfl⟩
  exact ⟨x, hx, hg x⟩

theorem origin_of_modify {changed : Nat} (h : (table.modify changed g)[id]? = some y)
    (hg : forall x, Follows turn x (g x)) : ∃ x, table[id]? = some x ∧ Follows turn x y := by
  rw [List.getElem?_modify] at h
  rcases Option.map_eq_some_iff.mp h with ⟨x, hx, rfl⟩
  refine ⟨x, hx, ?_⟩
  split
  · exact hg x
  · exact follows_of_taken_eq turn rfl rfl

theorem origin_of_heed (h : (heed table turn)[id]? = some y) :
    y.taken = [] ∨ ∃ x, table[id]? = some x ∧ Follows turn x y := by
  unfold heed at h
  split at h
  · rename_i feed number
    by_cases hid : id < table.length
    · rw [List.getElem?_append_left hid] at h
      exact Or.inr ⟨y, h, follows_of_taken_eq _ rfl rfl⟩
    · rw [List.getElem?_append_right (Nat.le_of_not_lt hid)] at h
      have hy : y = Standing.opened feed := List.mem_singleton.mp (List.mem_of_getElem? h)
      exact Or.inl (hy ▸ rfl)
  · exact Or.inr (origin_of_map h (follows_offer _ _ _))
  · exact Or.inr (origin_of_map h (follows_close _ _))
  · exact Or.inr (origin_of_modify h fun _ => follows_of_taken_eq _ rfl rfl)
  · exact Or.inr (origin_of_modify h fun _ => follows_of_taken_eq _ rfl rfl)
  · exact Or.inr (origin_of_modify h fun _ => follows_of_taken_eq _ rfl rfl)
  · exact Or.inr ⟨y, h, follows_of_taken_eq _ rfl rfl⟩

end

/-- Events are queued in the order of their emission, each of them at most once. -/
theorem taken_sublist_emitted (record : List Turn) (id : Nat) (x : Standing)
    (h : (standings record)[id]? = some x) : x.taken.Sublist (emitted x.feed record) := by
  induction record using List.reverseRecOn generalizing id x with
  | nil => cases h
  | append_singleton past turn ih =>
      rw [standings_concat] at h
      rcases origin_of_heed h with hempty | ⟨before, hbefore, hfollows⟩
      · rw [hempty]
        exact List.nil_sublist _
      · rw [hfollows.feed_eq, emitted_append]
        exact hfollows.taken_sublist.trans ((ih id before hbefore).append_right _)

namespace State

theorem tallies_record (uses : List Use) :
    Tallies (fresh.after uses) (standings (fresh.record uses)) := by
  have hstart : Tallies fresh (standings []) := ⟨rfl, nofun⟩
  refine invariant_of_perform (P := fun past s => Tallies s (standings past)) hstart ?_ uses
  intro past s use h
  show Tallies _ (standings (past ++ _))
  rw [standings_concat]
  exact h.perform use

variable {s : State} {table : List Standing} {id : Nat} {sub : Subscription}

theorem takeEvent_eq_head? (h : s.subscription? id = some sub) :
    (s.takeEvent id).1 = sub.queue.head? := by
  unfold takeEvent
  rw [h]
  cases hqueue : sub.queue <;> simp [hqueue]

theorem drainEvents_eq_queue (h : s.subscription? id = some sub) :
    (s.drainEvents id).1 = sub.queue := by
  rw [drainEvents, h]
  rfl

theorem isEnded_iff (h : s.subscription? id = some sub) :
    s.isEnded id = true ↔ sub.openAtNode = false ∧ sub.queue = [] := by
  rw [isEnded, h, Option.map_some, Option.getD_some, Subscription.isEnded]
  simp

/-- What a consumer that has not left is answered: the next event that was queued and not read,
all of them, or that the subscription has ended, which is when nothing is left to read on a
closed one. -/
theorem reading_of_tallies (h : Tallies s table) {x : Standing} (hx : table[id]? = some x)
    (hleft : x.left = false) :
    (s.takeEvent id).1 = x.taken[x.read.length]? ∧
      (s.drainEvents id).1 = x.taken.drop x.read.length ∧
      (s.isEnded id = true ↔ x.closed = true ∧ x.read = x.taken) := by
  rcases h.exists_shows hx with ⟨sub, hsub, hone⟩
  refine ⟨?_, ?_, ?_⟩
  · rw [takeEvent_eq_head? hsub, ← hone.drop_eq hleft, List.head?_drop]
  · rw [drainEvents_eq_queue hsub, hone.drop_eq hleft]
  · rw [isEnded_iff hsub, hone.node_eq, hone.taken_eq hleft]
    simp

/-- Every subscription delivers what the record says: what is read are the events queued on it,
in the order of their emission, and an emission counts the subscriptions that took its event. -/
theorem deliveries_of_record (uses : List Use) :
    (forall id x, (standings (fresh.record uses))[id]? = some x ->
      x.read <+: x.taken ∧ x.taken.Sublist (emitted x.feed (fresh.record uses)) ∧
        (x.left = false ->
          ((fresh.after uses).takeEvent id).1 = x.taken[x.read.length]? ∧
            ((fresh.after uses).drainEvents id).1 = x.taken.drop x.read.length ∧
            ((fresh.after uses).isEnded id = true ↔ x.closed = true ∧ x.read = x.taken))) ∧
      (forall past feed id future,
        fresh.record uses = past ++ ⟨.ask (.subscribe feed), .ok id⟩ :: future ->
          id = (standings past).length) ∧
      (forall past emission event count future,
        fresh.record uses = past ++ ⟨.emit emission, (event, count)⟩ :: future ->
          count = (standings past).countP (Standing.takes event)) ∧
      forall feed, (fresh.after uses).activeCount feed =
        (standings (fresh.record uses)).countP fun x => x.isActive feed := by
  have hall := tallies_record uses
  refine ⟨?_, ?_, ?_, ?_⟩
  · intro id x hx
    rcases hall.exists_shows hx with ⟨sub, _, hone⟩
    exact ⟨hone.read_prefix, taken_sublist_emitted _ id x hx, reading_of_tallies hall hx⟩
  · intro past feed id future hsplit
    rcases record_eq_append_cons hsplit with ⟨before, use, rest, rfl, hturn, _⟩
    rcases Sigma.mk.inj hturn with ⟨rfl, hreply⟩
    exact (tallies_record before).subscribed (eq_of_heq hreply).symm
  · intro past emission event count future hsplit
    rcases record_eq_append_cons hsplit with ⟨before, use, rest, rfl, hturn, _⟩
    rcases Sigma.mk.inj hturn with ⟨rfl, hreply⟩
    rcases Prod.mk.inj (eq_of_heq hreply) with ⟨rfl, rfl⟩
    exact ((tallies_record before).issue emission).1
  · exact hall.activeCount_eq

-- what was queued before the node closed the subscription is read, and nothing after it
example :
    (standings (fresh.record
      [.ask (.subscribe .latest), .emit (.event (.newBlock Hash.zero none)), .close .latest,
        .emit (.event (.newBlock Hash.zero (some 1))), .take 0, .take 0])).map Standing.read =
      [[.newBlock Hash.zero none]] := by
  decide

end State
end Node
end KeyRegistry
