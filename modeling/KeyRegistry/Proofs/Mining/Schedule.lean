import KeyRegistry.Mining.Controller
import KeyRegistry.Proofs.Node.Subscriptions

/-!
# Schedules of a control loop

A control loop and others use a scripted node at the same time.  The others may
move between any two actions of the loop: change settings, emit events, close
subscriptions, ask the node.  A path is one such schedule, moment by moment.
Emptying a queue is one action, so what is emitted while it is read counts as
emitted before.  Where several things wake a waiting loop, any of them may.
-/

namespace KeyRegistry
namespace Mining

open Node

/-! ## Moves -/

structure Setting where
  apply : State -> State
  subscriptions_apply : forall s, (apply s).subscriptions = s.subscriptions

inductive Deed where
  | set (setting : Setting)
  | emit (event : ChainEvent)
  | close (feed : Feed)
  | ask (request : Request)

def Deed.effect : Deed -> State -> State
  | .set setting, s => setting.apply s
  | .emit event, s => (s.emit event).2
  | .close feed, s => s.closeFeed feed
  | .ask request, s => (s.answer request).2

theorem grows_effect (deed : Deed) (s : State) :
    State.Keeps Subscription.Grows s (deed.effect s) := by
  cases deed with
  | set setting =>
      exact State.keeps_of_subscriptions_eq Subscription.Grows.refl (setting.subscriptions_apply s)
  | emit event => exact State.grows_emit s event
  | close feed => exact State.grows_closeFeed s feed
  | ask request => exact State.grows_answer s request

inductive Act where
  | exchange (e : Exchange)
  | wake (wake : Wake)

inductive Happening where
  | own (act : Act)
  | deed (deed : Deed)

def Run.subscription (r : Run) : Feed -> Nat
  | .latest => r.latest
  | .pending => r.pending

/-- The subscriptions of a loop after an exchange: a new one takes the place of the last one to the
same feed. -/
def heldAfter (held : Feed -> Option Nat) : Exchange -> Feed -> Option Nat
  | ⟨.ask (.subscribe feed), .ok id⟩, feed' => if feed' = feed then some id else held feed'
  | _, feed' => held feed'

def Unsubscribing (action : Action) : Prop :=
  forall feed, action ≠ .ask (.subscribe feed)

theorem heldAfter_of_unsubscribing {action : Action} (h : Unsubscribing action)
    (held : Feed -> Option Nat) (reply : action.Reply) :
    heldAfter held ⟨action, reply⟩ = held := by
  funext feed'
  cases action with
  | ask request =>
      cases request with
      | subscribe feed => exact absurd rfl (h feed)
      | _ => rfl
  | _ => rfl

/-- What a loop holds after an exchange it held before, or it has just been given it. -/
theorem held_or_given {held : Feed -> Option Nat} {e : Exchange} {feed : Feed} {id : Nat}
    (h : heldAfter held e feed = some id) :
    held feed = some id ∨ e = ⟨.ask (.subscribe feed), .ok id⟩ := by
  rcases e with ⟨action, reply⟩
  cases action with
  | ask request =>
      cases request with
      | subscribe feed' =>
          cases reply with
          | error e => exact .inl h
          | ok id' =>
              change (if feed = feed' then some id' else held feed) = some id at h
              split at h
              · rename_i hsame
                cases hsame
                cases h
                exact .inr rfl
              · exact .inl h
      | _ => exact .inl h
  | _ => exact .inl h

/-- The node, the subscription to each feed that the loop has, and what is left of the loop until
it waits or ends. -/
structure Scene where
  node : State
  held : Feed -> Option Nat
  loop : Program Stage

def Scene.opening (c : Controller) (node : State) : Scene where
  node := node
  held := fun _ => none
  loop := start c

inductive Wakes (node : State) (r : Run) : Wake -> State -> Prop where
  | shutdown : Wakes node r .shutdown node
  | event (feed : Feed) (event : ChainEvent) (node' : State) :
      node.takeEvent (r.subscription feed) = (some event, node') ->
      Wakes node r (.event feed) node'
  | closed (feed : Feed) :
      node.isEnded (r.subscription feed) = true -> Wakes node r (.closed feed) node

theorem ages_wakes {node node' : State} {r : Run} {wake : Wake} (h : Wakes node r wake node') :
    State.Keeps Subscription.Ages node node' := by
  cases h with
  | shutdown => exact State.keeps_of_subscriptions_eq Subscription.Ages.refl rfl
  | event feed event _ htaken =>
      have hages := State.ages_takeEvent node (r.subscription feed)
      rw [htaken] at hages
      exact hages
  | closed feed _ => exact State.keeps_of_subscriptions_eq Subscription.Ages.refl rfl

inductive Step : Scene -> Happening -> Scene -> Prop where
  | exchange (node node' : State) (held : Feed -> Option Nat) (now : Nat) (action : Action)
      (next : action.Reply -> Program Stage) (reply : action.Reply) :
      Script.reply now node action = (reply, node') ->
      Step ⟨node, held, .perform action next⟩ (.own (.exchange ⟨action, reply⟩))
        ⟨node', heldAfter held ⟨action, reply⟩, next reply⟩
  | wake (node node' : State) (held : Feed -> Option Nat) (r : Run) (wake : Wake) :
      Wakes node r wake node' ->
      Step ⟨node, held, .done (.waiting r)⟩ (.own (.wake wake)) ⟨node', held, r.wake wake⟩
  | deed (s : Scene) (deed : Deed) :
      Step s (.deed deed) { s with node := deed.effect s.node }

/-- A step of a path, with the scenes before and after it. -/
structure Moment where
  before : Scene
  happening : Happening
  after : Scene

inductive Path : Scene -> List Moment -> Scene -> Prop where
  | nil (s : Scene) : Path s [] s
  | cons {s s' last : Scene} {happening : Happening} {path : List Moment} :
      Step s happening s' -> Path s' path last -> Path s (⟨s, happening, s'⟩ :: path) last

theorem Path.append {s s' last : Scene} {first rest : List Moment} (hfirst : Path s first s')
    (hrest : Path s' rest last) : Path s (first ++ rest) last := by
  induction hfirst with
  | nil s => exact hrest
  | cons hstep _ ih => exact Path.cons hstep (ih hrest)

/-! ## The subscriptions of a loop -/

def Owns (node : State) (held : Feed -> Option Nat) : Prop :=
  forall feed id, held feed = some id ->
    ∃ sub, node.subscription? id = some sub ∧ sub.feed = feed

theorem Owns.kept {node node' : State} {held : Feed -> Option Nat} (h : Owns node held)
    (hkeeps : State.Keeps Subscription.Ages node node') : Owns node' held := by
  intro feed id hid
  rcases h feed id hid with ⟨sub, hsub, hfeed⟩
  rcases hkeeps id sub hsub with ⟨sub', hsub', hages⟩
  exact ⟨sub', hsub', hages.feed_eq.trans hfeed⟩

theorem owns_exchange {node node' : State} {held : Feed -> Option Nat} {now : Nat}
    {action : Action} {reply : action.Reply} (h : Owns node held)
    (hreply : Script.reply now node action = (reply, node')) :
    Owns node' (heldAfter held ⟨action, reply⟩) := by
  have hkept : Owns node' held := by
    have hages := State.ages_reply now node action
    rw [hreply] at hages
    exact h.kept hages
  intro feed id hid
  rcases held_or_given hid with hheld | hgiven
  · exact hkept feed id hheld
  · cases hgiven
    exact ⟨_, State.subscription_of_subscribe hreply, rfl⟩

theorem owns_step {s s' : Scene} {happening : Happening} (h : Owns s.node s.held)
    (hstep : Step s happening s') : Owns s'.node s'.held := by
  cases hstep with
  | exchange node node' held now action next reply hreply => exact owns_exchange h hreply
  | wake node node' held r wake hwakes => exact h.kept (ages_wakes hwakes)
  | deed s deed => exact h.kept ((grows_effect deed s.node).mono fun _ _ hgrows => hgrows.toAges)

theorem owns_of_path {s last : Scene} {path : List Moment} (h : Owns s.node s.held)
    (hpath : Path s path last) :
    forall moment, moment ∈ path -> Owns moment.before.node moment.before.held := by
  induction hpath with
  | nil s => simp
  | cons hstep _ ih => exact List.forall_mem_cons.mpr ⟨h, ih (owns_step h hstep)⟩

theorem owns_opening (c : Controller) (node : State) :
    Owns (Scene.opening c node).node (Scene.opening c node).held := by
  intro feed id hid
  cases hid

/-! ## The loop by itself -/

/-- The loop acts until it waits or ends, and nobody else moves. -/
def alone : Program Stage -> State -> (Feed -> Option Nat) -> List Moment × Scene
  | .done stage, node, held => ([], ⟨node, held, .done stage⟩)
  | .perform action next, node, held =>
      let (reply, node') := Script.reply 0 node action
      let held' := heldAfter held ⟨action, reply⟩
      let (path, last) := alone (next reply) node' held'
      (⟨⟨node, held, .perform action next⟩, .own (.exchange ⟨action, reply⟩),
        ⟨node', held', next reply⟩⟩ :: path, last)

theorem path_alone (program : Program Stage) (node : State) (held : Feed -> Option Nat) :
    Path ⟨node, held, program⟩ (alone program node held).1 (alone program node held).2 := by
  induction program generalizing node held with
  | done stage => exact Path.nil _
  | perform action next ih => exact Path.cons (Step.exchange _ _ _ 0 _ _ _ rfl) (ih _ _ _)

theorem own_of_mem_alone {program : Program Stage} {node : State} {held : Feed -> Option Nat}
    {moment : Moment} (h : moment ∈ (alone program node held).1) :
    ∃ e, moment.happening = .own (.exchange e) := by
  induction program generalizing node held with
  | done stage => cases h
  | perform action next ih =>
      rcases List.mem_cons.mp h with rfl | hmore
      · exact ⟨_, rfl⟩
      · exact ih _ hmore

theorem exists_loop_alone (program : Program Stage) (node : State) (held : Feed -> Option Nat) :
    ∃ stage, (alone program node held).2.loop = .done stage := by
  induction program generalizing node held with
  | done stage => exact ⟨stage, rfl⟩
  | perform action next ih => exact ih _ _ _

end Mining
end KeyRegistry
