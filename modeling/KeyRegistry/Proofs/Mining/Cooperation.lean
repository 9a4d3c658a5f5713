import KeyRegistry.Proofs.Mining.Ledger

/-!
# Loops that are left alone while they act

Where one thread runs all tasks, others act only while the loop is suspended:
where it waits, in its sleep, and after its end.  From one such place to the next
the loop has the node to itself, so the queues that it has emptied are empty when
its evaluation begins.
-/

namespace KeyRegistry
namespace Mining

open Node Program

def Suspended : Program Stage -> Prop
  | .done _ => True
  | .perform (.sleep _) _ => True
  | .perform _ _ => False

/-- Others act only while the loop is suspended. -/
def Cooperative (path : List Moment) : Prop :=
  forall moment, moment ∈ path -> forall deed, moment.happening = .deed deed ->
    Suspended moment.before.loop

namespace Ledger

variable {γ : Type} (ledger : Ledger γ)

/-- What others can have made of a world before the loop's next action is over: only a sleep gives
them time. -/
def Passes : Action -> Noted γ -> Noted γ -> Prop
  | .sleep _, w, w' => Relation.ReflTransGen ledger.Interferes w w'
  | _, w, w' => w' = w

def cooperation : Commons (Noted γ) where
  answers action w reply w' := ∃ u, ledger.Passes action w u ∧ ledger.Exchanges action u reply w'
  meanwhile := Eq
  refl _ := rfl
  trans _ _ _ := Eq.trans

variable {ledger}

theorem passes_meanwhile {action : Action} {w w' : Noted γ} (h : ledger.Passes action w w') :
    ledger.commons.meanwhile w w' := by
  cases action with
  | sleep duration => exact h
  | _ =>
      cases h
      exact ledger.commons.refl w

/-- What is ensured among others who act at any time is ensured among those who wait for their
turn. -/
theorem ensures_cooperation {α : Type} {program : Program α} {post : α -> Noted γ -> Prop}
    {w : Noted γ} (h : Ensures ledger.commons program post w) :
    Ensures ledger.cooperation program post w := by
  induction program generalizing w with
  | done a =>
      rintro _ rfl
      exact h w (ledger.commons.refl w)
  | perform action next ih =>
      rintro _ rfl reply u ⟨v, hpasses, hexchanges⟩
      exact ih reply (h v (passes_meanwhile hpasses) reply u hexchanges)

/-- A deed of others at a suspended loop takes nothing from what the loop ensures. -/
theorem ensures_of_deed {program : Program Stage} {post : Stage -> Noted γ -> Prop}
    {w w' : Noted γ}
    (hstable : forall stage w w', ledger.Interferes w w' -> post stage w -> post stage w')
    (hsuspended : Suspended program) (hdeed : ledger.Interferes w w')
    (h : Ensures ledger.cooperation program post w) :
    Ensures ledger.cooperation program post w' := by
  cases program with
  | done stage =>
      rintro _ rfl
      exact hstable stage w w' hdeed (h w rfl)
  | perform action next =>
      cases action with
      | sleep duration =>
          rintro _ rfl reply u ⟨v, hpasses, hexchanges⟩
          exact h w rfl reply u ⟨v, Relation.ReflTransGen.head hdeed hpasses, hexchanges⟩
      | _ => exact hsuspended.elim

/-- On a cooperative path, what the loop's programs ensure one wake-up at a time holds wherever it
comes to rest. -/
theorem ensures_of_cooperative {post : Stage -> Noted γ -> Prop}
    (hstable : forall stage w w', ledger.Interferes w w' -> post stage w -> post stage w')
    (hwake : forall (w : Noted γ) (r : Run) (wake : Wake) (node' : State),
      post (.waiting r) w -> Wakes w.node r wake node' ->
        Ensures ledger.cooperation (r.wake wake) post
          ⟨node', w.held, ledger.note w.node w.held (.own (.wake wake)) w.entry⟩)
    {s last : Scene} {path : List Moment} {entry : γ} (hpath : Path s path last)
    (hcooperative : Cooperative path)
    (hadmits : forall moment, moment ∈ path -> ledger.admits moment.before.node moment.before.held)
    (hs : Ensures ledger.cooperation s.loop post ⟨s.node, s.held, entry⟩) :
    Ensures ledger.cooperation last.loop post ⟨last.node, last.held, ledger.after path entry⟩ := by
  induction hpath generalizing entry with
  | nil s => exact hs
  | cons hstep _ ih =>
      rcases List.forall_mem_cons.mp hadmits with ⟨hadmitted, hmore⟩
      rcases List.forall_mem_cons.mp hcooperative with ⟨hgiven, hlater⟩
      refine ih hlater hmore ?_
      cases hstep with
      | exchange node node' held now action next reply hreply =>
          have hexchanges : ledger.Exchanges action ⟨node, held, entry⟩ reply
              ⟨node', heldAfter held ⟨action, reply⟩, _⟩ := ⟨hadmitted, ⟨now, hreply⟩, rfl, rfl⟩
          refine hs _ rfl reply _ ⟨_, ?_, hexchanges⟩
          cases action with
          | sleep duration => exact Relation.ReflTransGen.refl
          | _ => rfl
      | wake node node' held r wake hwakes => exact hwake _ r wake node' (hs _ rfl) hwakes
      | deed s deed => exact ensures_of_deed hstable (hgiven deed rfl) ⟨hadmitted, deed, rfl⟩ hs

end Ledger

/-! ## Evaluations with empty queues -/

def Drained (node : State) (held : Feed -> Option Nat) : Prop :=
  forall feed id, held feed = some id -> node.queued id = []

def Happening.Begins (happening : Happening) : Prop :=
  ∃ answer, happening = .own (.exchange ⟨.ask .pendingCount, answer⟩)

structure Tidy (node : State) (held : Feed -> Option Nat) (happening : Happening) : Prop where
  drained : happening.Begins -> Drained node held
  /-- Notifications are taken from the loop's own subscriptions. -/
  own : forall id events, happening = .own (.exchange ⟨.drain id, events⟩) ->
    ∃ feed, held feed = some id

def order : Ledger Prop where
  admits := Owns
  note node held happening entry := entry ∧ Tidy node held happening

def Uninvolved (action : Action) : Prop :=
  action ≠ .ask .pendingCount ∧ forall id, action ≠ .drain id

theorem AboutMiner.uninvolved {action : Action} (h : AboutMiner action) : Uninvolved action := by
  rcases h with rfl | ⟨threads, rfl⟩ | rfl <;> simp [Uninvolved]

theorem tidy_of_uninvolved {action : Action} (h : Uninvolved action) (node : State)
    (held : Feed -> Option Nat) (reply : action.Reply) :
    Tidy node held (.own (.exchange ⟨action, reply⟩)) where
  drained := by
    rintro ⟨answer, heq⟩
    cases heq
    exact absurd rfl h.1
  own := by
    intro id events heq
    cases heq
    exact absurd rfl (h.2 id)

section

variable {w w' : Noted Prop}

theorem entry_of_interferes (hdeed : order.Interferes w w') (h : w.entry) : w'.entry := by
  rcases hdeed with ⟨_, deed, rfl⟩
  exact ⟨h, ⟨nofun, nofun⟩⟩

theorem entry_of_exchanges {action : Action} {reply : action.Reply}
    (haction : Uninvolved action) (hexchanges : order.Exchanges action w reply w')
    (h : w.entry) : w'.entry := by
  rw [hexchanges.entry_eq]
  exact ⟨h, tidy_of_uninvolved haction _ _ reply⟩

theorem tidy_of_every {α : Type} {program : Program α} (hevery : program.Every Uninvolved)
    (h : w.entry) : Ensures order.cooperation program (fun _ w' => w'.entry) w := by
  refine ensures_of_every hevery ?_ ?_ h
  · rintro s _ rfl hs
    exact hs
  · rintro action s reply t hallowed ⟨u, hpasses, hexchanges⟩ hs
    have hu : u.entry := Ledger.stable_of_deed (fun _ _ hdeed => entry_of_interferes hdeed) hs
      (Ledger.passes_meanwhile hpasses)
    exact entry_of_exchanges hallowed hexchanges hu

/-! ## Parts of a round -/

theorem tidy_evaluated {α : Type} (h : w.entry) (hdrained : Drained w.node w.held)
    (c : Controller) (f : Controller -> α) :
    Ensures order.cooperation (c.evaluateCounted.bind fun c => .done (f c))
      (fun _ w' => w'.entry) w := by
  rcases exists_evaluation c with ⟨next, heq, hnext⟩
  rw [heq]
  rintro _ rfl answer w1 ⟨_, rfl, h1⟩
  have huninvolved := (hnext answer).mono fun _ hminer => hminer.uninvolved
  refine tidy_of_every (huninvolved.bind fun _ => trivial) ?_
  rw [h1.entry_eq]
  exact ⟨h, ⟨fun _ => hdrained, nofun⟩⟩

theorem tidy_settle {r : Run} (h : w.entry)
    (hheld : w.held = fun feed => some (r.subscription feed)) :
    Ensures order.cooperation r.settle (fun _ w' => w'.entry) w := by
  rintro w rfl events w1 ⟨w, rfl, h1⟩ w1 rfl events' w2 ⟨w1, rfl, h2⟩
  have hheld1 : w1.held = w.held := h1.held_eq
  have hheld2 : w2.held = w1.held := h2.held_eq
  rcases h1.reply_eq with ⟨now, hreply1⟩
  rcases h2.reply_eq with ⟨now', hreply2⟩
  have hlatest : w1.node.queued r.latest = [] := by
    rw [show w1.node = (w.node.drainEvents r.latest).2 from congrArg Prod.snd hreply1.symm]
    exact State.queued_drainEvents _ _
  have hpending : w2.node.queued r.pending = [] := by
    rw [show w2.node = (w1.node.drainEvents r.pending).2 from congrArg Prod.snd hreply2.symm]
    exact State.queued_drainEvents _ _
  -- emptying the second queue fills nothing into the first one
  have hstill : w2.node.queued r.latest = [] := by
    have hunfilled := State.unfilled_reply now' w1.node (.drain r.pending)
    rw [hreply2] at hunfilled
    rcases h2.admitted .latest r.latest (by rw [hheld1, hheld]; rfl) with ⟨sub, hsub, _⟩
    exact hunfilled.queued_eq_nil hsub hlatest
  have hdrained : Drained w2.node w2.held := by
    intro feed id hid
    rw [hheld2, hheld1, hheld] at hid
    cases hid
    cases feed with
    | latest => exact hstill
    | pending => exact hpending
  refine tidy_evaluated ?_ hdrained _ _
  rw [h2.entry_eq, h1.entry_eq]
  have howns : forall feed, w.held feed = some (r.subscription feed) := fun feed => by rw [hheld]
  refine ⟨⟨h, ⟨nofun, ?_⟩⟩, ⟨nofun, ?_⟩⟩
  · intro id events heq
    cases heq
    exact ⟨.latest, howns .latest⟩
  · intro id events heq
    cases heq
    exact ⟨.pending, by rw [hheld1]; exact howns .pending⟩

theorem every_resubscribe (config : Config) (feed : Feed) (left : Nat) :
    (Controller.resubscribe config feed left).Every Uninvolved := by
  induction left with
  | zero => trivial
  | succ left ih =>
      refine ⟨by simp [Uninvolved], fun _ => ⟨by simp [Uninvolved], fun tried => ?_⟩⟩
      cases tried with
      | ok id => trivial
      | error e => exact ih

theorem every_finish (r : Run) (result : Except Error Unit) :
    (r.finish result).Every Uninvolved := by
  have hshutdown := (every_shutdownMiner r.controller).mono fun _ hminer => hminer.uninvolved
  exact ⟨by simp [Uninvolved], fun _ => ⟨by simp [Uninvolved], fun _ =>
    hshutdown.bind fun _ => trivial⟩⟩

/-! ## Rounds -/

def Composed (stage : Stage) (w : Noted Prop) : Prop :=
  w.entry ∧ Ledger.Holds stage w

theorem composed_of_interferes (stage : Stage) (w w' : Noted Prop)
    (hdeed : order.Interferes w w') (h : Composed stage w) : Composed stage w' := by
  refine ⟨entry_of_interferes hdeed h.1, ?_⟩
  rcases hdeed with ⟨_, deed, rfl⟩
  cases stage with
  | waiting r => exact h.2
  | finished result c => trivial

theorem composed_wake {r : Run} (h : w.entry)
    (hheld : w.held = fun feed => some (r.subscription feed)) (wake : Wake) :
    Ensures order.cooperation (r.wake wake) Composed w := by
  refine Ensures.and ?_ (Ledger.ensures_cooperation (Ledger.holds_wake hheld wake))
  cases wake with
  | shutdown => exact tidy_of_every (every_finish r _) h
  | event feed => exact tidy_settle h (by rw [hheld]; rfl)
  | closed feed =>
      have hresubscribe := (tidy_of_every (every_resubscribe r.controller.config feed
        r.controller.config.resubscribeAttempts.toNat) h).and
          (Ledger.ensures_cooperation (Ledger.ensures_resubscribe r.controller.config feed
            r.controller.config.resubscribeAttempts.toNat hheld))
      refine ensures_bind.mpr (hresubscribe.mono ?_)
      rintro answer w1 ⟨hentry, hholds⟩
      cases answer with
      | error e => exact tidy_of_every (every_finish r _) hentry
      | ok id =>
          refine tidy_settle hentry ?_
          rw [hholds id rfl]
          funext feed'
          cases feed <;> cases feed' <;> rfl

theorem drained_subscribed {node node1 node2 : State} {held : Feed -> Option Nat}
    {latest pending : Nat} (hlatest : node.answer (.subscribe .latest) = (.ok latest, node1))
    (hpending : node1.answer (.subscribe .pending) = (.ok pending, node2))
    (hheld : held .latest = some latest ∧ held .pending = some pending) : Drained node2 held := by
  have hfirst : node1.subscription? latest = some (Subscription.new .latest) :=
    State.subscription_of_subscribe hlatest
  have hsecond : node2.subscription? pending = some (Subscription.new .pending) :=
    State.subscription_of_subscribe hpending
  intro feed id hid
  cases feed with
  | latest =>
      rw [hheld.1] at hid
      cases hid
      have hunfilled := State.unfilled_answer node1 (.subscribe .pending)
      rw [hpending] at hunfilled
      exact hunfilled.queued_eq_nil hfirst (by rw [State.queued, hfirst]; rfl)
  | pending =>
      rw [hheld.2] at hid
      cases hid
      rw [State.queued, hsecond]
      rfl

theorem composed_start {c : Controller} (h : w.entry) :
    Ensures order.cooperation (start c) Composed w := by
  refine Ensures.and ?_ (Ledger.ensures_cooperation Ledger.holds_start)
  have hsubscribe : forall feed, Uninvolved (.ask (.subscribe feed)) := by simp [Uninvolved]
  rintro w rfl answer w1 ⟨w, rfl, h1⟩
  have hentry1 : w1.entry := entry_of_exchanges (hsubscribe .latest) h1 h
  cases answer with
  | error e =>
      rintro _ rfl
      exact hentry1
  | ok latest =>
      rintro w1 rfl answer w2 ⟨w1, rfl, h2⟩
      have hentry2 : w2.entry := entry_of_exchanges (hsubscribe .pending) h2 hentry1
      cases answer with
      | error e =>
          rintro w2 rfl _ w3 ⟨w2, rfl, h3⟩ w3 rfl
          exact entry_of_exchanges (by simp [Uninvolved]) h3 hentry2
      | ok pending =>
          rcases h1.reply_eq with ⟨_, hlatest⟩
          rcases h2.reply_eq with ⟨_, hpending⟩
          refine tidy_evaluated hentry2 (drained_subscribed hlatest hpending ?_) c _
          rw [h2.held_eq, h1.held_eq]
          exact ⟨rfl, rfl⟩

end

/-! ## Paths -/

theorem order_after_iff {path : List Moment} {entry : Prop} :
    order.after path entry ↔
      entry ∧ forall moment, moment ∈ path ->
        Tidy moment.before.node moment.before.held moment.happening := by
  induction path generalizing entry with
  | nil => simp [Ledger.after]
  | cons moment path ih =>
      show order.after path (entry ∧ Tidy _ _ _) ↔ _
      rw [ih, List.forall_mem_cons, and_assoc]

theorem tidy_of_path {c : Controller} {node : State} {path : List Moment} {last : Scene}
    {stage : Stage} (hpath : Path (Scene.opening c node) path last)
    (hcooperative : Cooperative path) (hrests : last.loop = .done stage) :
    forall moment, moment ∈ path ->
      Tidy moment.before.node moment.before.held moment.happening := by
  have hensures : Ensures order.cooperation last.loop Composed
      ⟨last.node, last.held, order.after path True⟩ := by
    refine Ledger.ensures_of_cooperative composed_of_interferes ?_ hpath hcooperative
      (owns_of_path (owns_opening c node) hpath) (composed_start trivial)
    rintro w r wake node' ⟨hentry, hheld⟩ _
    exact composed_wake (w := ⟨node', w.held, _⟩) ⟨hentry, ⟨nofun, nofun⟩⟩ hheld wake
  rw [hrests] at hensures
  exact (order_after_iff.mp (hensures _ rfl).1).2

/-! ## Between two evaluations -/

def Act.taken : Act -> Nat
  | .wake (.event _) => 1
  | .exchange ⟨.drain _, events⟩ => events.length
  | _ => 0

def Happening.Takes (happening : Happening) : Prop :=
  ∃ act, happening = .own act ∧ 0 < act.taken

def Happening.Emits (happening : Happening) : Prop :=
  ∃ event, happening = .deed (.emit event)

theorem Path.split {s last : Scene} {first rest : List Moment} (h : Path s (first ++ rest) last) :
    ∃ s', Path s first s' ∧ Path s' rest last := by
  induction first generalizing s with
  | nil => exact ⟨s, Path.nil s, h⟩
  | cons moment first ih =>
      cases h with
      | cons hstep hmore =>
          rcases ih hmore with ⟨s', hfirst, hrest⟩
          exact ⟨s', Path.cons hstep hfirst, hrest⟩

theorem Drained.kept {node node' : State} {held : Feed -> Option Nat} (h : Drained node held)
    (howns : Owns node held) (hkeeps : State.Keeps State.Unfilled node node') :
    Drained node' held := by
  intro feed id hid
  rcases howns feed id hid with ⟨sub, hsub, _⟩
  exact hkeeps.queued_eq_nil hsub (h feed id hid)

theorem unfilled_effect {deed : Deed} (h : ¬ (Happening.deed deed).Emits) (s : State) :
    State.Keeps State.Unfilled s (deed.effect s) := by
  cases deed with
  | set setting =>
      exact State.keeps_of_subscriptions_eq (fun _ hempty => hempty) (setting.subscriptions_apply s)
  | emit event => exact absurd ⟨event, rfl⟩ h
  | close feed => exact State.unfilled_closeFeed s feed
  | ask request => exact State.unfilled_answer s request

theorem drained_exchange {node node' : State} {held : Feed -> Option Nat} {now : Nat}
    {action : Action} {reply : action.Reply} (h : Drained node held) (howns : Owns node held)
    (hreply : Script.reply now node action = (reply, node')) :
    Drained node' (heldAfter held ⟨action, reply⟩) := by
  have hkept : Drained node' held := by
    have hunfilled := State.unfilled_reply now node action
    rw [hreply] at hunfilled
    exact h.kept howns hunfilled
  intro feed id hid
  rcases held_or_given hid with hheld | hgiven
  · exact hkept feed id hheld
  · cases hgiven
    rw [State.queued, State.subscription_of_subscribe hreply]
    rfl

theorem drained_step {s s' : Scene} {happening : Happening} (h : Drained s.node s.held)
    (howns : Owns s.node s.held) (hquiet : ¬ happening.Emits) (hstep : Step s happening s') :
    Drained s'.node s'.held := by
  cases hstep with
  | exchange node node' held now action next reply hreply => exact drained_exchange h howns hreply
  | wake node node' held r wake hwakes =>
      cases hwakes with
      | shutdown => exact h
      | event feed event _ htaken =>
          have hunfilled := State.unfilled_takeEvent node (r.subscription feed)
          rw [htaken] at hunfilled
          exact h.kept howns hunfilled
      | closed feed _ => exact h
  | deed s deed => exact h.kept howns (unfilled_effect hquiet s.node)

theorem drained_of_path {s last : Scene} {path : List Moment} (hpath : Path s path last)
    (h : Drained s.node s.held) (howns : Owns s.node s.held)
    (hquiet : forall moment, moment ∈ path -> ¬ moment.happening.Emits) :
    Drained last.node last.held := by
  induction hpath with
  | nil s => exact h
  | cons hstep _ ih =>
      rcases List.forall_mem_cons.mp hquiet with ⟨hone, hmore⟩
      exact ih (drained_step h howns hone hstep) (owns_step howns hstep) hmore

theorem not_takes_of_drained {c : Controller} {node : State} {path : List Moment} {s s' : Scene}
    {happening : Happening} (hpath : Path (Scene.opening c node) path s)
    (hstep : Step s happening s') (htidy : Tidy s.node s.held happening)
    (hdrained : Drained s.node s.held) : ¬ happening.Takes := by
  rintro ⟨act, rfl, htakes⟩
  cases hstep with
  | exchange node node' held now action next reply hreply =>
      cases action with
      | drain id =>
          rcases htidy.own id reply rfl with ⟨feed, hheld⟩
          have hnone : reply = [] := by
            rw [show reply = node.queued id from congrArg Prod.fst hreply.symm]
            exact hdrained feed id hheld
          rw [hnone] at htakes
          exact absurd htakes (Nat.lt_irrefl 0)
      | _ => exact absurd htakes (Nat.lt_irrefl 0)
  | wake node node' held r wake hwakes =>
      cases hwakes with
      | shutdown => exact absurd htakes (Nat.lt_irrefl 0)
      | closed feed _ => exact absurd htakes (Nat.lt_irrefl 0)
      | event feed event _ htaken =>
          have hheld : held = fun feed => some (r.subscription feed) := held_of_path hpath rfl
          exact State.queued_ne_nil_of_takeEvent htaken
            (hdrained feed (r.subscription feed) (by rw [hheld]))

/-- A notification that is taken after an evaluation has begun was emitted after it, so no two
evaluations are due to what was queued at one time. -/
theorem exists_emission {c : Controller} {node : State} {before between after : List Moment}
    {moment moment' : Moment} {last : Scene}
    (hpath : Path (Scene.opening c node) (before ++ moment :: (between ++ moment' :: after)) last)
    (htidy : forall m, m ∈ before ++ moment :: (between ++ moment' :: after) ->
      Tidy m.before.node m.before.held m.happening)
    (hbegins : moment.happening.Begins) (htakes : moment'.happening.Takes) :
    ∃ m, m ∈ between ∧ m.happening.Emits := by
  have howns := owns_of_path (owns_opening c node) hpath
  rcases hpath.split with ⟨s, hbefore, hrest⟩
  cases hrest with
  | @cons _ s1 _ happening _ hstep hmore =>
      rcases hmore.split with ⟨s2, hbetween, hlast⟩
      cases hlast with
      | @cons _ s3 _ happening' _ hstep' hafter =>
          have hin : (⟨s, happening, s1⟩ : Moment) ∈
              before ++ ⟨s, happening, s1⟩ :: (between ++ ⟨s2, happening', s3⟩ :: after) := by
            simp
          have hin' : (⟨s2, happening', s3⟩ : Moment) ∈
              before ++ ⟨s, happening, s1⟩ :: (between ++ ⟨s2, happening', s3⟩ :: after) := by
            simp
          have hdrained : Drained s.node s.held := (htidy _ hin).drained hbegins
          have howns1 : Owns s1.node s1.held := owns_step (howns _ hin) hstep
          have hself : ¬ happening.Emits := by
            rcases hbegins with ⟨answer, rfl⟩
            rintro ⟨event, heq⟩
            cases heq
          refine Classical.byContradiction fun hnone => ?_
          have hquiet : forall m, m ∈ between -> ¬ m.happening.Emits :=
            fun m hm hemits => hnone ⟨m, hm, hemits⟩
          have hfirst := drained_step hdrained (howns _ hin) hself hstep
          have hstill := drained_of_path hbetween hfirst howns1 hquiet
          have hupto : Path (Scene.opening c node) (before ++ ⟨s, happening, s1⟩ :: between) s2 :=
            hbefore.append (Path.cons hstep hbetween)
          exact not_takes_of_drained hupto hstep' (htidy _ hin') hstill htakes

end Mining
end KeyRegistry
