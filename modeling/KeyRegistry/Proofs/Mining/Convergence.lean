import KeyRegistry.Proofs.Mining.Evaluation
import KeyRegistry.Proofs.Mining.Ledger

/-!
# Convergence of the control loop

A notification that reaches the loop, or a new subscription of its own, lets it
evaluate again.  So what an evaluation has read can be outdated only where others
have changed it since without telling, or where something is still queued.
-/

namespace KeyRegistry
namespace Mining

open Node Program

/-- No failing answer to the questions and commands of an evaluation is scripted. -/
structure Errorless (node : State) : Prop where
  pendingErrors_eq : node.pendingErrors = []
  miningErrors_eq : node.miningErrors = []

/-- What lets the loop know that it has to evaluate again. -/
inductive Informs (node : State) (held : Feed -> Option Nat) : Happening -> Prop where
  | emitted (event : ChainEvent) (id : Nat) :
      held event.feed = some id -> node.isLive id = true ->
      Informs node held (.deed (.emit event))
  | subscribed (feed : Feed) (id : Nat) :
      Informs node held (.own (.exchange ⟨.ask (.subscribe feed), .ok id⟩))

def Disturbs (node : State) : Happening -> Prop
  | .deed deed =>
      (deed.effect node).pending ≠ node.pending ∨ (deed.effect node).mining ≠ node.mining
  | .own _ => False

def watch : Ledger Prop where
  admits node held := Errorless node ∧ Owns node held
  note node held happening told := Informs node held happening ∨ told ∧ ¬ Disturbs node happening

def Queued (w : Noted Prop) : Prop :=
  ∃ feed id, w.held feed = some id ∧ w.node.queued id ≠ []

/-- The pending count and the miner are as in `fact`, unless something is queued or nobody has told
the loop. -/
def Informed (fact : UInt64 -> Bool -> Prop) (w : Noted Prop) : Prop :=
  w.entry -> Queued w ∨ fact w.node.pending w.node.mining

def Settled (pending : UInt64) (mining : Bool) : Prop :=
  mining = decide (0 < pending)

section

variable {w w' : Noted Prop} {fact fact' : UInt64 -> Bool -> Prop}

/-! ## What others do -/

theorem Informed.of_deed (h : Informed fact w) (hdeed : watch.Interferes w w') :
    Informed fact w' := by
  rcases hdeed with ⟨⟨_, howns⟩, deed, rfl⟩
  rintro (hinforms | ⟨htold, hquiet⟩)
  · -- an event that does not fit any more finds a full queue, so either way something is queued
    cases hinforms with
    | emitted event id hheld hlive =>
        rcases howns event.feed id hheld with ⟨sub, hsub, hfeed⟩
        exact Or.inl ⟨event.feed, id, hheld, State.queued_emit_ne_nil hsub hfeed hlive⟩
  · rcases h htold with ⟨feed, id, hheld, hqueued⟩ | hfact
    · exact Or.inl ⟨feed, id, hheld, (grows_effect deed w.node).queued_ne_nil hqueued⟩
    · rcases not_or.mp hquiet with ⟨hpending, hmining⟩
      refine Or.inr ?_
      show fact (deed.effect w.node).pending (deed.effect w.node).mining
      rw [Decidable.not_not.mp hpending, Decidable.not_not.mp hmining]
      exact hfact

theorem Informed.later (h : Informed fact w) (hmeanwhile : watch.commons.meanwhile w w') :
    Informed fact w' :=
  Ledger.stable_of_deed (fun _ _ hdeed hu => hu.of_deed hdeed) h hmeanwhile

/-! ## What the loop asks -/

theorem Informed.asked {request : Request} {answer : Except RpcError request.Value}
    (h : Informed fact w) (hrequest : Unsubscribing (.ask request))
    (hanswers : watch.Exchanges (.ask request) w answer w')
    (hfact : fact w.node.pending w.node.mining -> fact' w'.node.pending w'.node.mining) :
    Informed fact' w' := by
  rcases hanswers.reply_eq with ⟨now, hreply⟩
  have hheld : w'.held = w.held := by
    rw [hanswers.held_eq, heldAfter_of_unsubscribing hrequest]
  have hgrows := State.grows_answer w.node request
  rw [show w.node.answer request = (answer, w'.node) from hreply] at hgrows
  intro htold
  rw [hanswers.entry_eq] at htold
  rcases htold with hinforms | ⟨htold, _⟩
  · cases hinforms
    exact absurd rfl (hrequest _)
  · rcases h htold with ⟨feed, id, hid, hqueued⟩ | hknown
    · exact Or.inl ⟨feed, id, hheld ▸ hid, hgrows.queued_ne_nil hqueued⟩
    · exact Or.inr (hfact hknown)

/-- Asks the node something that it does not fail to answer: what was known beforehand tells what is
known afterwards. -/
theorem ensures_ask {α : Type} {post : α -> Noted Prop -> Prop} {request : Request}
    {next : Except RpcError request.Value -> Program α}
    (known : request.Value -> UInt64 -> Bool -> Prop) (h : Informed fact w)
    (hrequest : Unsubscribing (.ask request))
    (hanswer : forall node, Errorless node -> ∃ value, (node.answer request).1 = .ok value ∧
      (fact node.pending node.mining ->
        known value (node.answer request).2.pending (node.answer request).2.mining))
    (hnext : forall value w', Informed (known value) w' ->
      Ensures watch.commons (next (.ok value)) post w') :
    Ensures watch.commons (Program.ask request >>= next) post w := by
  intro w1 h1 answer w2 hanswers
  rcases hanswers.reply_eq with ⟨now, hreply⟩
  change w1.node.answer request = _ at hreply
  rcases hanswer w1.node hanswers.admitted.1 with ⟨value, hvalue, hknown⟩
  rw [hreply] at hvalue hknown
  cases hvalue
  exact hnext value w2 ((h.later h1).asked hrequest hanswers hknown)

end

/-! ## Evaluations -/

theorem informed_evaluate (c : Controller) (w : Noted Prop) :
    Ensures watch.commons c.evaluate (fun _ => Informed Settled) w := by
  have hnothing : Informed (fun _ _ => True) w := fun _ => Or.inr trivial
  refine ensures_ask (fun count pending _ => pending = count) hnothing
    (by simp [Unsubscribing]) ?_ fun count w1 h1 => ?_
  · intro node hnode
    exact ⟨node.pending, by simp [State.answer, State.respond, hnode.pendingErrors_eq]⟩
  refine ensures_bind.mpr ?_
  refine ensures_ask (fun read pending mining => pending = count ∧ mining = read) h1
    (by simp [Unsubscribing]) ?_ fun read w2 h2 => ?_
  · intro node _
    exact ⟨node.mining, rfl, fun hcount => ⟨hcount, rfl⟩⟩
  intro w3 hmeanwhile
  have h3 := h2.later hmeanwhile
  show Ensures _ (if _ then _ else if _ then _ else _) _ _
  split
  · rename_i hstart
    refine ensures_ask (fun _ => Settled) h3 (by simp [Unsubscribing]) ?_
      fun _ w4 h4 w5 hmore => h4.later hmore
    intro node hnode
    refine ⟨(), by simp [State.answer, State.respond, hnode.miningErrors_eq], ?_⟩
    rintro ⟨hcount, -⟩
    have hpositive : 0 < node.pending := hcount ▸ hstart.1
    simp [State.answer, State.respond, hnode.miningErrors_eq, Settled, hpositive]
  · rename_i hstart
    split
    · rename_i hstop
      refine ensures_ask (fun _ => Settled) h3 (by simp [Unsubscribing]) ?_
        fun _ w4 h4 w5 hmore => h4.later hmore
      intro node hnode
      refine ⟨(), by simp [State.answer, State.respond, hnode.miningErrors_eq], ?_⟩
      rintro ⟨hcount, -⟩
      have hnone : node.pending = 0 := hcount.trans hstop.1
      simp [State.answer, State.respond, hnode.miningErrors_eq, Settled, hnone]
    · rename_i hstop
      intro w4 hmore htold
      refine (h3.later hmore htold).imp_right ?_
      rintro ⟨rfl, rfl⟩
      exact Controller.mining_eq_of_neither hstart hstop

theorem informed_evaluateCounted (c : Controller) (w : Noted Prop) :
    Ensures watch.commons c.evaluateCounted (fun _ => Informed Settled) w := by
  refine ensures_bind.mpr ((informed_evaluate c w).mono ?_)
  rintro ⟨result, c'⟩ w1 h1
  cases result <;> exact fun w2 hmeanwhile => h1.later hmeanwhile

/-! ## Rounds -/

def Converged : Stage -> Noted Prop -> Prop
  | .waiting _, w => Informed Settled w
  | .finished _ _, _ => True

theorem converged_evaluated (c : Controller) (f : Controller -> Run) (w : Noted Prop) :
    Ensures watch.commons (c.evaluateCounted.bind fun c => .done (.waiting (f c))) Converged w :=
  ensures_bind.mpr ((informed_evaluateCounted c w).mono
    fun _ _ h1 _ hmeanwhile => h1.later hmeanwhile)

/-- The evaluation comes after the queues are emptied, so nothing need be known before. -/
theorem converged_settle (r : Run) (w : Noted Prop) :
    Ensures watch.commons r.settle Converged w := by
  intro w1 _ events w2 _ w3 _ events' w4 _
  exact converged_evaluated _ _ w4

theorem converged_wake (r : Run) (wake : Wake) (w : Noted Prop) :
    Ensures watch.commons (r.wake wake) Converged w := by
  cases wake with
  | shutdown => exact Ledger.ensures_finish (fun _ _ _ => trivial) r _
  | event feed => exact converged_settle _ w
  | closed feed =>
      refine ensures_bind.mpr (ensures_of_forall (fun answer w1 => ?_) _ _)
      cases answer with
      | ok id => exact converged_settle _ w1
      | error e => exact Ledger.ensures_finish (fun _ _ _ => trivial) r _

theorem converged_start (c : Controller) (w : Noted Prop) :
    Ensures watch.commons (start c) Converged w := by
  intro w1 _ answer w2 _
  cases answer with
  | error e => exact fun _ _ => trivial
  | ok latest =>
      intro w3 _ answer w4 _
      cases answer with
      | error e => exact fun _ _ _ _ _ _ _ => trivial
      | ok pending => exact converged_evaluated c _ w4

/-! ## Schedules -/

theorem told_of_undisturbed {since : List Moment} {told : Prop}
    (hundisturbed : forall moment, moment ∈ since ->
      ¬ Disturbs moment.before.node moment.happening) (h : told) : watch.after since told := by
  induction since generalizing told with
  | nil => exact h
  | cons moment since ih =>
      rcases List.forall_mem_cons.mp hundisturbed with ⟨hquiet, hmore⟩
      exact ih hmore (Or.inr ⟨h, hquiet⟩)

/-- Whatever the schedule: while the loop waits and nothing is queued for it, the miner runs
exactly if transactions are pending, once the loop was informed after the last change that others
have made. -/
theorem waiting_loop_converged {c : Controller} {node : State} {past since : List Moment}
    {moment : Moment} {last : Scene} {r : Run}
    (hpath : Path (Scene.opening c node) (past ++ moment :: since) last)
    (hrests : last.loop = .done (.waiting r))
    (herrorless : forall moment', moment' ∈ past ++ moment :: since ->
      Errorless moment'.before.node)
    (hempty : forall feed, last.node.queued (r.subscription feed) = [])
    (hinforms : Informs moment.before.node moment.before.held moment.happening)
    (hundisturbed : forall moment', moment' ∈ since ->
      ¬ Disturbs moment'.before.node moment'.happening) :
    last.node.mining = decide (0 < last.node.pending) := by
  have howns := owns_of_path (owns_opening c node) hpath
  have hensures : Ensures watch.commons last.loop Converged
      ⟨last.node, last.held, watch.after (past ++ moment :: since) False⟩ :=
    Ledger.ensures_of_path (fun w r wake node' _ _ => converged_wake r wake _) hpath
      (fun moment' hmem => ⟨herrorless moment' hmem, howns moment' hmem⟩) (converged_start c _)
  rw [hrests] at hensures
  -- what the loop knows when it waits is up to date unless something is queued
  have hknown : Informed Settled ⟨last.node, last.held, _⟩ :=
    hensures _ (watch.commons.refl _)
  have htold : watch.after (past ++ moment :: since) False := by
    rw [Ledger.after_append]
    show watch.after since (Informs _ _ _ ∨ _)
    exact told_of_undisturbed hundisturbed (Or.inl hinforms)
  rcases hknown htold with ⟨feed, id, hheld, hqueued⟩ | hsettled
  · rw [held_of_path hpath hrests] at hheld
    cases hheld
    exact absurd (hempty feed) hqueued
  · exact hsettled

/-! ### A transaction comes in -/

instance (node : State) : Decidable (Errorless node) :=
  decidable_of_iff (node.pendingErrors = [] ∧ node.miningErrors = [])
    ⟨fun h => ⟨h.1, h.2⟩, fun h => ⟨h.pendingErrors_eq, h.miningErrors_eq⟩⟩

instance (node : State) (happening : Happening) : Decidable (Disturbs node happening) :=
  match happening with
  | .deed deed => inferInstanceAs (Decidable ((deed.effect node).pending ≠ node.pending ∨
      (deed.effect node).mining ≠ node.mining))
  | .own _ => isFalse id

/-- A run that has found nothing to do on a fresh node. -/
def idleRun : Run where
  controller :=
    { Controller.new Config.default with
      state := some { isMining := false, threads := 1 },
      report := { Report.zero with evaluations := 1 } }
  latest := 0
  pending := 1

def busyRun : Run :=
  { idleRun with
    controller :=
      { idleRun.controller with
        state := some { isMining := true, threads := 1 },
        startedMiner := true,
        report := { Report.zero with evaluations := 2, starts := 1, events := 1 } } }

def idling : List Moment × Scene :=
  alone (start (Controller.new Config.default)) State.fresh fun _ => none

def incoming : Deed :=
  .set { apply := fun s => { s with pending := 1 }, subscriptions_apply := fun _ => rfl }

def announcement : Deed :=
  .emit (.newBlock (State.blockHash 1) (some 1))

def loaded : Scene :=
  { idling.2 with node := incoming.effect idling.2.node }

def announced : Scene :=
  { loaded with node := announcement.effect loaded.node }

def awoken : Scene :=
  ⟨(announced.node.takeEvent 0).2, announced.held, idleRun.wake (.event .latest)⟩

def working : List Moment × Scene :=
  alone awoken.loop awoken.node awoken.held

theorem path_idling : Path (Scene.opening (Controller.new Config.default) State.fresh) idling.1
    idling.2 :=
  path_alone _ _ _

theorem path_working : Path loaded
    (⟨loaded, .deed announcement, announced⟩ ::
      ⟨announced, .own (.wake (.event .latest)), awoken⟩ :: working.1) working.2 := by
  refine Path.cons (Step.deed loaded announcement) (Path.cons ?_ (path_alone _ _ _))
  exact Step.wake _ _ _ idleRun _ (Wakes.event .latest _ _ rfl)

theorem waiting_loop_converged_block :
    working.2.node.pending = 1 ∧ working.2.node.mining = decide (0 < working.2.node.pending) := by
  have hincoming : Path idling.2 [⟨idling.2, .deed incoming, loaded⟩] loaded :=
    Path.cons (Step.deed idling.2 incoming) (Path.nil loaded)
  refine ⟨rfl, waiting_loop_converged (r := busyRun)
    ((path_idling.append hincoming).append path_working) rfl ?_ ?_ ?_ ?_⟩
  · decide +kernel
  · intro feed
    cases feed <;> rfl
  · exact Informs.emitted _ 0 rfl rfl
  · decide +kernel

end Mining
end KeyRegistry
