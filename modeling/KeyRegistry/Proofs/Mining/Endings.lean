import KeyRegistry.Proofs.Mining.Release

/-!
# How runs reopen subscriptions, and how they end

A closure makes the loop subscribe again, to the same feed and a bounded number
of times.  Only a feed that stays lost and a shutdown end a run that has begun,
and either of them does.
-/

namespace KeyRegistry
namespace Mining

open Node Program

/-! ## Subscribing -/

def Unsubscribed (history : List Exchange) : Prop :=
  forall e, e ∈ history -> Unsubscribing e.1

theorem Controller.Closing.unsubscribed {c c' : Controller} {history : List Exchange}
    (h : c.Closing history c') : Unsubscribed history := by
  cases h <;> simp [Unsubscribed, Unsubscribing]

theorem Settling.unsubscribed {r r' : Run} {history : List Exchange} (h : Settling r history r') :
    Unsubscribed history :=
  fun e he => (h.retaining e he).1

theorem unsubscribed_end {r : Run} {closing : List Exchange} {c : Controller}
    (h : r.controller.Closing closing c) : Unsubscribed (cancels r ++ closing) := by
  intro e he
  rcases List.mem_append.mp he with he | he
  · rcases List.mem_cons.mp he with rfl | he
    · simp [Unsubscribing]
    · rcases List.mem_singleton.mp he with rfl
      simp [Unsubscribing]
  · exact h.unsubscribed e he

theorem Settling.subscription_eq {r r' : Run} {history : List Exchange}
    (h : Settling r history r') (feed : Feed) : r'.subscription feed = r.subscription feed := by
  cases h with
  | settled _ => cases feed <;> rfl

theorem subscription_replace (r : Run) (feed : Feed) (id : Nat) :
    (r.replace feed id).subscription feed = id := by
  cases feed <;> rfl

/-- What a loop does after a closure of `feed`, until now: each try comes after a pause, and they
end with the first one that succeeds, or with the last one that is allowed. -/
inductive Reopening (config : Config) (feed : Feed) : List Act -> Stage -> Prop where
  | lost {causes : List RpcError} {closing : List Exchange} {c : Controller} :
      causes.length = config.resubscribeAttempts.toNat -> Unsubscribed closing ->
      Reopening config feed ((failures config feed causes ++ closing).map .exchange)
        (.finished (.error (.subscriptionLost feed config.resubscribeAttempts)) c)
  | waiting {causes : List RpcError} {id : Nat} {history : List Exchange} {r : Run} :
      causes.length < config.resubscribeAttempts.toNat -> Unsubscribed history ->
      r.subscription feed = id ->
      Reopening config feed
        ((failures config feed causes ++ success config feed id ++ history).map .exchange)
        (.waiting r)
  | awoken {causes : List RpcError} {id : Nat} {history : List Exchange} {wake : Wake}
      {later : List Act} {stage : Stage} :
      causes.length < config.resubscribeAttempts.toNat -> Unsubscribed history ->
      Reopening config feed
        ((failures config feed causes ++ success config feed id ++ history).map .exchange ++
          .wake wake :: later)
        stage

theorem Round.reopening {r : Run} {feed : Feed} {history : List Exchange} {stage last : Stage}
    {rounds : List (Wake × List Exchange)} {config : Config}
    (hround : Round r (.closed feed) history stage) (hrounds : Rounds stage rounds last)
    (hconfig : r.controller.config = config) :
    Reopening config feed (history.map .exchange ++ rounds.flatMap roundActs) last := by
  subst hconfig
  cases hround with
  | lost hlength hclosing =>
      rcases hrounds.of_finished with ⟨rfl, rfl⟩
      simpa using Reopening.lost hlength (unsubscribed_end hclosing)
  | reopened hlength hsettling =>
      cases hrounds with
      | nil _ =>
          rw [List.flatMap_nil, List.append_nil]
          refine Reopening.waiting hlength hsettling.unsubscribed ?_
          rw [hsettling.subscription_eq, subscription_replace]
      | cons _ _ => exact Reopening.awoken hlength hsettling.unsubscribed

/-! ## Splitting what a loop does -/

theorem split_of_exchanges {history : List Exchange} {rest before after : List Act} {wake : Wake}
    (h : history.map Act.exchange ++ rest = before ++ .wake wake :: after) :
    ∃ before', rest = before' ++ .wake wake :: after := by
  induction history generalizing before with
  | nil => exact ⟨before, h⟩
  | cons e history ih =>
      cases before with
      | nil => cases h
      | cons act before => exact ih (List.cons.inj h).2

theorem Rounds.exists_round {stage last : Stage} {rounds : List (Wake × List Exchange)}
    {before after : List Act} {wake : Wake} (h : Rounds stage rounds last)
    (hacts : rounds.flatMap roundActs = before ++ .wake wake :: after) :
    ∃ r history next more, Round r wake history next ∧ Rounds next more last ∧
      after = history.map .exchange ++ more.flatMap roundActs ∧
      r.controller.config = stage.controller.config := by
  induction h generalizing before with
  | nil stage =>
      cases before <;> cases hacts
  | @cons r wake' history next last rounds hround hmore ih =>
      rw [List.flatMap_cons] at hacts
      cases before with
      | nil =>
          cases hacts
          exact ⟨r, history, next, rounds, hround, hmore, rfl, rfl⟩
      | cons act before =>
          rcases split_of_exchanges (List.cons.inj hacts).2 with ⟨before', hrest⟩
          rcases ih hrest with ⟨r', history', next', more, hround', hmore', hafter, hconfig⟩
          exact ⟨r', history', next', more, hround', hmore', hafter,
            hconfig.trans hround.config_eq⟩

theorem mem_of_unwoken {history : List Exchange} {rounds : List (Wake × List Exchange)}
    {before after : List Act} {e : Exchange}
    (h : history.map Act.exchange ++ rounds.flatMap roundActs = before ++ .exchange e :: after)
    (hbefore : forall wake, .wake wake ∉ before) : e ∈ history := by
  induction history generalizing before with
  | nil =>
      cases rounds with
      | nil => cases before <;> cases h
      | cons round rounds =>
          cases before with
          | nil => cases h
          | cons act before =>
              rw [List.flatMap_cons] at h
              have hfirst : .wake round.1 = act := (List.cons.inj h).1
              exact absurd (hfirst ▸ List.mem_cons_self) (hbefore round.1)
  | cons e' history ih =>
      cases before with
      | nil =>
          cases h
          exact List.mem_cons_self
      | cons act before =>
          refine List.mem_cons_of_mem _ (ih (List.cons.inj h).2 fun wake hmem => ?_)
          exact hbefore wake (List.mem_cons_of_mem _ hmem)

theorem length_le_of_failures {config : Config} {feed : Feed} {causes causes' : List RpcError}
    {id : Nat} {rest rest' : List Act}
    (h : (failures config feed causes).map Act.exchange ++ rest =
      (failures config feed causes' ++ success config feed id).map Act.exchange ++ rest') :
    causes.length ≤ causes'.length := by
  induction causes generalizing causes' with
  | nil => exact Nat.zero_le _
  | cons e causes ih =>
      cases causes' with
      | nil => simp [failures, success] at h
      | cons e' causes' => exact Nat.succ_le_succ (ih (List.cons.inj (List.cons.inj h).2).2)

theorem Rounds.exists_last {r : Run} {rounds : List (Wake × List Exchange)}
    {result : Except Error Report} {c : Controller}
    (h : Rounds (.waiting r) rounds (.finished result c)) :
    ∃ past r' wake history, Round r' wake history (.finished result c) ∧
      rounds = past ++ [(wake, history)] ∧ r'.controller.config = r.controller.config := by
  induction rounds generalizing r with
  | nil => cases h
  | cons round rounds ih =>
      cases h with
      | @cons _ wake history stage _ _ hround hmore =>
          cases stage with
          | finished result' c' =>
              rcases hmore.of_finished with ⟨rfl, heq⟩
              cases heq
              exact ⟨[], r, wake, history, hround, rfl, rfl⟩
          | waiting r' =>
              rcases ih hmore with ⟨past, r'', wake', history', hlast, rfl, hconfig⟩
              exact ⟨(wake, history) :: past, r'', wake', history', hlast, rfl,
                hconfig.trans hround.config_eq⟩

/-! ## Runs -/

theorem Reopening.lost_of_failures {config : Config} {feed : Feed} {acts after : List Act}
    {stage : Stage} {causes : List RpcError} (h : Reopening config feed acts stage)
    (hacts : acts = (failures config feed causes).map .exchange ++ after)
    (hlength : causes.length = config.resubscribeAttempts.toNat) :
    ∃ c, stage = .finished (.error (.subscriptionLost feed config.resubscribeAttempts)) c := by
  cases h with
  | lost _ _ => exact ⟨_, rfl⟩
  | @waiting causes' id history r hfewer _ _ =>
      rw [List.map_append] at hacts
      have hle := length_le_of_failures hacts.symm
      omega
  | @awoken causes' id history wake later stage hfewer _ =>
      rw [List.map_append, List.append_assoc] at hacts
      have hle := length_le_of_failures hacts.symm
      omega

/-- How a run has gone that waits or has ended. -/
structure Orderly (c : Controller) (path : List Moment) (last : Scene) (stage : Stage) :
    Prop where
  -- nothing stays open
  released : forall result c' feed id, stage = .finished result c' ->
    .exchange ⟨.ask (.subscribe feed), .ok id⟩ ∈ acts path -> last.node.isLive id = false
  -- a refused subscription before the first wake-up
  refused : forall before feed e after,
    acts path = before ++ .exchange ⟨.ask (.subscribe feed), .error e⟩ :: after ->
    (forall wake, .wake wake ∉ before) ->
    stage = .finished (.error (.rpc e)) c ∧
      forall exchange, .exchange exchange ∈ acts path -> IsQuiet exchange
  reopened : forall before feed after, acts path = before ++ .wake (.closed feed) :: after ->
    Reopening c.config feed after stage
  -- the ends of a run that has begun
  error_of_opened : forall pending e c',
    .exchange ⟨.ask (.subscribe .pending), .ok pending⟩ ∈ acts path ->
    stage = .finished (.error e) c' ->
    ∃ feed, e = .subscriptionLost feed c.config.resubscribeAttempts
  lost_iff : forall feed,
    (∃ c', stage = .finished (.error (.subscriptionLost feed c.config.resubscribeAttempts)) c') ↔
      ∃ before causes after, causes.length = c.config.resubscribeAttempts.toNat ∧
        acts path = before ++ .wake (.closed feed) ::
          ((failures c.config feed causes).map .exchange ++ after)
  shutdown_iff : (∃ report c', stage = .finished (.ok report) c') ↔ .wake .shutdown ∈ acts path

section

variable {c : Controller} {path : List Moment} {history : List Exchange} {first stage : Stage}
  {rounds : List (Wake × List Exchange)}

theorem Opening.refused_of_mem {feed : Feed} {e : RpcError} (h : Opening c history first)
    (hrounds : Rounds first rounds stage) (hmem : ⟨.ask (.subscribe feed), .error e⟩ ∈ history) :
    stage = .finished (.error (.rpc e)) c ∧ rounds = [] ∧
      forall exchange, exchange ∈ history -> IsQuiet exchange := by
  cases h with
  | refused e' =>
      rcases hrounds.of_finished with ⟨rfl, rfl⟩
      cases List.mem_singleton.mp hmem
      exact ⟨rfl, rfl, by simp [IsQuiet, isCommand, isCount, isReading]⟩
  | halved latest e' =>
      rcases hrounds.of_finished with ⟨rfl, rfl⟩
      have hsame : e = e' := by
        simp at hmem
        exact hmem.2
      subst hsame
      exact ⟨rfl, rfl, by simp [IsQuiet, isCommand, isCount, isReading]⟩
  | opened hevaluation =>
      rcases List.mem_cons.mp hmem with heq | hmem
      · cases heq
      · rcases List.mem_cons.mp hmem with heq | hmem
        · cases heq
        · exact absurd rfl ((hevaluation.retaining _ hmem).1 feed)

/-- A run that has ended either was refused a subscription at first, or had a last round. -/
theorem Opening.exists_last {result : Except Error Report} {c' : Controller}
    (h : Opening c history first) (hrounds : Rounds first rounds (.finished result c')) :
    (∃ e, result = .error (.rpc e) ∧ rounds = [] ∧
        forall pending, ⟨.ask (.subscribe .pending), .ok pending⟩ ∉ history) ∨
      ∃ past r wake history', Round r wake history' (.finished result c') ∧
        rounds = past ++ [(wake, history')] ∧ r.controller.config = c.config := by
  have hconfig := h.config_eq
  cases h with
  | refused e =>
      rcases hrounds.of_finished with ⟨rfl, heq⟩
      cases heq
      exact Or.inl ⟨e, rfl, rfl, by simp⟩
  | halved latest e =>
      rcases hrounds.of_finished with ⟨rfl, heq⟩
      cases heq
      exact Or.inl ⟨e, rfl, rfl, by simp⟩
  | opened _ =>
      rcases hrounds.exists_last with ⟨past, r, wake, history', hround, hlast, hsame⟩
      exact Or.inr ⟨past, r, wake, history', hround, hlast, hsame.trans hconfig⟩

theorem reopening_of_acts {before after : List Act} {feed : Feed} (h : Opening c history first)
    (hrounds : Rounds first rounds stage)
    (hacts : history.map .exchange ++ rounds.flatMap roundActs =
      before ++ .wake (.closed feed) :: after) : Reopening c.config feed after stage := by
  rcases split_of_exchanges hacts with ⟨before', hrest⟩
  rcases hrounds.exists_round hrest with ⟨r, history', next, more, hround, hmore, rfl, hconfig⟩
  exact hround.reopening hmore (hconfig.trans h.config_eq)

theorem lost_iff_of_acts {feed : Feed} (h : Opening c history first)
    (hrounds : Rounds first rounds stage) :
    (∃ c', stage = .finished (.error (.subscriptionLost feed c.config.resubscribeAttempts)) c') ↔
      ∃ before causes after, causes.length = c.config.resubscribeAttempts.toNat ∧
        history.map .exchange ++ rounds.flatMap roundActs = before ++ .wake (.closed feed) ::
          ((failures c.config feed causes).map .exchange ++ after) := by
  constructor
  · rintro ⟨c', rfl⟩
    rcases h.exists_last hrounds with ⟨e, hnever, _⟩ | ⟨past, r, wake, history', hround, rfl, hsame⟩
    · cases hnever
    · rw [<- hsame] at hround ⊢
      cases hround with
      | @lost _ causes closing _ hlength _ =>
          exact ⟨history.map .exchange ++ past.flatMap roundActs, causes,
            (cancels r ++ closing).map .exchange, hlength, by simp [roundActs]⟩
  · rintro ⟨before, causes, after, hlength, hacts⟩
    exact (reopening_of_acts h hrounds hacts).lost_of_failures rfl hlength

theorem shutdown_iff_of_acts (h : Opening c history first) (hrounds : Rounds first rounds stage) :
    (∃ report c', stage = .finished (.ok report) c') ↔
      .wake .shutdown ∈ history.map .exchange ++ rounds.flatMap roundActs := by
  constructor
  · rintro ⟨report, c', rfl⟩
    rcases h.exists_last hrounds with ⟨e, hnever, _⟩ | ⟨past, r, wake, history', hround, rfl, _⟩
    · cases hnever
    · cases hround with
      | ended _ => simp [roundActs]
  · intro hmem
    rcases List.append_of_mem hmem with ⟨before, after, hacts⟩
    rcases split_of_exchanges hacts with ⟨before', hrest⟩
    rcases hrounds.exists_round hrest with ⟨r, history', next, more, hround, hmore, _, _⟩
    cases hround with
    | ended _ => exact ⟨_, _, hmore.of_finished.2⟩

end

/-- Whatever the schedule, a run that waits or has ended was orderly, and any other run comes to
wait or to its end if only it goes on. -/
theorem run_orderly {c : Controller} {node : State} {path : List Moment} {last : Scene}
    (hpath : Path (Scene.opening c node) path last) :
    (forall stage, last.loop = .done stage -> Orderly c path last stage) ∧
      ∃ more rest stage, Path last more rest ∧ rest.loop = .done stage ∧
        forall moment, moment ∈ more -> ∃ e, moment.happening = .own (.exchange e) := by
  constructor
  · intro stage hrests
    rcases exists_opening_of_path hpath hrests with
      ⟨history, first, rounds, hopening, hrounds, hacts⟩
    constructor
    · rintro result c' feed id rfl hopened
      exact released_of_path hpath hrests hopened
    · intro before feed e after hsplit hbefore
      rw [hacts] at hsplit ⊢
      have hmem := mem_of_unwoken hsplit hbefore
      rcases hopening.refused_of_mem hrounds hmem with ⟨hstage, rfl, hquiet⟩
      refine ⟨hstage, fun exchange hexchange => hquiet exchange ?_⟩
      simpa using hexchange
    · intro before feed after hsplit
      exact reopening_of_acts hopening hrounds (hacts ▸ hsplit)
    · rintro pending e c' hopened rfl
      rcases hopening.exists_last hrounds with
        ⟨e', _, rfl, hnone⟩ | ⟨past, r, wake, history', hround, _, hsame⟩
      · rw [hacts] at hopened
        exact absurd (by simpa using hopened) (hnone pending)
      · rw [<- hsame]
        cases hround with
        | lost _ _ => exact ⟨_, rfl⟩
    · intro feed
      rw [hacts]
      exact lost_iff_of_acts hopening hrounds
    · rw [hacts]
      exact shutdown_iff_of_acts hopening hrounds
  · rcases last with ⟨node', held, loop⟩
    rcases exists_loop_alone loop node' held with ⟨stage, hstage⟩
    exact ⟨_, _, stage, path_alone loop node' held, hstage,
      fun moment hmem => own_of_mem_alone hmem⟩

/-! ### A feed that stays lost -/

def impatient : Controller :=
  Controller.new { Config.default with resubscribeAttempts := 1 }

def impatientRun : Run where
  controller :=
    { impatient with
      state := some { isMining := false, threads := 1 },
      report := { Report.zero with evaluations := 1 } }
  latest := 0
  pending := 1

def refusal : Deed :=
  .set
    { apply := fun s => { s with subscribeErrors := [.subscription "closed"] },
      subscriptions_apply := fun _ => rfl }

def hoping : List Moment × Scene :=
  alone (start impatient) State.fresh fun _ => none

/-- The node has closed the feed of pending transactions and refuses to open it again. -/
def shut : Scene :=
  { hoping.2 with node := refusal.effect ((Deed.close .pending).effect hoping.2.node) }

/-- What the loop does when it is woken up by this, and the scene that it leaves. -/
def losing : List Moment × Scene :=
  alone (impatientRun.wake (.closed .pending)) shut.node shut.held

theorem exists_path_losing :
    ∃ path, Path (Scene.opening impatient State.fresh) path losing.2 := by
  have hhoping : Path (Scene.opening impatient State.fresh) hoping.1 hoping.2 := path_alone _ _ _
  have hshut : Path hoping.2 _ shut :=
    Path.cons (Step.deed _ (.close .pending)) (Path.cons (Step.deed _ refusal) (Path.nil _))
  have hwoken : Step shut (.own (.wake (.closed .pending)))
      ⟨shut.node, shut.held, impatientRun.wake (.closed .pending)⟩ :=
    Step.wake shut.node _ _ impatientRun _ (Wakes.closed .pending rfl)
  exact ⟨_, hhoping.append (hshut.append (Path.cons hwoken (path_alone _ _ _)))⟩

theorem run_orderly_losing :
    ∃ path c', Path (Scene.opening impatient State.fresh) path losing.2 ∧
      losing.2.loop = .done (.finished (.error (.subscriptionLost .pending 1)) c') ∧
      ∃ before causes after, causes.length = 1 ∧
        acts path = before ++ .wake (.closed .pending) ::
          ((failures impatient.config .pending causes).map .exchange ++ after) := by
  have hlost : ∃ c', losing.2.loop =
      .done (.finished (.error (.subscriptionLost .pending 1)) c') := ⟨_, rfl⟩
  rcases exists_path_losing with ⟨path, hpath⟩
  rcases hlost with ⟨c', hlost⟩
  have horderly := (run_orderly hpath).1 _ hlost
  exact ⟨path, c', hpath, hlost, (horderly.lost_iff .pending).mp ⟨c', rfl⟩⟩

end Mining
end KeyRegistry
