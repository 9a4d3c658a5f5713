import KeyRegistry.Proofs.Mining.Convergence
import KeyRegistry.Proofs.Mining.Cooperation
import KeyRegistry.Proofs.Mining.Rounds

/-!
# The accounts of a run

The counts in the report of a controller are those of its acts: the notifications
that it took, the evaluations that it began, and those of them that failed.  Every
wake-up but the shutdown leads to one evaluation, which comes after all that was
queued for the loop has been taken.
-/

namespace KeyRegistry
namespace Mining

/-! ## What is counted -/

def untilWake : List Act -> List Exchange
  | .exchange e :: acts => e :: untilWake acts
  | _ => []

def Act.begins : Act -> Bool
  | .exchange e => isCount e
  | .wake _ => false

def isFailure : Exchange -> Bool
  | ⟨.ask _, .error _⟩ => true
  | _ => false

def isOpening (feed : Feed) : Exchange -> Bool
  | ⟨.ask (.subscribe feed'), .ok _⟩ => feed' = feed
  | _ => false

def taken : List Act -> Nat
  | [] => 0
  | act :: acts => act.taken + taken acts

/-- The wake-ups other than the shutdown: notifications, and closures that are followed by a new
subscription. -/
def wakeUps : List Act -> Nat
  | [] => 0
  | .wake (.event _) :: acts => wakeUps acts + 1
  | .wake (.closed feed) :: acts =>
      wakeUps acts + if (untilWake acts).any (isOpening feed) then 1 else 0
  | .wake .shutdown :: acts => wakeUps acts
  | .exchange _ :: acts => wakeUps acts

/-- The evaluations that failed, which is where an answer before the next wake-up is an error. -/
def failedEvaluations : List Act -> Nat
  | [] => 0
  | act :: acts =>
      failedEvaluations acts +
        if act.begins && (untilWake (act :: acts)).any isFailure then 1 else 0

theorem untilWake_exchanges (history : List Exchange) :
    untilWake (history.map .exchange) = history := by
  induction history with
  | nil => rfl
  | cons e history ih => exact congrArg (e :: ·) ih

theorem untilWake_append {rest : List Act} (h : untilWake rest = []) (first : List Act) :
    untilWake (first ++ rest) = untilWake first := by
  induction first with
  | nil => exact h
  | cons act first ih =>
      cases act with
      | exchange e => exact congrArg (e :: ·) ih
      | wake wake => rfl

theorem untilWake_rounds (rounds : List (Wake × List Exchange)) :
    untilWake (rounds.flatMap roundActs) = [] := by
  cases rounds <;> rfl

theorem failedEvaluations_append {rest : List Act} (h : untilWake rest = []) (first : List Act) :
    failedEvaluations (first ++ rest) = failedEvaluations first + failedEvaluations rest := by
  induction first with
  | nil => exact (Nat.zero_add _).symm
  | cons act first ih =>
      have hsame := untilWake_append h (act :: first)
      rw [List.cons_append] at hsame ⊢
      rw [failedEvaluations, failedEvaluations, hsame, ih]
      omega

theorem wakeUps_append {rest : List Act} (h : untilWake rest = []) (first : List Act) :
    wakeUps (first ++ rest) = wakeUps first + wakeUps rest := by
  induction first with
  | nil => exact (Nat.zero_add _).symm
  | cons act first ih =>
      rw [List.cons_append]
      cases act with
      | exchange e => exact ih
      | wake wake =>
          cases wake with
          | shutdown => exact ih
          | event feed =>
              rw [wakeUps, wakeUps, ih]
              omega
          | closed feed =>
              rw [wakeUps, wakeUps, ih, untilWake_append h]
              omega

theorem taken_append (first rest : List Act) :
    taken (first ++ rest) = taken first + taken rest := by
  induction first with
  | nil => exact (Nat.zero_add _).symm
  | cons act first ih =>
      rw [List.cons_append, taken, taken, ih, Nat.add_assoc]

theorem wakeUps_exchanges (history : List Exchange) :
    wakeUps (history.map .exchange) = 0 := by
  induction history with
  | nil => rfl
  | cons e history ih => exact ih

/-! ## Accounts -/

def Followed (acts : List Act) : Prop :=
  forall before act after, acts = before ++ act :: after -> 0 < act.taken ->
    ∃ act', act' ∈ after ∧ act'.begins = true

structure Accounts (before : Controller) (acts : List Act) (after : Controller) : Prop where
  events_eq : after.report.events = before.report.events + taken acts
  evaluations_eq :
    after.report.evaluations = before.report.evaluations + acts.countP Act.begins
  failed_eq :
    after.report.failedEvaluations = before.report.failedEvaluations + failedEvaluations acts
  followed : Followed acts

theorem followed_nil : Followed [] := by
  intro before act after heq
  simp at heq

theorem Followed.cons {act : Act} {acts : List Act} (h : Followed acts)
    (hact : 0 < act.taken -> ∃ act', act' ∈ acts ∧ act'.begins = true) :
    Followed (act :: acts) := by
  intro before act' after heq htaken
  cases before with
  | nil =>
      cases heq
      exact hact htaken
  | cons first before =>
      rcases List.cons.inj heq with ⟨_, hrest⟩
      exact h before act' after hrest htaken

theorem Followed.append {first rest : List Act} (hfirst : Followed first) (hrest : Followed rest) :
    Followed (first ++ rest) := by
  induction first with
  | nil => exact hrest
  | cons act first ih =>
      have hlater : Followed first := fun before act' after heq =>
        hfirst (act :: before) act' after (congrArg (act :: ·) heq)
      refine (ih hlater).cons fun htaken => ?_
      rcases hfirst [] act first rfl htaken with ⟨act', hmem, hbegins⟩
      exact ⟨act', List.mem_append_left rest hmem, hbegins⟩

def IsPlain (e : Exchange) : Prop :=
  isCount e = false ∧ (Act.exchange e).taken = 0

namespace Accounts

variable {c c' c'' : Controller} {acts : List Act}

theorem nil (c : Controller) : Accounts c [] c :=
  ⟨rfl, rfl, rfl, followed_nil⟩

theorem append {rest : List Act} (hfirst : Accounts c acts c') (hrest : Accounts c' rest c'')
    (hwoken : untilWake rest = []) : Accounts c (acts ++ rest) c'' where
  events_eq := by
    rw [hrest.events_eq, hfirst.events_eq, taken_append, Nat.add_assoc]
  evaluations_eq := by
    rw [hrest.evaluations_eq, hfirst.evaluations_eq, List.countP_append, Nat.add_assoc]
  failed_eq := by
    rw [hrest.failed_eq, hfirst.failed_eq, failedEvaluations_append hwoken, Nat.add_assoc]
  followed := hfirst.followed.append hrest.followed

theorem cons {act : Act} (h : Accounts (c.countEvents act.taken) acts c')
    (hact : act.begins = false)
    (hfollowed : 0 < act.taken -> ∃ act', act' ∈ acts ∧ act'.begins = true) :
    Accounts c (act :: acts) c' where
  events_eq := by
    rw [h.events_eq, taken]
    exact Nat.add_assoc _ _ _
  evaluations_eq := by
    rw [h.evaluations_eq, List.countP_cons_of_neg (by simp [hact])]
    rfl
  failed_eq := by
    rw [h.failed_eq, failedEvaluations, hact]
    rfl
  followed := h.followed.cons hfollowed

theorem pass {act : Act} (h : Accounts c acts c') (htaken : act.taken = 0)
    (hact : act.begins = false) : Accounts c (act :: acts) c' := by
  have hsame : Accounts (c.countEvents act.taken) acts c' := by
    rw [htaken]
    exact h
  exact hsame.cons hact fun hpos => absurd htaken (Nat.ne_of_gt hpos)

theorem plain {history : List Exchange} (hplain : forall e, e ∈ history -> IsPlain e)
    (h : Accounts c acts c') : Accounts c (history.map .exchange ++ acts) c' := by
  induction history with
  | nil => exact h
  | cons e history ih =>
      rcases List.forall_mem_cons.mp hplain with ⟨⟨hcount, htaken⟩, hmore⟩
      exact (ih hmore).pass htaken hcount

end Accounts

/-! ## Parts of a round -/

theorem followed_of_untaken {acts : List Act} (h : forall act, act ∈ acts -> act.taken = 0) :
    Followed acts := by
  rintro before act after rfl htaken
  have hnone : act.taken = 0 := h act (by simp)
  exact absurd hnone (Nat.ne_of_gt htaken)

theorem isPlain_ask {request : Request} {answer : Except RpcError request.Value}
    (h : request ≠ .pendingCount) : IsPlain ⟨.ask request, answer⟩ := by
  cases request with
  | pendingCount => exact absurd rfl h
  | _ => exact ⟨rfl, rfl⟩

theorem Controller.Evaluation.accounts {c c' : Controller} {history : List Exchange}
    {result : Except Error Decision} (h : c.Evaluation history result c') :
    Accounts c (history.map .exchange) (c'.concluded result) ∧
      (history.map Act.exchange).countP Act.begins = 1 := by
  have hfollowed : Followed (history.map .exchange) := by
    refine followed_of_untaken ?_
    cases h <;> simp [Act.taken]
  cases h with
  | uncounted e => exact ⟨⟨rfl, rfl, rfl, hfollowed⟩, rfl⟩
  | unread pending e => exact ⟨⟨rfl, rfl, rfl, hfollowed⟩, rfl⟩
  | started pending _ => exact ⟨⟨rfl, rfl, rfl, hfollowed⟩, rfl⟩
  | unstarted pending e _ => exact ⟨⟨rfl, rfl, rfl, hfollowed⟩, rfl⟩
  | stopped => exact ⟨⟨rfl, rfl, rfl, hfollowed⟩, rfl⟩
  | unstopped e => exact ⟨⟨rfl, rfl, rfl, hfollowed⟩, rfl⟩
  | unchanged pending mining _ => exact ⟨⟨rfl, rfl, rfl, hfollowed⟩, rfl⟩

theorem Settling.accounts {r r' : Run} {history : List Exchange} (h : Settling r history r') :
    Accounts r.controller (history.map .exchange) r'.controller ∧
      (history.map Act.exchange).countP Act.begins = 1 := by
  cases h with
  | @settled events events' history result c hevaluation =>
      rcases hevaluation.accounts with ⟨haccounts, hone⟩
      have hbegins : ∃ act, act ∈ history.map Act.exchange ∧ act.begins = true :=
        List.countP_pos_iff.mp (hone ▸ Nat.one_pos)
      have hlater : forall act, ∃ act', act' ∈ act :: history.map Act.exchange ∧
          act'.begins = true := fun act =>
        hbegins.imp fun _ hmem => ⟨List.mem_cons_of_mem _ hmem.1, hmem.2⟩
      exact ⟨(haccounts.cons rfl fun _ => hbegins).cons rfl fun _ => hlater _, hone⟩

theorem Controller.Closing.isPlain {c c' : Controller} {history : List Exchange}
    (h : c.Closing history c') : forall e, e ∈ history -> IsPlain e := by
  cases h with
  | idle _ => simp
  | stopped _ => exact List.forall_mem_singleton.mpr (isPlain_ask nofun)
  | unstopped e _ => exact List.forall_mem_singleton.mpr (isPlain_ask nofun)

theorem isPlain_cancels (r : Run) : forall e, e ∈ cancels r -> IsPlain e := by
  simp [cancels, IsPlain, isCount, Act.taken]

theorem isPlain_failures (config : Config) (feed : Feed) (causes : List RpcError) :
    forall e, e ∈ failures config feed causes -> IsPlain e := by
  induction causes with
  | nil => simp [failures]
  | cons cause causes ih =>
      exact List.forall_mem_cons.mpr ⟨⟨rfl, rfl⟩, List.forall_mem_cons.mpr ⟨⟨rfl, rfl⟩, ih⟩⟩

theorem isPlain_success (config : Config) (feed : Feed) (id : Nat) :
    forall e, e ∈ success config feed id -> IsPlain e := by
  simp [success, IsPlain, isCount, Act.taken]

theorem begins_of_isPlain {history : List Exchange} (h : forall e, e ∈ history -> IsPlain e) :
    (history.map Act.exchange).countP Act.begins = 0 := by
  refine List.countP_eq_zero.mpr fun act hact hbegins => ?_
  rcases List.mem_map.mp hact with ⟨e, he, rfl⟩
  exact absurd hbegins (by simp [Act.begins, (h e he).1])

theorem Controller.Closing.accounts {r : Run} {history : List Exchange} {c : Controller}
    (h : r.controller.Closing history c) :
    Accounts r.controller ((cancels r ++ history).map .exchange) c ∧
      ((cancels r ++ history).map Act.exchange).countP Act.begins = 0 := by
  have hplain : forall e, e ∈ cancels r ++ history -> IsPlain e :=
    List.forall_mem_append.mpr ⟨isPlain_cancels r, h.isPlain⟩
  have hsame : Accounts r.controller [] c := by
    cases h <;> exact ⟨rfl, rfl, rfl, followed_nil⟩
  refine ⟨?_, begins_of_isPlain hplain⟩
  simpa using Accounts.plain hplain hsame

/-! ## Openings and rounds -/

/-- Both subscriptions of a run are opened at its start. -/
def Opens (acts : List Act) : Prop :=
  ∃ id, Act.exchange ⟨.ask (.subscribe .pending), .ok id⟩ ∈ acts

theorem Opening.accounts {c : Controller} {history : List Exchange} {stage : Stage}
    (h : Opening c history stage) :
    Accounts c (history.map .exchange) stage.controller ∧
      (Opens (history.map .exchange) ∧ (history.map Act.exchange).countP Act.begins = 1 ∨
        ¬ Opens (history.map .exchange) ∧
          ∃ e, stage = .finished (.error (.rpc e)) c) := by
  cases h with
  | refused e =>
      refine ⟨⟨rfl, rfl, rfl, followed_of_untaken (by simp [Act.taken])⟩, .inr ⟨?_, e, rfl⟩⟩
      simp [Opens]
  | halved latest e =>
      refine ⟨⟨rfl, rfl, rfl, followed_of_untaken (by simp [Act.taken])⟩, .inr ⟨?_, e, rfl⟩⟩
      simp [Opens]
  | @opened latest pending history result c' hevaluation =>
      rcases hevaluation.accounts with ⟨haccounts, hone⟩
      refine ⟨?_, .inl ⟨⟨pending, by simp⟩, hone⟩⟩
      exact (haccounts.pass rfl rfl).pass rfl rfl

theorem wakeUps_round (wake : Wake) (history : List Exchange) :
    wakeUps (roundActs (wake, history)) =
      match wake with
      | .shutdown => 0
      | .event _ => 1
      | .closed feed => if history.any (isOpening feed) then 1 else 0 := by
  rw [roundActs]
  cases wake with
  | shutdown => exact wakeUps_exchanges history
  | event feed => rw [wakeUps, wakeUps_exchanges]
  | closed feed => rw [wakeUps, wakeUps_exchanges, untilWake_exchanges, Nat.zero_add]

theorem isOpening_failures (config : Config) (feed : Feed) (causes : List RpcError) :
    (failures config feed causes).any (isOpening feed) = false := by
  induction causes with
  | nil => rfl
  | cons cause causes ih => exact ih

theorem Round.accounts {r : Run} {wake : Wake} {history : List Exchange} {stage : Stage}
    (h : Round r wake history stage) :
    Accounts r.controller (roundActs (wake, history)) stage.controller ∧
      (roundActs (wake, history)).countP Act.begins = wakeUps (roundActs (wake, history)) := by
  rw [wakeUps_round]
  cases h with
  | ended hclosing =>
      rcases hclosing.accounts with ⟨haccounts, hnone⟩
      exact ⟨haccounts.pass rfl rfl, hnone⟩
  | settled hsettling =>
      rcases hsettling.accounts with ⟨haccounts, hone⟩
      refine ⟨haccounts.cons rfl fun _ => ?_, hone⟩
      exact List.countP_pos_iff.mp (hone ▸ Nat.one_pos)
  | @reopened feed causes id history r' _ hsettling =>
      rcases hsettling.accounts with ⟨haccounts, hone⟩
      rw [Run.controller_replace] at haccounts
      have hplain := List.forall_mem_append.mpr ⟨isPlain_failures r.controller.config feed causes,
        isPlain_success r.controller.config feed id⟩
      have hopening : (success r.controller.config feed id).any (isOpening feed) = true := by
        simp [success, isOpening]
      refine ⟨?_, ?_⟩
      · rw [roundActs, List.map_append]
        exact (Accounts.plain hplain haccounts).pass rfl rfl
      · rw [roundActs, List.countP_cons_of_neg (by simp [Act.begins]), List.map_append,
          List.countP_append, begins_of_isPlain hplain, hone]
        simp [hopening]
  | @lost feed causes closing c _ hclosing =>
      rcases hclosing.accounts with ⟨haccounts, hnone⟩
      have hplain := isPlain_failures r.controller.config feed causes
      have hopening : (cancels r ++ closing).any (isOpening feed) = false := by
        cases hclosing <;> rfl
      refine ⟨?_, ?_⟩
      · rw [roundActs, List.map_append]
        exact (Accounts.plain hplain haccounts).pass rfl rfl
      · rw [roundActs, List.countP_cons_of_neg (by simp [Act.begins]), List.map_append,
          List.countP_append, begins_of_isPlain hplain, hnone]
        simp [List.any_append, hopening, isOpening_failures]

theorem Rounds.accounts {stage last : Stage} {rounds : List (Wake × List Exchange)}
    (h : Rounds stage rounds last) :
    Accounts stage.controller (rounds.flatMap roundActs) last.controller ∧
      (rounds.flatMap roundActs).countP Act.begins = wakeUps (rounds.flatMap roundActs) := by
  induction h with
  | nil stage => exact ⟨Accounts.nil _, rfl⟩
  | @cons r wake history stage last rounds hround _ ih =>
      have hwoken := untilWake_rounds rounds
      refine ⟨?_, ?_⟩
      · exact hround.accounts.1.append ih.1 hwoken
      · rw [List.flatMap_cons, List.countP_append, wakeUps_append hwoken, hround.accounts.2, ih.2]

/-! ## Paths -/

theorem mem_acts {path : List Moment} {act : Act} (h : act ∈ acts path) :
    ∃ moment, moment ∈ path ∧ moment.happening = .own act := by
  rcases List.mem_filterMap.mp h with ⟨moment, hmem, hact⟩
  refine ⟨moment, hmem, ?_⟩
  cases hhappening : moment.happening with
  | own act' =>
      rw [hhappening] at hact
      cases hact
      rfl
  | deed deed =>
      rw [hhappening] at hact
      cases hact

theorem begins_of_act {act : Act} (h : act.begins = true) : (Happening.own act).Begins := by
  cases act with
  | wake wake => cases h
  | exchange e =>
      rcases e with ⟨action, answer⟩
      cases action with
      | ask request =>
          cases request with
          | pendingCount => exact ⟨answer, rfl⟩
          | _ => cases h
      | _ => cases h

theorem Followed.exists_moment {before after : List Moment} {moment : Moment}
    (h : Followed (acts (before ++ moment :: after))) (htakes : moment.happening.Takes) :
    ∃ moment', moment' ∈ after ∧ moment'.happening.Begins := by
  rcases htakes with ⟨act, hact, htaken⟩
  have hsplit : acts (before ++ moment :: after) = acts before ++ act :: acts after := by
    simp [acts, hact, Happening.act?]
  rcases h _ _ _ hsplit htaken with ⟨act', hmem, hbegins⟩
  rcases mem_acts hmem with ⟨moment', hmoment, hhappening⟩
  exact ⟨moment', hmoment, hhappening ▸ begins_of_act hbegins⟩

/-- What the report of a run says at `stage`, after the moments of `path`. -/
structure Accounted (c : Controller) (path : List Moment) (stage : Stage) : Prop where
  events_eq : stage.controller.report.events = c.report.events + taken (acts path)
  /-- One evaluation at the start, and one for each wake-up that is not the shutdown. -/
  evaluations_eq : Opens (acts path) ->
    stage.controller.report.evaluations = c.report.evaluations + 1 + wakeUps (acts path)
  /-- A run that is refused a subscription at its start changes nothing. -/
  unopened : ¬ Opens (acts path) -> stage.controller = c
  begun_eq : stage.controller.report.evaluations =
    c.report.evaluations + (acts path).countP Act.begins
  failed_eq : stage.controller.report.failedEvaluations =
    c.report.failedEvaluations + failedEvaluations (acts path)
  /-- Whatever was queued when an evaluation begins has been taken before. -/
  drained : forall moment, moment ∈ path -> moment.happening.Begins ->
    forall feed id, moment.before.held feed = some id -> moment.before.node.queued id = []
  /-- Notifications are taken from the two subscriptions. -/
  own : forall moment, moment ∈ path -> forall id events,
    moment.happening = .own (.exchange ⟨.drain id, events⟩) ->
      ∃ feed, moment.before.held feed = some id
  /-- A notification that is taken after an evaluation began was not there at that moment. -/
  emitted : forall before moment between moment' after,
    path = before ++ moment :: (between ++ moment' :: after) ->
      moment.happening.Begins -> moment'.happening.Takes ->
        ∃ m, m ∈ between ∧ m.happening.Emits
  followed : forall before moment after, path = before ++ moment :: after ->
    moment.happening.Takes -> ∃ moment', moment' ∈ after ∧ moment'.happening.Begins

/-- Whatever notifications, closures and failures a run meets, where others act only while it is
suspended: its report counts each notification that it took once, one evaluation at the start and
one for each wake-up, and those that failed; and each evaluation comes after everything that was
queued when it began. -/
theorem run_accounted {c : Controller} {node : Node.State} {path : List Moment} {last : Scene}
    {stage : Stage} (hpath : Path (Scene.opening c node) path last)
    (hcooperative : Cooperative path) (hrests : last.loop = .done stage) :
    Accounted c path stage := by
  rcases exists_opening_of_path hpath hrests with
    ⟨history, stage', rounds, hopening, hrounds, hacts⟩
  have hwoken := untilWake_rounds rounds
  rcases hopening.accounts with ⟨hfirst, hopens⟩
  rcases hrounds.accounts with ⟨hrest, hwakeUps⟩
  have haccounts : Accounts c (acts path) stage.controller := by
    rw [hacts]
    exact hfirst.append hrest hwoken
  have htidy := tidy_of_path hpath hcooperative hrests
  constructor
  case events_eq => exact haccounts.events_eq
  case begun_eq => exact haccounts.evaluations_eq
  case failed_eq => exact haccounts.failed_eq
  case evaluations_eq =>
    intro hopened
    rcases hopens with ⟨_, hone⟩ | ⟨hnever, e, rfl⟩
    · rw [haccounts.evaluations_eq, hacts, List.countP_append, hone, hwakeUps,
        wakeUps_append hwoken, wakeUps_exchanges, Nat.zero_add, Nat.add_assoc]
    · rcases hrounds.of_finished with ⟨rfl, rfl⟩
      rw [hacts, List.flatMap_nil, List.append_nil] at hopened
      exact absurd hopened hnever
  case unopened =>
    intro hunopened
    rcases hopens with ⟨⟨id, hmem⟩, _⟩ | ⟨_, e, rfl⟩
    · exact absurd ⟨id, hacts ▸ List.mem_append_left _ hmem⟩ hunopened
    · rcases hrounds.of_finished with ⟨_, rfl⟩
      rfl
  case drained => exact fun moment hmem => (htidy moment hmem).drained
  case own => exact fun moment hmem => (htidy moment hmem).own
  case emitted =>
    rintro before moment between moment' after rfl hbegins htakes
    exact exists_emission hpath htidy hbegins htakes
  case followed =>
    rintro before moment after rfl htakes
    exact haccounts.followed.exists_moment htakes

/-! ### A burst, a failure and a closure -/

theorem Cooperative.append {first rest : List Moment} (hfirst : Cooperative first)
    (hrest : Cooperative rest) : Cooperative (first ++ rest) :=
  List.forall_mem_append.mpr ⟨hfirst, hrest⟩

theorem cooperative_alone (program : Program Stage) (node : Node.State)
    (held : Feed -> Option Nat) : Cooperative (alone program node held).1 := by
  intro moment hmem deed hdeed
  rcases own_of_mem_alone hmem with ⟨e, hown⟩
  rw [hown] at hdeed
  cases hdeed

def disturb : List Deed -> Scene -> List Moment × Scene
  | [], s => ([], s)
  | deed :: deeds, s =>
      let s' := { s with node := deed.effect s.node }
      let (path, last) := disturb deeds s'
      (⟨s, .deed deed, s'⟩ :: path, last)

theorem path_disturb (deeds : List Deed) (s : Scene) :
    Path s (disturb deeds s).1 (disturb deeds s).2 := by
  induction deeds generalizing s with
  | nil => exact Path.nil s
  | cons deed deeds ih => exact Path.cons (Step.deed s deed) (ih _)

theorem cooperative_disturb {s : Scene} (h : Suspended s.loop) (deeds : List Deed) :
    Cooperative (disturb deeds s).1 := by
  induction deeds generalizing s with
  | nil => exact fun moment hmem => by cases hmem
  | cons deed deeds ih => exact List.forall_mem_cons.mpr ⟨fun _ _ => h, ih h⟩

/-- A block and a transaction are announced, the next pending count is not answered in time, and
the feed of blocks is closed. -/
def turmoil : List Deed :=
  [announcement, .emit (.pendingTransaction Hash.zero),
    .set { apply := fun s => { s with pendingErrors := [.timeout "slow node"] },
           subscriptions_apply := fun _ => rfl },
    .close .latest]

def disturbed : List Moment × Scene :=
  disturb turmoil idling.2

/-- The run that comes to wait after an evaluation that has failed. -/
def failedRun : Run :=
  { idleRun with
    controller :=
      { idleRun.controller with
        report := { Report.zero with evaluations := 2, failedEvaluations := 1, events := 2 } } }

def reopenedRun : Run :=
  { failedRun with
    controller :=
      { failedRun.controller with report := { failedRun.controller.report with evaluations := 3 } }
    latest := 2 }

def stirred : Scene :=
  ⟨(disturbed.2.node.takeEvent 0).2, disturbed.2.held, idleRun.wake (.event .latest)⟩

def failing : List Moment × Scene :=
  alone stirred.loop stirred.node stirred.held

def closed : Scene :=
  ⟨failing.2.node, failing.2.held, failedRun.wake (.closed .latest)⟩

def reopening : List Moment × Scene :=
  alone closed.loop closed.node closed.held

def turbulence : List Moment :=
  idling.1 ++ disturbed.1 ++ ⟨disturbed.2, .own (.wake (.event .latest)), stirred⟩ :: failing.1 ++
    ⟨failing.2, .own (.wake (.closed .latest)), closed⟩ :: reopening.1

theorem path_turbulence :
    Path (Scene.opening (Controller.new Config.default) Node.State.fresh) turbulence
      reopening.2 := by
  have hstirred : Path disturbed.2
      (⟨disturbed.2, .own (.wake (.event .latest)), stirred⟩ :: failing.1) failing.2 :=
    Path.cons (Step.wake _ _ _ idleRun _ (Wakes.event .latest _ _ rfl)) (path_alone _ _ _)
  have hclosed : Path failing.2
      (⟨failing.2, .own (.wake (.closed .latest)), closed⟩ :: reopening.1) reopening.2 :=
    Path.cons (Step.wake _ _ _ failedRun _ (Wakes.closed .latest rfl)) (path_alone _ _ _)
  have hdisturbed : Path idling.2 disturbed.1 disturbed.2 := path_disturb _ _
  rw [turbulence, List.append_assoc]
  exact (path_idling.append hdisturbed).append (hstirred.append hclosed)

theorem cooperative_turbulence : Cooperative turbulence := by
  have hwake : forall (s s' : Scene) (wake : Wake) (path : List Moment), Cooperative path ->
      Cooperative (⟨s, .own (.wake wake), s'⟩ :: path) :=
    fun _ _ _ _ hpath => List.forall_mem_cons.mpr ⟨nofun, hpath⟩
  have hwaiting : Suspended idling.2.loop := trivial
  rw [turbulence, List.append_assoc]
  exact ((cooperative_alone _ _ _).append (cooperative_disturb hwaiting _)).append
    ((hwake _ _ _ _ (cooperative_alone _ _ _)).append (hwake _ _ _ _ (cooperative_alone _ _ _)))

theorem run_accounted_turbulence :
    Cooperative turbulence ∧
      Accounted (Controller.new Config.default) turbulence (.waiting reopenedRun) ∧
      Opens (acts turbulence) ∧ taken (acts turbulence) = 2 ∧ wakeUps (acts turbulence) = 2 ∧
      failedEvaluations (acts turbulence) = 1 ∧
      reopenedRun.controller.report =
        { evaluations := 3, failedEvaluations := 1, starts := 0, stops := 0, events := 2 } := by
  refine ⟨cooperative_turbulence,
    run_accounted path_turbulence cooperative_turbulence rfl, ?_, ?_, ?_, ?_, rfl⟩
  · exact ⟨1, List.mem_cons_of_mem _ List.mem_cons_self⟩
  · rfl
  · rfl
  · rfl

end Mining
end KeyRegistry
