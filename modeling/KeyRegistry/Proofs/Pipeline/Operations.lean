import KeyRegistry.Proofs.Pipeline.Moves

/-!
# Operations in any order

A caller may invoke the operations of a pipeline in any order.  What every step
preserves is preserved by a whole sequence of them.  The invariant ties the
pipeline to what it has asked so far: the state tells whether the node has
estimated the call and whether it can have accepted a transaction.  Every move
keeps the invariant, on success and on failure, and sends a transaction only where
the invariant licenses it.
-/

namespace KeyRegistry
namespace Pipeline

/-- What a caller can do with a pipeline. -/
inductive Operation where
  | estimate
  | price
  | usePlan (plan : GasPlan)
  | submit
  | confirm
  | run
  | query
deriving DecidableEq

namespace Operation

@[reducible] def Value : Operation -> Type
  | .estimate => UInt64
  | .price => GasPlan
  | .usePlan _ => Unit
  | .submit => Hash
  | .confirm => Receipt
  | .run => Outcome
  | .query => Outcome

def move : (op : Operation) -> Move op.Value
  | .estimate => Move.estimateGas
  | .price => Move.price
  | .usePlan plan => Move.usePlan plan
  | .submit => Move.submit
  | .confirm => Move.confirm
  | .run => Move.run
  | .query => Move.query

/-- The states in which an operation may be invoked. -/
def allowed : Operation -> List State
  | .estimate => [.built]
  | .price => [.gasEstimated]
  | .usePlan _ => [.gasEstimated, .priced]
  | .submit => [.priced]
  | .confirm => [.submitted]
  | .run => [.built]
  | .query => [.built]

def stage : Operation -> Stage
  | .estimate => .estimation
  | .price => .pricing
  | .usePlan _ => .pricing
  | .submit => .submission
  | .confirm => .confirmation
  | .run => .estimation
  | .query => .call

/-- Where its guard does not allow it, an operation asks nothing and changes nothing. -/
theorem move_of_not_allowed {op : Operation} {p : Pipeline} (h : p.state ∉ op.allowed) :
    op.move p = .done p (.error (.invalidTransition p.state op.stage)) := by
  cases op with
  | estimate =>
      rw [move, Move.estimateGas]
      exact Move.only_of_not_mem h
  | price =>
      rw [move, Move.price]
      exact Move.only_of_not_mem h
  | usePlan plan =>
      rw [move, Move.usePlan]
      exact Move.only_of_not_mem h
  | submit =>
      rw [move, Move.submit]
      exact Move.only_of_not_mem h
  | confirm =>
      rw [move, Move.confirm]
      exact Move.only_of_not_mem h
  | query =>
      rw [move, Move.query]
      exact Move.only_of_not_mem h
  | run =>
      have hbuilt : p.state ∉ [State.built] := h
      rw [move, Move.run, Move.andThen, Move.estimateGas, Move.only_of_not_mem hbuilt]
      rfl

theorem not_allowed_of_over {p : Pipeline} (hover : p.state = .failed ∨ p.state = .confirmed)
    (op : Operation) : p.state ∉ op.allowed := by
  rcases hover with h | h
  · rw [h]
    cases op <;> simp [allowed]
  · rw [h]
    cases op <;> simp [allowed]

end Operation

/-- The course of operations that are invoked one after another, whatever each of them
returns. -/
def operate : List Operation -> Pipeline -> Course Unit
  | [], p => .done p ()
  | op :: ops, p => (op.move p).bind fun p _ => operate ops p

/-- The steps of the operations, one after another. -/
def steps : List Operation -> Pipeline -> Program (Unit × Pipeline)
  | [], p => .done ((), p)
  | op :: ops, p => (op.move.step p).bind fun answer => steps ops answer.2

theorem program_operate (ops : List Operation) (p : Pipeline) :
    (operate ops p).program = steps ops p := by
  induction ops generalizing p with
  | nil => rfl
  | cons op ops ih =>
      rw [operate, steps, Course.program_bind]
      congr 1
      funext answer
      exact ih answer.2

theorem operate_of_over {p : Pipeline} (hover : p.state = .failed ∨ p.state = .confirmed)
    (ops : List Operation) : operate ops p = .done p () := by
  induction ops with
  | nil => rfl
  | cons op ops ih =>
      rw [operate, op.move_of_not_allowed (op.not_allowed_of_over hover)]
      exact ih

/-! ## What is kept within and between operations -/

def Throughout (within : List Exchange -> Moment -> Prop) :
    List Exchange -> List Moment -> Prop
  | _, [] => True
  | past, m :: moments => within past m ∧ Throughout within (past ++ [m.exchange]) moments

section

variable {within : List Exchange -> Moment -> Prop}

theorem Throughout.append {past : List Exchange} {first rest : List Moment}
    (hfirst : Throughout within past first)
    (hrest : Throughout within (past ++ exchanges first) rest) :
    Throughout within past (first ++ rest) := by
  induction first generalizing past with
  | nil => simpa using hrest
  | cons m first ih =>
      constructor
      · exact hfirst.1
      · apply ih hfirst.2
        simpa using hrest

theorem Throughout.at_split {past : List Exchange} {first rest : List Moment} {m : Moment}
    (h : Throughout within past (first ++ m :: rest)) : within (past ++ exchanges first) m := by
  induction first generalizing past with
  | nil => simpa using h.1
  | cons m' first ih => simpa using ih h.2

end

def Preserves {α : Type} (within : List Exchange -> Moment -> Prop)
    (between : List Exchange -> Pipeline -> Prop) (move : Move α) : Prop :=
  forall past p moments q result, between past p -> (move p).Unfolds moments q result ->
    Throughout within past moments ∧ between (past ++ exchanges moments) q

section

variable {within : List Exchange -> Moment -> Prop} {between : List Exchange -> Pipeline -> Prop}

theorem preserves_of_allowed (op : Operation)
    (h : forall past p moments q result, p.state ∈ op.allowed -> between past p ->
      (op.move p).Unfolds moments q result ->
      Throughout within past moments ∧ between (past ++ exchanges moments) q) :
    Preserves within between op.move := by
  intro past p moments q result hp hunfolds
  by_cases hallowed : p.state ∈ op.allowed
  · exact h past p moments q result hallowed hp hunfolds
  · rw [op.move_of_not_allowed hallowed] at hunfolds
    rcases Course.unfolds_done_iff.mp hunfolds with ⟨rfl, rfl, rfl⟩
    constructor
    · trivial
    · simpa using hp

theorem preserves_andThen {α β : Type} {move : Move α} {next : α -> Move β}
    (hmove : Preserves within between move)
    (hnext : forall a, Preserves within between (next a)) :
    Preserves within between (Move.andThen move next) := by
  intro past p moments q result hp hunfolds
  rcases Move.unfolds_andThen hunfolds with ⟨first, p', a, rest, hfirst, hrest, rfl⟩ | ⟨e, he, _⟩
  · rcases hmove past p first p' _ hp hfirst with ⟨hthroughout, hp'⟩
    rcases hnext a _ p' rest q result hp' hrest with ⟨hthroughout', hq⟩
    constructor
    · exact hthroughout.append hthroughout'
    · simpa using hq
  · exact hmove past p moments q _ hp he

theorem preserves_operation (hestimate : Preserves within between Move.estimateGas)
    (hprice : Preserves within between Move.price)
    (husePlan : forall plan, Preserves within between (Move.usePlan plan))
    (hsubmit : Preserves within between Move.submit)
    (hconfirm : Preserves within between Move.confirm)
    (hconclude : forall receipt, Preserves within between (Move.conclude receipt))
    (hquery : Preserves within between Move.query) (op : Operation) :
    Preserves within between op.move := by
  cases op with
  | estimate => exact hestimate
  | price => exact hprice
  | usePlan plan => exact husePlan plan
  | submit => exact hsubmit
  | confirm => exact hconfirm
  | run =>
      exact preserves_andThen hestimate fun _ =>
        preserves_andThen hprice fun _ =>
          preserves_andThen hsubmit fun _ =>
            preserves_andThen hconfirm hconclude
  | query => exact hquery

theorem preserves_operate {ops : List Operation}
    (h : forall op : Operation, Preserves within between op.move) {past : List Exchange}
    {p q : Pipeline} {moments : List Moment} (hp : between past p)
    (hunfolds : (operate ops p).Unfolds moments q ()) :
    Throughout within past moments ∧ between (past ++ exchanges moments) q := by
  induction ops generalizing past p moments with
  | nil =>
      rcases Course.unfolds_done_iff.mp hunfolds with ⟨rfl, rfl, _⟩
      constructor
      · trivial
      · simpa using hp
  | cons op ops ih =>
      rcases Course.unfolds_bind_iff.mp hunfolds with ⟨first, p', result, rest, hfirst, hrest, rfl⟩
      rcases h op past p first p' result hp hfirst with ⟨hthroughout, hp'⟩
      rcases ih hp' hrest with ⟨hthroughout', hq⟩
      constructor
      · exact hthroughout.append hthroughout'
      · simpa using hq

end

/-! ## Sends -/

def IsSend (e : Exchange) : Prop :=
  ∃ call plan, e.1 = .ask (.send call plan)

def IsAcceptance (e : Exchange) : Prop :=
  ∃ call plan hash, e = ⟨.ask (.send call plan), .ok hash⟩

theorem IsAcceptance.isSend {e : Exchange} (h : IsAcceptance e) : IsSend e := by
  rcases h with ⟨call, plan, hash, rfl⟩
  exact ⟨call, plan, rfl⟩

/-- The node has estimated the gas of `call`. -/
def Estimated (call : Call) (past : List Exchange) : Prop :=
  ∃ gas, (⟨.ask (.estimateGas call), .ok gas⟩ : Exchange) ∈ past

/-- If a moment sends a transaction after `past`, it may do so for the pipeline of `call`. -/
def Licensed (call : Call) (past : List Exchange) (m : Moment) : Prop :=
  forall c plan, m.exchange.1 = .ask (.send c plan) ->
    m.pipeline.state = .priced ∧ c = call ∧ plan.belongsTo call = true ∧
      Estimated call past ∧ forall e, e ∈ past -> ¬ IsAcceptance e

/-- Every moment is licensed by what was exchanged before it. -/
def Orderly (call : Call) : List Exchange -> List Moment -> Prop
  | _, [] => True
  | past, m :: moments => Licensed call past m ∧ Orderly call (past ++ [m.exchange]) moments

theorem orderly_iff_throughout {call : Call} {past : List Exchange} {moments : List Moment} :
    Orderly call past moments ↔ Throughout (Licensed call) past moments := by
  induction moments generalizing past with
  | nil => exact Iff.rfl
  | cons m moments ih => exact and_congr Iff.rfl ih

theorem orderly_append {call : Call} {past : List Exchange} {first rest : List Moment}
    (hfirst : Orderly call past first) (hrest : Orderly call (past ++ exchanges first) rest) :
    Orderly call past (first ++ rest) := by
  rw [orderly_iff_throughout] at *
  exact hfirst.append hrest

theorem orderly_of_no_send {call : Call} {past : List Exchange} {moments : List Moment}
    (h : forall e, e ∈ exchanges moments -> ¬ IsSend e) : Orderly call past moments := by
  induction moments generalizing past with
  | nil => trivial
  | cons m rest ih =>
      rw [exchanges_cons, List.forall_mem_cons] at h
      exact ⟨fun c plan hsend => absurd ⟨c, plan, hsend⟩ h.1, ih h.2⟩

theorem licensed_of_orderly {call : Call} {past : List Exchange} {first last : List Moment}
    {m : Moment} (h : Orderly call past (first ++ m :: last)) :
    Licensed call (past ++ exchanges first) m :=
  (orderly_iff_throughout.mp h).at_split

/-! ## The invariant -/

structure Consistent (call : Call) (past : List Exchange) (p : Pipeline) : Prop where
  call_eq : p.call = call
  estimated : p.state = .gasEstimated ∨ p.state = .priced ∨ p.state = .submitted ->
    Estimated call past
  unsent : p.state = .built ∨ p.state = .gasEstimated ∨ p.state = .priced ->
    forall e, e ∈ past -> ¬ IsAcceptance e

theorem consistent_new (call : Call) (config : Config) :
    Consistent call [] (Pipeline.new call config) where
  call_eq := rfl
  estimated h := by simp [Pipeline.new] at h
  unsent _ e he := by cases he

theorem Estimated.append {call : Call} {past : List Exchange} (h : Estimated call past)
    (more : List Exchange) : Estimated call (past ++ more) := by
  rcases h with ⟨gas, hgas⟩
  exact ⟨gas, List.mem_append_left more hgas⟩

theorem Consistent.append {call : Call} {past more : List Exchange} {p q : Pipeline}
    (h : Consistent call past p) (hcall : q.call = p.call) (hstate : q.state = p.state)
    (hmore : forall e, e ∈ more -> ¬ IsAcceptance e) : Consistent call (past ++ more) q where
  call_eq := hcall.trans h.call_eq
  estimated hq := by
    rw [hstate] at hq
    exact (h.estimated hq).append more
  unsent hq e he := by
    rw [hstate] at hq
    rcases List.mem_append.mp he with hpast | hnew
    · exact h.unsent hq e hpast
    · exact hmore e hnew

theorem consistent_of_over {call : Call} {past : List Exchange} {p : Pipeline}
    (hcall : p.call = call) (hover : p.state = .failed ∨ p.state = .confirmed) :
    Consistent call past p where
  call_eq := hcall
  estimated h := by
    rcases hover with hstate | hstate <;> simp [hstate] at h
  unsent h := by
    rcases hover with hstate | hstate <;> simp [hstate] at h

theorem quotation_no_send {config : Config} {left attempt : Nat} {history : List Exchange}
    {answer : Except RpcError (BitVec 128)} (h : Quotation config left attempt history answer) :
    forall e, e ∈ history -> ¬ IsSend e := by
  induction h with
  | quoted price => simp [IsSend]
  | ended e _ => simp [IsSend]
  | repeated e _ _ ih =>
      rw [List.forall_mem_cons, List.forall_mem_cons]
      exact ⟨by simp [IsSend], by simp [IsSend], ih⟩

theorem pricing_no_send {p : Pipeline} {history : List Exchange}
    {answer : Except Error GasPlan} (h : Pricing p history answer) :
    forall e, e ∈ history -> ¬ IsSend e := by
  cases h with
  | unestimated _ => simp
  | priced _ hquotation => exact quotation_no_send hquotation
  | unpriced _ hquotation => exact quotation_no_send hquotation

theorem wait_no_send {hash : Hash} {started left : Nat} {p q : Pipeline}
    {moments : List Moment} {result : Except Error Receipt}
    (h : Wait hash started left p moments q result) :
    forall e, e ∈ exchanges moments -> ¬ IsSend e := by
  induction h with
  | found receipt => simp [IsSend]
  | ended e _ => simp [IsSend]
  | expired now _ _ => simp [IsSend]
  | repeated now _ _ _ ih =>
      simp only [exchanges_cons, List.forall_mem_cons]
      exact ⟨by simp [IsSend], by simp [IsSend], by simp [IsSend], ih⟩

/-! ## Moves keep the invariant -/

/-- From every pipeline that satisfies the invariant, a move is orderly and ends in one that
does so too. -/
def Keeps {α : Type} (call : Call) (move : Move α) : Prop :=
  forall past p moments q result, Consistent call past p -> (move p).Unfolds moments q result ->
    Orderly call past moments ∧ Consistent call (past ++ exchanges moments) q

variable {call : Call}

theorem keeps_iff_preserves {α : Type} {move : Move α} :
    Keeps call move ↔ Preserves (Licensed call) (Consistent call) move := by
  simp only [Keeps, Preserves, orderly_iff_throughout]

theorem keeps_of_allowed (op : Operation)
    (h : forall past p moments q result, p.state ∈ op.allowed -> Consistent call past p ->
      (op.move p).Unfolds moments q result ->
      Orderly call past moments ∧ Consistent call (past ++ exchanges moments) q) :
    Keeps call op.move := by
  simp only [orderly_iff_throughout] at h
  exact keeps_iff_preserves.mpr (preserves_of_allowed op h)

theorem keeps_estimateGas : Keeps call Move.estimateGas := by
  refine keeps_of_allowed .estimate ?_
  intro past p moments q result hallowed hp hunfolds
  have hstate : p.state = .built := by simpa [Operation.allowed] using hallowed
  cases estimation_of_unfolds hstate hunfolds with
  | estimated gas =>
      refine ⟨orderly_of_no_send (by simp [IsSend]), ?_, ?_, ?_⟩
      · exact hp.call_eq
      · intro _
        rw [hp.call_eq]
        exact ⟨gas, by simp⟩
      · intro _
        have hsame : Consistent call (past ++ [⟨.ask (.estimateGas p.call), .ok gas⟩]) p :=
          hp.append rfl rfl (by simp [IsAcceptance])
        exact hsame.unsent (Or.inl hstate)
  | ended e =>
      exact ⟨orderly_of_no_send (by simp [IsSend]), consistent_of_over hp.call_eq (Or.inl rfl)⟩

theorem keeps_price : Keeps call Move.price := by
  refine keeps_of_allowed .price ?_
  intro past p moments q result hallowed hp hunfolds
  have hstate : p.state = .gasEstimated := by simpa [Operation.allowed] using hallowed
  cases planning_of_unfolds hstate hunfolds with
  | @priced quotes plan hpricing =>
      have hquiet := pricing_no_send hpricing
      refine ⟨orderly_of_no_send (by simpa using hquiet), ?_⟩
      have hsame : Consistent call (past ++ quotes) p :=
        hp.append rfl rfl fun e he haccept => hquiet e he haccept.isSend
      rw [exchanges_map_mk]
      exact ⟨hp.call_eq, fun _ => hsame.estimated (Or.inl hstate),
        fun _ => hsame.unsent (Or.inr (Or.inl hstate))⟩
  | @ended quotes cause hpricing =>
      refine ⟨orderly_of_no_send ?_, consistent_of_over hp.call_eq (Or.inl rfl)⟩
      simpa using pricing_no_send hpricing

theorem keeps_usePlan (plan : GasPlan) : Keeps call (Move.usePlan plan) := by
  refine keeps_of_allowed (.usePlan plan) ?_
  intro past p moments q result hallowed hp hunfolds
  have hstate : p.state = .gasEstimated ∨ p.state = .priced := by
    simpa [Operation.allowed] using hallowed
  cases hcurrent : plan.belongsTo p.call with
  | true =>
      rw [Operation.move, usePlan_of_current hallowed hcurrent] at hunfolds
      rcases Course.unfolds_done_iff.mp hunfolds with ⟨rfl, rfl, rfl⟩
      refine ⟨trivial, ?_⟩
      rw [exchanges_nil, List.append_nil]
      exact ⟨hp.call_eq, fun _ => hp.estimated (hstate.imp_right Or.inl),
        fun _ => hp.unsent (Or.inr hstate)⟩
  | false =>
      rw [Operation.move, usePlan_of_stale hallowed hcurrent] at hunfolds
      rcases Course.unfolds_done_iff.mp hunfolds with ⟨rfl, rfl, rfl⟩
      exact ⟨trivial, by simpa using hp⟩

theorem licensed_send {past : List Exchange} {p : Pipeline} {plan : GasPlan}
    {answer : Except RpcError Hash} (hp : Consistent call past p) (hstate : p.state = .priced)
    (hcurrent : plan.belongsTo p.call = true) :
    Licensed call past ⟨p.attempted, ⟨.ask (.send p.call plan), answer⟩⟩ := by
  intro c plan' hsend
  cases hsend
  rw [hp.call_eq] at hcurrent ⊢
  exact ⟨hstate, rfl, hcurrent, hp.estimated (Or.inr (Or.inl hstate)),
    hp.unsent (Or.inr (Or.inr hstate))⟩

theorem keeps_submission {left : Nat} {past : List Exchange} {p q : Pipeline}
    {moments : List Moment} {result : Except Error Hash}
    (h : Submission left p moments q result) (hp : Consistent call past p)
    (hstate : p.state = .priced) :
    Orderly call past moments ∧ Consistent call (past ++ exchanges moments) q := by
  induction h generalizing past with
  | stale _ => exact ⟨trivial, consistent_of_over hp.call_eq (Or.inl rfl)⟩
  | accepted hash _ hcurrent =>
      refine ⟨⟨licensed_send hp hstate hcurrent, trivial⟩, hp.call_eq, ?_, ?_⟩
      · intro _
        exact (hp.estimated (Or.inr (Or.inl hstate))).append _
      · intro hunsent
        simp [submitted] at hunsent
  | ended e _ hcurrent _ =>
      exact ⟨⟨licensed_send hp hstate hcurrent, trivial⟩,
        consistent_of_over hp.call_eq (Or.inl rfl)⟩
  | unpriced e _ hcurrent _ hpricing =>
      refine ⟨⟨licensed_send hp hstate hcurrent, orderly_of_no_send ?_⟩,
        consistent_of_over hp.call_eq (Or.inl rfl)⟩
      rw [exchanges_cons, exchanges_map_mk, List.forall_mem_cons]
      exact ⟨by simp [IsSend], pricing_no_send hpricing⟩
  | @repeated left p q plan fresh quotes moments result e _ hcurrent _ hpricing _ ih =>
      have hquiet := pricing_no_send hpricing
      -- the failed send and the quotes leave the next attempt in the situation of this one
      have hrefused : Consistent call
          (past ++ (⟨.ask (.send p.call plan), .error e⟩ ::
            ⟨.sleep (p.config.backoff p.attempted.attempts), ()⟩ :: quotes))
          { p.attempted with plan := some fresh } := by
        refine hp.append rfl rfl ?_
        rw [List.forall_mem_cons, List.forall_mem_cons]
        exact ⟨by simp [IsAcceptance], by simp [IsAcceptance],
          fun e he haccept => hquiet e he haccept.isSend⟩
      rcases ih hrefused hstate with ⟨horder, hq⟩
      refine ⟨⟨licensed_send hp hstate hcurrent, ?_, ?_⟩, ?_⟩
      · intro c plan' hsend
        cases hsend
      · refine orderly_append (orderly_of_no_send ?_) ?_
        · simpa using hquiet
        · simpa using horder
      · simpa using hq

theorem keeps_submit : Keeps call Move.submit := by
  refine keeps_of_allowed .submit ?_
  intro past p moments q result hallowed hp hunfolds
  have hstate : p.state = .priced := by simpa [Operation.allowed] using hallowed
  exact keeps_submission (submission_of_submit hstate hunfolds) hp hstate

theorem wait_over {hash : Hash} {started left : Nat} {p q : Pipeline} {moments : List Moment}
    {result : Except Error Receipt} (h : Wait hash started left p moments q result) :
    q.call = p.call ∧ (q.state = .failed ∨ q.state = .confirmed) := by
  rw [(settled_of_wait h).2]
  cases result with
  | ok receipt => exact ⟨rfl, Or.inr rfl⟩
  | error e => exact ⟨rfl, Or.inl rfl⟩

theorem keeps_confirm : Keeps call Move.confirm := by
  refine keeps_of_allowed .confirm ?_
  intro past p moments q result hallowed hp hunfolds
  have hstate : p.state = .submitted := by simpa [Operation.allowed] using hallowed
  cases confirmation_of_unfolds hstate hunfolds with
  | unsent _ => exact ⟨trivial, by simpa using hp⟩
  | waited started _ hwait =>
      rcases wait_over hwait with ⟨hcall, hover⟩
      refine ⟨orderly_of_no_send ?_, consistent_of_over (hcall.trans hp.call_eq) hover⟩
      rw [exchanges_cons, List.forall_mem_cons]
      exact ⟨by simp [IsSend], wait_no_send hwait⟩

theorem keeps_conclude (receipt : Receipt) : Keeps call (Move.conclude receipt) := by
  intro past p moments q result hp hunfolds
  rcases conclusion_of_unfolds hunfolds with ⟨rfl, hconclusion⟩
  refine ⟨trivial, ?_⟩
  rw [exchanges_nil, List.append_nil]
  cases hconclusion with
  | deployed _ _ _ _ => exact hp
  | unaddressed _ _ _ => exact consistent_of_over hp.call_eq (Or.inl rfl)
  | sent _ => exact hp

theorem keeps_query : Keeps call Move.query := by
  refine keeps_of_allowed .query ?_
  intro past p moments q result hallowed hp hunfolds
  have hstate : p.state = .built := by simpa [Operation.allowed] using hallowed
  cases reading_of_unfolds hstate hunfolds with
  | answered value =>
      exact ⟨orderly_of_no_send (by simp [IsSend]), consistent_of_over hp.call_eq (Or.inr rfl)⟩
  | ended e =>
      exact ⟨orderly_of_no_send (by simp [IsSend]), consistent_of_over hp.call_eq (Or.inl rfl)⟩

theorem preserves_licensed (op : Operation) :
    Preserves (Licensed call) (Consistent call) op.move :=
  preserves_operation (keeps_iff_preserves.mp keeps_estimateGas)
    (keeps_iff_preserves.mp keeps_price) (fun plan => keeps_iff_preserves.mp (keeps_usePlan plan))
    (keeps_iff_preserves.mp keeps_submit) (keeps_iff_preserves.mp keeps_confirm)
    (fun receipt => keeps_iff_preserves.mp (keeps_conclude receipt))
    (keeps_iff_preserves.mp keeps_query) op

theorem keeps_operate {ops : List Operation} {past : List Exchange} {p q : Pipeline}
    {moments : List Moment} (hp : Consistent call past p)
    (h : (operate ops p).Unfolds moments q ()) :
    Throughout (Licensed call) past moments ∧ Consistent call (past ++ exchanges moments) q :=
  preserves_operate preserves_licensed hp h

theorem orderly_moments (call : Call) (config : Config) (ops : List Operation) {σ : Type}
    (w : World σ) (s : σ) :
    Orderly call [] ((operate ops (Pipeline.new call config)).moments w s) :=
  orderly_iff_throughout.mpr (keeps_operate (consistent_new call config)
    (Course.unfolds_moments w (operate ops (Pipeline.new call config)) s)).1

theorem call_steps (call : Call) (config : Config) (ops : List Operation) {σ : Type}
    (w : World σ) (s : σ) :
    ((steps ops (Pipeline.new call config)).run w s).1.2.call = call := by
  rw [← program_operate]
  exact (keeps_operate (consistent_new call config)
    (Course.unfolds_moments w (operate ops (Pipeline.new call config)) s)).2.call_eq

/-- Whatever operations are invoked and whatever the node answers: a transaction is sent only
from `priced`, for the estimated call and with a plan for it, and never after one was accepted;
refused operations do nothing; and nothing happens after the end. -/
theorem operate_sends_licensed (call : Call) (config : Config) (ops : List Operation) {σ : Type}
    (w : World σ) (s : σ) :
    let moments := (operate ops (Pipeline.new call config)).moments w s
    let program := steps ops (Pipeline.new call config)
    let p := (program.run w s).1.2
    exchanges moments = program.trace w s ∧
    (forall past m future, moments = past ++ m :: future ->
      (forall c plan, m.exchange.1 = .ask (.send c plan) ->
        m.pipeline.state = .priced ∧ c = call ∧ plan.belongsTo call = true ∧
          Estimated call (exchanges past)) ∧
      (IsAcceptance m.exchange -> forall later, later ∈ future -> ¬ IsSend later.exchange)) ∧
    (forall op : Operation, p.state ∉ op.allowed ->
      op.move p = .done p (.error (.invalidTransition p.state op.stage))) ∧
    (forall plan, p.state ∈ (Operation.usePlan plan).allowed -> plan.callDigest ≠ call.digest ->
      Move.usePlan plan p = .done p (.error .stalePlan)) ∧
    (p.state = .failed ∨ p.state = .confirmed ->
      forall more, operate more p = .done p ()) := by
  intro moments program p
  have horder : Orderly call [] moments := orderly_moments call config ops w s
  have hprogram : (operate ops (Pipeline.new call config)).program = program :=
    program_operate ops (Pipeline.new call config)
  refine ⟨?_, ?_, fun op => op.move_of_not_allowed, ?_, fun hover => operate_of_over hover⟩
  · rw [← hprogram]
    exact Course.exchanges_moments w _ s
  · intro past m future hsplit
    rw [hsplit] at horder
    constructor
    · intro c plan hsend
      rcases licensed_of_orderly horder c plan hsend with ⟨hstate, hcall, hplan, hestimated, _⟩
      exact ⟨hstate, hcall, hplan, by simpa using hestimated⟩
    · intro haccept later hlater hsend
      rcases List.append_of_mem hlater with ⟨between, rest, rfl⟩
      rcases hsend with ⟨c, plan, hsend⟩
      have hsplit' : past ++ m :: (between ++ later :: rest) =
          (past ++ m :: between) ++ later :: rest := by
        simp
      rw [hsplit'] at horder
      rcases licensed_of_orderly horder c plan hsend with ⟨_, _, _, _, hunsent⟩
      exact hunsent m.exchange (by simp) haccept
  · intro plan hallowed hdigest
    have hcall : p.call = call := call_steps call config ops w s
    refine usePlan_of_stale hallowed ?_
    rw [hcall]
    exact decide_eq_false hdigest

end Pipeline
end KeyRegistry
