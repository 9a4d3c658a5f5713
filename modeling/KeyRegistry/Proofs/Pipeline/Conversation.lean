import KeyRegistry.Proofs.Pipeline.Run

/-!
# The conversation of a run

What a run asks of the node forms a small language: one estimate, gas prices,
sends with gas prices between them, and receipts after an accepted send.  The
grammar leaves out pauses, prices and amounts, and says which request may follow
which answer.
-/

namespace KeyRegistry
namespace Pipeline

open Program

/-- One or more queries of the gas price, of which only the last can be answered with one. -/
inductive Quotes : Bool -> List Inquiry -> Prop where
  | price (price : BitVec 128) : Quotes true [⟨.gasPrice, .ok price⟩]
  | refusal (e : RpcError) : Quotes false [⟨.gasPrice, .error e⟩]
  | again {priced : Bool} {asked : List Inquiry} (e : RpcError) :
      Quotes priced asked -> Quotes priced (⟨.gasPrice, .error e⟩ :: asked)

/-- One or more sends of `call`, of which only the last can be accepted, each further one after
a new price. -/
inductive Sends (call : Call) : Option Hash -> List Inquiry -> Prop where
  | accepted (plan : GasPlan) (hash : Hash) :
      Sends call (some hash) [⟨.send call plan, .ok hash⟩]
  | refused (plan : GasPlan) (e : RpcError) : Sends call none [⟨.send call plan, .error e⟩]
  | unpriced {quotes : List Inquiry} (plan : GasPlan) (e : RpcError) :
      Quotes false quotes -> Sends call none (⟨.send call plan, .error e⟩ :: quotes)
  | again {quotes sends : List Inquiry} {hash? : Option Hash} (plan : GasPlan) (e : RpcError) :
      Quotes true quotes -> Sends call hash? sends ->
      Sends call hash? (⟨.send call plan, .error e⟩ :: (quotes ++ sends))

inductive Polls (hash : Hash) : List Inquiry -> Prop where
  | last (answer : Except RpcError (Option Receipt)) : Polls hash [⟨.receipt hash, answer⟩]
  | again {polls : List Inquiry} (answer : Except RpcError (Option Receipt)) :
      Polls hash polls -> Polls hash (⟨.receipt hash, answer⟩ :: polls)

inductive Transacts (call : Call) : List Inquiry -> Prop where
  | unestimated (e : RpcError) : Transacts call [⟨.estimateGas call, .error e⟩]
  | unpriced {quotes : List Inquiry} (gas : UInt64) :
      Quotes false quotes -> Transacts call (⟨.estimateGas call, .ok gas⟩ :: quotes)
  | unsent {quotes sends : List Inquiry} (gas : UInt64) :
      Quotes true quotes -> Sends call none sends ->
      Transacts call (⟨.estimateGas call, .ok gas⟩ :: (quotes ++ sends))
  | sent {quotes sends polls : List Inquiry} {hash : Hash} (gas : UInt64) :
      Quotes true quotes -> Sends call (some hash) sends -> Polls hash polls ->
      Transacts call (⟨.estimateGas call, .ok gas⟩ :: (quotes ++ (sends ++ polls)))

theorem quotes_of_quotation {config : Config} {left attempt : Nat} {history : List Exchange}
    {answer : Except RpcError (BitVec 128)} (h : Quotation config left attempt history answer) :
    Quotes answer.isOk (inquiries history) := by
  induction h with
  | quoted price => exact Quotes.price price
  | ended e _ => exact Quotes.refusal e
  | repeated e _ _ ih => exact Quotes.again e ih

theorem quotes_of_pricing {p : Pipeline} {history : List Exchange}
    {answer : Except Error GasPlan} (h : Pricing p history answer)
    (hestimate : p.estimate ≠ none) : Quotes answer.isOk (inquiries history) := by
  cases h with
  | unestimated hnone => exact absurd hnone hestimate
  | priced _ hquotation => exact quotes_of_quotation hquotation
  | unpriced _ hquotation => exact quotes_of_quotation hquotation

theorem sends_of_submission {left : Nat} {p q : Pipeline} {moments : List Moment}
    {result : Except Error Hash} (h : Submission left p moments q result)
    (hestimate : p.estimate ≠ none)
    (hplan : ∃ plan, p.plan = some plan ∧ plan.belongsTo p.call = true) :
    Sends p.call result.toOption (inquiries (exchanges moments)) := by
  induction h with
  | stale hstale =>
      rcases hplan with ⟨plan, hsome, hcurrent⟩
      rw [hstale plan hsome] at hcurrent
      cases hcurrent
  | accepted hash _ _ => exact Sends.accepted _ hash
  | ended e _ _ _ => exact Sends.refused _ e
  | unpriced e _ _ _ hpricing =>
      simp only [exchanges_cons, exchanges_map_mk, inquiries_ask, inquiries_sleep]
      exact Sends.unpriced _ e (quotes_of_pricing hpricing hestimate)
  | @repeated left p q plan fresh quotes moments result e _ _ _ hpricing _ ih =>
      have hfresh : fresh.belongsTo p.call = true := by
        cases hpricing
        exact decide_eq_true rfl
      simp only [exchanges_cons, exchanges_append, exchanges_map_mk, inquiries_ask,
        inquiries_sleep, inquiries_append]
      exact Sends.again _ e (quotes_of_pricing hpricing hestimate)
        (ih hestimate ⟨fresh, rfl, hfresh⟩)

theorem polls_of_wait {hash : Hash} {started left : Nat} {p q : Pipeline}
    {moments : List Moment} {result : Except Error Receipt}
    (h : Wait hash started left p moments q result) :
    Polls hash (inquiries (exchanges moments)) := by
  induction h with
  | found receipt => exact Polls.last _
  | ended e _ => exact Polls.last _
  | expired now _ _ => exact Polls.last _
  | repeated now _ _ _ ih => exact Polls.again _ ih

theorem transacts_of_journey {p q : Pipeline} {moments : List Moment}
    {result : Except Error Outcome} (h : Journey p moments q result) :
    Transacts p.call (inquiries (exchanges moments)) := by
  have hestimate : forall gas, (p.estimated gas).estimate ≠ none := by
    intro gas
    simp [estimated]
  have hplan : forall gas quotes plan, Pricing (p.estimated gas) quotes (.ok plan) ->
      ∃ current, ((p.estimated gas).planned plan).plan = some current ∧
        current.belongsTo p.call = true := by
    intro gas quotes plan hpricing
    cases hpricing
    exact ⟨_, rfl, decide_eq_true rfl⟩
  cases h with
  | unestimated e => exact Transacts.unestimated e
  | unpriced gas hpricing =>
      rw [exchanges_cons, exchanges_map_mk, inquiries_ask]
      exact Transacts.unpriced gas (quotes_of_pricing hpricing (hestimate gas))
  | unsent gas hpricing hsubmission =>
      rw [exchanges_cons, exchanges_append, exchanges_map_mk, inquiries_ask, inquiries_append]
      exact Transacts.unsent gas (quotes_of_pricing hpricing (hestimate gas))
        (sends_of_submission hsubmission (hestimate gas) (hplan gas _ _ hpricing))
  | unconfirmed gas started hpricing hsubmission hwait =>
      simp only [exchanges_cons, exchanges_append, exchanges_map_mk, inquiries_ask,
        inquiries_append, inquiries_clock]
      exact Transacts.sent gas (quotes_of_pricing hpricing (hestimate gas))
        (sends_of_submission hsubmission (hestimate gas) (hplan gas _ _ hpricing))
        (polls_of_wait hwait)
  | concluded gas started hpricing hsubmission hwait _ =>
      simp only [exchanges_cons, exchanges_append, exchanges_map_mk, inquiries_ask,
        inquiries_append, inquiries_clock]
      exact Transacts.sent gas (quotes_of_pricing hpricing (hestimate gas))
        (sends_of_submission hsubmission (hestimate gas) (hplan gas _ _ hpricing))
        (polls_of_wait hwait)

theorem transacts_of_run {call : Call} {config : Config} {history : List Exchange}
    {result : Except Error Outcome} {q : Pipeline}
    (h : Yields (Pipeline.run (Pipeline.new call config)) history (result, q)) :
    Transacts call (inquiries history) := by
  rcases Course.exists_unfolds_of_yields h with ⟨moments, hunfolds, rfl⟩
  exact transacts_of_journey (journey_of_unfolds rfl hunfolds)

end Pipeline
end KeyRegistry
