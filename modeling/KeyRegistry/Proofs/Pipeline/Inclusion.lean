import KeyRegistry.Proofs.Pipeline.Run

/-!
# Receipts of a run

A run ends with its first receipt: there is at most one among the node's answers,
and it decides the outcome.  A run without a receipt has failed.
-/

namespace KeyRegistry
namespace Pipeline

open Program

def receipt? : Exchange -> Option Receipt
  | ⟨.ask (.receipt _), .ok found⟩ => found
  | _ => none

/-- The receipts among the answers of a history. -/
def receipts (history : List Exchange) : List Receipt :=
  history.filterMap receipt?

@[simp] theorem receipts_nil : receipts [] = [] := rfl

@[simp] theorem receipts_append (first rest : List Exchange) :
    receipts (first ++ rest) = receipts first ++ receipts rest :=
  List.filterMap_append

theorem receipts_cons_of_none {x : Exchange} (h : receipt? x = none) (history : List Exchange) :
    receipts (x :: history) = receipts history :=
  List.filterMap_cons_none h

theorem receipts_of_quotation {config : Config} {left attempt : Nat} {history : List Exchange}
    {answer : Except RpcError (BitVec 128)} (h : Quotation config left attempt history answer) :
    receipts history = [] := by
  induction h with
  | quoted price => rfl
  | ended e _ => rfl
  | repeated e _ _ ih => exact ih

theorem receipts_of_pricing {p : Pipeline} {history : List Exchange} {answer : Except Error GasPlan}
    (h : Pricing p history answer) : receipts history = [] := by
  cases h with
  | unestimated _ => rfl
  | priced _ hquotation => exact receipts_of_quotation hquotation
  | unpriced _ hquotation => exact receipts_of_quotation hquotation

theorem receipts_of_submission {left : Nat} {p q : Pipeline} {moments : List Moment}
    {result : Except Error Hash} (h : Submission left p moments q result) :
    receipts (exchanges moments) = [] := by
  induction h with
  | stale _ => rfl
  | accepted hash _ _ => rfl
  | ended e _ _ _ => rfl
  | unpriced e _ _ _ hpricing =>
      rw [exchanges_cons, exchanges_cons, exchanges_map_mk, receipts_cons_of_none rfl,
        receipts_cons_of_none rfl, receipts_of_pricing hpricing]
  | repeated e _ _ _ hpricing _ ih =>
      rw [exchanges_cons, exchanges_cons, exchanges_append, exchanges_map_mk,
        receipts_cons_of_none rfl, receipts_cons_of_none rfl, receipts_append,
        receipts_of_pricing hpricing, ih]
      rfl

theorem receipts_of_wait {hash : Hash} {started left : Nat} {p q : Pipeline}
    {moments : List Moment} {result : Except Error Receipt}
    (h : Wait hash started left p moments q result) :
    receipts (exchanges moments) = result.toOption.toList := by
  have hpending : forall answer : Except RpcError (Option Receipt), Pending answer ->
      receipt? ⟨.ask (.receipt hash), answer⟩ = none := by
    intro answer h
    cases answer with
    | ok found => exact h
    | error e => rfl
  induction h with
  | found receipt => rfl
  | ended e _ => rfl
  | expired now h _ =>
      rw [exchanges_cons, receipts_cons_of_none (hpending _ h)]
      rfl
  | repeated now h _ _ ih =>
      rw [exchanges_cons, receipts_cons_of_none (hpending _ h)]
      exact ih

theorem call_of_submission {left : Nat} {p q : Pipeline} {moments : List Moment}
    {result : Except Error Hash} (h : Submission left p moments q result) : q.call = p.call := by
  induction h with
  | stale _ => rfl
  | accepted hash _ _ => rfl
  | ended e _ _ _ => rfl
  | unpriced e _ _ _ _ => rfl
  | repeated e _ _ _ _ _ ih => exact ih

theorem call_of_wait {hash : Hash} {started left : Nat} {p q : Pipeline} {moments : List Moment}
    {result : Except Error Receipt} (h : Wait hash started left p moments q result) :
    q.call = p.call := by
  rw [(settled_of_wait h).2]
  cases result with
  | ok receipt => rfl
  | error e => rfl

inductive Settles (call : Call) : List Receipt -> Except Error Outcome -> Prop where
  | unincluded (e : Error) : Settles call [] (.error e)
  | included {receipt : Receipt} {p q : Pipeline} {result : Except Error Outcome} :
      p.call = call ->
      Conclusion receipt p q result ->
      Settles call [receipt] result

theorem receipts_until_included {p sent included : Pipeline} {gas : UInt64} {started : Nat}
    {quotes : List Exchange} {plan : GasPlan} {sends polls : List Moment} {hash : Hash}
    {answer : Except Error Receipt}
    (hpricing : Pricing (p.estimated gas) quotes (.ok plan))
    (hsubmission : Submission (p.config.maxRetries.toNat - p.attempts)
      ((p.estimated gas).planned plan) sends sent (.ok hash))
    (hwait : Wait hash started sent.config.pollLimit sent polls included answer) :
    receipts (exchanges
      (⟨p, ⟨.ask (.estimateGas p.call), .ok gas⟩⟩ ::
        (quotes.map (Moment.mk (p.estimated gas)) ++
          (sends ++ ⟨sent, ⟨.clock, started⟩⟩ :: polls)))) = answer.toOption.toList := by
  rw [exchanges_cons, exchanges_append, exchanges_map_mk, exchanges_append, exchanges_cons,
    receipts_cons_of_none rfl, receipts_append, receipts_of_pricing hpricing, receipts_append,
    receipts_of_submission hsubmission, receipts_cons_of_none rfl, receipts_of_wait hwait]
  rfl

theorem settles_of_journey {p q : Pipeline} {moments : List Moment}
    {result : Except Error Outcome} (h : Journey p moments q result) :
    Settles p.call (receipts (exchanges moments)) result := by
  cases h with
  | unestimated e => exact Settles.unincluded _
  | unpriced gas hpricing =>
      rw [exchanges_cons, exchanges_map_mk, receipts_cons_of_none rfl, receipts_of_pricing hpricing]
      exact Settles.unincluded _
  | unsent gas hpricing hsubmission =>
      rw [exchanges_cons, exchanges_append, exchanges_map_mk, receipts_cons_of_none rfl,
        receipts_append, receipts_of_pricing hpricing, receipts_of_submission hsubmission]
      exact Settles.unincluded _
  | unconfirmed gas started hpricing hsubmission hwait =>
      rw [receipts_until_included hpricing hsubmission hwait]
      exact Settles.unincluded _
  | concluded gas started hpricing hsubmission hwait hconclusion =>
      rw [receipts_until_included hpricing hsubmission hwait]
      have hcall := (call_of_wait hwait).trans (call_of_submission hsubmission)
      exact Settles.included hcall hconclusion

theorem settles_of_run {call : Call} {config : Config} {history : List Exchange}
    {result : Except Error Outcome} {q : Pipeline}
    (h : Yields (Pipeline.run (Pipeline.new call config)) history (result, q)) :
    Settles call (receipts history) result := by
  rcases Course.exists_unfolds_of_yields h with ⟨moments, hunfolds, rfl⟩
  exact settles_of_journey (journey_of_unfolds rfl hunfolds)

/-! ## Creations -/

/-- How the creation of a contract ends, given the receipts that have been seen. -/
inductive Created {ε : Type} : List Receipt -> Except ε Outcome -> Prop where
  | unconfirmed (e : ε) : Created [] (.error e)
  | deployed {receipt : Receipt} {address : Address} :
      receipt.succeeded = true -> receipt.contractAddress = some address ->
      address.isZero = false ->
      Created [receipt] (.ok (.deployed address receipt))
  | unaddressed {receipt : Receipt} (e : ε) :
      (forall address, receipt.contractAddress = some address -> address.isZero = true) ->
      Created [receipt] (.error e)
  | reverted {receipt : Receipt} :
      receipt.succeeded = false -> Created [receipt] (.ok (.sent receipt false))

theorem created_of_settles {call : Call} {seen : List Receipt} {result : Except Error Outcome}
    (hdeploy : call.isDeploy = true) (h : Settles call seen result) : Created seen result := by
  cases h with
  | unincluded e => exact Created.unconfirmed e
  | included hcall hconclusion =>
      rw [← hcall] at hdeploy
      cases hconclusion with
      | deployed _ hsucceeded haddress hnonzero =>
          exact Created.deployed hsucceeded haddress hnonzero
      | unaddressed _ _ hzero => exact Created.unaddressed _ hzero
      | sent hsent =>
          rw [hdeploy, Bool.true_and] at hsent
          rw [hsent]
          exact Created.reverted hsent

theorem Created.mapError {ε ε' : Type} {seen : List Receipt} {result : Except ε Outcome}
    (h : Created seen result) (f : ε -> ε') : Created seen (result.mapError f) := by
  cases h with
  | unconfirmed e => exact Created.unconfirmed (f e)
  | deployed hsucceeded haddress hnonzero => exact Created.deployed hsucceeded haddress hnonzero
  | unaddressed e hzero => exact Created.unaddressed (f e) hzero
  | reverted hreverted => exact Created.reverted hreverted

/-! ## Invocations -/

/-- How the invocation of a method ends, given the receipts that have been seen. -/
inductive Invoked {ε : Type} : List Receipt -> Except ε Outcome -> Prop where
  | unconfirmed (e : ε) : Invoked [] (.error e)
  | included (receipt : Receipt) : Invoked [receipt] (.ok (.sent receipt receipt.succeeded))

theorem invoked_of_settles {call : Call} {seen : List Receipt} {result : Except Error Outcome}
    (hinvoke : call.isDeploy = false) (h : Settles call seen result) : Invoked seen result := by
  cases h with
  | unincluded e => exact Invoked.unconfirmed e
  | included hcall hconclusion =>
      rw [← hcall] at hinvoke
      cases hconclusion with
      | deployed hdeploy _ _ _ => cases hinvoke.symm.trans hdeploy
      | unaddressed hdeploy _ _ => cases hinvoke.symm.trans hdeploy
      | sent _ => exact Invoked.included _

theorem Invoked.mapError {ε ε' : Type} {seen : List Receipt} {result : Except ε Outcome}
    (h : Invoked seen result) (f : ε -> ε') : Invoked seen (result.mapError f) := by
  cases h with
  | unconfirmed e => exact Invoked.unconfirmed (f e)
  | included receipt => exact Invoked.included receipt

end Pipeline
end KeyRegistry
