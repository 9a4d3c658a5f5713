import KeyRegistry.Proofs.Pipeline.Moves

/-!
# A whole run

A run on a built pipeline goes through the moves in order and ends with the
first one that fails.  The relation below has one constructor for each place at
which a run can end.
-/

namespace KeyRegistry
namespace Pipeline

theorem submission_accepted {left : Nat} {p q : Pipeline} {moments : List Moment} {hash : Hash}
    (h : Submission left p moments q (.ok hash)) :
    q.state = .submitted ∧ q.hash = some hash := by
  generalize hresult : (Except.ok hash : Except Error Hash) = result at h
  induction h with
  | stale _ => cases hresult
  | accepted hash' _ _ =>
      cases hresult
      exact ⟨rfl, rfl⟩
  | ended e _ _ _ => cases hresult
  | unpriced e _ _ _ _ => cases hresult
  | repeated e _ _ _ _ _ ih => exact ih hresult

inductive Journey (p : Pipeline) : List Moment -> Pipeline -> Except Error Outcome -> Prop where
  | unestimated (e : RpcError) :
      Journey p [⟨p, ⟨.ask (.estimateGas p.call), .error e⟩⟩] p.failed
        (.error (.estimationFailed e))
  | unpriced {quotes : List Exchange} {cause : Error} (gas : UInt64) :
      Pricing (p.estimated gas) quotes (.error cause) ->
      Journey p
        (⟨p, ⟨.ask (.estimateGas p.call), .ok gas⟩⟩ ::
          quotes.map (Moment.mk (p.estimated gas)))
        (p.estimated gas).failed (.error cause)
  | unsent {quotes : List Exchange} {plan : GasPlan} {sends : List Moment} {q : Pipeline}
      {cause : Error} (gas : UInt64) :
      Pricing (p.estimated gas) quotes (.ok plan) ->
      Submission (p.config.maxRetries.toNat - p.attempts) ((p.estimated gas).planned plan)
        sends q (.error cause) ->
      Journey p
        (⟨p, ⟨.ask (.estimateGas p.call), .ok gas⟩⟩ ::
          (quotes.map (Moment.mk (p.estimated gas)) ++ sends))
        q (.error cause)
  | unconfirmed {quotes : List Exchange} {plan : GasPlan} {sends polls : List Moment}
      {sent q : Pipeline} {hash : Hash} {cause : Error} (gas : UInt64) (started : Nat) :
      Pricing (p.estimated gas) quotes (.ok plan) ->
      Submission (p.config.maxRetries.toNat - p.attempts) ((p.estimated gas).planned plan)
        sends sent (.ok hash) ->
      Wait hash started sent.config.pollLimit sent polls q (.error cause) ->
      Journey p
        (⟨p, ⟨.ask (.estimateGas p.call), .ok gas⟩⟩ ::
          (quotes.map (Moment.mk (p.estimated gas)) ++
            (sends ++ ⟨sent, ⟨.clock, started⟩⟩ :: polls)))
        q (.error cause)
  | concluded {quotes : List Exchange} {plan : GasPlan} {sends polls : List Moment}
      {sent included q : Pipeline} {hash : Hash} {receipt : Receipt}
      {result : Except Error Outcome} (gas : UInt64) (started : Nat) :
      Pricing (p.estimated gas) quotes (.ok plan) ->
      Submission (p.config.maxRetries.toNat - p.attempts) ((p.estimated gas).planned plan)
        sends sent (.ok hash) ->
      Wait hash started sent.config.pollLimit sent polls included (.ok receipt) ->
      Conclusion receipt included q result ->
      Journey p
        (⟨p, ⟨.ask (.estimateGas p.call), .ok gas⟩⟩ ::
          (quotes.map (Moment.mk (p.estimated gas)) ++
            (sends ++ ⟨sent, ⟨.clock, started⟩⟩ :: polls)))
        q result

theorem wait_of_confirm {p q : Pipeline} {moments : List Moment} {hash : Hash}
    {result : Except Error Receipt} (hstate : p.state = .submitted) (hhash : p.hash = some hash)
    (h : (Move.confirm p).Unfolds moments q result) :
    ∃ started polls, moments = ⟨p, ⟨.clock, started⟩⟩ :: polls ∧
      Wait hash started p.config.pollLimit p polls q result := by
  cases confirmation_of_unfolds hstate h with
  | unsent hnone =>
      rw [hhash] at hnone
      cases hnone
  | waited started hsome hwait =>
      rw [hhash] at hsome
      cases hsome
      exact ⟨started, _, rfl, hwait⟩

theorem journey_of_unfolds {p q : Pipeline} {moments : List Moment}
    {result : Except Error Outcome} (hstate : p.state = .built)
    (h : (Move.run p).Unfolds moments q result) : Journey p moments q result := by
  rw [Move.run] at h
  rcases Move.unfolds_andThen h with ⟨first, p₁, gas, rest, hestimate, h₁, rfl⟩ | ⟨e, hestimate, rfl⟩
  · cases estimation_of_unfolds hstate hestimate
    rcases Move.unfolds_andThen h₁ with ⟨quotes, p₂, plan, rest, hprice, h₂, rfl⟩ | ⟨e, hprice, rfl⟩
    · cases planning_of_unfolds rfl hprice with
      | priced hpricing =>
          rcases Move.unfolds_andThen h₂ with
            ⟨sends, sent, hash, rest, hsubmit, h₃, rfl⟩ | ⟨e, hsubmit, rfl⟩
          · have hsubmission := submission_of_submit rfl hsubmit
            rcases submission_accepted hsubmission with ⟨hsubmitted, hhash⟩
            rcases Move.unfolds_andThen h₃ with
              ⟨waiting, included, receipt, rest, hconfirm, h₄, rfl⟩ | ⟨e, hconfirm, rfl⟩
            · rcases wait_of_confirm hsubmitted hhash hconfirm with ⟨started, polls, rfl, hwait⟩
              rcases conclusion_of_unfolds h₄ with ⟨rfl, hconclusion⟩
              rw [List.append_nil]
              exact Journey.concluded gas started hpricing hsubmission hwait hconclusion
            · rcases wait_of_confirm hsubmitted hhash hconfirm with ⟨started, polls, rfl, hwait⟩
              exact Journey.unconfirmed gas started hpricing hsubmission hwait
          · exact Journey.unsent gas hpricing (submission_of_submit rfl hsubmit)
    · cases planning_of_unfolds rfl hprice with
      | ended hpricing => exact Journey.unpriced gas hpricing
  · cases estimation_of_unfolds hstate hestimate
    exact Journey.unestimated _

end Pipeline
end KeyRegistry
