import KeyRegistry.Proofs.Pipeline.Invariant
import KeyRegistry.Proofs.Pipeline.Polling

/-!
# Confirmations

A submitted pipeline waits for its receipt by the clock, from the acceptance of its
transaction on.  So a receipt that is there before the deadline is found, and a node
that shows it after some questions confirms the pipeline where as many intervals fit
into the wait.
-/

namespace KeyRegistry
namespace Pipeline

open Program

/-! ## Waits as a whole -/

theorem confirm_of_submitted {p : Pipeline} {hash : Hash} (hstate : p.state = .submitted)
    (hhash : p.hash = some hash) :
    Move.confirm p =
      .perform p .clock fun started => Move.awaitReceipt hash started p.config.pollLimit p := by
  rw [Move.confirm, Move.only_of_mem (by simp [hstate])]
  simp only [hhash]

section

variable {σ : Type} {w : World σ} {time : σ -> Nat} {steady : σ -> Prop} {hash : Hash}
  {timeout poll started left : Nat} {p : Pipeline}
  {pending : List (Except RpcError (Option Receipt))} {last : Except RpcError (Option Receipt)}
  {timeline : List (Nat × Inquiry)} {ending : (Except Error Receipt × Pipeline) × σ}

theorem waits_confirm {s : σ}
    (hw : Punctual w time steady fun request => ∃ hash, request = .receipt hash)
    (htimeout : p.config.receiptTimeout.nanos = timeout * 1_000_000)
    (hinterval : p.config.receiptPollInterval.nanos = poll * 1_000_000) (hpoll : 0 < poll)
    (hstate : p.state = .submitted) (hhash : p.hash = some hash) (hs : steady s) :
    ∃ pending last, Waits time p hash timeout poll (time s) 0 (timeout ⌈/⌉ poll) pending last
      ((confirm p).timeline w time s) ((confirm p).run w s) := by
  have hprogram : confirm p = .perform .clock fun started =>
      (Move.awaitReceipt hash started p.config.pollLimit p).program := by
    rw [confirm, Move.step, confirm_of_submitted hstate hhash, Course.program]
  have hwait : Punctual w time steady fun request => request = .receipt hash :=
    hw.mono fun request hrequest => ⟨hash, hrequest⟩
  rcases hw.shows hs with ⟨hs', hsame⟩
  rw [hprogram, run_perform, timeline_clock, hw.reads hs,
    pollLimit_of_millis htimeout hinterval hpoll]
  apply waits_awaitReceipt hwait htimeout hinterval hpoll (Nat.zero_add _) hs'
  rw [hsame, questionTime, Nat.zero_mul, Nat.zero_min, Nat.zero_mul, Nat.add_zero]

theorem Waits.mem_timeline {i : Nat}
    (h : Waits time p hash timeout poll started i left pending last timeline ending) :
    (questionTime timeout poll started (i + pending.length),
      (⟨.receipt hash, last⟩ : Inquiry)) ∈ timeline := by
  rw [h.timeline_eq, List.mapIdx_concat]
  exact List.mem_append_right _ (List.mem_singleton.mpr rfl)

/-- A wait that finds no receipt has asked for it at the deadline, or the node has refused for good
to answer. -/
theorem Waits.found_of_shown {shown : Nat}
    (h : Waits time p hash timeout poll started 0 left pending last timeline ending)
    (hleft : timeout ≤ left * poll) (hshown : shown ≤ started + timeout * 1_000_000)
    (havailable : forall moment answer, (moment, (⟨.receipt hash, answer⟩ : Inquiry)) ∈ timeline ->
      shown ≤ moment -> ∃ receipt, answer = .ok (some receipt)) :
    (∃ receipt, ending.1.1 = .ok receipt) ∨
      ∃ e, e.isRetryable = false ∧ ending.1.1 = .error (.confirmationFailed hash e) := by
  have hsettled : ¬ Pending last := by
    intro hpending
    have hdeadline : questionTime timeout poll started (0 + pending.length) =
        started + timeout * 1_000_000 := by
      rw [Nat.zero_add, h.length_eq hpending, questionTime, Nat.min_eq_right hleft]
    rcases havailable _ _ h.mem_timeline (by rw [hdeadline]; exact hshown) with ⟨receipt, hfound⟩
    rw [hfound] at hpending
    cases hpending
  rw [h.result_eq]
  cases hlast : last with
  | ok found =>
      cases found with
      | none =>
          rw [hlast] at hsettled
          exact absurd rfl hsettled
      | some receipt => exact Or.inl ⟨receipt, rfl⟩
  | error e =>
      rw [hlast] at hsettled
      have hterminal : e.isRetryable = false := Bool.eq_false_iff.mpr hsettled
      refine Or.inr ⟨e, hterminal, ?_⟩
      simp [verdict, hterminal]

/-- A receipt that is shown after `delay` questions is found where that many may be in vain. -/
theorem Waits.found_iff_delay_le {i delay : Nat} {receipt : Receipt}
    (h : Waits time p hash timeout poll started i left pending last timeline ending)
    (hanswers : forall j (hj : j < (pending ++ [last]).length),
      (pending ++ [last])[j] = .ok (if j < delay then none else some receipt)) :
    ((∃ receipt, ending.1.1 = .ok receipt) ↔ delay ≤ left) ∧
      (delay ≤ left -> pending.length = delay) := by
  have hlast : last = .ok (if pending.length < delay then none else some receipt) := by
    rw [← hanswers pending.length (by simp), List.getElem_concat_length rfl]
  have hle : pending.length ≤ delay := by
    apply Nat.le_of_not_lt
    intro hlt
    have hlong : delay < (pending ++ [last]).length := by
      rw [List.length_append]
      omega
    have hget : (pending ++ [last])[delay] = pending[delay] := List.getElem_append_left hlt
    have hpending := h.pending_of_mem _ (List.getElem_mem hlt)
    rw [← hget, hanswers delay hlong, if_neg (Nat.lt_irrefl delay)] at hpending
    cases hpending
  have hlength := h.length_le
  rw [h.result_eq]
  by_cases hlt : pending.length < delay
  · have hnone : last = .ok none := hlast.trans (by rw [if_pos hlt])
    have hall : pending.length = left := h.length_eq (by rw [hnone]; rfl)
    constructor
    · constructor
      · rintro ⟨found, hfound⟩
        rw [hnone] at hfound
        cases hfound
      · omega
    · omega
  · have hsome : last = .ok (some receipt) := hlast.trans (by rw [if_neg hlt])
    constructor
    · constructor
      · omega
      · intro _
        exact ⟨receipt, by rw [hsome]; rfl⟩
    · omega

theorem Waits.inquiries_eq {α : Type} {program : Program α} {s : σ} {i : Nat}
    (h : Waits time p hash timeout poll started i left pending last
      (program.timeline w time s) ending) :
    inquiries (program.trace w s) =
      (pending ++ [last]).map fun answer => ⟨.receipt hash, answer⟩ := by
  rw [← map_snd_timeline, h.timeline_eq]
  apply List.ext_getElem?
  intro j
  rw [List.getElem?_map, List.getElem?_mapIdx, List.getElem?_map, Option.map_map]
  rfl

end

/-! ## How a pipeline comes to be submitted -/

def AcceptedLast (past : List Exchange) (p : Pipeline) : Prop :=
  p.state = .submitted -> ∃ before call plan hash, p.hash = some hash ∧
    past = before ++ [⟨.ask (.send call plan), .ok hash⟩]

theorem acceptedLast_of_state {past : List Exchange} {p : Pipeline} (state : State)
    (hstate : p.state = state) (hother : state ≠ .submitted) : AcceptedLast past p :=
  fun hsubmitted => absurd (hstate.symm.trans hsubmitted) hother

theorem acceptedLast_failed (past : List Exchange) (p : Pipeline) : AcceptedLast past p.failed :=
  acceptedLast_of_state .failed rfl (by decide)

theorem acceptedLast_confirmed (past : List Exchange) (p : Pipeline) :
    AcceptedLast past p.confirmed :=
  acceptedLast_of_state .confirmed rfl (by decide)

theorem AcceptedLast.prepend {more : List Exchange} {p : Pipeline} (h : AcceptedLast more p)
    (past : List Exchange) : AcceptedLast (past ++ more) p := by
  intro hstate
  rcases h hstate with ⟨before, call, plan, hash, hhash, rfl⟩
  exact ⟨past ++ before, call, plan, hash, hhash, (List.append_assoc _ _ _).symm⟩

theorem acceptedLast_of_submission {left : Nat} {p q : Pipeline} {moments : List Moment}
    {result : Except Error Hash} (h : Submission left p moments q result) :
    AcceptedLast (exchanges moments) q := by
  induction h with
  | stale _ => exact acceptedLast_failed _ _
  | accepted hash _ _ => exact fun _ => ⟨[], _, _, hash, rfl, rfl⟩
  | ended e _ _ _ => exact acceptedLast_failed _ _
  | unpriced e _ _ _ _ => exact acceptedLast_failed _ _
  | repeated e _ _ _ _ _ ih =>
      rw [exchanges_cons, exchanges_cons, exchanges_append]
      exact ((ih.prepend _).prepend [_]).prepend [_]

theorem throughout_true (past : List Exchange) (moments : List Moment) :
    Throughout (fun _ _ => True) past moments := by
  induction moments generalizing past with
  | nil => trivial
  | cons m moments ih =>
      constructor
      · trivial
      · exact ih _

abbrev TracksAcceptance {α : Type} (move : Move α) : Prop :=
  Preserves (fun _ _ => True) AcceptedLast move

theorem tracks_of_allowed (op : Operation)
    (h : forall p moments q result, p.state ∈ op.allowed -> (op.move p).Unfolds moments q result ->
      AcceptedLast (exchanges moments) q ∨ q = p ∧ moments = []) :
    TracksAcceptance op.move := by
  apply preserves_of_allowed
  intro past p moments q result hallowed hp hunfolds
  constructor
  · exact throughout_true past moments
  · rcases h p moments q result hallowed hunfolds with hq | ⟨rfl, rfl⟩
    · exact hq.prepend past
    · rw [exchanges_nil, List.append_nil]
      exact hp

theorem tracks_estimateGas : TracksAcceptance Move.estimateGas := by
  apply tracks_of_allowed .estimate
  intro p moments q result hallowed hunfolds
  have hstate : p.state = .built := by simpa [Operation.allowed] using hallowed
  cases estimation_of_unfolds hstate hunfolds with
  | estimated gas => exact Or.inl (acceptedLast_of_state .gasEstimated rfl (by decide))
  | ended e => exact Or.inl (acceptedLast_failed _ _)

theorem tracks_price : TracksAcceptance Move.price := by
  apply tracks_of_allowed .price
  intro p moments q result hallowed hunfolds
  have hstate : p.state = .gasEstimated := by simpa [Operation.allowed] using hallowed
  cases planning_of_unfolds hstate hunfolds with
  | priced _ => exact Or.inl (acceptedLast_of_state .priced rfl (by decide))
  | ended _ => exact Or.inl (acceptedLast_failed _ _)

theorem tracks_usePlan (plan : GasPlan) : TracksAcceptance (Move.usePlan plan) := by
  apply tracks_of_allowed (.usePlan plan)
  intro p moments q result hallowed hunfolds
  cases hcurrent : plan.belongsTo p.call with
  | true =>
      rw [Operation.move, usePlan_of_current hallowed hcurrent] at hunfolds
      rcases Course.unfolds_done_iff.mp hunfolds with ⟨rfl, rfl, rfl⟩
      exact Or.inl (acceptedLast_of_state .priced rfl (by decide))
  | false =>
      rw [Operation.move, usePlan_of_stale hallowed hcurrent] at hunfolds
      rcases Course.unfolds_done_iff.mp hunfolds with ⟨rfl, rfl, rfl⟩
      exact Or.inr ⟨rfl, rfl⟩

theorem tracks_submit : TracksAcceptance Move.submit := by
  apply tracks_of_allowed .submit
  intro p moments q result hallowed hunfolds
  have hstate : p.state = .priced := by simpa [Operation.allowed] using hallowed
  exact Or.inl (acceptedLast_of_submission (submission_of_submit hstate hunfolds))

theorem tracks_confirm : TracksAcceptance Move.confirm := by
  apply tracks_of_allowed .confirm
  intro p moments q result hallowed hunfolds
  have hstate : p.state = .submitted := by simpa [Operation.allowed] using hallowed
  cases confirmation_of_unfolds hstate hunfolds with
  | unsent _ => exact Or.inr ⟨rfl, rfl⟩
  | @waited _ _ _ result started _ hwait =>
      rw [(settled_of_wait hwait).2]
      cases result with
      | ok receipt => exact Or.inl (acceptedLast_confirmed _ _)
      | error e => exact Or.inl (acceptedLast_failed _ _)

theorem tracks_conclude (receipt : Receipt) : TracksAcceptance (Move.conclude receipt) := by
  intro past p moments q result hp hunfolds
  rcases conclusion_of_unfolds hunfolds with ⟨rfl, hconclusion⟩
  rw [exchanges_nil, List.append_nil]
  constructor
  · trivial
  · cases hconclusion with
    | deployed _ _ _ _ => exact hp
    | unaddressed _ _ _ => exact acceptedLast_failed _ _
    | sent _ => exact hp

theorem tracks_query : TracksAcceptance Move.query := by
  apply tracks_of_allowed .query
  intro p moments q result hallowed hunfolds
  have hstate : p.state = .built := by simpa [Operation.allowed] using hallowed
  cases reading_of_unfolds hstate hunfolds with
  | answered value => exact Or.inl (acceptedLast_confirmed _ _)
  | ended e => exact Or.inl (acceptedLast_failed _ _)

theorem tracks_operation (op : Operation) : TracksAcceptance op.move :=
  preserves_operation tracks_estimateGas tracks_price tracks_usePlan tracks_submit tracks_confirm
    tracks_conclude tracks_query op

theorem acceptedLast_of_yields {call : Call} {config : Config} {ops : List Operation}
    {past : List Exchange} {p : Pipeline}
    (h : Yields (steps ops (new call config)) past ((), p)) : AcceptedLast past p := by
  rw [← program_operate] at h
  rcases Course.exists_unfolds_of_yields h with ⟨moments, hunfolds, rfl⟩
  have hnew : AcceptedLast [] (new call config) := acceptedLast_of_state .built rfl (by decide)
  exact (preserves_operate tracks_operation hnew hunfolds).2

/-! ## Confirmations -/

theorem confirm_of_inclusion {timeout poll delay : Nat} {p : Pipeline} {hash : Hash}
    {receipt : Receipt} {s : Simulation}
    (htimeout : p.config.receiptTimeout.nanos = timeout * 1_000_000)
    (hinterval : p.config.receiptPollInterval.nanos = poll * 1_000_000) (hpoll : 0 < poll)
    (hstate : p.state = .submitted) (hhash : p.hash = some hash) (hminer : s.miner = none)
    (hincluded : s.node.inclusion? hash = some ⟨receipt, delay⟩) :
    ∃ result q s', s.execAll (confirm p) = (some (result, q), s') ∧
      ((∃ receipt, result = .ok receipt) ↔ delay ≤ timeout ⌈/⌉ poll) ∧
      (delay ≤ timeout ⌈/⌉ poll ->
        s'.node.calls.count (.receipt hash) = delay + 1 + s.node.calls.count (.receipt hash) ∧
          s'.now = s.now + min (delay * poll) timeout * 1_000_000) := by
  have hpunctual : Punctual Simulation.world Simulation.now (fun s => s.miner = none)
      fun request => ∃ hash, request = .receipt hash :=
    Simulation.punctual_world.mono fun _ _ => trivial
  rcases waits_confirm hpunctual htimeout hinterval hpoll hstate hhash hminer with
    ⟨pending, last, hwaits⟩
  have hinquiries := hwaits.inquiries_eq
  have hanswers : forall j (hj : j < (pending ++ [last]).length),
      (pending ++ [last])[j] = .ok (if j < delay then none else some receipt) :=
    fun j hj => Simulation.answers_of_entry hminer hincluded hinquiries hj
  rcases hwaits.found_iff_delay_le hanswers with ⟨hfound, hlength⟩
  refine ⟨_, _, _, Simulation.execAll_eq (confirm p) s, hfound, ?_⟩
  intro hdelay
  constructor
  · have hall : (pending ++ [last]).countP ((fun i : Inquiry => i.1 = .receipt hash) ∘
        fun answer => ⟨.receipt hash, answer⟩) = (pending ++ [last]).length :=
      List.countP_eq_length.mpr fun _ _ => decide_eq_true rfl
    rw [Simulation.count_run hminer, hinquiries, List.countP_map]
    rw [hall, List.length_append, List.length_singleton, hlength hdelay]
  · have htime := hwaits.time_eq
    rw [Nat.zero_add, hlength hdelay] at htime
    exact htime

/-- A submitted pipeline asks for its receipt as the clock says and stops at the first answer that
settles the matter, or at the deadline; it keeps its hash.  A receipt that is available before the
deadline is found.  Where the node shows it after `delay` questions, the pipeline is confirmed if
and only if `delay` intervals, the last of them cut short, fit into the wait. -/
theorem confirm_asks_on_schedule (call : Call) (config : Config) (ops : List Operation)
    {timeout poll : Nat} (htimeout : config.receiptTimeout.nanos = timeout * 1_000_000)
    (hinterval : config.receiptPollInterval.nanos = poll * 1_000_000) (hpoll : 0 < poll) :
    (forall {σ : Type} (w : World σ) (time : σ -> Nat) (steady : σ -> Prop) (s : σ)
        (past : List Exchange) (p : Pipeline),
      Punctual w time steady (fun request => ∃ hash, request = .receipt hash) -> steady s ->
      Yields (steps ops (new call config)) past ((), p) -> p.state = .submitted ->
      let timeline := (confirm p).timeline w time s
      let ending := (confirm p).run w s
      ∃ hash, p.hash = some hash ∧ ending.1.2.hash = some hash ∧
        (∃ pending last, Waits time p hash timeout poll (time s) 0 (timeout ⌈/⌉ poll) pending last
          timeline ending) ∧
        forall shown, shown ≤ time s + timeout * 1_000_000 ->
          (forall moment answer, (moment, (⟨.receipt hash, answer⟩ : Inquiry)) ∈ timeline ->
            shown ≤ moment -> ∃ receipt, answer = .ok (some receipt)) ->
          (∃ receipt, ending.1.1 = .ok receipt) ∨
            ∃ e, e.isRetryable = false ∧ ending.1.1 = .error (.confirmationFailed hash e)) ∧
    (forall (s₀ s : Simulation) (p : Pipeline), s₀.miner = none ->
      s₀.execAll (steps ops (new call config)) = (some ((), p), s) -> p.state = .submitted ->
      let delay := s₀.node.receiptDelay
      ∃ hash result q s', p.hash = some hash ∧ s.execAll (confirm p) = (some (result, q), s') ∧
        ((∃ receipt, result = .ok receipt) ↔ delay ≤ timeout ⌈/⌉ poll) ∧
        (delay ≤ timeout ⌈/⌉ poll ->
          s'.node.calls.count (.receipt hash) = delay + 1 + s.node.calls.count (.receipt hash) ∧
            s'.now = s.now + min (delay * poll) timeout * 1_000_000)) := by
  constructor
  · intro σ w time steady s past p hw hs hreached hstate timeline ending
    have hp := atRest_of_yields hreached
    rcases Option.ne_none_iff_exists'.mp (hp.hashed hstate) with ⟨hash, hhash⟩
    rw [← hp.config_eq] at htimeout hinterval
    rcases waits_confirm hw htimeout hinterval hpoll hstate hhash hs with ⟨pending, last, hwaits⟩
    have hcovered : timeout ≤ timeout ⌈/⌉ poll * poll := by
      rw [Nat.mul_comm, ← ceilDiv_le_iff_le_mul hpoll]
    have hkept : ending.1.2.hash = some hash := by
      rw [hwaits.pipeline_eq]
      cases ending.1.1 with
      | ok receipt => exact hhash
      | error e => exact hhash
    refine ⟨hash, hhash, hkept, ⟨pending, last, hwaits⟩, ?_⟩
    intro shown hshown havailable
    exact hwaits.found_of_shown hcovered hshown havailable
  · intro s₀ s p hminer hexec hstate delay
    rw [Simulation.execAll_eq] at hexec
    rcases Prod.mk.inj hexec with ⟨hanswer, rfl⟩
    have hyields := yields_trace Simulation.world (steps ops (new call config)) s₀
    rw [Option.some.inj hanswer] at hyields
    rcases acceptedLast_of_yields hyields hstate with ⟨before, c, plan, hash, hhash, htrace⟩
    rcases Simulation.entry_of_trace hminer htrace with ⟨receipt, hincluded⟩
    have hsteady := run_keeps Simulation.steady_answer (steps ops (new call config)) ⟨hminer, rfl⟩
    have hconfig := (atRest_of_yields hyields).config_eq
    rw [← hconfig] at htimeout hinterval
    rcases confirm_of_inclusion htimeout hinterval hpoll hstate hhash hsteady.1 hincluded with
      ⟨result, q, s', hconfirm⟩
    exact ⟨hash, result, q, s', hhash, hconfirm⟩

/-- A node that shows a receipt at the fourth question for it. -/
def delaying : Simulation :=
  { Simulation.start with node := { Node.State.fresh with receiptDelay := 3 } }

/-- A wait of two intervals and a half. -/
def brisk : Config :=
  { Config.default with
    receiptTimeout := Duration.ofSecs 1
    receiptPollInterval := Duration.ofMillis 400 }

/-- The fourth question is made at the deadline, and finds the receipt. -/
theorem confirm_asks_on_schedule_delaying :
    let reached := (steps [.estimate, .price, .submit] (new creation brisk)).run
      Simulation.world delaying
    let p := reached.1.2
    let s := reached.2
    p.state = .submitted ∧
      ∃ hash pending last result q s', p.hash = some hash ∧
        Waits Simulation.now p hash 1000 400 s.now 0 3 pending last
          ((confirm p).timeline Simulation.world Simulation.now s)
          ((confirm p).run Simulation.world s) ∧
        s.execAll (confirm p) = (some (result, q), s') ∧ (∃ receipt, result = .ok receipt) ∧
        s'.node.calls.count (.receipt hash) = 4 + s.node.calls.count (.receipt hash) ∧
        s'.now = s.now + 1_000_000_000 := by
  intro reached p s
  have hstate : p.state = .submitted := by decide +kernel
  have hsteady : s.miner = none ∧ s.node.receiptDelay = 3 :=
    run_keeps Simulation.steady_answer (steps [.estimate, .price, .submit] (new creation brisk))
      ⟨rfl, rfl⟩
  have hpunctual : Punctual Simulation.world Simulation.now (fun s => s.miner = none)
      fun request => ∃ hash, request = .receipt hash :=
    Simulation.punctual_world.mono fun _ _ => trivial
  have hexec : delaying.execAll (steps [.estimate, .price, .submit] (new creation brisk)) =
      (some ((), p), s) := Simulation.execAll_eq _ _
  have hyields := yields_trace Simulation.world
    (steps [.estimate, .price, .submit] (new creation brisk)) delaying
  have htimeout : brisk.receiptTimeout.nanos = 1000 * 1_000_000 := by decide
  have hinterval : brisk.receiptPollInterval.nanos = 400 * 1_000_000 := by decide
  rcases confirm_asks_on_schedule creation brisk [.estimate, .price, .submit] htimeout hinterval
    (by decide) with ⟨hclock, hnode⟩
  rcases hclock Simulation.world Simulation.now _ s _ p hpunctual hsteady.1 hyields hstate with
    ⟨hash, hhash, _, ⟨pending, last, hwaits⟩, _⟩
  rcases hnode delaying s p rfl hexec hstate with
    ⟨hash', result, q, s', hhash', hconfirm, hfound, hcounted⟩
  cases hhash.symm.trans hhash'
  have hfits : delaying.node.receiptDelay ≤ 1000 ⌈/⌉ 400 := by decide
  exact ⟨hstate, hash, pending, last, result, q, s', hhash, hwaits, hconfirm, hfound.mpr hfits,
    hcounted hfits⟩

end Pipeline
end KeyRegistry
