import KeyRegistry.Proofs.Pipeline.Resubmission

/-!
# What a run costs

The loops of a pipeline bound how often it asks the node for anything, and the
bounds add up along a run: one estimate, a round of gas prices before each send,
as many sends as there are retries and one more, and as many receipts as the
waiting time allows.  The pipeline counts its sends as attempts.
-/

namespace KeyRegistry
namespace Pipeline

open Program

def isEstimate : Exchange -> Bool
  | ⟨.ask (.estimateGas _), _⟩ => true
  | _ => false

def isQuote : Exchange -> Bool
  | ⟨.ask .gasPrice, _⟩ => true
  | _ => false

def isAttempt : Exchange -> Bool
  | ⟨.ask (.send _ _), _⟩ => true
  | _ => false

def isPoll : Exchange -> Bool
  | ⟨.ask (.receipt _), _⟩ => true
  | _ => false

theorem isAttempt_iff {e : Exchange} : isAttempt e = true ↔ IsSend e := by
  constructor
  · intro h
    unfold isAttempt at h
    split at h
    · exact ⟨_, _, rfl⟩
    · cases h
  · rcases e with ⟨action, reply⟩
    rintro ⟨call, plan, rfl⟩
    rfl

theorem attempts_eq_zero_iff {history : List Exchange} :
    history.countP isAttempt = 0 ↔ forall e, e ∈ history -> ¬ IsSend e := by
  rw [List.countP_eq_zero]
  simp only [isAttempt_iff]

/-- A stretch of a run from `p` to `q` makes at most so many requests of each kind.  The sends are
those that the pipeline counts. -/
structure Tally (p q : Pipeline) (estimates quotes attempts polls : Nat)
    (history : List Exchange) : Prop where
  config_eq : q.config = p.config
  counted : q.attempts = p.attempts + history.countP isAttempt
  estimates_le : history.countP isEstimate ≤ estimates
  quotes_le : history.countP isQuote ≤ quotes
  attempts_le : history.countP isAttempt ≤ attempts
  polls_le : history.countP isPoll ≤ polls

section

variable {p q r : Pipeline} {n₁ n₂ n₃ n₄ m₁ m₂ m₃ m₄ : Nat} {first rest history : List Exchange}

theorem Tally.append (hfirst : Tally p q n₁ n₂ n₃ n₄ first) (hrest : Tally q r m₁ m₂ m₃ m₄ rest) :
    Tally p r (n₁ + m₁) (n₂ + m₂) (n₃ + m₃) (n₄ + m₄) (first ++ rest) := by
  constructor
  · rw [hrest.config_eq, hfirst.config_eq]
  · rw [hrest.counted, hfirst.counted, List.countP_append, Nat.add_assoc]
  · rw [List.countP_append]
    exact Nat.add_le_add hfirst.estimates_le hrest.estimates_le
  · rw [List.countP_append]
    exact Nat.add_le_add hfirst.quotes_le hrest.quotes_le
  · rw [List.countP_append]
    exact Nat.add_le_add hfirst.attempts_le hrest.attempts_le
  · rw [List.countP_append]
    exact Nat.add_le_add hfirst.polls_le hrest.polls_le

theorem Tally.cons {x : Exchange} (hfirst : Tally p q n₁ n₂ n₃ n₄ [x])
    (hrest : Tally q r m₁ m₂ m₃ m₄ rest) :
    Tally p r (n₁ + m₁) (n₂ + m₂) (n₃ + m₃) (n₄ + m₄) (x :: rest) :=
  hfirst.append hrest

theorem Tally.mono (h : Tally p q n₁ n₂ n₃ n₄ history)
    (h₁ : n₁ ≤ m₁) (h₂ : n₂ ≤ m₂) (h₃ : n₃ ≤ m₃) (h₄ : n₄ ≤ m₄) :
    Tally p q m₁ m₂ m₃ m₄ history where
  config_eq := h.config_eq
  counted := h.counted
  estimates_le := Nat.le_trans h.estimates_le h₁
  quotes_le := Nat.le_trans h.quotes_le h₂
  attempts_le := Nat.le_trans h.attempts_le h₃
  polls_le := Nat.le_trans h.polls_le h₄

/-- What ends a stretch may change the pipeline, but neither its tuning nor its count of sends. -/
theorem Tally.settle (h : Tally p q n₁ n₂ n₃ n₄ history) (hconfig : r.config = q.config)
    (hattempts : r.attempts = q.attempts) : Tally p r n₁ n₂ n₃ n₄ history where
  config_eq := hconfig.trans h.config_eq
  counted := hattempts.trans h.counted
  estimates_le := h.estimates_le
  quotes_le := h.quotes_le
  attempts_le := h.attempts_le
  polls_le := h.polls_le

end

/-! ## Single exchanges -/

theorem tally_counts {p q : Pipeline} (history : List Exchange) (hconfig : q.config = p.config)
    (hcounted : q.attempts = p.attempts + history.countP isAttempt) :
    Tally p q (history.countP isEstimate) (history.countP isQuote) (history.countP isAttempt)
      (history.countP isPoll) history where
  config_eq := hconfig
  counted := hcounted
  estimates_le := Nat.le_refl _
  quotes_le := Nat.le_refl _
  attempts_le := Nat.le_refl _
  polls_le := Nat.le_refl _

section

variable (p : Pipeline)

theorem tally_nil : Tally p p 0 0 0 0 [] :=
  tally_counts [] rfl rfl

theorem tally_estimate (call : Call) (answer : Except RpcError UInt64) :
    Tally p p 1 0 0 0 [⟨.ask (.estimateGas call), answer⟩] :=
  tally_counts [⟨.ask (.estimateGas call), answer⟩] rfl rfl

theorem tally_quote (answer : Except RpcError (BitVec 128)) :
    Tally p p 0 1 0 0 [⟨.ask .gasPrice, answer⟩] :=
  tally_counts [⟨.ask .gasPrice, answer⟩] rfl rfl

theorem tally_attempt (call : Call) (plan : GasPlan) (answer : Except RpcError Hash) :
    Tally p p.attempted 0 0 1 0 [⟨.ask (.send call plan), answer⟩] :=
  tally_counts [⟨.ask (.send call plan), answer⟩] rfl rfl

theorem tally_poll (hash : Hash) (answer : Except RpcError (Option Receipt)) :
    Tally p p 0 0 0 1 [⟨.ask (.receipt hash), answer⟩] :=
  tally_counts [⟨.ask (.receipt hash), answer⟩] rfl rfl

theorem tally_sleep (d : Duration) (u : Unit) : Tally p p 0 0 0 0 [⟨.sleep d, u⟩] :=
  tally_counts [⟨.sleep d, u⟩] rfl rfl

theorem tally_clock (now : Nat) : Tally p p 0 0 0 0 [⟨.clock, now⟩] :=
  tally_counts [⟨.clock, now⟩] rfl rfl

end

/-! ## Loops -/

theorem tally_of_quotation (p : Pipeline) {left attempt : Nat} {history : List Exchange}
    {answer : Except RpcError (BitVec 128)} (h : Quotation p.config left attempt history answer) :
    Tally p p 0 (left + 1) 0 0 history := by
  induction h with
  | quoted price => refine (tally_quote p _).mono ?_ ?_ ?_ ?_ <;> omega
  | ended e _ => refine (tally_quote p _).mono ?_ ?_ ?_ ?_ <;> omega
  | repeated e _ _ ih =>
      refine ((tally_quote p _).cons ((tally_sleep p _ _).cons ih)).mono ?_ ?_ ?_ ?_ <;> omega

theorem tally_of_pricing {p : Pipeline} {history : List Exchange}
    {answer : Except Error GasPlan} (h : Pricing p history answer) :
    Tally p p 0 (p.config.maxRetries.toNat + 1) 0 0 history := by
  cases h with
  | unestimated _ => refine (tally_nil p).mono ?_ ?_ ?_ ?_ <;> omega
  | priced _ hquotation => exact tally_of_quotation p hquotation
  | unpriced _ hquotation => exact tally_of_quotation p hquotation

theorem tally_of_submission {left : Nat} {p q : Pipeline} {moments : List Moment}
    {result : Except Error Hash} (h : Submission left p moments q result) :
    Tally p q 0 (left * (p.config.maxRetries.toNat + 1)) (left + 1) 0 (exchanges moments) := by
  induction h with
  | stale _ =>
      refine Tally.settle ((tally_nil _).mono ?_ ?_ ?_ ?_) rfl rfl <;> omega
  | accepted hash _ _ =>
      refine Tally.settle ((tally_attempt _ _ _ _).mono ?_ ?_ ?_ ?_) rfl rfl <;> omega
  | ended e _ _ _ =>
      refine Tally.settle ((tally_attempt _ _ _ _).mono ?_ ?_ ?_ ?_) rfl rfl <;> omega
  | @unpriced left p plan quotes cause e _ _ _ hpricing =>
      have hround : Tally p.attempted p.attempted 0 (p.config.maxRetries.toNat + 1) 0 0 quotes :=
        tally_of_pricing hpricing
      have hsend := (tally_attempt p p.call plan (.error e)).cons
        ((tally_sleep _ (p.config.backoff p.attempted.attempts) ()).cons hround)
      rw [exchanges_cons, exchanges_cons, exchanges_map_mk, Nat.succ_mul]
      refine Tally.settle (hsend.mono ?_ ?_ ?_ ?_) rfl rfl <;> omega
  | @repeated left p q plan fresh quotes moments result e _ _ _ hpricing _ ih =>
      have hround : Tally p.attempted p.attempted 0 (p.config.maxRetries.toNat + 1) 0 0 quotes :=
        tally_of_pricing hpricing
      have hfresh : Tally p.attempted { p.attempted with plan := some fresh } 0
          (p.config.maxRetries.toNat + 1) 0 0 quotes := hround.settle rfl rfl
      have hrest : Tally { p.attempted with plan := some fresh } q 0
          (left * (p.config.maxRetries.toNat + 1)) (left + 1) 0 (exchanges moments) := ih
      have hsend := (tally_attempt p p.call plan (.error e)).cons
        ((tally_sleep _ (p.config.backoff p.attempted.attempts) ()).cons (hfresh.append hrest))
      rw [exchanges_cons, exchanges_cons, exchanges_append, exchanges_map_mk, Nat.succ_mul]
      refine hsend.mono ?_ ?_ ?_ ?_ <;> omega

theorem tally_of_wait {hash : Hash} {started left : Nat} {p q : Pipeline}
    {moments : List Moment} {result : Except Error Receipt}
    (h : Wait hash started left p moments q result) :
    Tally p q 0 0 0 (left + 1) (exchanges moments) := by
  induction h with
  | found receipt =>
      refine Tally.settle ((tally_poll _ _ _).mono ?_ ?_ ?_ ?_) rfl rfl <;> omega
  | ended e _ =>
      refine Tally.settle ((tally_poll _ _ _).mono ?_ ?_ ?_ ?_) rfl rfl <;> omega
  | expired now _ _ =>
      refine Tally.settle (((tally_poll _ _ _).cons (tally_clock _ _)).mono ?_ ?_ ?_ ?_) rfl rfl
        <;> omega
  | repeated now _ _ _ ih =>
      refine ((tally_poll _ _ _).cons
        ((tally_clock _ _).cons ((tally_sleep _ _ _).cons ih))).mono ?_ ?_ ?_ ?_ <;> omega

theorem conclusion_keeps {receipt : Receipt} {p q : Pipeline} {result : Except Error Outcome}
    (h : Conclusion receipt p q result) : q.config = p.config ∧ q.attempts = p.attempts := by
  cases h with
  | deployed _ _ _ _ => exact ⟨rfl, rfl⟩
  | unaddressed _ _ _ => exact ⟨rfl, rfl⟩
  | sent _ => exact ⟨rfl, rfl⟩

/-! ## Runs -/

section

variable {p q sent : Pipeline} {gas : UInt64} {quotes : List Exchange} {plan : GasPlan}
  {sends polls : List Moment} {hash : Hash}

theorem tally_until_priced {answer : Except Error GasPlan}
    (h : Pricing (p.estimated gas) quotes answer) :
    Tally p (p.estimated gas) 1 (p.config.maxRetries.toNat + 1) 0 0
      (⟨.ask (.estimateGas p.call), .ok gas⟩ :: quotes) := by
  have hquotes : Tally (p.estimated gas) (p.estimated gas) 0 (p.config.maxRetries.toNat + 1) 0 0
      quotes := tally_of_pricing h
  have hestimate : Tally p (p.estimated gas) 1 0 0 0 [⟨.ask (.estimateGas p.call), .ok gas⟩] :=
    Tally.settle (tally_estimate _ _ _) rfl rfl
  refine (hestimate.cons hquotes).mono ?_ ?_ ?_ ?_ <;> omega

theorem tally_until_sent {answer : Except Error Hash}
    (hpricing : Pricing (p.estimated gas) quotes (.ok plan))
    (hsubmission : Submission (p.config.maxRetries.toNat - p.attempts)
      ((p.estimated gas).planned plan) sends q answer) :
    Tally p q 1 ((p.config.maxRetries.toNat + 1) * (p.config.maxRetries.toNat + 1))
      (p.config.maxRetries.toNat + 1) 0
      (⟨.ask (.estimateGas p.call), .ok gas⟩ :: (quotes ++ exchanges sends)) := by
  have hpriced : Tally p ((p.estimated gas).planned plan) 1 (p.config.maxRetries.toNat + 1) 0 0
      (⟨.ask (.estimateGas p.call), .ok gas⟩ :: quotes) :=
    Tally.settle (tally_until_priced hpricing) rfl rfl
  have hsends : Tally ((p.estimated gas).planned plan) q 0
      ((p.config.maxRetries.toNat - p.attempts) * (p.config.maxRetries.toNat + 1))
      (p.config.maxRetries.toNat - p.attempts + 1) 0 (exchanges sends) :=
    tally_of_submission hsubmission
  have hrounds := Nat.mul_le_mul_right (p.config.maxRetries.toNat + 1)
    (Nat.sub_le p.config.maxRetries.toNat p.attempts)
  have hsquare := Nat.succ_mul p.config.maxRetries.toNat (p.config.maxRetries.toNat + 1)
  rw [Nat.succ_eq_add_one] at hsquare
  refine (hpriced.append hsends).mono ?_ ?_ ?_ ?_ <;> omega

theorem tally_until_included {started : Nat} {included : Pipeline} {answer : Except Error Receipt}
    (hpricing : Pricing (p.estimated gas) quotes (.ok plan))
    (hsubmission : Submission (p.config.maxRetries.toNat - p.attempts)
      ((p.estimated gas).planned plan) sends sent (.ok hash))
    (hwait : Wait hash started sent.config.pollLimit sent polls included answer) :
    Tally p included 1 ((p.config.maxRetries.toNat + 1) * (p.config.maxRetries.toNat + 1))
      (p.config.maxRetries.toNat + 1) (p.config.pollLimit + 1)
      (⟨.ask (.estimateGas p.call), .ok gas⟩ ::
        (quotes ++ (exchanges sends ++ ⟨.clock, started⟩ :: exchanges polls))) := by
  have hsent := tally_until_sent hpricing hsubmission
  have hpolls := (tally_clock sent started).cons (tally_of_wait hwait)
  rw [hsent.config_eq] at hpolls
  have hwhole := hsent.append hpolls
  rw [List.cons_append, List.append_assoc] at hwhole
  refine hwhole.mono ?_ ?_ ?_ ?_ <;> omega

end

theorem tally_of_journey {p q : Pipeline} {moments : List Moment}
    {result : Except Error Outcome} (h : Journey p moments q result) :
    Tally p q 1 ((p.config.maxRetries.toNat + 1) * (p.config.maxRetries.toNat + 1))
      (p.config.maxRetries.toNat + 1) (p.config.pollLimit + 1) (exchanges moments) := by
  have hone := Nat.le_mul_of_pos_left (p.config.maxRetries.toNat + 1)
    (Nat.succ_pos p.config.maxRetries.toNat)
  cases h with
  | unestimated e =>
      refine Tally.settle ((tally_estimate _ _ _).mono ?_ ?_ ?_ ?_) rfl rfl <;> omega
  | unpriced gas hpricing =>
      rw [exchanges_cons, exchanges_map_mk]
      refine Tally.settle ((tally_until_priced hpricing).mono ?_ ?_ ?_ ?_) rfl rfl <;> omega
  | unsent gas hpricing hsubmission =>
      rw [exchanges_cons, exchanges_append, exchanges_map_mk]
      refine (tally_until_sent hpricing hsubmission).mono ?_ ?_ ?_ ?_ <;> omega
  | unconfirmed gas started hpricing hsubmission hwait =>
      rw [exchanges_cons, exchanges_append, exchanges_map_mk, exchanges_append, exchanges_cons]
      exact tally_until_included hpricing hsubmission hwait
  | concluded gas started hpricing hsubmission hwait hconclusion =>
      rcases conclusion_keeps hconclusion with ⟨hconfig, hattempts⟩
      rw [exchanges_cons, exchanges_append, exchanges_map_mk, exchanges_append, exchanges_cons]
      exact (tally_until_included hpricing hsubmission hwait).settle hconfig hattempts

section

variable (call : Call) (config : Config) {σ : Type} (w : World σ) (s : σ)

theorem journey_of_run :
    Journey (new call config) ((Move.run (new call config)).moments w s)
      ((run (new call config)).run w s).1.2 ((run (new call config)).run w s).1.1 :=
  journey_of_unfolds rfl (Course.unfolds_moments w (Move.run (new call config)) s)

theorem tally_of_run :
    Tally (new call config) ((run (new call config)).run w s).1.2 1
      ((config.maxRetries.toNat + 1) * (config.maxRetries.toNat + 1))
      (config.maxRetries.toNat + 1) (config.pollLimit + 1)
      ((run (new call config)).trace w s) := by
  have htally := tally_of_journey (journey_of_run call config w s)
  rw [Course.exchanges_moments] at htally
  exact htally

theorem attempts_of_run :
    ((run (new call config)).run w s).1.2.attempts =
      ((run (new call config)).trace w s).countP isAttempt := by
  have hcounted := (tally_of_run call config w s).counted
  rw [hcounted]
  exact Nat.zero_add _

end

/-! ## Nodes that do not change their mind -/

structure Answers where
  price : Except RpcError (BitVec 128)
  send : Except RpcError Hash
  receipt : Except RpcError (Option Receipt)

def Answers.reply (answers : Answers) (now : Nat) : (action : Action) -> action.Reply
  | .ask (.estimateGas _) => .ok 21000
  | .ask .gasPrice => answers.price
  | .ask (.send _ _) => answers.send
  | .ask (.receipt _) => answers.receipt
  | .ask _ => .error (.timeout "not served")
  | .sleep _ => ()
  | .clock => now
  | .guard _ => ()
  | .release => ()
  | .drain _ => []
  | .cancel _ => ()

def creation : Call :=
  Call.deploy (Address.repeated 0xaa) [0x60, 0x80]

end Pipeline
end KeyRegistry
