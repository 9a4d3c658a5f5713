import KeyRegistry.Proofs.Session.Scopes
import KeyRegistry.StorageContract

/-!
# The work of the contract's scopes

The pipeline opens no guard and asks neither to lock nor to unlock.  So the scope
that the contract opens for a transaction is one of those that lock what they
unlock, whatever becomes of the transaction.
-/

namespace KeyRegistry

open Program Session

namespace Pipeline

def Course.Every {α : Type} (allowed : Action -> Prop) : Course α -> Prop
  | .done _ _ => True
  | .perform _ action next => allowed action ∧ forall reply, (next reply).Every allowed

namespace Course

variable {α β : Type} {allowed : Action -> Prop}

theorem Every.bind {course : Course α} {f : Pipeline -> α -> Course β}
    (h : course.Every allowed) (hf : forall p a, (f p a).Every allowed) :
    (course.bind f).Every allowed := by
  induction course with
  | done p a => exact hf p a
  | perform p action next ih => exact ⟨h.1, fun reply => ih reply (h.2 reply)⟩

theorem every_during {program : Program α} (p : Pipeline) (h : program.Every allowed) :
    (during p program).Every allowed := by
  induction program with
  | done a => trivial
  | perform action next ih => exact ⟨h.1, fun reply => ih reply (h.2 reply)⟩

theorem Every.program {course : Course α} (h : course.Every allowed) :
    course.program.Every allowed := by
  induction course with
  | done p a => trivial
  | perform p action next ih => exact ⟨h.1, fun reply => ih reply (h.2 reply)⟩

end Course

/-! ## Moves -/

def Move.Uninvolved {α : Type} (move : Move α) : Prop :=
  forall p, (move p).Every Session.Uninvolved

theorem uninvolved_sleep (d : Duration) : Session.Uninvolved (.sleep d) :=
  ⟨fun _ => rfl, fun _ _ => ⟨rfl, rfl⟩⟩

theorem uninvolved_clock : Session.Uninvolved .clock :=
  ⟨fun _ => rfl, fun _ _ => ⟨rfl, rfl⟩⟩

theorem every_askPrice (config : Config) (left attempt : Nat) :
    (askPrice config left attempt).Every Session.Uninvolved := by
  induction left using Nat.strongRecOn generalizing attempt with
  | ind left ih =>
      unfold askPrice
      refine ⟨⟨fun _ => rfl, fun _ _ => ⟨rfl, rfl⟩⟩, fun answer => ?_⟩
      cases answer with
      | ok price => trivial
      | error e =>
          show (if e.isRetryable then _ else _ : Program _).Every _
          split
          · cases left with
            | zero => trivial
            | succ left =>
                exact ⟨uninvolved_sleep _, fun _ => ih left (Nat.lt_succ_self left) (attempt + 1)⟩
          · trivial

theorem every_freshPlan (p : Pipeline) : (freshPlan p).Every Session.Uninvolved := by
  unfold freshPlan
  split
  · trivial
  · refine (every_askPrice p.config _ 1).bind fun answer => ?_
    cases answer <;> trivial

namespace Move

theorem Uninvolved.andThen {α β : Type} {move : Move α} {next : α -> Move β}
    (h : move.Uninvolved) (hnext : forall a, (next a).Uninvolved) :
    (move.andThen next).Uninvolved := by
  intro p
  refine (h p).bind fun p result => ?_
  cases result with
  | ok a => exact hnext a p
  | error e => trivial

theorem Uninvolved.only {α : Type} {move : Move α} (allowed : List State) (action : Stage)
    (h : move.Uninvolved) : (only allowed action move).Uninvolved := by
  intro p
  unfold Move.only
  split
  · exact h p
  · trivial

theorem uninvolved_estimateGas : estimateGas.Uninvolved := by
  refine Uninvolved.only _ _ fun p => ⟨⟨fun _ => rfl, fun _ _ => ⟨rfl, rfl⟩⟩, fun answer => ?_⟩
  cases answer <;> trivial

theorem uninvolved_price : price.Uninvolved := by
  refine Uninvolved.only _ _ fun p =>
    (Course.every_during p (every_freshPlan p)).bind fun p answer => ?_
  cases answer <;> trivial

theorem uninvolved_sendFrom (left : Nat) : (sendFrom left).Uninvolved := by
  induction left using Nat.strongRecOn with
  | ind left ih =>
      intro p
      unfold sendFrom
      split
      · trivial
      · refine ⟨⟨fun _ => rfl, fun _ _ => ⟨rfl, rfl⟩⟩, fun answer => ?_⟩
        cases answer with
        | ok hash => trivial
        | error e =>
            show (if e.isRetryable then _ else _ : Course _).Every _
            split
            · cases left with
              | zero => trivial
              | succ left =>
                  refine ⟨uninvolved_sleep _, fun _ => ?_⟩
                  refine (Course.every_during _ (every_freshPlan _)).bind fun p answer => ?_
                  cases answer with
                  | ok plan => exact ih left (Nat.lt_succ_self left) { p with plan := some plan }
                  | error e => trivial
            · trivial

theorem uninvolved_awaitReceipt (hash : Hash) (started left : Nat) :
    (awaitReceipt hash started left).Uninvolved := by
  induction left using Nat.strongRecOn with
  | ind left ih =>
      intro p
      unfold awaitReceipt
      extract_lets deadline again
      have hagain : again.Every Session.Uninvolved := by
        refine ⟨uninvolved_clock, fun now => ?_⟩
        dsimp only
        split
        · trivial
        · cases left with
          | zero => trivial
          | succ left => exact ⟨uninvolved_sleep _, fun _ => ih left (Nat.lt_succ_self left) p⟩
      refine ⟨⟨fun _ => rfl, fun _ _ => ⟨rfl, rfl⟩⟩, fun answer => ?_⟩
      cases answer with
      | ok receipt =>
          cases receipt with
          | none => exact hagain
          | some receipt => trivial
      | error e =>
          show (if e.isRetryable then _ else _ : Course _).Every _
          split
          · exact hagain
          · trivial

theorem uninvolved_submit : submit.Uninvolved :=
  Uninvolved.only _ _ fun p => uninvolved_sendFrom _ p

theorem uninvolved_confirm : confirm.Uninvolved := by
  refine Uninvolved.only _ _ fun p => ?_
  split
  · trivial
  · exact ⟨uninvolved_clock, fun started => uninvolved_awaitReceipt _ _ _ p⟩

theorem uninvolved_conclude (receipt : Receipt) : (conclude receipt).Uninvolved := by
  intro p
  unfold conclude
  dsimp only
  split
  · split <;> trivial
  · trivial

theorem uninvolved_run : run.Uninvolved :=
  uninvolved_estimateGas.andThen fun _ => uninvolved_price.andThen fun _ =>
    uninvolved_submit.andThen fun _ => uninvolved_confirm.andThen uninvolved_conclude

end Move
end Pipeline

namespace StorageContract

def errand (config : Pipeline.Config) (call : Call) :
    Program (Except Pipeline.Error Pipeline.Outcome) :=
  (Pipeline.run (Pipeline.new call config)).bind fun answer => .done answer.1

theorem every_errand (config : Pipeline.Config) (call : Call) :
    (errand config call).Every Uninvolved :=
  (Pipeline.Move.uninvolved_run _).program.bind fun _ => trivial

/-- The scope of a transaction of the contract. -/
def scope (session : Session) (passphrase : String) (config : Pipeline.Config) (call : Call) :
    Scope where
  session := session
  address := call.sender
  passphrase := passphrase
  Result := Pipeline.Outcome
  work := errand config call
  balanced := balanced_of_unguarded ((every_errand config call).mono fun _ h => h.1)

theorem evenhanded_transact (session : Session) (passphrase : String) (config : Pipeline.Config)
    (call : Call) (address : Address) :
    Evenhanded address (transact session passphrase config call) := by
  have hwork : Evenhanded address (scope session passphrase config call).work :=
    evenhanded_of_uninvolved (every_errand config call) address
  exact Scope.evenhanded_program hwork

end StorageContract
end KeyRegistry
