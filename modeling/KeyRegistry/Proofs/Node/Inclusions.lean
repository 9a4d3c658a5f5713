import KeyRegistry.Proofs.GasPlan
import KeyRegistry.Proofs.Node.Receipts
import KeyRegistry.Proofs.Node.Turns
import Mathlib.Data.List.Nodup

/-!
# What becomes of accepted transactions

The node numbers the transactions that it accepts, and a number goes into the hash, so
that hashes differ unless digests collide.  Under its hash a transaction has a receipt
and a countdown of its own, both made at the terms that were in force when it was sent.
Only questions for this hash count it down; whatever else is done with the node changes
neither.
-/

namespace KeyRegistry
namespace Node

/-! ## Records -/

/-- What the script has set about the receipts of transactions to come. -/
structure Terms where
  delay : Nat
  status : Option UInt64
  contractAddress : Option Address

namespace Terms

def start : Terms where
  delay := 0
  status := some 1
  contractAddress := some (Address.repeated 0xcc)

def heed (terms : Terms) : Turn -> Terms
  | ⟨.set (.receiptDelay polls), _⟩ => { terms with delay := polls }
  | ⟨.set (.receiptStatus status), _⟩ => { terms with status }
  | ⟨.set (.contractAddress address), _⟩ => { terms with contractAddress := address }
  | _ => terms

def after (record : List Turn) : Terms :=
  record.foldl heed start

end Terms

/-- The call that the node accepts in a turn, and its hash. -/
def acceptance? : Turn -> Option (Call × Hash)
  | ⟨.ask (.send call _), .ok hash⟩ => some (call, hash)
  | _ => none

/-- The transactions that the node has accepted, in order. -/
def accepted (record : List Turn) : List (Call × Hash) :=
  record.filterMap acceptance?

/-- The message of which a hash is the digest: the transaction's number, and the digest of its
call. -/
def preimage (number : Nat) (call : Call) : Bytes :=
  State.word64 (UInt64.ofNat number) ++ call.digest.bytes

def preimages (record : List Turn) : List Bytes :=
  (accepted record).mapIdx fun place entry => preimage (place + 1) entry.1

/-- The answer to a question for the receipt of `hash`, in a turn that is one. -/
def receiptAnswer? (hash : Hash) : Turn -> Option (Except RpcError (Option Receipt))
  | ⟨.ask (.receipt asked), answer⟩ => if asked = hash then some answer else none
  | _ => none

/-- The answers to the questions for the receipt of `hash`, in order. -/
def receiptAnswers (hash : Hash) (record : List Turn) :
    List (Except RpcError (Option Receipt)) :=
  record.filterMap (receiptAnswer? hash)

/-- What a receipt says of a transaction that was accepted at `terms`. -/
structure Attests (terms : Terms) (call : Call) (hash : Hash) (receipt : Receipt) : Prop where
  transactionHash_eq : receipt.transactionHash = hash
  sender_eq : receipt.sender = call.sender
  recipient_eq : receipt.recipient = call.recipient?
  status_eq : receipt.status = terms.status
  contractAddress_eq :
    receipt.contractAddress = if call.isDeploy then terms.contractAddress else none

/-- The first `delay` answers say that there is no receipt yet, and all others show `receipt`. -/
def CountsDown (receipt : Receipt) (delay : Nat)
    (answers : List (Except RpcError (Option Receipt))) : Prop :=
  forall n answer, answers[n]? = some answer ->
    answer = Except.ok (if n < delay then none else some receipt)

namespace State

/-! ## What a turn does -/

def terms (s : State) : Terms :=
  ⟨s.receiptDelay, s.receiptStatus, s.contractAddress⟩

/-- What a turn can do to the terms and to the transactions that a node holds. -/
inductive Entry (s : State) : Turn -> State -> Prop where
  | acceptance (call : Call) (plan : GasPlan) (hash : Hash) (receipt : Receipt) (t : State) :
      hash = transactionHash (s.sent + 1) call ->
      Attests s.terms call hash receipt ->
      t.terms = s.terms ->
      t.sent = s.sent + 1 ->
      t.included =
        (hash, ⟨receipt, s.receiptDelay⟩) :: s.included.filter (fun e => e.1 ≠ hash) ->
      Entry s ⟨.ask (.send call plan), .ok hash⟩ t
  | question (hash : Hash) (t : State) :
      t.terms = s.terms ->
      t.sent = s.sent ->
      t.included = (showReceipt hash s.included).2 ->
      Entry s ⟨.ask (.receipt hash), .ok (showReceipt hash s.included).1⟩ t
  | unrelated (turn : Turn) (t : State) :
      t.terms = s.terms.heed turn ->
      t.sent = s.sent ->
      t.included = s.included ->
      acceptance? turn = none ->
      (forall hash, receiptAnswer? hash turn = none) ->
      Entry s turn t

theorem SameHoldings.entry {s t : State} {turn : Turn} (h : SameHoldings s t)
    (hterms : s.terms.heed turn = s.terms) (hacceptance : acceptance? turn = none)
    (hquestion : forall hash, receiptAnswer? hash turn = none) : Entry s turn t := by
  have hsame : t.terms = s.terms := by
    rw [terms, terms, h.receiptDelay_eq, h.receiptStatus_eq, h.contractAddress_eq]
  exact Entry.unrelated turn t (hsame.trans hterms.symm) h.sent_eq h.included_eq hacceptance
    hquestion

theorem entry_answer (s : State) (request : Request) :
    Entry s ⟨.ask request, (s.answer request).1⟩ (s.answer request).2 := by
  cases request with
  | receipt hash => exact Entry.question hash _ rfl rfl rfl
  | send call plan =>
      cases h : s.sendErrors with
      | nil =>
          simp only [answer, respond, accept, h]
          exact Entry.acceptance call plan _ _ _ rfl ⟨rfl, rfl, rfl, rfl, rfl⟩ rfl rfl rfl
      | cons e es =>
          rw [answer_send_rejected h]
          exact Entry.unrelated _ _ rfl rfl rfl rfl fun _ => rfl
  | subscribe feed =>
      cases h : s.subscribeErrors with
      | nil =>
          rw [answer_subscribe_accepted h]
          exact Entry.unrelated _ _ rfl rfl rfl rfl fun _ => rfl
      | cons e es =>
          rw [answer_subscribe_rejected h]
          exact Entry.unrelated _ _ rfl rfl rfl rfl fun _ => rfl
  | _ => exact (sameHoldings_answer s (by rfl)).entry rfl rfl fun _ => rfl

theorem entry_perform (s : State) (use : Use) :
    Entry s ⟨use, (s.perform use).1⟩ (s.perform use).2 := by
  cases use with
  | ask request => exact entry_answer s request
  | set setting => cases setting <;> exact Entry.unrelated _ _ rfl rfl rfl rfl fun _ => rfl
  | emit emission => cases emission <;> exact Entry.unrelated _ _ rfl rfl rfl rfl fun _ => rfl
  | take subscription =>
      simp only [perform, takeEvent]
      split <;> exact Entry.unrelated _ _ rfl rfl rfl rfl fun _ => rfl
  | _ => exact Entry.unrelated _ _ rfl rfl rfl rfl fun _ => rfl

theorem terms_of_entry {s t : State} {turn : Turn} (h : Entry s turn t) :
    t.terms = s.terms.heed turn := by
  cases h with
  | acceptance call plan hash receipt _ _ _ hterms => exact hterms
  | question hash _ hterms => exact hterms
  | unrelated _ _ hterms => exact hterms

/-! ## Numbers and hashes -/

theorem transactionHash_eq (n : UInt64) (call : Call) :
    transactionHash n call = Hash.keccak (word64 n ++ call.digest.bytes) := by
  rw [transactionHash, Hash.keccakAll, List.flatten_cons, List.flatten_cons, List.flatten_nil,
    List.append_nil]

/-- What the node knows after a record: the terms, and how many transactions it has accepted,
each under the digest of its preimage. -/
structure Tracks (past : List Turn) (s : State) : Prop where
  terms_eq : s.terms = Terms.after past
  sent_eq : s.sent = UInt64.ofNat (accepted past).length
  hashes_eq : (accepted past).map Prod.snd = (preimages past).map Hash.keccak

theorem tracks_fresh : Tracks [] fresh :=
  ⟨rfl, rfl, rfl⟩

theorem accepted_append (past more : List Turn) :
    accepted (past ++ more) = accepted past ++ accepted more :=
  List.filterMap_append

theorem accepted_concat_of_none (past : List Turn) {turn : Turn} (h : acceptance? turn = none) :
    accepted (past ++ [turn]) = accepted past := by
  rw [accepted_append, accepted, accepted, List.filterMap_cons, h]
  exact List.append_nil _

theorem accepted_concat (past : List Turn) (call : Call) (plan : GasPlan) (hash : Hash) :
    accepted (past ++ [⟨.ask (.send call plan), .ok hash⟩]) = accepted past ++ [(call, hash)] :=
  accepted_append past _

theorem tracks_of_entry {past : List Turn} {s t : State} {turn : Turn} (h : Tracks past s)
    (hentry : Entry s turn t) : Tracks (past ++ [turn]) t := by
  have hterms : t.terms = Terms.after (past ++ [turn]) := by
    rw [Terms.after, List.foldl_append, terms_of_entry hentry, h.terms_eq]
    rfl
  have hnone : acceptance? turn = none -> t.sent = s.sent -> Tracks (past ++ [turn]) t := by
    intro hacceptance hsent
    have hsame := accepted_concat_of_none past hacceptance
    refine ⟨hterms, ?_, ?_⟩
    · rw [hsent, hsame, h.sent_eq]
    · rw [preimages, hsame, h.hashes_eq, preimages]
  cases hentry with
  | acceptance call plan hash receipt _ hhash _ _ hsent =>
      refine ⟨hterms, ?_, ?_⟩
      · rw [accepted_concat, List.length_append, List.length_singleton, UInt64.ofNat_add, hsent,
          h.sent_eq]
        rfl
      · have hnumber : s.sent + 1 = UInt64.ofNat ((accepted past).length + 1) := by
          rw [UInt64.ofNat_add, h.sent_eq]
          rfl
        rw [preimages, accepted_concat, List.mapIdx_concat, List.map_append, List.map_append,
          h.hashes_eq, preimages, hhash, transactionHash_eq, hnumber]
        rfl
  | question hash _ _ hsent => exact hnone rfl hsent
  | unrelated _ _ _ hsent _ hacceptance => exact hnone hacceptance hsent

theorem tracks_record (uses : List Use) : Tracks (fresh.record uses) (fresh.after uses) :=
  invariant_of_perform tracks_fresh (fun _ s use h => tracks_of_entry h (entry_perform s use)) uses

theorem word64_injOn {m n : Nat} (hm : m < 2 ^ 64) (hn : n < 2 ^ 64)
    (h : word64 (UInt64.ofNat m) = word64 (UInt64.ofNat n)) : m = n := by
  have hread : forall k, k < 2 ^ 64 -> Bytes.toNatBE (word64 (UInt64.ofNat k)) = k := by
    intro k hk
    rw [word64, UInt64.toNat_ofNat_of_lt' hk, Bytes.toNatBE_ofNatBE_of_lt hk]
  rw [← hread m hm, ← hread n hn, h]

theorem number_of_preimage {m n : Nat} {a b : Call} (hm : m < 2 ^ 64) (hn : n < 2 ^ 64)
    (h : preimage m a = preimage n b) : m = n := by
  have hlengths : (word64 (UInt64.ofNat m)).length = (word64 (UInt64.ofNat n)).length := by
    rw [word64, word64, Bytes.length_ofNatBE, Bytes.length_ofNatBE]
  exact word64_injOn hm hn (List.append_inj h hlengths).1

theorem nodup_preimages {record : List Turn}
    (hbound : (accepted record).length < 2 ^ 64) : (preimages record).Nodup := by
  rw [List.nodup_iff_pairwise_ne, List.pairwise_iff_getElem]
  intro i j hi hj hij heq
  rw [preimages, List.length_mapIdx] at hi hj
  simp only [preimages, List.getElem_mapIdx] at heq
  have hnumber := number_of_preimage (by omega) (by omega) heq
  omega

theorem nodup_hashes {past : List Turn} {s : State} (h : Tracks past s)
    (hbound : (accepted past).length < 2 ^ 64)
    (hdistinct : Hash.CollisionFree (preimages past)) :
    ((accepted past).map Prod.snd).Nodup := by
  rw [h.hashes_eq]
  exact (nodup_preimages hbound).map_on hdistinct

/-! ## Countdowns -/

theorem lookup_filter_ne {hash other : Hash} {entries : List (Hash × Included)}
    (hne : other ≠ hash) :
    (entries.filter fun e => e.1 ≠ hash).lookup other = entries.lookup other := by
  induction entries with
  | nil => rfl
  | cons entry entries ih =>
      rcases entry with ⟨listed, included⟩
      by_cases hlisted : listed = hash
      · have hskip : (other == listed) = false :=
          beq_eq_false_iff_ne.mpr (hlisted.symm ▸ hne)
        rw [List.filter_cons_of_neg (by simp [hlisted]), List.lookup_cons, hskip]
        exact ih
      · rw [List.filter_cons_of_pos (by simp [hlisted]), List.lookup_cons, List.lookup_cons, ih]

theorem lookup_showReceipt_ne {hash other : Hash} {entries : List (Hash × Included)}
    (hne : other ≠ hash) :
    (showReceipt hash entries).2.lookup other = entries.lookup other := by
  induction entries with
  | nil => rfl
  | cons entry entries ih =>
      rcases entry with ⟨listed, included⟩
      by_cases hlisted : listed = hash
      · have hskip : (other == listed) = false :=
          beq_eq_false_iff_ne.mpr (hlisted.symm ▸ hne)
        cases hdelay : included.delay with
        | zero => simp only [showReceipt, hlisted, if_true, hdelay]
        | succ delay =>
            subst hlisted
            simp only [showReceipt, if_true, hdelay, List.lookup_cons, hskip]
      · simp only [showReceipt, hlisted, if_false, List.lookup_cons, ih]

variable {s t : State} {turn : Turn} {hash : Hash} {receipt : Receipt} {delay : Nat}

theorem inclusion?_of_entry (hentry : Entry s turn t)
    (h : s.inclusion? hash = some ⟨receipt, delay⟩)
    (hother : forall call, acceptance? turn ≠ some (call, hash)) :
    receiptAnswer? hash turn = none ∧ t.inclusion? hash = some ⟨receipt, delay⟩ ∨
      receiptAnswer? hash turn = some (.ok (if delay = 0 then some receipt else none)) ∧
        t.inclusion? hash = some ⟨receipt, delay - 1⟩ := by
  cases hentry with
  | acceptance call plan accepted _ _ _ _ _ _ hincluded =>
      have hne : hash ≠ accepted := by
        rintro rfl
        exact hother call rfl
      have hskip : (hash == accepted) = false := beq_eq_false_iff_ne.mpr hne
      refine Or.inl ⟨rfl, ?_⟩
      rw [inclusion?, hincluded, List.lookup_cons, hskip]
      exact (lookup_filter_ne hne).trans h
  | question asked _ _ _ hincluded =>
      by_cases hasked : asked = hash
      · subst hasked
        rcases showReceipt_of_lookup h with ⟨hshown, hrest⟩
        refine Or.inr ⟨?_, ?_⟩
        · rw [receiptAnswer?, if_pos rfl, hshown]
        · rw [inclusion?, hincluded]
          exact hrest
      · refine Or.inl ⟨if_neg hasked, ?_⟩
        rw [inclusion?, hincluded]
        exact (lookup_showReceipt_ne (Ne.symm hasked)).trans h
  | unrelated _ _ _ _ hincluded _ hanswer =>
      refine Or.inl ⟨hanswer hash, ?_⟩
      rw [inclusion?, hincluded]
      exact h

theorem countsDown_cons {answers : List (Except RpcError (Option Receipt))}
    (h : CountsDown receipt (delay - 1) answers) :
    CountsDown receipt delay (.ok (if delay = 0 then some receipt else none) :: answers) := by
  intro n answer hanswer
  cases n with
  | zero =>
      rw [List.getElem?_cons_zero] at hanswer
      cases hanswer
      cases delay <;> rfl
  | succ n =>
      rw [List.getElem?_cons_succ] at hanswer
      have hcount : n < delay - 1 ↔ n + 1 < delay := by omega
      rw [h n answer hanswer]
      simp only [hcount]

/-- While the node accepts nothing under the same hash, the questions for it are answered by
the countdown, in whatever company they come. -/
theorem countsDown_of_inclusion {uses : List Use}
    (h : s.inclusion? hash = some ⟨receipt, delay⟩)
    (hnew : hash ∉ (accepted (s.record uses)).map Prod.snd) :
    CountsDown receipt delay (receiptAnswers hash (s.record uses)) := by
  induction uses generalizing s delay with
  | nil =>
      intro n answer hanswer
      cases hanswer
  | cons use uses ih =>
      have hentry := entry_perform s use
      rw [record] at hnew ⊢
      generalize (⟨use, (s.perform use).1⟩ : Turn) = turn at hentry hnew ⊢
      have hother : forall call, acceptance? turn ≠ some (call, hash) := by
        intro call hcall
        apply hnew
        rw [accepted, List.filterMap_cons, hcall]
        exact List.mem_cons_self
      have hrest : hash ∉ (accepted ((s.perform use).2.record uses)).map Prod.snd := by
        intro hmem
        apply hnew
        rw [← List.singleton_append, accepted_append, List.map_append]
        exact List.mem_append_right _ hmem
      rcases inclusion?_of_entry hentry h hother with ⟨hnone, hnext⟩ | ⟨hsome, hnext⟩
      · rw [receiptAnswers, List.filterMap_cons, hnone]
        exact ih hnext hrest
      · rw [receiptAnswers, List.filterMap_cons, hsome]
        exact countsDown_cons (ih hnext hrest)

theorem inclusion?_of_acceptance {call : Call} {plan : GasPlan}
    (hentry : Entry s ⟨.ask (.send call plan), .ok hash⟩ t) :
    ∃ receipt, Attests s.terms call hash receipt ∧
      t.inclusion? hash = some ⟨receipt, s.terms.delay⟩ := by
  cases hentry with
  | acceptance _ _ _ receipt _ _ hattests _ _ hincluded =>
      refine ⟨receipt, hattests, ?_⟩
      rw [inclusion?, hincluded]
      exact List.lookup_cons_self
  | unrelated _ _ _ _ _ hacceptance => cases hacceptance

/-! ## Runs -/

/-- Accepted transactions have different hashes, and each has one receipt, made at the terms in
force when it was sent.  As many questions for it as these terms say are answered by nothing,
and every later one by this receipt, whatever is done with the node meanwhile.  A rejected
transaction uses up one error and changes nothing else. -/
theorem receipts_of_record (uses : List Use)
    (hbound : (accepted (fresh.record uses)).length < 2 ^ 64)
    (hdistinct : Hash.CollisionFree (preimages (fresh.record uses))) :
    ((accepted (fresh.record uses)).map Prod.snd).Nodup ∧
      (forall past call plan hash future,
        fresh.record uses = past ++ ⟨.ask (.send call plan), .ok hash⟩ :: future ->
          ∃ receipt, Attests (Terms.after past) call hash receipt ∧
            CountsDown receipt (Terms.after past).delay (receiptAnswers hash future)) ∧
      forall (s : State) call plan e, (s.answer (.send call plan)).1 = .error e ->
        ∃ es, s.sendErrors = e :: es ∧ (s.answer (.send call plan)).2 =
          { s with calls := .send call plan :: s.calls, sendErrors := es } := by
  have hnodup := nodup_hashes (tracks_record uses) hbound hdistinct
  refine ⟨hnodup, ?_, ?_⟩
  · intro past call plan hash future hsplit
    have hnew : hash ∉ (accepted future).map Prod.snd := by
      rw [hsplit, accepted_append, List.map_append] at hnodup
      exact (List.nodup_cons.mp hnodup.of_append_right).1
    rcases record_eq_append_cons hsplit with ⟨before, use, rest, rfl, hturn, rfl⟩
    have hentry := entry_perform (fresh.after before) use
    rw [← hturn] at hentry
    rcases inclusion?_of_acceptance hentry with ⟨receipt, hattests, hincluded⟩
    rw [(tracks_record before).terms_eq] at hattests hincluded
    exact ⟨receipt, hattests, countsDown_of_inclusion hincluded hnew⟩
  · intro s call plan e hrejected
    cases herrors : s.sendErrors with
    | nil =>
        simp only [answer, respond, accept, herrors] at hrejected
        cases hrejected
    | cons e' es =>
        rw [answer_send_rejected herrors] at hrejected ⊢
        cases hrejected
        exact ⟨es, rfl, rfl⟩

def creation : Call :=
  Call.deploy defaultAccount [0x60]

/-- The contract is created twice, at different delays; then the receipts are asked for in
turns. -/
def creations : List Use :=
  [.set (.receiptDelay 2),
    .ask (.send creation (GasPlan.forCall creation 1 60000)),
    .set (.receiptDelay 0),
    .ask (.send creation (GasPlan.forCall creation 1 60000)),
    .ask (.receipt (transactionHash 1 creation)),
    .ask (.receipt (transactionHash 2 creation)),
    .ask (.receipt (transactionHash 1 creation)),
    .ask (.receipt (transactionHash 1 creation))]

theorem receipts_of_creations :
    (accepted (fresh.record creations)).length < 2 ^ 64 ∧
      Hash.CollisionFree (preimages (fresh.record creations)) ∧
      ((accepted (fresh.record creations)).map Prod.snd).Nodup ∧
      ∃ receipt,
        Attests ⟨2, some 1, some defaultContract⟩ creation (transactionHash 1 creation) receipt ∧
          CountsDown receipt 2
            (receiptAnswers (transactionHash 1 creation) ((fresh.record creations).drop 2)) := by
  have hbound : (accepted (fresh.record creations)).length < 2 ^ 64 := by
    have htwo : (accepted (fresh.record creations)).length = 2 := rfl
    rw [htwo]
    decide
  have hdigests : Hash.keccak (preimage 1 creation) ≠ Hash.keccak (preimage 2 creation) := by
    decide +kernel
  have hdistinct : Hash.CollisionFree (preimages (fresh.record creations)) :=
    Hash.collisionFree_pair hdigests
  have hfirst : fresh.record creations =
      [⟨.set (.receiptDelay 2), ()⟩] ++
        ⟨.ask (.send creation (GasPlan.forCall creation 1 60000)),
          .ok (transactionHash 1 creation)⟩ :: (fresh.record creations).drop 2 :=
    congrArg (fun answer => [⟨.set (.receiptDelay 2), ()⟩] ++
        ⟨.ask (.send creation (GasPlan.forCall creation 1 60000)), answer⟩ ::
          (fresh.record creations).drop 2)
      (answer_send_accepted (s := fresh.set (.receiptDelay 2)) rfl)
  rcases receipts_of_record creations hbound hdistinct with ⟨hnodup, hreceipts, _⟩
  exact ⟨hbound, hdistinct, hnodup, hreceipts _ _ _ _ _ hfirst⟩

end State
end Node
end KeyRegistry
