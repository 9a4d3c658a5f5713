import KeyRegistry.Proofs.Bytes
import KeyRegistry.Proofs.Rpc.Transaction

/-!
# Plans and the calls they were derived for

The bytes whose digest identifies a call tell its parts: the kind comes first and
differs in its second letter, sender, recipient and value have fixed widths, and
the data is what is left.  So a plan belongs to the calls that agree with its own
in these parts, which are the calls with the same record on the wire.
-/

namespace KeyRegistry

/-- Different ones of these messages have different digests. -/
def Hash.CollisionFree (messages : List Bytes) : Prop :=
  forall x, x ∈ messages -> forall y, y ∈ messages -> Hash.keccak x = Hash.keccak y -> x = y

theorem Hash.collisionFree_pair {x y : Bytes} (h : Hash.keccak x ≠ Hash.keccak y) :
    Hash.CollisionFree [x, y] := by
  intro u hu v hv heq
  simp only [List.mem_cons, List.not_mem_nil, or_false] at hu hv
  rcases hu with rfl | rfl <;> rcases hv with rfl | rfl
  · rfl
  · exact absurd heq h
  · exact absurd heq.symm h
  · rfl

theorem Address.eq_of_bytes {a b : Address} (h : a.bytes = b.bytes) : a = b := by
  cases a
  cases b
  cases h
  rfl

namespace Call

/-- Two calls are the same transaction; how their methods are labelled does not matter. -/
structure Agrees (a b : Call) : Prop where
  sender_eq : a.sender = b.sender
  recipient_eq : a.recipient? = b.recipient?
  value_eq : a.value = b.value
  data_eq : a.data = b.data

/-- The call with another label of its method, if it invokes one. -/
def relabel (call : Call) (name : String) : Call :=
  match call.target with
  | .creation => call
  | .method contract _ => { call with target := .method contract name }

variable {a b : Call}

theorem agrees_relabel (call : Call) (name : String) : (call.relabel name).Agrees call := by
  rcases call with ⟨sender, target, data, value⟩
  cases target <;> exact ⟨rfl, rfl, rfl, rfl⟩

theorem Agrees.preimage_eq (h : a.Agrees b) : a.preimage = b.preimage := by
  unfold preimage isDeploy
  rw [h.sender_eq, h.recipient_eq, h.value_eq, h.data_eq]

/-! ## Digests -/

/-- What follows the kind of a call in the bytes of its digest. -/
def body (call : Call) : Bytes :=
  call.sender.bytes ++ ((call.recipient?.getD Address.zero).bytes ++
    (Bytes.ofNatBE 16 call.value.toNat ++ call.data))

theorem flatten_preimage (call : Call) :
    call.preimage.flatten =
      Text.encode (if call.isDeploy then "create" else "call") ++ call.body := by
  simp [preimage, body]

theorem value_of_bytes {v w : BitVec 128}
    (h : Bytes.ofNatBE 16 v.toNat = Bytes.ofNatBE 16 w.toNat) : v = w := by
  have hread : forall u : BitVec 128, Bytes.toNatBE (Bytes.ofNatBE 16 u.toNat) = u.toNat :=
    fun u => Bytes.toNatBE_ofNatBE_of_lt u.isLt
  apply BitVec.eq_of_toNat_eq
  rw [<- hread v, <- hread w, h]

theorem parts_of_body (h : a.body = b.body) :
    a.sender = b.sender ∧ a.recipient?.getD Address.zero = b.recipient?.getD Address.zero ∧
      a.value = b.value ∧ a.data = b.data := by
  rcases List.append_inj h (a.sender.length_eq.trans b.sender.length_eq.symm) with
    ⟨hsender, hrest⟩
  rcases List.append_inj hrest (Address.length_eq _ |>.trans (Address.length_eq _).symm) with
    ⟨hrecipient, hrest⟩
  have hwidth : forall u : BitVec 128, (Bytes.ofNatBE 16 u.toNat).length = 16 :=
    fun u => Bytes.length_ofNatBE 16 u.toNat
  rcases List.append_inj hrest ((hwidth a.value).trans (hwidth b.value).symm) with
    ⟨hvalue, hdata⟩
  exact ⟨Address.eq_of_bytes hsender, Address.eq_of_bytes hrecipient, value_of_bytes hvalue, hdata⟩

theorem kind_ne {x y : Bytes} : Text.encode "create" ++ x ≠ Text.encode "call" ++ y := by
  have hcreate : Text.encode "create" = [99, 114, 101, 97, 116, 101] := by decide +kernel
  have hcall : Text.encode "call" = [99, 97, 108, 108] := by decide +kernel
  rw [hcreate, hcall]
  simp

/-- The bytes of the digest tell the parts of a call; a creation is not taken for a call of the
zero address. -/
theorem agrees_of_preimage_eq (h : a.preimage.flatten = b.preimage.flatten) : a.Agrees b := by
  rw [flatten_preimage, flatten_preimage] at h
  unfold isDeploy at h
  cases ha : a.recipient? with
  | none =>
      cases hb : b.recipient? with
      | none =>
          rw [ha, hb] at h
          rcases parts_of_body (List.append_cancel_left h) with ⟨hsender, _, hvalue, hdata⟩
          exact ⟨hsender, ha.trans hb.symm, hvalue, hdata⟩
      | some y =>
          rw [ha, hb] at h
          exact absurd h kind_ne
  | some x =>
      cases hb : b.recipient? with
      | none =>
          rw [ha, hb] at h
          exact absurd h.symm kind_ne
      | some y =>
          rw [ha, hb] at h
          rcases parts_of_body (List.append_cancel_left h) with
            ⟨hsender, hrecipient, hvalue, hdata⟩
          rw [ha, hb] at hrecipient
          have hsame : x = y := hrecipient
          exact ⟨hsender, ha.trans ((congrArg some hsame).trans hb.symm), hvalue, hdata⟩

theorem digest_eq_iff
    (hdistinct : Hash.CollisionFree [a.preimage.flatten, b.preimage.flatten]) :
    a.digest = b.digest ↔ a.Agrees b := by
  constructor
  · intro h
    exact agrees_of_preimage_eq (hdistinct _ List.mem_cons_self _ (by simp) h)
  · intro h
    exact congrArg Hash.keccakAll h.preimage_eq

/-! ## Records -/

theorem transaction_eq_iff (plan : Option GasPlan) :
    Rpc.transaction a plan = Rpc.transaction b plan ↔ a.Agrees b := by
  constructor
  · intro h
    have hsender := h ▸ Rpc.shows_sender a plan
    have hrecipient := h ▸ Rpc.shows_recipient a plan
    have hdata := h ▸ Rpc.shows_data a plan
    have hvalue := h ▸ Rpc.shows_value a plan
    exact ⟨Option.some.inj (hsender.unique (Rpc.shows_sender b plan)),
      hrecipient.unique (Rpc.shows_recipient b plan),
      Option.some.inj (hvalue.unique (Rpc.shows_value b plan)),
      Option.some.inj (hdata.unique (Rpc.shows_data b plan))⟩
  · intro h
    unfold Rpc.transaction
    rw [h.sender_eq, h.recipient_eq, h.value_eq, h.data_eq]

end Call

namespace GasPlan

/-- Where the digests of the two calls do not collide, a plan belongs to exactly the calls that
agree with the one it was derived for, and these are the calls with the same record on the wire.
Labels play no role. -/
theorem belongsTo_forCall_iff {a b : Call} (price : BitVec 128) (limit : UInt64)
    (hdistinct : Hash.CollisionFree [a.preimage.flatten, b.preimage.flatten]) :
    ((forCall a price limit).belongsTo b = true ↔ a.Agrees b) ∧
      ((forCall a price limit).belongsTo b = true ↔
        Rpc.transaction a none = Rpc.transaction b none) ∧
      forall name name', (forCall (a.relabel name) price limit).belongsTo (b.relabel name') =
        (forCall a price limit).belongsTo b := by
  have hbelongs : (forCall a price limit).belongsTo b = true ↔ a.Agrees b := by
    rw [belongsTo, decide_eq_true_eq]
    exact Call.digest_eq_iff hdistinct
  refine ⟨hbelongs, hbelongs.trans (Call.transaction_eq_iff none).symm, fun name name' => ?_⟩
  have hdigest : forall (call : Call) (label : String),
      (call.relabel label).digest = call.digest :=
    fun call label => congrArg Hash.keccakAll (call.agrees_relabel label).preimage_eq
  rw [belongsTo, belongsTo, forCall, forCall, hdigest, hdigest]

/-- A creation, and a call of the zero address that has everything else in common with it. -/
def creationAtZero : Call :=
  Call.deploy (Address.repeated 1) [0x60]

def callAtZero : Call :=
  Call.invoke (Address.repeated 1) Address.zero "pay" [0x60]

theorem belongsTo_forCall_iff_zero :
    Hash.CollisionFree [creationAtZero.preimage.flatten, callAtZero.preimage.flatten] ∧
      (forCall creationAtZero 1 21000).belongsTo callAtZero = false ∧
      Rpc.transaction creationAtZero none ≠ Rpc.transaction callAtZero none := by
  have hdigest : creationAtZero.digest ≠ callAtZero.digest := by decide +kernel
  have hdistinct := Hash.collisionFree_pair hdigest
  rcases belongsTo_forCall_iff 1 21000 hdistinct with ⟨hagrees, hrecords, _⟩
  have hforeign : (forCall creationAtZero 1 21000).belongsTo callAtZero ≠ true :=
    fun h => nomatch (hagrees.mp h).recipient_eq
  exact ⟨hdistinct, Bool.eq_false_iff.mpr hforeign, fun h => hforeign (hrecords.mpr h)⟩

end GasPlan
end KeyRegistry
