import KeyRegistry.Proofs.StorageContract.Memory

/-!
# Storing and reading keys

Callers store keys one after another while the node follows a script.  Each call
changes the memory by its own entry, and only where the node accepts one of its
transactions.  After all of them a reader gets the key that was accepted last
under its identifier.
-/

namespace KeyRegistry
namespace StorageContract

open Program
open Node
open StorageEmulation

/-- The interface has the three functions of the contract, each without overloads. -/
structure DeclaresStorage (interface : Abi.Interface) : Prop where
  storeKey : ∃ f, interface.Declares "storeKey" ["string", "string"] f
  retrieveKey : ∃ f, interface.Declares "retrieveKey" ["string"] f ∧
    f.outputs.map Abi.Param.type = ["string"]
  hasWritePrivilege : ∃ f, interface.Declares "hasWritePrivilege" ["address"] f ∧
    f.outputs.map Abi.Param.type = ["bool"]

variable {contract : StorageContract} {writer : Address}

/-! ## One call -/

theorem encodeCall_storeKey (h : DeclaresStorage contract.artifact.interface) (id key : String) :
    ∃ selector data : Bytes, selector.length = 4 ∧
      Abi.encode [.text, .text] [.text id, .text key] = .ok data ∧
      contract.artifact.interface.encodeCall "storeKey" [.text id, .text key] =
        .ok (selector ++ data) := by
  rcases h.storeKey with ⟨f, hf⟩
  have hencode := encode_texts id key
  exact ⟨f.selector, _, Abi.length_selector f, hencode, hf.encodeCall_eq rfl rfl hencode⟩

structure Storing where
  session : Session
  sender : Address
  passphrase : String
  id : String
  key : String

def Storing.program (storing : Storing) (contract : StorageContract) :
    Program (Except Pipeline.Error Pipeline.Outcome) :=
  contract.storeKey storing.session storing.sender storing.passphrase storing.id storing.key

def Storing.Holdable (storing : Storing) : Prop :=
  (Text.encode storing.id).Holdable ∧ (Text.encode storing.key).Holdable

instance (storing : Storing) : Decidable storing.Holdable :=
  inferInstanceAs (Decidable (_ ∧ _))

/-- The node accepts a transaction of the call. -/
def Storing.isAccepted {σ : Type} (storing : Storing) (w : World σ) (contract : StorageContract)
    (s : σ) : Bool :=
  (inquiries ((storing.program contract).trace w s)).any accepts

/-- A call stores its key if one of its transactions is accepted, and changes nothing else. -/
theorem memory_storing (h : DeclaresStorage contract.artifact.interface) (script : Script)
    {s : State × Nat} (hhosts : Hosts writer s.1) {storing : Storing}
    (hheld : storing.Holdable) :
    ((storing.program contract).run script.world s).2.1.memory =
      if storing.isAccepted script.world contract s then
        StorageEmulation.insert storing.id storing.key s.1.memory
      else
        s.1.memory := by
  rcases encodeCall_storeKey h storing.id storing.key with
    ⟨selector, data, hselector, hencode, hcall⟩
  have hsubmits := submits_of_storeKey (yields_trace script.world (storing.program contract) s)
  rw [hcall] at hsubmits
  have hwrites := writes_of_bracketed hsubmits
  rw [(hosts_run script (storing.program contract) hhosts).2, hwrites,
    store_invoke hselector hencode hheld.1 hheld.2]
  rfl

theorem retrieveKey_eq (h : DeclaresStorage contract.artifact.interface) (script : Script)
    {s : State × Nat} (hhosts : Hosts writer s.1) (caller : Address) {id : String}
    (hid : (Text.encode id).Holdable) (hkey : (Text.encode (lookup id s.1.memory)).Holdable) :
    ((contract.retrieveKey caller id).run script.world s).1 = .ok (lookup id s.1.memory) := by
  have hreads := reads_of_value Abi.Token.toText
    (yields_trace script.world (contract.retrieveKey caller id) s)
  rcases h.retrieveKey with ⟨f, hf, houtputs⟩
  rw [hf.encodeCall_eq rfl rfl (encode_text id)] at hreads
  rcases hreads with ⟨answer, hasked, hresult⟩
  have hanswer := execute_of_inquiries script (contract.retrieveKey caller id) hhosts hasked
  rw [read_retrieveKey (Abi.length_selector f) (encode_text id) hid] at hanswer
  have hdecoded := (hf.decodeOutput_eq houtputs rfl _).trans (decode_encoded_text hkey)
  rw [hresult, hanswer]
  exact takenValue_of_decoded hdecoded rfl

theorem hasWritePrivilege_eq (h : DeclaresStorage contract.artifact.interface) (script : Script)
    {s : State × Nat} (hhosts : Hosts writer s.1) (caller account : Address) :
    ((contract.hasWritePrivilege caller account).run script.world s).1 =
      .ok (decide (account = writer)) := by
  have hreads := reads_of_value Abi.Token.toBool
    (yields_trace script.world (contract.hasWritePrivilege caller account) s)
  rcases h.hasWritePrivilege with ⟨f, hf, houtputs⟩
  have hencode : Abi.encode [.address] [.address account] =
      .ok (List.replicate 12 0 ++ account.bytes ++ [] ++ []) := rfl
  rw [hf.encodeCall_eq rfl rfl hencode] at hreads
  rcases hreads with ⟨answer, hasked, hresult⟩
  have hanswer :=
    execute_of_inquiries script (contract.hasWritePrivilege caller account) hhosts hasked
  rw [read_hasWritePrivilege (Abi.length_selector f) hencode] at hanswer
  have hdecoded := (hf.decodeOutput_eq houtputs rfl _).trans
    (decode_encoded_bool (decide (account = writer)))
  rw [hresult, hanswer]
  exact takenValue_of_decoded hdecoded rfl

/-! ## Many calls -/

/-- The state of the world after the calls, one after another. -/
def afterAll {σ : Type} (w : World σ) (contract : StorageContract) : List Storing -> σ -> σ
  | [], s => s
  | storing :: storings, s =>
      afterAll w contract storings ((storing.program contract).run w s).2

/-- Identifiers and keys of the calls of which a transaction is accepted, in order. -/
def acceptedKeys {σ : Type} (w : World σ) (contract : StorageContract) :
    List Storing -> σ -> List (String × String)
  | [], _ => []
  | storing :: storings, s =>
      let rest := acceptedKeys w contract storings ((storing.program contract).run w s).2
      if storing.isAccepted w contract s then (storing.id, storing.key) :: rest else rest

theorem memory_afterAll (h : DeclaresStorage contract.artifact.interface) (script : Script)
    {storings : List Storing} (hheld : forall storing, storing ∈ storings -> storing.Holdable)
    {s : State × Nat} (hhosts : Hosts writer s.1) :
    Hosts writer (afterAll script.world contract storings s).1 ∧
      (afterAll script.world contract storings s).1.memory =
        insertAll (acceptedKeys script.world contract storings s) s.1.memory := by
  induction storings generalizing s with
  | nil => exact ⟨hhosts, rfl⟩
  | cons storing storings ih =>
      rw [List.forall_mem_cons] at hheld
      have hnext := (hosts_run script (storing.program contract) hhosts).1
      have hmemory := memory_storing h script hhosts hheld.1
      rcases ih hheld.2 hnext with ⟨hafter, hrest⟩
      refine ⟨hafter, hrest.trans ?_⟩
      rw [acceptedKeys, hmemory]
      cases storing.isAccepted script.world contract s with
      | true => rfl
      | false => rfl

theorem mem_of_mem_acceptedKeys {σ : Type} {w : World σ} {storings : List Storing} {s : σ}
    {entry : String × String} (h : entry ∈ acceptedKeys w contract storings s) :
    ∃ storing, storing ∈ storings ∧ entry = (storing.id, storing.key) := by
  induction storings generalizing s with
  | nil => cases h
  | cons storing storings ih =>
      have hcases : entry = (storing.id, storing.key) ∨
          entry ∈ acceptedKeys w contract storings ((storing.program contract).run w s).2 := by
        rw [acceptedKeys] at h
        cases haccepted : storing.isAccepted w contract s with
        | true =>
            rw [haccepted, if_pos rfl] at h
            exact List.mem_cons.mp h
        | false =>
            rw [haccepted, if_neg Bool.false_ne_true] at h
            exact Or.inr h
      rcases hcases with hnew | hlater
      · exact ⟨storing, List.mem_cons_self, hnew⟩
      · rcases ih hlater with ⟨found, hmem, heq⟩
        exact ⟨found, List.mem_cons_of_mem storing hmem, heq⟩

/-- On a node with the contract, whatever its script answers: every call of `storeKey` changes the
memory by its own entry if one of its transactions is accepted, and not at all otherwise; and
afterwards every reader gets the key that was accepted last, and learns who may write. -/
theorem stored_keys_are_read (contract : StorageContract)
    (h : DeclaresStorage contract.artifact.interface) (script : Script) (writer : Address)
    (node : State) (storings : List Storing)
    (hheld : forall storing, storing ∈ storings -> storing.Holdable) :
    let w := script.world
    let start := (install writer { node with memory := [] }, 0)
    (forall earlier storing later, storings = earlier ++ storing :: later ->
      let s := afterAll w contract earlier start
      ((storing.program contract).run w s).2.1.memory =
        if storing.isAccepted w contract s then
          StorageEmulation.insert storing.id storing.key s.1.memory
        else
          s.1.memory) ∧
    let s := afterAll w contract storings start
    forall caller,
      (forall id, (Text.encode id).Holdable ->
        ((contract.retrieveKey caller id).run w s).1 =
          .ok (lastKey id (acceptedKeys w contract storings start))) ∧
      forall account,
        ((contract.hasWritePrivilege caller account).run w s).1 =
          .ok (decide (account = writer)) := by
  intro w start
  have hstart : Hosts writer start.1 := hosts_install writer { node with memory := [] }
  constructor
  · rintro earlier storing later rfl
    rw [List.forall_mem_append, List.forall_mem_cons] at hheld
    have hhosts := (memory_afterAll h script hheld.1 hstart).1
    exact memory_storing h script hhosts hheld.2.1
  · intro s caller
    rcases memory_afterAll h script hheld hstart with ⟨hhosts, hmemory⟩
    have hlookup : forall id, lookup id s.1.memory =
        lastKey id (acceptedKeys w contract storings start) := by
      intro id
      rw [hmemory]
      exact lookup_insertAll id _
    constructor
    · intro id hid
      have hkey : (Text.encode (lookup id s.1.memory)).Holdable := by
        rw [hlookup]
        refine holdable_lastKey id ?_
        intro entry hentry
        rcases mem_of_mem_acceptedKeys hentry with ⟨storing, hmem, rfl⟩
        exact (hheld storing hmem).2
      rw [← hlookup]
      exact retrieveKey_eq h script hhosts caller hid hkey
    · intro account
      exact hasWritePrivilege_eq h script hhosts caller account

/-- The three functions, as a compiler describes them. -/
def bareInterface : Abi.Interface where
  functions := [
    { name := "hasWritePrivilege", inputs := [{ name := "account", type := "address" }],
      outputs := [{ name := "", type := "bool" }], readOnly := true },
    { name := "retrieveKey", inputs := [{ name := "id", type := "string" }],
      outputs := [{ name := "", type := "string" }], readOnly := true },
    { name := "storeKey",
      inputs := [{ name := "id", type := "string" }, { name := "key", type := "string" }],
      outputs := [], readOnly := false }]
  constructorInputs := []

theorem declaresStorage_bareInterface : DeclaresStorage bareInterface where
  storeKey := ⟨_, rfl, rfl⟩
  retrieveKey := ⟨_, ⟨rfl, rfl⟩, rfl⟩
  hasWritePrivilege := ⟨_, ⟨rfl, rfl⟩, rfl⟩

/-- The node refuses the first unlock, and has no gas price for the call after it. -/
def faultyScript : Script where
  setting n s :=
    { s with
      unlock := .ok (n ≠ 0),
      gasPriceErrors := if n = 4 then [.node (-32601) "no price"] else s.gasPriceErrors }
  clock n := n
  callScript_setting _ _ := rfl
  onSend_setting _ _ := rfl
  memory_setting _ _ := rfl

theorem stored_keys_are_read_faulty :
    let contract : StorageContract :=
      { artifact := { key := artifactKey, interface := bareInterface, payload := [0x60, 0x80] },
        address := State.defaultContract, config := Pipeline.Config.default }
    let session : Session := { unlockDuration := Session.defaultUnlockDuration }
    let storings : List Storing := [
      { session, sender := State.defaultAccount, passphrase := "", id := "", key := "ключ 🔑" },
      { session, sender := State.defaultAccount, passphrase := "pw", id := "ü", key := "" },
      { session, sender := Address.zero, passphrase := "pw", id := "", key := "second" }]
    let w := faultyScript.world
    let start := (install State.defaultAccount { State.fresh with memory := [] }, 0)
    let s := afterAll w contract storings start
    DeclaresStorage contract.artifact.interface ∧
      (forall storing, storing ∈ storings -> storing.Holdable) ∧
      (Text.encode "").Holdable ∧ (Text.encode "ü").Holdable ∧
      -- only the third call has a transaction accepted
      acceptedKeys w contract storings start = [("", "second")] ∧
      ((contract.retrieveKey Address.zero "").run w s).1 = .ok "second" ∧
      ((contract.retrieveKey Address.zero "ü").run w s).1 = .ok "" ∧
      ((contract.hasWritePrivilege Address.zero State.defaultAccount).run w s).1 = .ok true := by
  intro contract session storings w start s
  have hheld : forall storing, storing ∈ storings -> storing.Holdable := by decide +kernel
  have hempty : (Text.encode "").Holdable := by decide +kernel
  have hother : (Text.encode "ü").Holdable := by decide +kernel
  have haccepted : acceptedKeys w contract storings start = [("", "second")] := by
    decide +kernel
  have hread := (stored_keys_are_read contract declaresStorage_bareInterface faultyScript
    State.defaultAccount State.fresh storings hheld).2 Address.zero
  have hsecond := hread.1 "" hempty
  have hnone := hread.1 "ü" hother
  rw [haccepted] at hsecond hnone
  exact ⟨declaresStorage_bareInterface, hheld, hempty, hother, haccepted, hsecond, hnone,
    (hread.2 State.defaultAccount).trans (by simp)⟩

end StorageContract
end KeyRegistry
