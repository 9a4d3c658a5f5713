import KeyRegistry.Proofs.AddressFile
import KeyRegistry.Proofs.CommandLine.Checks
import KeyRegistry.Proofs.Pipeline.Inclusion
import KeyRegistry.Proofs.Session

/-!
# Deployments and what is kept of them

The command that deploys the contract creates it and then records the outcome.  The
address file changes only where the contract has been created, and then holds its
address.  Where the file cannot be written, the address is told nowhere.
-/

namespace KeyRegistry
namespace StorageContract

open Program
open Pipeline (Created Outcome Settles receipts receipts_append receipts_cons_of_none)

theorem settles_of_transact {session : Session} {passphrase : String} {config : Pipeline.Config}
    {call : Call} {history : List Exchange} {result : Except Pipeline.Error Outcome}
    (h : Yields (transact session passphrase config call) history result) :
    Settles call (receipts history) result := by
  have hends : (transact session passphrase config call).Ends history (some result) := h
  cases Session.enclosed_of_ends hends with
  | refused => exact Settles.unincluded _
  | failed e => exact Settles.unincluded _
  | finished locked hduring =>
      rcases yields_bind_iff.mp hduring with ⟨ran, ⟨answer, q⟩, rest, hran, hrest, rfl⟩
      rcases yields_done_iff.mp hrest with ⟨rfl, rfl⟩
      rw [List.append_nil, receipts_cons_of_none rfl, receipts_cons_of_none rfl, receipts_append,
        receipts_cons_of_none rfl, receipts_cons_of_none rfl, Pipeline.receipts_nil,
        List.append_nil]
      exact Pipeline.settles_of_run hran

theorem created_of_deploy {artifact : Artifact.Contract} {config : Pipeline.Config}
    {session : Session} {sender : Address} {passphrase : String} {history : List Exchange}
    {result : Except Pipeline.Error Outcome}
    (h : Yields (deploy artifact config session sender passphrase) history result) :
    Created (receipts history) result := by
  unfold deploy at h
  cases hpayload : artifact.creationPayload [] with
  | error e =>
      rw [hpayload] at h
      rcases yields_done_iff.mp h with ⟨rfl, rfl⟩
      exact Created.unconfirmed _
  | ok payload =>
      rw [hpayload] at h
      exact Pipeline.created_of_settles rfl (settles_of_transact h)

end StorageContract

namespace CommandLine

open Program
open Pipeline (Created Outcome receipts)

variable (s : Settings) (files : FileTree)

/-- What a deployment announces, and how it ends before anything is recorded. -/
def creation : Program (List String × Except Failure Outcome) := do
  match loadArtifact s files with
  | .error f => return ([], .error f)
  | .ok artifact =>
      match <- sender s with
      | .error f => return ([], .error f)
      | .ok account =>
          let announced :=
            [infoLine ("Deploying " ++ artifact.key.toString ++ " from " ++ account.toString)]
          let outcome <- StorageContract.deploy artifact s.pipeline.toConfig s.session account
            s.passphrase
          return (announced, outcome.mapError .step)

def record (announced : List String) : Except Failure Outcome -> Ending
  | .error f => finish files announced (.error f)
  | .ok (.deployed address receipt) =>
      match AddressFile.write files s.addressFile address with
      | .error e => finish files announced (.error (.addressUnwritten e))
      | .ok files =>
          finish files (announced ++
            [successLine ("Contract deployed to: " ++ address.toString),
              infoLine ("Address written to " ++ s.addressFile)] ++
            receiptLines receipt) (.ok ())
  | .ok (.sent receipt _) =>
      finish files (announced ++ receiptLines receipt) (.error .creationReverted)
  | .ok (.callResult _) => finish files announced (.error .unexpectedCallResult)

theorem deploy_eq :
    deploy s files = (creation s files).bind fun made => .done (record s files made.1 made.2) := by
  unfold deploy creation
  cases loadArtifact s files with
  | error f => rfl
  | ok artifact =>
      apply bind_eq_bind_bind
      intro account?
      cases account? with
      | error f => rfl
      | ok account =>
          apply bind_eq_bind_bind
          intro outcome
          cases outcome with
          | error e => rfl
          | ok outcome =>
              cases outcome with
              | deployed address receipt =>
                  change _ = Program.done (record s files _ (.ok (.deployed address receipt)))
                  cases hwrite : AddressFile.write files s.addressFile address with
                  | error e =>
                      simp only [record, hwrite]
                      rfl
                  | ok written =>
                      simp only [record, hwrite]
                      rfl
              | callResult value => rfl
              | sent receipt success => rfl

theorem execute_deploy_eq :
    execute s files .deploy =
      (creation s files).bind fun made => .done (.ended (record s files made.1 made.2)) := by
  change (deploy s files).bind _ = _
  rw [deploy_eq, bind_assoc]
  rfl

section

variable {σ : Type} (w : World σ) (node : σ)

theorem run_execute_deploy :
    ((execute s files .deploy).run w node).1 =
      .ended (record s files ((creation s files).run w node).1.1
        ((creation s files).run w node).1.2) := by
  rw [execute_deploy_eq, run_bind]
  rfl

theorem trace_execute_deploy :
    (execute s files .deploy).trace w node = (creation s files).trace w node := by
  rw [execute_deploy_eq, trace_bind]
  exact List.append_nil _

end

/-! ## What a creation has seen -/

variable {s : Settings} {files : FileTree}

theorem created_of_creation {history : List Exchange}
    {made : List String × Except Failure Outcome} (h : Yields (creation s files) history made) :
    Created (receipts history) made.2 := by
  unfold creation at h
  cases hartifact : loadArtifact s files with
  | error f =>
      rw [hartifact] at h
      rcases yields_done_iff.mp h with ⟨rfl, rfl⟩
      exact Created.unconfirmed f
  | ok artifact =>
      rw [hartifact] at h
      rcases yields_bind_iff.mp h with ⟨asked, account?, rest, hasked, hrest, rfl⟩
      rcases asked_of_sender hasked with ⟨answer, rfl⟩
      cases account? with
      | error f =>
          rcases yields_done_iff.mp hrest with ⟨rfl, rfl⟩
          exact Created.unconfirmed f
      | ok account =>
          rcases yields_bind_iff.mp hrest with ⟨conversation, outcome, last, hdeploy, hlast, rfl⟩
          rcases yields_done_iff.mp hlast with ⟨rfl, rfl⟩
          rw [List.append_nil]
          exact (StorageContract.created_of_deploy hdeploy).mapError Failure.step

/-! ## What is recorded -/

/-- What becomes of the address file, and of the command, after an outcome. -/
inductive Records (s : Settings) (files : FileTree) : Except Failure Outcome -> Ending -> Prop where
  | written {receipt : Receipt} {address : Address} {ending : Ending} :
      receipt.contractAddress = some address -> address.isZero = false ->
      AddressFile.write files s.addressFile address = .ok ending.files ->
      AddressFile.read ending.files s.addressFile = .ok address ->
      ending.result = .ok () ->
      Records s files (.ok (.deployed address receipt)) ending
  | unwritten {receipt : Receipt} {address : Address} {ending : Ending}
      (cause : AddressFile.Error) :
      receipt.contractAddress = some address -> address.isZero = false ->
      AddressFile.write files s.addressFile address = .error cause ->
      ending.files = files ->
      ending.result = .error (.addressUnwritten cause) ->
      Records s files (.ok (.deployed address receipt)) ending
  | failed {outcome : Except Failure Outcome} {ending : Ending} (f : Failure) :
      (forall address receipt, outcome ≠ .ok (.deployed address receipt)) ->
      ending.files = files ->
      ending.result = .error f ->
      Records s files outcome ending

theorem records_of_created {seen : List Receipt} {outcome : Except Failure Outcome}
    (announced : List String) (h : Created seen outcome) :
    Records s files outcome (record s files announced outcome) := by
  cases h with
  | unconfirmed f => exact Records.failed f nofun rfl rfl
  | @deployed receipt address _ haddress hnonzero =>
      rw [record]
      cases hwrite : AddressFile.write files s.addressFile address with
      | error cause => exact Records.unwritten cause haddress hnonzero hwrite rfl rfl
      | ok written =>
          exact Records.written haddress hnonzero hwrite (AddressFile.read_of_write hwrite) rfl
  | unaddressed f _ => exact Records.failed f nofun rfl rfl
  | reverted _ => exact Records.failed .creationReverted nofun rfl rfl

/-- Whatever the node answers, a deployment asks what a creation asks, sees one receipt at most,
and records the outcome of the creation. -/
theorem deployment_recorded (s : Settings) (files : FileTree) {σ : Type} (w : World σ) (node : σ) :
    (execute s files .deploy).trace w node = (creation s files).trace w node ∧
      Created (receipts ((creation s files).trace w node)) ((creation s files).run w node).1.2 ∧
      ∃ ending, ((execute s files .deploy).run w node).1 = .ended ending ∧
        Records s files ((creation s files).run w node).1.2 ending := by
  have hcreated := created_of_creation (yields_trace w (creation s files) node)
  constructor
  · exact trace_execute_deploy s files w node
  · constructor
    · exact hcreated
    · exists _, run_execute_deploy s files w node
      exact records_of_created _ hcreated

/-! ## Where the address is told -/

/-- A text that holds the text of an address. -/
def Mentions (text : String) (a : Address) : Prop :=
  a.toString.toList <:+: text.toList

instance (text : String) (a : Address) : Decidable (Mentions text a) :=
  inferInstanceAs (Decidable (_ <:+: _))

theorem Mentions.after {text : String} {a : Address} (h : Mentions text a) (before : String) :
    Mentions (before ++ text) a := by
  have hright : text.toList <:+: (before ++ text).toList := by
    rw [String.toList_append]
    exact (List.suffix_append _ _).isInfix
  exact h.trans hright

theorem mentions_textOf {lines : List String} {line : String} {a : Address} (hline : line ∈ lines)
    (h : Mentions line a) : Mentions (textOf lines) a := by
  have hwhole : line.toList <:+: (textOf lines).toList := by
    rcases List.append_of_mem hline with ⟨before, after, rfl⟩
    exists (textOf before).toList, '\n' :: (textOf after).toList
    simp [textOf]
  exact h.trans hwhole

/-- The places where the address of a contract can be found after the command that created it. -/
inductive Kept (s : Settings) (ending : Ending) (a : Address) : Prop where
  | inFile : AddressFile.read ending.files s.addressFile = .ok a -> Kept s ending a
  | inOutput : Mentions (textOf ending.output) a -> Kept s ending a
  | inError {f : Failure} : ending.result = .error f -> Mentions f.message a -> Kept s ending a

theorem deployed_of_created {seen : List Receipt} {outcome : Except Failure Outcome}
    {receipt : Receipt} {a : Address} (h : Created seen outcome) (hreceipt : receipt ∈ seen)
    (hstatus : receipt.status = some 1) (haddress : receipt.contractAddress = some a)
    (hnonzero : a.isZero = false) : outcome = .ok (.deployed a receipt) := by
  cases h with
  | unconfirmed f => cases hreceipt
  | deployed _ haddress' _ =>
      cases List.mem_singleton.mp hreceipt
      cases haddress.symm.trans haddress'
      rfl
  | unaddressed f hzero =>
      cases List.mem_singleton.mp hreceipt
      cases hnonzero.symm.trans (hzero a haddress)
  | reverted hreverted =>
      cases List.mem_singleton.mp hreceipt
      rw [Receipt.succeeded, hstatus] at hreverted
      cases hreverted

section

variable {s : Settings} {files : FileTree} {σ : Type} {w : World σ} {node : σ} {receipt : Receipt}
  {a : Address}

theorem run_of_created (hreceipt : receipt ∈ receipts ((execute s files .deploy).trace w node))
    (hstatus : receipt.status = some 1) (haddress : receipt.contractAddress = some a)
    (hnonzero : a.isZero = false) :
    ((execute s files .deploy).run w node).1 =
      .ended (record s files ((creation s files).run w node).1.1 (.ok (.deployed a receipt))) := by
  rw [trace_execute_deploy] at hreceipt
  have hcreated := created_of_creation (yields_trace w (creation s files) node)
  rw [run_execute_deploy, deployed_of_created hcreated hreceipt hstatus haddress hnonzero]

/-- Where the address file can be written, a contract that has been created is found in it and in
the output. -/
theorem created_address_kept {written : FileTree}
    (hreceipt : receipt ∈ receipts ((execute s files .deploy).trace w node))
    (hstatus : receipt.status = some 1) (haddress : receipt.contractAddress = some a)
    (hnonzero : a.isZero = false)
    (hwritten : AddressFile.write files s.addressFile a = .ok written) :
    ∃ ending, ((execute s files .deploy).run w node).1 = .ended ending ∧ Kept s ending a ∧
      AddressFile.read ending.files s.addressFile = .ok a ∧
      Mentions (textOf ending.output) a := by
  exists _, run_of_created hreceipt hstatus haddress hnonzero
  rw [record, hwritten]
  have hread := AddressFile.read_of_write hwritten
  have hself : Mentions a.toString a := List.infix_rfl
  have hline : Mentions (successLine ("Contract deployed to: " ++ a.toString)) a :=
    (hself.after "Contract deployed to: ").after "✓ "
  refine ⟨Kept.inFile hread, hread, mentions_textOf ?_ hline⟩
  simp [finish]

end

/-! ## An address that is lost -/

def keepingAt (path : String) : Settings :=
  { Settings.default "/" with addressFile := path }

def creationReceipt : Receipt where
  transactionHash := Hash.zero
  blockHash := Hash.zero
  blockNumber := 1
  sender := Address.repeated 0xaa
  recipient := none
  contractAddress := some (Address.repeated 0xcc)
  gasUsed := 21000
  status := some 1

/-- A node that creates every contract at once. -/
def obliging : World Unit where
  answer action node :=
    (match action with
      | .ask .accounts => .ok [Address.repeated 0xaa]
      | .ask (.unlock _ _ _) => .ok true
      | .ask (.lock _) => .ok true
      | .ask (.estimateGas _) => .ok 21000
      | .ask .gasPrice => .ok 1
      | .ask (.send _ _) => .ok Hash.zero
      | .ask (.receipt _) => .ok (some creationReceipt)
      | .ask _ => .error (.timeout "not served")
      | .sleep _ => ()
      | .clock => 0
      | .guard _ => ()
      | .release => ()
      | .drain _ => []
      | .cancel _ => (),
    node)

theorem creation_obliging :
    receipts ((creation (Settings.default "/") unaddressedFiles).trace obliging ()) =
        [creationReceipt] ∧
      ((creation (Settings.default "/") unaddressedFiles).run obliging ()).1.1 =
        [infoLine ("Deploying contract.sol:Storage from " ++ (Address.repeated 0xaa).toString)] := by
  decide +kernel

theorem creation_keepingAt (path : String) :
    creation (keepingAt path) unaddressedFiles =
      creation (Settings.default "/") unaddressedFiles := by
  simp only [creation, loadArtifact, sender, keepingAt, Settings.session]

theorem mem_receipts_obliging (path : String) : creationReceipt ∈
    receipts ((execute (keepingAt path) unaddressedFiles .deploy).trace obliging ()) := by
  rw [trace_execute_deploy, creation_keepingAt, creation_obliging.1]
  exact List.mem_cons_self

theorem created_address_kept_obliging :
    creationReceipt ∈
        receipts ((execute (keepingAt "/address") unaddressedFiles .deploy).trace obliging ()) ∧
      ∃ ending, ((execute (keepingAt "/address") unaddressedFiles .deploy).run obliging ()).1 =
          .ended ending ∧
        AddressFile.read ending.files "/address" = .ok (Address.repeated 0xcc) := by
  have hreceipt := mem_receipts_obliging "/address"
  have hwritten : ∃ written,
      AddressFile.write unaddressedFiles "/address" (Address.repeated 0xcc) = .ok written :=
    ⟨_, rfl⟩
  rcases hwritten with ⟨written, hwritten⟩
  rcases created_address_kept hreceipt rfl rfl (by decide) hwritten with
    ⟨ending, hending, -, hread, -⟩
  exact ⟨hreceipt, ending, hending, hread⟩

/-- Where the address file is to be below another file, the contract is created and its address is
told nowhere. -/
theorem created_address_lost :
    let s := keepingAt "contract.json/address"
    creationReceipt ∈ receipts ((execute s unaddressedFiles .deploy).trace obliging ()) ∧
      creationReceipt.status = some 1 ∧
      creationReceipt.contractAddress = some (Address.repeated 0xcc) ∧
      (Address.repeated 0xcc).isZero = false ∧
      ∃ ending, ((execute s unaddressedFiles .deploy).run obliging ()).1 = .ended ending ∧
        ¬ Kept s ending (Address.repeated 0xcc) := by
  intro s
  have hreceipt := mem_receipts_obliging "contract.json/address"
  have hnonzero : (Address.repeated 0xcc).isZero = false := by decide
  have hunwritten : AddressFile.write unaddressedFiles "contract.json/address"
      (Address.repeated 0xcc) = .error (.io "contract.json/address" .alreadyExists) := by
    decide +kernel
  have hrun := run_of_created hreceipt rfl rfl hnonzero
  refine ⟨hreceipt, rfl, rfl, hnonzero, _, hrun, ?_⟩
  rw [creation_keepingAt, creation_obliging.2, record]
  simp only [keepingAt, hunwritten]
  intro hkept
  cases hkept with
  | inFile hread =>
      have hunread : AddressFile.read unaddressedFiles "contract.json/address" =
          .error (.io "contract.json/address" .notADirectory) := by
        decide +kernel
      cases hunread.symm.trans hread
  | inOutput houtput =>
      have hsilent : ¬ Mentions
          (textOf [infoLine ("Deploying contract.sol:Storage from " ++
            (Address.repeated 0xaa).toString)])
          (Address.repeated 0xcc) := by
        decide +kernel
      exact hsilent houtput
  | inError herror hmessage =>
      have hsilent : ¬ Mentions
          (Failure.message (.addressUnwritten (.io "contract.json/address" .alreadyExists)))
          (Address.repeated 0xcc) := by
        decide +kernel
      cases herror
      exact hsilent hmessage

end CommandLine
end KeyRegistry
