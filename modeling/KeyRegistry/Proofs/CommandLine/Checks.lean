import KeyRegistry.CommandLine.Execution
import KeyRegistry.Proofs.Abi.Interface
import KeyRegistry.Proofs.Program.History

/-!
# Checks before the first request

What a run needs from its settings and from files is checked before the node is
asked for anything, so a run that finds a fault there asks for nothing at all.  The
call of a command is encoded before its account is unlocked: a call that cannot be
encoded ends the run after the one request that tells the sender.
-/

namespace KeyRegistry
namespace CommandLine

open Program

variable {i : Invocation} {e : Environment} {s : Settings} {files : FileTree}

/-! ## Faults that need no node -/

def callsContract : Command -> Bool
  | .authorized _ => true
  | .store _ _ => true
  | .retrieve _ => true
  | _ => false

def usesArtifact (command : Command) : Bool :=
  command = .deploy || callsContract command

/-- What is missing or malformed where there is no artifact: the document, its key, or the entry of
the key. -/
inductive ArtifactFault (s : Settings) (files : FileTree) : Prop where
  | document {cause : Artifact.Error} :
      Artifact.Store.ofFile files s.artifactPath = .error cause -> ArtifactFault s files
  | key {cause : Artifact.Error} :
      Artifact.Key.parse s.contract = .error cause -> ArtifactFault s files
  | entry {store : Artifact.Store} {key : Artifact.Key} {cause : Artifact.Error} :
      Artifact.Store.ofFile files s.artifactPath = .ok store ->
      Artifact.Key.parse s.contract = .ok key ->
      (store.load key).1 = .error cause -> ArtifactFault s files

/-- The settings that a run works with, and the files after they have been loaded. -/
def Loads (i : Invocation) (e : Environment) (files : FileTree) (s : Settings)
    (after : FileTree) : Prop :=
  ∃ loaded, Settings.load files e.home (i.settingsFile.getD (Settings.defaultPath e.home)) =
    .ok (loaded, after) ∧ s = i.override e.passphrase loaded

/-- What can be wrong with a run before the node is asked for anything. -/
inductive LocalFault (i : Invocation) (e : Environment) (files : FileTree) : Prop where
  | settings {fault : Settings.FileFault} :
      Settings.load files e.home (i.settingsFile.getD (Settings.defaultPath e.home)) =
        .error fault ->
      LocalFault i e files
  | invalidSettings {s : Settings} {after : FileTree} {fault : Settings.Invalid} :
      Loads i e files s after -> s.fault? = some fault -> LocalFault i e files
  | logFilter {s : Settings} {after : FileTree} {messages : List String} :
      Loads i e files s after -> e.filterFault? (e.filterFor s) = some messages ->
      LocalFault i e files
  | addressFile {s : Settings} {after : FileTree} {cause : AddressFile.Error} :
      Loads i e files s after -> callsContract i.command = true ->
      AddressFile.read after s.addressFile = .error cause -> LocalFault i e files
  | artifact {s : Settings} {after : FileTree} :
      Loads i e files s after -> usesArtifact i.command = true ->
      ArtifactFault s after -> LocalFault i e files

theorem exists_failure_of_artifactFault (h : ArtifactFault s files) :
    ∃ f, loadArtifact s files = .error f := by
  unfold loadArtifact
  cases hdocument : Artifact.Store.ofFile files s.artifactPath with
  | error cause => exact ⟨_, rfl⟩
  | ok store =>
      cases hkey : Artifact.Key.parse s.contract with
      | error cause => exact ⟨_, rfl⟩
      | ok key =>
          cases h with
          | document hfault => cases hdocument.symm.trans hfault
          | key hfault => cases hkey.symm.trans hfault
          | @entry store' key' cause hdocument' hkey' hfault =>
              cases hdocument.symm.trans hdocument'
              cases hkey.symm.trans hkey'
              simp only [hfault]
              exact ⟨_, rfl⟩

theorem exists_failure_of_addressFile {cause : AddressFile.Error}
    (h : AddressFile.read files s.addressFile = .error cause) :
    ∃ f, loadContract s files = .error f := by
  unfold loadContract
  rw [h]
  exact ⟨_, rfl⟩

theorem exists_failure_of_contract {f : Failure} (h : loadArtifact s files = .error f) :
    ∃ f, loadContract s files = .error f := by
  unfold loadContract
  cases hread : AddressFile.read files s.addressFile with
  | error cause => exact ⟨_, rfl⟩
  | ok address =>
      rw [h]
      exact ⟨f, rfl⟩

/-! ## Programs that fail -/

def Ending.Fails (ending : Ending) : Prop :=
  ∃ f, ending.result = .error f

/-- A run that is over, and has failed. -/
def Progress.Fails : Progress -> Prop
  | .ended ending => ending.Fails
  | .mining _ _ _ => False

theorem fails_finish (output : List String) (f : Failure) :
    (finish files output (.error f)).Fails :=
  ⟨f, rfl⟩

def FailsAtOnce (program : Program Progress) : Prop :=
  ∃ progress, program = .done progress ∧ progress.Fails

theorem failsAtOnce_finish (f : Failure) :
    FailsAtOnce (.done (.ended (finish files [] (.error f)))) :=
  ⟨_, rfl, fails_finish [] f⟩

theorem failsAtOnce_of_contract {command : Command} {f : Failure}
    (hcommand : callsContract command = true) (h : loadContract s files = .error f) :
    FailsAtOnce (execute s files command) := by
  cases command with
  | authorized account =>
      rw [execute, authorized, h]
      exact failsAtOnce_finish f
  | store id key =>
      rw [execute, store, h]
      exact failsAtOnce_finish f
  | retrieve id =>
      rw [execute, retrieve, h]
      exact failsAtOnce_finish f
  | deploy => cases hcommand
  | mine threads => cases hcommand
  | status => cases hcommand

theorem failsAtOnce_of_artifact {command : Command} (hcommand : usesArtifact command = true)
    (h : ArtifactFault s files) : FailsAtOnce (execute s files command) := by
  rcases exists_failure_of_artifactFault h with ⟨f, hf⟩
  by_cases hcalls : callsContract command = true
  · rcases exists_failure_of_contract hf with ⟨g, hg⟩
    exact failsAtOnce_of_contract hcalls hg
  · have hdeploy : command = .deploy := by
      simpa [usesArtifact, hcalls] using hcommand
    rw [hdeploy, execute, deploy, hf]
    exact failsAtOnce_finish f

/-! ## Runs -/

theorem failsAtOnce_of_unloaded {fault : Settings.FileFault}
    (h : Settings.load files e.home (i.settingsFile.getD (Settings.defaultPath e.home)) =
      .error fault) : FailsAtOnce (run i e files) := by
  rw [run, prepare, h]
  exact failsAtOnce_finish (.settings fault)

theorem run_of_loads {after : FileTree} (h : Loads i e files s after) :
    run i e files =
      match obstacle? e s with
      | some f => .done (.ended (finish after [] (.error f)))
      | none => execute s after i.command := by
  rcases h with ⟨loaded, hload, rfl⟩
  rw [run, prepare, hload]
  rfl

theorem obstacle_of_invalid {fault : Settings.Invalid} (h : s.fault? = some fault) :
    obstacle? e s = some (.invalidSettings fault) := by
  rw [obstacle?, h]

theorem obstacle_of_logFilter {messages : List String}
    (h : e.filterFault? (e.filterFor s) = some messages) : ∃ f, obstacle? e s = some f := by
  unfold obstacle?
  cases s.fault? with
  | some fault => exact ⟨_, rfl⟩
  | none =>
      rw [h]
      exact ⟨_, rfl⟩

theorem failsAtOnce_of_obstacle {after : FileTree} {f : Failure} (hloads : Loads i e files s after)
    (h : obstacle? e s = some f) : FailsAtOnce (run i e files) := by
  rw [run_of_loads hloads, h]
  exact failsAtOnce_finish f

theorem failsAtOnce_of_execute {after : FileTree} (hloads : Loads i e files s after)
    (h : FailsAtOnce (execute s after i.command)) : FailsAtOnce (run i e files) := by
  cases hobstacle : obstacle? e s with
  | some f => exact failsAtOnce_of_obstacle hloads hobstacle
  | none =>
      rw [run_of_loads hloads, hobstacle]
      exact h

theorem failsAtOnce_of_localFault (h : LocalFault i e files) : FailsAtOnce (run i e files) := by
  cases h with
  | settings hload => exact failsAtOnce_of_unloaded hload
  | invalidSettings hloads hfault =>
      exact failsAtOnce_of_obstacle hloads (obstacle_of_invalid hfault)
  | logFilter hloads hfault =>
      rcases obstacle_of_logFilter hfault with ⟨f, hf⟩
      exact failsAtOnce_of_obstacle hloads hf
  | addressFile hloads hcommand hread =>
      rcases exists_failure_of_addressFile hread with ⟨f, hf⟩
      apply failsAtOnce_of_execute hloads
      exact failsAtOnce_of_contract hcommand hf
  | artifact hloads hcommand hfault =>
      apply failsAtOnce_of_execute hloads
      exact failsAtOnce_of_artifact hcommand hfault

/-! ## Calls that cannot be encoded -/

theorem asked_of_sender {history : List Exchange} {result : Except Failure Address}
    (h : Yields (sender s) history result) : ∃ answer, history = [⟨.ask .accounts, answer⟩] := by
  rcases yields_bind_iff.mp h with ⟨asked, found, rest, hasked, hrest, rfl⟩
  rcases yields_act_bind_iff.mp hasked with ⟨answer, last, rfl, hlast⟩
  exists answer
  have hrest : rest = [] := by
    cases found with
    | error e => exact (yields_done_iff.mp hrest).1
    | ok a => exact (yields_done_iff.mp hrest).1
  have hlast : last = [] := by
    cases answer with
    | error e => exact (yields_done_iff.mp hlast).1
    | ok accounts =>
        cases accounts with
        | nil => exact (yields_done_iff.mp hlast).1
        | cons a accounts =>
            simp only at hlast
            split at hlast
            next => exact (yields_done_iff.mp hlast).1
            next => exact (yields_done_iff.mp hlast).1
  rw [hrest, hlast]
  rfl

/-- The encoding of the call that a command makes, where it makes one.  Whom a question about
privileges is about may be for the node to say. -/
inductive Encodes (artifact : Artifact.Contract) :
    Command -> Except Abi.Error Bytes -> Prop where
  | deploy : Encodes artifact .deploy (artifact.creationPayload [])
  | store (id key : String) :
      Encodes artifact (.store id key)
        (artifact.interface.encodeCall "storeKey" [.text id, .text key])
  | retrieve (id : String) :
      Encodes artifact (.retrieve id) (artifact.interface.encodeCall "retrieveKey" [.text id])
  | authorized (account : Option Address) (a : Address) :
      Encodes artifact (.authorized account)
        (artifact.interface.encodeCall "hasWritePrivilege" [.address a])

def EncodingFault (i : Invocation) (e : Environment) (files : FileTree) : Prop :=
  ∃ s after artifact cause, Loads i e files s after ∧ loadArtifact s after = .ok artifact ∧
    Encodes artifact i.command (.error cause)

/-- What is asked of the node, if anything, is which accounts it has. -/
def AsksAccountsAtMost (history : List Exchange) : Prop :=
  history = [] ∨ ∃ answer, history = [⟨.ask .accounts, answer⟩]

theorem asks_of_sender {next : Except Failure Address -> Program Ending} {history : List Exchange}
    {ending : Ending}
    (hnext : forall account?, ∃ ending, next account? = .done ending ∧ ending.Fails)
    (h : Yields (sender s >>= next) history ending) :
    AsksAccountsAtMost history ∧ ending.Fails := by
  rcases yields_bind_iff.mp h with ⟨asked, account?, rest, hasked, hrest, rfl⟩
  rcases asked_of_sender hasked with ⟨answer, rfl⟩
  rcases hnext account? with ⟨ended, hended, hfails⟩
  rw [hended] at hrest
  rcases yields_done_iff.mp hrest with ⟨rfl, rfl⟩
  exact ⟨Or.inr ⟨answer, rfl⟩, hfails⟩

theorem artifact_of_loadContract {artifact : Artifact.Contract} {contract : StorageContract}
    (hartifact : loadArtifact s files = .ok artifact) (h : loadContract s files = .ok contract) :
    contract.artifact = artifact := by
  unfold loadContract at h
  cases hread : AddressFile.read files s.addressFile with
  | error cause =>
      rw [hread] at h
      cases h
  | ok address =>
      rw [hread, hartifact] at h
      cases h
      rfl

section

variable {artifact : Artifact.Contract} {history : List Exchange} {ending : Ending}
  {cause : Abi.Error}

theorem asks_of_deploy (hartifact : loadArtifact s files = .ok artifact)
    (hencode : artifact.creationPayload [] = .error cause)
    (h : Yields (deploy s files) history ending) :
    AsksAccountsAtMost history ∧ ending.Fails := by
  unfold deploy at h
  rw [hartifact] at h
  apply asks_of_sender _ h
  intro account?
  cases account? with
  | error f => exact ⟨_, rfl, f, rfl⟩
  | ok account =>
      simp only [StorageContract.deploy, hencode]
      exact ⟨_, rfl, _, rfl⟩

theorem asks_of_contract {body : StorageContract -> Except Failure Address -> Program Ending}
    (hartifact : loadArtifact s files = .ok artifact)
    (hbody : forall contract, contract.artifact = artifact -> forall account?,
      ∃ ending, body contract account? = .done ending ∧ ending.Fails)
    (h : Yields
      (match loadContract s files with
        | .error f => return finish files [] (.error f)
        | .ok contract => sender s >>= body contract)
      history ending) :
    AsksAccountsAtMost history ∧ ending.Fails := by
  cases hcontract : loadContract s files with
  | error f =>
      rw [hcontract] at h
      rcases yields_done_iff.mp h with ⟨rfl, rfl⟩
      exact ⟨Or.inl rfl, f, rfl⟩
  | ok contract =>
      rw [hcontract] at h
      exact asks_of_sender (hbody contract (artifact_of_loadContract hartifact hcontract)) h

theorem asks_of_store {id key : String} (hartifact : loadArtifact s files = .ok artifact)
    (hencode : artifact.interface.encodeCall "storeKey" [.text id, .text key] = .error cause)
    (h : Yields (store s files id key) history ending) :
    AsksAccountsAtMost history ∧ ending.Fails := by
  apply asks_of_contract hartifact _ h
  rintro contract rfl account?
  cases account? with
  | error f => exact ⟨_, rfl, f, rfl⟩
  | ok account =>
      simp only [StorageContract.storeKey, hencode]
      exact ⟨_, rfl, _, rfl⟩

theorem asks_of_retrieve {id : String} (hartifact : loadArtifact s files = .ok artifact)
    (hencode : artifact.interface.encodeCall "retrieveKey" [.text id] = .error cause)
    (h : Yields (retrieve s files id) history ending) :
    AsksAccountsAtMost history ∧ ending.Fails := by
  apply asks_of_contract hartifact _ h
  rintro contract rfl account?
  cases account? with
  | error f => exact ⟨_, rfl, f, rfl⟩
  | ok account =>
      simp only [StorageContract.retrieveKey, StorageContract.query, hencode]
      exact ⟨_, rfl, _, rfl⟩

theorem asks_of_authorized {account : Option Address} {a : Address}
    (hartifact : loadArtifact s files = .ok artifact)
    (hencode : artifact.interface.encodeCall "hasWritePrivilege" [.address a] = .error cause)
    (h : Yields (authorized s files account) history ending) :
    AsksAccountsAtMost history ∧ ending.Fails := by
  apply asks_of_contract hartifact _ h
  rintro contract rfl account?
  cases account? with
  | error f => exact ⟨_, rfl, f, rfl⟩
  | ok caller =>
      rcases Abi.Interface.encodeCall_address_fails hencode (account.getD caller) with
        ⟨other, hother⟩
      simp only [StorageContract.hasWritePrivilege, StorageContract.query, hother]
      exact ⟨_, rfl, _, rfl⟩

theorem asks_of_ended {program : Program Ending} {progress : Progress}
    (hprogram : forall first ending, Yields program first ending ->
      AsksAccountsAtMost first ∧ ending.Fails)
    (h : Yields (do return .ended (<- program)) history progress) :
    AsksAccountsAtMost history ∧ progress.Fails := by
  rcases yields_bind_iff.mp h with ⟨first, ending, rest, hfirst, hrest, rfl⟩
  rcases yields_done_iff.mp hrest with ⟨rfl, rfl⟩
  rw [List.append_nil]
  exact hprogram first ending hfirst

theorem asks_of_execute {command : Command} {progress : Progress}
    (hartifact : loadArtifact s files = .ok artifact)
    (hencode : Encodes artifact command (.error cause))
    (h : Yields (execute s files command) history progress) :
    AsksAccountsAtMost history ∧ progress.Fails := by
  generalize hencoded : (Except.error cause : Except Abi.Error Bytes) = encoded at hencode
  cases hencode with
  | deploy => exact asks_of_ended (fun _ _ => asks_of_deploy hartifact hencoded.symm) h
  | store id key => exact asks_of_ended (fun _ _ => asks_of_store hartifact hencoded.symm) h
  | retrieve id => exact asks_of_ended (fun _ _ => asks_of_retrieve hartifact hencoded.symm) h
  | authorized account a =>
      exact asks_of_ended (fun _ _ => asks_of_authorized hartifact hencoded.symm) h

end

/-- A run with a fault that needs no node asks the node for nothing, and fails.  One whose call cannot
be encoded asks for the accounts at most, and fails. -/
theorem checked_before_asking (i : Invocation) (e : Environment) (files : FileTree) {σ : Type}
    (w : World σ) (node : σ) :
    (LocalFault i e files ->
      (run i e files).trace w node = [] ∧ ((run i e files).run w node).1.Fails) ∧
    (EncodingFault i e files ->
      AsksAccountsAtMost ((run i e files).trace w node) ∧ ((run i e files).run w node).1.Fails) := by
  constructor
  · intro hfault
    rcases failsAtOnce_of_localFault hfault with ⟨progress, hrun, hfails⟩
    rw [hrun]
    exact ⟨rfl, hfails⟩
  · rintro ⟨s, after, artifact, cause, hloads, hartifact, hencode⟩
    cases hobstacle : obstacle? e s with
    | some f =>
        rcases failsAtOnce_of_obstacle hloads hobstacle with ⟨progress, hrun, hfails⟩
        rw [hrun]
        exact ⟨Or.inl rfl, hfails⟩
    | none =>
        have hyields := yields_trace w (execute s after i.command) node
        rw [run_of_loads hloads, hobstacle]
        exact asks_of_execute hartifact hencode hyields

/-! ## A key that cannot be stored -/

def badLevel : String :=
  "error parsing level filter: expected one of \"off\", \"error\", \"warn\", \"info\", " ++
    "\"debug\", \"trace\", or a number 0-5"

/-- A check of filters that knows `loud` for no level.  The refusal is its own cause. -/
def quietly (filter : String) : Option (List String) :=
  if filter = "certchain_core=loud" then some [badLevel, badLevel] else none

def storing : Invocation where
  settingsFile := some "/settings"
  rpcUrl := none
  wsUrl := none
  logLevel := none
  command := .store "cert-1" "k3y"

def plainEnvironment : Environment where
  home := "/"
  passphrase := none
  logFilter := none
  filterFault? := quietly

def loudEnvironment : Environment :=
  { plainEnvironment with logFilter := some "certchain_core=loud" }

def bareArtifact : Artifact.Contract where
  key := StorageContract.artifactKey
  interface := Abi.Interface.empty
  payload := [0x60]

def bareDocument : String :=
  "\x7b\"contracts\":\x7b\"contract.sol:Storage\":\x7b\"abi\":[],\"bin\":\"60\"\x7d\x7d\x7d"

/-- Empty settings, the bare artifact and no address file. -/
def unaddressedFiles : FileTree where
  entries := [(["settings"], .file []), (["contract.json"], .file (Text.encode bareDocument))]
  here := []

/-- The same files with an address file in its usual place. -/
def addressedFiles : FileTree where
  entries := unaddressedFiles.entries ++ [([".certchain"], .directory),
    ([".certchain", "deployed_contract.txt"],
      .file (AddressFile.content (Address.repeated 0xcc)))]
  here := []

def unresponsive : World Unit where
  answer action node :=
    (match action with
      | .ask _ => .error (.timeout "no answer")
      | .sleep _ => ()
      | .clock => 0
      | .guard _ => ()
      | .release => ()
      | .drain _ => []
      | .cancel _ => (),
    node)

theorem loads_storing :
    Loads storing plainEnvironment unaddressedFiles (Settings.default "/") unaddressedFiles ∧
      Loads storing plainEnvironment addressedFiles (Settings.default "/") addressedFiles := by
  constructor
  · exact ⟨Settings.default "/", by decide +kernel, by decide⟩
  · exact ⟨Settings.default "/", by decide +kernel, by decide⟩

theorem checked_before_asking_storing :
    LocalFault storing plainEnvironment unaddressedFiles ∧
      (run storing plainEnvironment unaddressedFiles).trace unresponsive () = [] ∧
      LocalFault storing loudEnvironment addressedFiles ∧
      (run storing loudEnvironment addressedFiles).trace unresponsive () = [] ∧
      EncodingFault storing plainEnvironment addressedFiles ∧
      AsksAccountsAtMost ((run storing plainEnvironment addressedFiles).trace unresponsive ()) := by
  have hunread : AddressFile.read unaddressedFiles (Settings.default "/").addressFile =
      .error (.io "//.certchain/deployed_contract.txt" .notFound) := by
    decide +kernel
  have hlocal : LocalFault storing plainEnvironment unaddressedFiles :=
    LocalFault.addressFile loads_storing.1 rfl hunread
  have hfilter : loudEnvironment.filterFault? (loudEnvironment.filterFor (Settings.default "/")) =
      some [badLevel, badLevel] := by
    decide
  have hloud : LocalFault storing loudEnvironment addressedFiles :=
    LocalFault.logFilter loads_storing.2 hfilter
  have hencoding : EncodingFault storing plainEnvironment addressedFiles := by
    exists _, _, bareArtifact, .unknownFunction "storeKey", loads_storing.2
    constructor
    · decide +kernel
    · exact Encodes.store "cert-1" "k3y"
  have hsilent := checked_before_asking storing plainEnvironment unaddressedFiles unresponsive ()
  have hrefused := checked_before_asking storing loudEnvironment addressedFiles unresponsive ()
  have hasks := checked_before_asking storing plainEnvironment addressedFiles unresponsive ()
  exact ⟨hlocal, (hsilent.1 hlocal).1, hloud, (hrefused.1 hloud).1, hencoding,
    (hasks.2 hencoding).1⟩

end CommandLine
end KeyRegistry
