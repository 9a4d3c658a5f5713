import KeyRegistry.CommandLine.Arguments
import KeyRegistry.CommandLine.Failure
import KeyRegistry.CommandLine.Output

/-!
# Carrying out commands

Everything that can be checked without the node is checked before the node is
asked for anything: the command line, the settings, the log filter, and what a
command needs from files.
-/

namespace KeyRegistry
namespace CommandLine

/-- How a command has ended: what it printed, the files after it, and whether it failed. -/
structure Ending where
  output : List String
  files : FileTree
  result : Except Failure Unit

/-- How far a command has come by itself: to its end, or to a running control loop. -/
inductive Progress where
  | ended (ending : Ending)
  | mining (output : List String) (files : FileTree) (run : Mining.Run)

def textOf (lines : List String) : String :=
  String.join (lines.map (· ++ "\n"))

/-! ## What a command needs -/

def loadArtifact (s : Settings) (files : FileTree) : Except Failure Artifact.Contract :=
  match Artifact.Store.ofFile files s.artifactPath with
  | .error e => .error (.artifacts s.artifactPath e)
  | .ok store =>
      match Artifact.Key.parse s.contract with
      | .error e => .error (.artifact e)
      | .ok key =>
          match (store.load key).1 with
          | .error e => .error (.artifact e)
          | .ok shared => .ok shared.value

def loadContract (s : Settings) (files : FileTree) : Except Failure StorageContract :=
  match AddressFile.read files s.addressFile with
  | .error e => .error (.noContract e)
  | .ok address =>
      match loadArtifact s files with
      | .error f => .error f
      | .ok artifact => .ok { artifact, address, config := s.pipeline.toConfig }

def sender (s : Settings) : Program (Except Failure Address) := do
  match <- Session.resolveSender s.accountIndex.toNat with
  | .ok a => return .ok a
  | .error e => return .error (.step e)

/-! ## The commands -/

def finish (files : FileTree) (output : List String) (result : Except Failure Unit) : Ending :=
  { output, files, result }

/-- Deploys the contract.  Its address is recorded before anything is said of the success. -/
def deploy (s : Settings) (files : FileTree) : Program Ending := do
  match loadArtifact s files with
  | .error f => return finish files [] (.error f)
  | .ok artifact =>
      match <- sender s with
      | .error f => return finish files [] (.error f)
      | .ok account =>
          let announced :=
            [infoLine ("Deploying " ++ artifact.key.toString ++ " from " ++ account.toString)]
          match <- StorageContract.deploy artifact s.pipeline.toConfig s.session account
              s.passphrase with
          | .error e => return finish files announced (.error (.step e))
          | .ok (.deployed address receipt) =>
              match AddressFile.write files s.addressFile address with
              | .error e => return finish files announced (.error (.addressUnwritten e))
              | .ok files =>
                  return finish files (announced ++
                    [successLine ("Contract deployed to: " ++ address.toString),
                      infoLine ("Address written to " ++ s.addressFile)] ++
                    receiptLines receipt) (.ok ())
          | .ok (.sent receipt _) =>
              return finish files (announced ++ receiptLines receipt) (.error .creationReverted)
          | .ok (.callResult _) => return finish files announced (.error .unexpectedCallResult)

def authorized (s : Settings) (files : FileTree) (account : Option Address) :
    Program Ending := do
  match loadContract s files with
  | .error f => return finish files [] (.error f)
  | .ok contract =>
      match <- sender s with
      | .error f => return finish files [] (.error f)
      | .ok caller =>
          let account := account.getD caller
          match <- contract.hasWritePrivilege caller account with
          | .error e => return finish files [] (.error (.step e))
          | .ok allowed =>
              return finish files ["Account " ++ account.toString,
                "Has write privilege: " ++ toString allowed] (.ok ())

def store (s : Settings) (files : FileTree) (id key : String) : Program Ending := do
  match loadContract s files with
  | .error f => return finish files [] (.error f)
  | .ok contract =>
      match <- sender s with
      | .error f => return finish files [] (.error f)
      | .ok account =>
          match <- contract.storeKey s.session account s.passphrase id key with
          | .error e => return finish files [] (.error (.step e))
          | .ok (.sent receipt true) =>
              return finish files
                (successLine ("Successfully stored " ++ key ++ " into ID " ++ id) ::
                  receiptLines receipt) (.ok ())
          | .ok (.sent receipt false) =>
              return finish files (receiptLines receipt) (.error .storeReverted)
          | .ok _ => return finish files [] (.error .unexpectedOutcome)

def retrieve (s : Settings) (files : FileTree) (id : String) : Program Ending := do
  match loadContract s files with
  | .error f => return finish files [] (.error f)
  | .ok contract =>
      match <- sender s with
      | .error f => return finish files [] (.error f)
      | .ok caller =>
          match <- contract.retrieveKey caller id with
          | .error e => return finish files [] (.error (.step e))
          | .ok key =>
              let line := if key.isEmpty then warningLine ("Nothing stored under ID " ++ id) else key
              return finish files [line] (.ok ())

def inquire (about : Inquiry) (request : Request) : Program (Except Failure request.Value) := do
  match <- Program.ask request with
  | .ok value => return .ok value
  | .error e => return .error (.inquiry about e)

/-- The status of the node; the first question that fails ends it. -/
def nodeStatus (rpcUrl : String) : Program (Except Failure NodeStatus) := do
  match <- inquire .blockNumber .blockNumber with
  | .error f => return .error f
  | .ok blockNumber =>
    match <- inquire .gasPrice .gasPrice with
    | .error f => return .error f
    | .ok gasPrice =>
      match <- inquire .mining .isMining with
      | .error f => return .error f
      | .ok mining =>
        match <- inquire .pendingCount .pendingCount with
        | .error f => return .error f
        | .ok pending =>
          match <- inquire .accounts .accounts with
          | .error f => return .error f
          | .ok accounts =>
              return .ok { rpcUrl, blockNumber, gasPrice, mining, pending, accounts }

def status (s : Settings) (files : FileTree) : Program Ending := do
  match <- nodeStatus s.rpcUrl with
  | .error f => return finish files [] (.error f)
  | .ok node =>
      let contract :=
        match AddressFile.read files s.addressFile with
        | .ok a => ["Contract:      " ++ a.short]
        | .error _ => []
      return finish files (node.lines ++ contract) (.ok ())

def concludeMining (output : List String) (files : FileTree) :
    Except Mining.Error Mining.Report -> Ending
  | .ok report => finish files (output ++ miningLines report) (.ok ())
  | .error e => finish files output (.error (.mining e))

def mine (s : Settings) (files : FileTree) : Program Progress := do
  let output :=
    [infoLine ("Mining on demand with " ++ decimal s.mining.threads.toNat ++
      " thread(s), Ctrl-C to stop")]
  match <- Mining.start (.new s.mining.toConfig) with
  | .waiting run => return .mining output files run
  | .finished result _ => return .ended (concludeMining output files result)

def execute (s : Settings) (files : FileTree) : Command -> Program Progress
  | .deploy => do return .ended (<- deploy s files)
  | .authorized account => do return .ended (<- authorized s files account)
  | .store id key => do return .ended (<- store s files id key)
  | .retrieve id => do return .ended (<- retrieve s files id)
  | .mine _ => mine s files
  | .status => do return .ended (<- status s files)

/-! ## From the words to the command -/

/-- What a run finds around it. -/
structure Environment where
  home : String
  passphrase : Option String
  /-- A log filter that goes before the one in the settings, unless it is empty. -/
  logFilter : Option String
  /-- What the library that logs has against a filter: the messages of its refusal, or nothing where
  it takes the filter.  Which filters it takes is its own affair. -/
  filterFault? : String -> Option (List String)

/-- The settings with what the command line and the environment say instead. -/
def Invocation.override (i : Invocation) (passphrase : Option String) (s : Settings) : Settings :=
  let threads :=
    match i.command with
    | .mine (some threads) => threads
    | _ => s.mining.threads
  { s with
    rpcUrl := i.rpcUrl.getD s.rpcUrl
    wsUrl := i.wsUrl.getD s.wsUrl
    logLevel := i.logLevel.getD s.logLevel
    passphrase := passphrase.getD s.passphrase
    mining := { s.mining with threads } }

def Environment.filterFor (e : Environment) (s : Settings) : String :=
  match e.logFilter with
  | some filter => if filter.isEmpty then s.logLevel else filter
  | none => s.logLevel

def prepare (i : Invocation) (e : Environment) (files : FileTree) :
    Except Failure (Settings × FileTree) := do
  let path := i.settingsFile.getD (Settings.defaultPath e.home)
  match Settings.load files e.home path with
  | .error fault => throw (.settings fault)
  | .ok (loaded, files) => return (i.override e.passphrase loaded, files)

def obstacle? (e : Environment) (s : Settings) : Option Failure :=
  match s.fault? with
  | some fault => some (.invalidSettings fault)
  | none => (e.filterFault? (e.filterFor s)).map .logFilter

def run (i : Invocation) (e : Environment) (files : FileTree) : Program Progress :=
  match prepare i e files with
  | .error f => return .ended (finish files [] (.error f))
  | .ok (s, files) =>
      match obstacle? e s with
      | some f => return .ended (finish files [] (.error f))
      | none => execute s files i.command

end CommandLine
end KeyRegistry
