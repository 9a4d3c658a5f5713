import KeyRegistry.CommandLine.Execution
import KeyRegistry.Rpc.Client

/-!
# The program

The program reads the command line, the environment and the files that a command
needs, carries the command out, and writes what it has printed and changed.  It has
no transport of its own, so every node is out of its reach: a command gets as far as
its first question to the node.
-/

namespace KeyRegistry
namespace Main

def pathOf (place : Place) : String :=
  "/" ++ String.intercalate "/" place

def entryAt? (place : Place) : IO (Option FileEntry) := do
  try
    if <- (<- IO.FS.realPath (pathOf place)).isDir then
      return some .directory
    return some (.file (<- IO.FS.readBinFile (pathOf place)).toList)
  catch _ =>
    return none

def withPath (tree : FileTree) (text : String) : IO FileTree := do
  let path := FileTree.Path.ofText text
  let start := if path.absolute then [] else tree.here
  (FileTree.visited start path.names).foldlM (fun tree place => do
    match <- entryAt? place with
    | some entry => return tree.put place entry
    | none => return tree) tree

def workingTree : IO FileTree := do
  let here := (<- IO.currentDir).toString
  withPath { entries := [], here := (FileTree.Path.ofText here).names } here

def treeFor (i : CommandLine.Invocation) (e : CommandLine.Environment) : IO FileTree := do
  let tree <- withPath (<- workingTree) (i.settingsFile.getD (Settings.defaultPath e.home))
  match CommandLine.prepare i e tree with
  | .error _ => return tree
  | .ok (s, _) => withPath (<- withPath tree s.artifactPath) s.addressFile

def save (before after : FileTree) : IO Unit :=
  after.entries.forM fun (place, entry) => do
    if before.entry? place ≠ some entry then
      match entry with
      | .directory => IO.FS.createDirAll (pathOf place)
      | .file content => IO.FS.writeBinFile (pathOf place) (ByteArray.mk content.toArray)

def environment : IO CommandLine.Environment := do
  return {
    home := (<- IO.getEnv "HOME").getD "."
    passphrase := <- IO.getEnv "CERTCHAIN_PASSPHRASE"
    logFilter := <- IO.getEnv "RUST_LOG"
    -- nothing is logged, so that no filter is refused
    filterFault? := fun _ => none }

def carryOut (i : CommandLine.Invocation) : IO UInt32 := do
  let e <- environment
  let before <- treeFor i e
  let node := Rpc.Client.new .unreachable .unreachable
  match (CommandLine.run i e before).run Rpc.Client.world node with
  | (.mining output after _, _) => do
      IO.print (CommandLine.textOf output)
      save before after
      return 0
  | (.ended done, _) => do
      IO.print (CommandLine.textOf done.output)
      save before done.files
      match done.result with
      | .ok () => return 0
      | .error failure => do
          IO.eprintln ("Error: " ++ failure.message)
          return 1

end Main
end KeyRegistry

def main (args : List String) : IO UInt32 := do
  match KeyRegistry.CommandLine.parse args with
  | .ok i => KeyRegistry.Main.carryOut i
  | .error refusal => do
      match refusal with
      | .help => IO.print (KeyRegistry.CommandLine.textOf KeyRegistry.CommandLine.usageLines)
      | .version => IO.println KeyRegistry.CommandLine.versionLine
      | _ => IO.eprint (KeyRegistry.CommandLine.textOf
          (("error: " ++ refusal.message) :: "" :: KeyRegistry.CommandLine.usageLines))
      return UInt32.ofNat refusal.exitCode
