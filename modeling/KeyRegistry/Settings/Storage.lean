import KeyRegistry.FileSystem
import KeyRegistry.Settings.Document

/-!
# Settings in files

Settings are loaded from a file that the user names, or from the program's
directory under the home directory.  A file that is not there is made, with the
defaults.
-/

namespace KeyRegistry
namespace Settings

inductive FileFault where
  | unreadable (path : String) (cause : FileError)
  | unparsable (path : String)
  | unwritable (path : String) (cause : FileError)
  /-- The directories above the file cannot be made. -/
  | unreachable (cause : FileError)
  /-- The settings have no document. -/
  | unprintable
deriving DecidableEq, Repr

def FileFault.messages : FileFault -> List String
  | .unreadable path cause => ["failed to read " ++ path, cause.message]
  | .unparsable path => ["failed to parse " ++ path, "TOML parse error"]
  | .unwritable path cause => ["failed to write " ++ path, cause.message]
  | .unreachable cause => [cause.message]
  | .unprintable => ["out-of-range value"]

def defaultPath (home : String) : String :=
  directory home ++ "/config.toml"

def save (tree : FileTree) (path : String) (s : Settings) : Except FileFault FileTree := do
  let tree <-
    match FileTree.parent? path with
    | none => pure tree
    | some above =>
        match FileTree.makeDirectories (path.length + 1) tree above with
        | .ok tree => pure tree
        | .error cause => throw (.unreachable cause)
  match s.document? with
  | none => throw .unprintable
  | some text =>
      match tree.write path (Text.encode text) with
      | .ok tree => return tree
      | .error cause => throw (.unwritable path cause)

/-- Loads the settings at a path, and saves the defaults there where nothing is. -/
def load (tree : FileTree) (home path : String) : Except FileFault (Settings × FileTree) :=
  if tree.holds path then
    match tree.readText path with
    | .error cause => .error (.unreadable path cause)
    | .ok text =>
        match parse? home text with
        | some s => .ok (s, tree)
        | none => .error (.unparsable path)
  else
    match save tree path (default home) with
    | .ok tree => .ok (default home, tree)
    | .error fault => .error fault

end Settings
end KeyRegistry
