import KeyRegistry.Address
import KeyRegistry.FileSystem
import KeyRegistry.Text.Blank

/-!
# The address file

The address of a deployed contract is kept as one line of text.  White space
around it is ignored when it is read.  Others may use the same files.
-/

namespace KeyRegistry
namespace AddressFile

inductive Error where
  | io (path : String) (cause : FileError)
  | invalid (path : String) (cause : ValueError)
deriving DecidableEq, Repr

def Error.message : Error -> String
  | .io path cause => "Cannot access " ++ path ++ ": " ++ cause.message
  | .invalid path cause =>
      path ++ " does not contain a contract address: " ++ cause.message

def parse (text : String) : Except ValueError Address :=
  Address.parse (String.ofList (Text.trim text.toList))

def read (tree : FileTree) (path : String) : Except Error Address :=
  match tree.readText path with
  | .error cause => .error (.io path cause)
  | .ok text =>
      match parse text with
      | .ok a => .ok a
      | .error cause => .error (.invalid path cause)

def content (a : Address) : Bytes :=
  Text.encode (a.toString ++ "\n")

def write (tree : FileTree) (path : String) (a : Address) : Except Error FileTree :=
  match tree.writeDeep path (content a) with
  | .ok tree => .ok tree
  | .error cause => .error (.io path cause)

/-- One use of the files: an address is stored, any bytes are written, or an address is read. -/
inductive Access where
  | store (path : String) (a : Address)
  | write (path : String) (bytes : Bytes)
  | read (path : String)

namespace Access

def attempt (tree : FileTree) : Access -> FileTree.Attempt
  | .store path a => tree.tryWriteDeep path (content a)
  | .write path bytes => FileTree.Attempt.step tree (tree.write path bytes)
  | .read _ => ⟨tree, .ok ()⟩

def after (tree : FileTree) (access : Access) : FileTree :=
  (access.attempt tree).tree

end Access

end AddressFile
end KeyRegistry
