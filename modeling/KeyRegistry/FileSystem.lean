import KeyRegistry.Bytes
import KeyRegistry.Text.Utf8

/-!
# Files

A file tree holds directories and files under absolute paths, and a working
directory at which relative paths start.  An operation of one step either happens
completely or fails and changes nothing; one of several steps leaves what has been
done before the step that fails.  Every entry may be read and written: permissions
are no part of a tree.
-/

namespace KeyRegistry

inductive FileError where
  | notFound
  | notADirectory
  | isADirectory
  | alreadyExists
  | nameTooLong
  | zeroByte
  | invalidText
deriving DecidableEq, Repr

def FileError.message : FileError -> String
  | .notFound => "No such file or directory (os error 2)"
  | .notADirectory => "Not a directory (os error 20)"
  | .isADirectory => "Is a directory (os error 21)"
  | .alreadyExists => "File exists (os error 17)"
  | .nameTooLong => "File name too long (os error 36)"
  | .zeroByte => "file name contained an unexpected NUL byte"
  | .invalidText => "stream did not contain valid UTF-8"

inductive FileEntry where
  | directory
  | file (content : Bytes)
deriving DecidableEq, Repr

abbrev Place := List String

structure FileTree where
  entries : List (Place × FileEntry)
  here : Place
deriving DecidableEq

namespace FileTree

/-- The entry at a place.  The root is always a directory. -/
def entry? (tree : FileTree) (place : Place) : Option FileEntry :=
  if place.isEmpty then
    some .directory
  else
    (tree.entries.find? fun e => e.1 = place).map Prod.snd

def isDirectory (tree : FileTree) (place : Place) : Bool :=
  tree.entry? place = some .directory

def put (tree : FileTree) (place : Place) (entry : FileEntry) : FileTree :=
  if tree.entries.any fun e => e.1 = place then
    { tree with entries := tree.entries.map fun e => if e.1 = place then (place, entry) else e }
  else
    { tree with entries := tree.entries ++ [(place, entry)] }

def walk (tree : FileTree) : Place -> List String -> Except FileError Place
  | place, [] => .ok place
  | place, name :: names =>
      match tree.entry? place with
      | none => .error .notFound
      | some (.file _) => .error .notADirectory
      | some .directory =>
          if name = "." then walk tree place names
          else if name = ".." then walk tree place.dropLast names
          else if 255 < name.utf8ByteSize then .error .nameTooLong
          else walk tree (place ++ [name]) names

/-- A path as a text names it: where it starts, its names, and whether it ends in a separator. -/
structure Path where
  absolute : Bool
  names : List String
  directoryOnly : Bool

def Path.ofText (text : String) : Path :=
  let pieces := Text.splitAt '/' text.toList
  { absolute := text.toList.head? = some '/',
    names := (pieces.filter (· ≠ [])).map String.ofList,
    directoryOnly := pieces.getLast? = some [] }

/-- The names of a path without those that stay where they are, of which only a relative path may
start with one. -/
def Path.components (path : Path) : List String :=
  match path.names with
  | [] => []
  | name :: names =>
      let later := names.filter (· ≠ ".")
      if path.absolute ∧ name = "." then later else name :: later

/-- The place that a path names, whether or not anything is there; every directory on the way
must be. -/
def locate (tree : FileTree) (text : String) : Except FileError Place :=
  if text.toList.contains (Char.ofNat 0) then .error .zeroByte
  else if text.isEmpty then .error .notFound
  else if 4095 < text.utf8ByteSize then .error .nameTooLong
  else
    let path := Path.ofText text
    tree.walk (if path.absolute then [] else tree.here) path.names

/-- The places on the way along names, from a directory down to the place that is named. -/
def visited : Place -> List String -> List Place
  | _, [] => []
  | place, name :: names =>
      let next :=
        if name = "." then place
        else if name = ".." then place.dropLast
        else place ++ [name]
      next :: visited next names

def holds (tree : FileTree) (text : String) : Bool :=
  match tree.locate text with
  | .error _ => false
  | .ok place =>
      match tree.entry? place with
      | none => false
      | some .directory => true
      | some (.file _) => !(Path.ofText text).directoryOnly

def read (tree : FileTree) (text : String) : Except FileError Bytes := do
  let place <- tree.locate text
  match tree.entry? place with
  | none => throw .notFound
  | some .directory => throw .isADirectory
  | some (.file content) =>
      if (Path.ofText text).directoryOnly then throw .notADirectory else return content

def readText (tree : FileTree) (text : String) : Except FileError String := do
  let content <- tree.read text
  match Text.decode? content with
  | some s => return s
  | none => throw .invalidText

def write (tree : FileTree) (text : String) (content : Bytes) : Except FileError FileTree := do
  let place <- tree.locate text
  match tree.entry? place with
  | some .directory => throw .isADirectory
  | some (.file _) =>
      if (Path.ofText text).directoryOnly then
        throw .notADirectory
      return tree.put place (.file content)
  | none =>
      if (Path.ofText text).directoryOnly then
        throw .isADirectory
      return tree.put place (.file content)

def makeDirectory (tree : FileTree) (text : String) : Except FileError FileTree := do
  let place <- tree.locate text
  match tree.entry? place with
  | some _ => throw .alreadyExists
  | none => return tree.put place .directory

/-- The path of the directory that holds a path, as text; the last of its names is dropped. -/
def parent? (text : String) : Option String :=
  let path := Path.ofText text
  match path.components.reverse with
  | [] => none
  | _ :: names =>
      let joined := String.intercalate "/" names.reverse
      some (if path.absolute then "/" ++ joined else joined)

def reachesDirectory (tree : FileTree) (text : String) : Bool :=
  match tree.locate text with
  | .ok place => tree.isDirectory place
  | .error _ => false

/-- The tree after the steps of an operation, up to one that fails, and how the operation ends. -/
structure Attempt where
  tree : FileTree
  result : Except FileError Unit

namespace Attempt

def step (tree : FileTree) : Except FileError FileTree -> Attempt
  | .ok after => ⟨after, .ok ()⟩
  | .error cause => ⟨tree, .error cause⟩

def andThen (attempt : Attempt) (next : FileTree -> Attempt) : Attempt :=
  match attempt.result with
  | .ok () => next attempt.tree
  | .error _ => attempt

def outcome (attempt : Attempt) : Except FileError FileTree :=
  match attempt.result with
  | .ok () => .ok attempt.tree
  | .error cause => .error cause

end Attempt

def tryDirectory (tree : FileTree) (text : String) : Attempt :=
  match tree.makeDirectory text with
  | .ok made => ⟨made, .ok ()⟩
  | .error cause => ⟨tree, if tree.reachesDirectory text then .ok () else .error cause⟩

def tryDirectories : Nat -> FileTree -> String -> Attempt
  | 0, tree, _ => ⟨tree, .ok ()⟩
  | fuel + 1, tree, text =>
      if text.isEmpty then
        ⟨tree, .ok ()⟩
      else
        match tree.makeDirectory text with
        | .error .notFound =>
            match parent? text with
            | none => ⟨tree, .error .notFound⟩
            | some above =>
                (tryDirectories fuel tree above).andThen fun tree => tree.tryDirectory text
        | _ => tree.tryDirectory text

def makeDirectories (fuel : Nat) (tree : FileTree) (text : String) : Except FileError FileTree :=
  (tryDirectories fuel tree text).outcome

def tryWriteDeep (tree : FileTree) (text : String) (content : Bytes) : Attempt :=
  let above : Attempt :=
    match parent? text with
    | none => ⟨tree, .ok ()⟩
    | some above => tryDirectories (text.length + 1) tree above
  above.andThen fun tree => Attempt.step tree (tree.write text content)

/-- The tree with a file of the given content and the directories above it. -/
def writeDeep (tree : FileTree) (text : String) (content : Bytes) : Except FileError FileTree :=
  (tree.tryWriteDeep text content).outcome

end FileTree
end KeyRegistry
