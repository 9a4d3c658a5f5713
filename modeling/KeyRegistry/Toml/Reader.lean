import KeyRegistry.Toml.Scalar
import KeyRegistry.Toml.Text

/-!
# Reading TOML documents

A document is a sequence of lines: a key with its value, a header that names the
table of the lines after it, a comment, or nothing.
-/

namespace KeyRegistry
namespace Toml

/-- Lists and tables may be nested this deep, and a key may have this many parts. -/
def depthLimit : Nat := 79

def isBareChar (c : Char) : Bool :=
  c.isAlphanum || c = '_' || c = '-'

def keyPart? (cs : List Char) : Option (String × List Char) :=
  match cs with
  | '"' :: _ => readLine? cs
  | '\'' :: _ => readLine? cs
  | _ =>
      let bare := cs.takeWhile isBareChar
      if bare.isEmpty then none else some (String.ofList bare, cs.dropWhile isBareChar)

def keyParts? : Nat -> List Char -> Option (List String × List Char)
  | 0, _ => none
  | fuel + 1, cs => do
      let (part, rest) <- keyPart? (dropSpaces cs)
      match dropSpaces rest with
      | '.' :: rest => do
          let (parts, rest) <- keyParts? fuel rest
          return (part :: parts, rest)
      | rest => return ([part], rest)

def key? (cs : List Char) : Option (List String × String × List Char) := do
  let (parts, rest) <- keyParts? depthLimit cs
  return (parts.dropLast, <- parts.getLast?, rest)

def dropComment : List Char -> List Char
  | '#' :: cs => cs.dropWhile fun c => !isControl c
  | cs => cs

/-- Drops the end of a line: spaces, a comment, and the line end unless the text ends. -/
def endLine? (cs : List Char) : Option (List Char) :=
  match dropComment (dropSpaces cs) with
  | [] => some []
  | cs => dropNewline? cs

def dropFiller : Nat -> List Char -> List Char
  | 0, cs => cs
  | fuel + 1, cs =>
      match dropNewline? (dropComment (dropSpaces cs)) with
      | some rest => dropFiller fuel rest
      | none => dropSpaces cs

mutual

/-- Reads a value; `depth` more lists and tables may be nested. -/
def value? : Nat -> Nat -> List Char -> Option (Value × List Char)
  | 0, _, _ => none
  | _, _, [] => none
  | fuel + 1, depth, c :: cs =>
      if c = '"' ∨ c = '\'' then
        (readText? (c :: cs)).map fun (s, rest) => (.text s, rest)
      else if c = '[' then
        match depth with
        | 0 => none
        | depth + 1 => (items? fuel depth cs).map fun (items, rest) => (.list items, rest)
      else if c = '\x7b' then
        match depth with
        | 0 => none
        | depth + 1 =>
            match dropSpaces cs with
            | '\x7d' :: rest => some (.table .closed [], rest)
            | _ => (pairs? fuel depth [] cs).map fun (es, rest) => (.table .closed es, rest)
      else
        match c :: cs with
        | 't' :: 'r' :: 'u' :: 'e' :: rest => some (.bool true, rest)
        | 'f' :: 'a' :: 'l' :: 's' :: 'e' :: rest => some (.bool false, rest)
        | cs => numeric? cs

def items? : Nat -> Nat -> List Char -> Option (List Value × List Char)
  | 0, _, _ => none
  | fuel + 1, depth, cs =>
      match dropFiller cs.length cs with
      | ']' :: rest => some ([], rest)
      | cs => do
          let (item, rest) <- value? fuel depth cs
          match dropFiller rest.length rest with
          | ',' :: rest => do
              let (items, rest) <- items? fuel depth rest
              return (item :: items, rest)
          | ']' :: rest => return ([item], rest)
          | _ => none

/-- Reads the keys and values of a table on one line up to its end. -/
def pairs? : Nat -> Nat -> Entries -> List Char -> Option (Entries × List Char)
  | 0, _, _, _ => none
  | fuel + 1, depth, entries, cs => do
      let (path, name, rest) <- key? cs
      let rest <- expect? '=' rest
      let (value, rest) <- value? fuel depth (dropSpaces rest)
      let entries <- entries.assign name value path
      match dropSpaces rest with
      | ',' :: rest => pairs? fuel depth entries rest
      | '\x7d' :: rest => return (entries, rest)
      | _ => none

end

/-- What has been read of a document: its entries, and the header that holds. -/
structure Progress where
  entries : Entries
  header : List String

def header? (p : Progress) (cs : List Char) : Option (Progress × List Char) :=
  match cs with
  | '[' :: cs => do
      let (path, name, rest) <- key? cs
      let rest <- expect? ']' rest
      let rest <- expect? ']' rest
      let entries <- p.entries.enter (Entries.headAgain name) path
      return ({ entries, header := path ++ [name] }, rest)
  | cs => do
      let (path, name, rest) <- key? cs
      let rest <- expect? ']' rest
      let entries <- p.entries.enter (Entries.head name) path
      return ({ entries, header := path ++ [name] }, rest)

def pair? (p : Progress) (cs : List Char) : Option (Progress × List Char) := do
  let (path, name, rest) <- key? cs
  let rest <- expect? '=' rest
  let (value, rest) <- value? (2 * rest.length + 2) depthLimit (dropSpaces rest)
  let entries <- p.entries.enter (Entries.assign name value path) p.header
  return ({ p with entries }, rest)

def lines? : Nat -> Progress -> List Char -> Option Entries
  | 0, _, _ => none
  | fuel + 1, p, cs =>
      match dropSpaces cs with
      | [] => some p.entries
      | c :: cs =>
          if c = '#' ∨ c = '\n' ∨ c = '\r' then do
            lines? fuel p (<- endLine? (c :: cs))
          else do
            let (p, rest) <- if c = '[' then header? p cs else pair? p (c :: cs)
            lines? fuel p (<- endLine? rest)

/-- The entries of a document; a byte order mark may stand in front. -/
def parse? (text : String) : Option Entries :=
  let cs := text.toList
  let cs := if cs.head? = some (Char.ofNat 0xFEFF) then cs.tail else cs
  lines? (cs.length + 1) { entries := [], header := [] } cs

end Toml
end KeyRegistry
