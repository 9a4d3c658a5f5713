import KeyRegistry.Hex
import KeyRegistry.Text.Utf8

/-!
# Strings in TOML

A string is basic, with escapes, or literal, without; either kind may extend over
several lines between tripled quotes.  A string is written in the plainest form
that can hold it.
-/

namespace KeyRegistry
namespace Toml

def isControl (c : Char) : Bool :=
  (c.toNat < 0x20 && c ≠ '\t') || c.toNat = 0x7F

def dropNewline? : List Char -> Option (List Char)
  | '\n' :: cs => some cs
  | '\r' :: '\n' :: cs => some cs
  | _ => none

def isSpace (c : Char) : Bool :=
  c = ' ' ∨ c = '\t'

def dropSpaces (cs : List Char) : List Char :=
  cs.dropWhile isSpace

def dropBlankLines : Nat -> List Char -> List Char
  | 0, cs => cs
  | fuel + 1, cs =>
      match dropNewline? (dropSpaces cs) with
      | some rest => dropBlankLines fuel rest
      | none => dropSpaces cs

def codePoint? (count : Nat) (cs : List Char) : Option (Char × List Char) := do
  let digits := cs.take count
  if digits.length < count then
    none
  let values <- digits.mapM Hex.digitValue?
  let n := values.foldl (fun n d => 16 * n + d) 0
  if h : n.isValidChar then
    some (Char.ofNatAux n h, cs.drop count)
  else
    none

def escape? : List Char -> Option (Char × List Char)
  | 'b' :: cs => some (Char.ofNat 8, cs)
  | 'f' :: cs => some (Char.ofNat 12, cs)
  | 'n' :: cs => some ('\n', cs)
  | 'r' :: cs => some ('\r', cs)
  | 't' :: cs => some ('\t', cs)
  | '"' :: cs => some ('"', cs)
  | '\\' :: cs => some ('\\', cs)
  | 'u' :: cs => codePoint? 4 cs
  | 'U' :: cs => codePoint? 8 cs
  | _ => none

def lineText? : Nat -> Bool -> List Char -> List Char -> Option (String × List Char)
  | 0, _, _, _ => none
  | _, _, _, [] => none
  | fuel + 1, basic, acc, c :: cs =>
      if c = (if basic then '"' else '\'') then
        some (String.ofList acc.reverse, cs)
      else if basic ∧ c = '\\' then
        match escape? cs with
        | some (c, cs) => lineText? fuel basic (c :: acc) cs
        | none => none
      else if isControl c then
        none
      else
        lineText? fuel basic (c :: acc) cs

/-- The rest of a string over several lines, after its opening quotes.  Up to two quotes may stand
in it anywhere, also before the closing ones. -/
def blockText? : Nat -> Bool -> List Char -> List Char -> Option (String × List Char)
  | 0, _, _, _ => none
  | _, _, _, [] => none
  | fuel + 1, basic, acc, c :: cs =>
      let mark := if basic then '"' else '\''
      if c = mark then
        let count := ((c :: cs).takeWhile (· = mark)).length
        if count < 3 then
          blockText? fuel basic (c :: acc) cs
        else if count < 6 then
          some (String.ofList (acc.reverse ++ List.replicate (count - 3) mark),
            (c :: cs).drop count)
        else
          none
      else if basic ∧ c = '\\' then
        match dropNewline? (dropSpaces cs) with
        | some cs => blockText? fuel basic acc (dropBlankLines cs.length cs)
        | none =>
            match escape? cs with
            | some (c, cs) => blockText? fuel basic (c :: acc) cs
            | none => none
      else
        match dropNewline? (c :: cs) with
        | some cs => blockText? fuel basic ('\n' :: acc) cs
        | none => if isControl c then none else blockText? fuel basic (c :: acc) cs

def readLine? : List Char -> Option (String × List Char)
  | '"' :: cs => lineText? (cs.length + 1) true [] cs
  | '\'' :: cs => lineText? (cs.length + 1) false [] cs
  | _ => none

/-- A string of any form.  A line end right after tripled quotes does not belong to it. -/
def readText? : List Char -> Option (String × List Char)
  | '"' :: '"' :: '"' :: cs =>
      let cs := (dropNewline? cs).getD cs
      blockText? (cs.length + 1) true [] cs
  | '\'' :: '\'' :: '\'' :: cs =>
      let cs := (dropNewline? cs).getD cs
      blockText? (cs.length + 1) false [] cs
  | cs => readLine? cs

/-! ## Writing -/

def longestRun (c : Char) : List Char -> Nat
  | [] => 0
  | d :: cs => max ((d :: cs).takeWhile (· = c)).length (longestRun c cs)

def escapeChar (c : Char) : List Char :=
  if c = Char.ofNat 8 then ['\\', 'b']
  else if c = '\t' then ['\\', 't']
  else if c = '\n' then ['\\', 'n']
  else if c = Char.ofNat 12 then ['\\', 'f']
  else if c = '\r' then ['\\', 'r']
  else if c = '"' ∨ c = '\\' then ['\\', c]
  else if isControl c then
    ['\\', 'u', '0', '0', Hex.upperDigitChar (c.toNat / 16), Hex.upperDigitChar (c.toNat % 16)]
  else [c]

/-- The inside of a basic string over several lines: line ends stay, and of a run of quotes two
at a time. -/
def blockChars (quotes : Nat) : List Char -> List Char
  | [] => []
  | c :: cs =>
      if c = '"' then
        if quotes = 2 then '\\' :: '"' :: blockChars 0 cs else '"' :: blockChars (quotes + 1) cs
      else if c = '\n' then
        '\n' :: blockChars 0 cs
      else
        escapeChar c ++ blockChars 0 cs

def writeText (s : String) : List Char :=
  let cs := s.toList
  let needsCode := cs.any fun c => isControl c ∧ c ≠ '\n'
  let hasEscape := cs.contains '\\'
  let lines := cs.contains '\n'
  let start := if lines then ['\n'] else []
  if !needsCode ∧ !hasEscape ∧ !lines ∧ longestRun '"' cs = 0 then
    '"' :: cs.flatMap escapeChar ++ ['"']
  else if !needsCode ∧ !lines ∧ longestRun '\'' cs = 0 then
    '\'' :: cs ++ ['\'']
  else if !needsCode ∧ !hasEscape ∧ longestRun '"' cs ≤ 2 then
    ['"', '"', '"'] ++ start ++ blockChars 0 cs ++ ['"', '"', '"']
  else if !needsCode ∧ longestRun '\'' cs ≤ 2 then
    ['\'', '\'', '\''] ++ start ++ cs ++ ['\'', '\'', '\'']
  else if lines then
    ['"', '"', '"'] ++ start ++ blockChars 0 cs ++ ['"', '"', '"']
  else
    '"' :: cs.flatMap escapeChar ++ ['"']

end Toml
end KeyRegistry
