import KeyRegistry.Json.Text

/-!
# JSON text read as far as it goes

A reader of a typed document meets a text from left to right: a value of the
wrong shape is found before a fault further on, and the value of an unknown
member is passed over by a looser rule than a value that is read.  An outline is
all that such a reader can meet.  Where a text breaks off, the outline holds what
the strict rule finds there, and what passing over the value finds there, if
anything.
-/

namespace KeyRegistry
namespace Json

structure Stop where
  strict : Fault
  skipped : Option Fault
deriving DecidableEq, Repr

inductive Outline where
  | null
  | bool (b : Bool)
  | number (n : Number)
  | text (s : String)
  | list (items : List Outline) (tail : Option Stop)
  | record (members : List (String × Outline)) (tail : Option Stop)
  | stopped (stop : Stop)
deriving Inhabited

def depthLimit : Nat := 127

def dropBlank (cs : List Char) : List Char :=
  cs.dropWhile fun c => c = ' ' ∨ c = '\n' ∨ c = '\t' ∨ c = '\r'

def dropWord : List Char -> List Char -> Except Fault (List Char)
  | [], cs => .ok cs
  | _ :: _, [] => .error .cutShort
  | w :: word, c :: cs => if w = c then dropWord word cs else .error .malformed

mutual

def skipValue : Nat -> List Char -> Except Fault (List Char)
  | 0, _ => .error .cutShort
  | fuel + 1, cs =>
      match dropBlank cs with
      | [] => .error .cutShort
      | 'n' :: rest => dropWord ['u', 'l', 'l'] rest
      | 't' :: rest => dropWord ['r', 'u', 'e'] rest
      | 'f' :: rest => dropWord ['a', 'l', 's', 'e'] rest
      | '-' :: rest => skipNumber rest
      | '"' :: rest => skipText (rest.length + 1) rest
      | '[' :: rest => skipItems fuel true rest
      | '\x7b' :: rest => skipMembers fuel true rest
      | c :: rest => if isDigit c then skipNumber (c :: rest) else .error .malformed

/-- Passes over the items of a list, before the first one or after one. -/
def skipItems : Nat -> Bool -> List Char -> Except Fault (List Char)
  | 0, _, _ => .error .cutShort
  | fuel + 1, first, cs =>
      match dropBlank cs with
      | [] => .error .cutShort
      | c :: rest =>
          if c = ']' then
            .ok rest
          else if first then
            match skipValue fuel (c :: rest) with
            | .ok rest => skipItems fuel false rest
            | .error fault => .error fault
          else if c = ',' then
            match skipValue fuel rest with
            | .ok rest => skipItems fuel false rest
            | .error fault => .error fault
          else
            .error .malformed

/-- Passes over the members of a record, before the first one or after one. -/
def skipMembers : Nat -> Bool -> List Char -> Except Fault (List Char)
  | 0, _, _ => .error .cutShort
  | fuel + 1, first, cs =>
      match dropBlank cs with
      | [] => .error .cutShort
      | c :: rest =>
          if c = '\x7d' then
            .ok rest
          else if first then
            skipMember fuel (c :: rest)
          else if c = ',' then
            skipMember fuel rest
          else
            .error .malformed

def skipMember : Nat -> List Char -> Except Fault (List Char)
  | 0, _ => .error .cutShort
  | fuel + 1, cs =>
      match dropBlank cs with
      | [] => .error .cutShort
      | '"' :: rest =>
          match skipText (rest.length + 1) rest with
          | .error fault => .error fault
          | .ok rest =>
              match dropBlank rest with
              | [] => .error .cutShort
              | ':' :: rest =>
                  match skipValue fuel rest with
                  | .ok rest => skipMembers fuel false rest
                  | .error fault => .error fault
              | _ => .error .malformed
      | _ => .error .malformed

end

def Stop.both (fault : Fault) : Stop :=
  ⟨fault, some fault⟩

def Stop.ofSkip (fault : Fault) : Except Fault (List Char) -> Stop × Option (List Char)
  | .ok rest => (⟨fault, none⟩, some rest)
  | .error skipped => (⟨fault, some skipped⟩, none)

def scanNumber (negative : Bool) (cs : List Char) : Outline × Option (List Char) :=
  match readNumber negative cs with
  | .ok (n, rest) => (.number n, some rest)
  | .error fault =>
      let (stop, rest) := Stop.ofSkip fault (skipNumber cs)
      (.stopped stop, rest)

def scanText (cs : List Char) : Outline × Option (List Char) :=
  match readText (cs.length + 1) [] cs with
  | .ok (s, rest) => (.text s, some rest)
  | .error fault =>
      let (stop, rest) := Stop.ofSkip fault (skipText (cs.length + 1) cs)
      (.stopped stop, rest)

def scanWord (value : Outline) (word cs : List Char) : Outline × Option (List Char) :=
  match dropWord word cs with
  | .ok rest => (value, some rest)
  | .error fault => (.stopped (Stop.both fault), none)

mutual

/-- The outline of a value and the text after it, if any can be reached.  `depth` more
containers may be nested. -/
def scanValue : Nat -> Nat -> List Char -> Outline × Option (List Char)
  | 0, _, _ => (.stopped (Stop.both .cutShort), none)
  | fuel + 1, depth, cs =>
      match dropBlank cs with
      | [] => (.stopped (Stop.both .cutShort), none)
      | 'n' :: rest => scanWord .null ['u', 'l', 'l'] rest
      | 't' :: rest => scanWord (.bool true) ['r', 'u', 'e'] rest
      | 'f' :: rest => scanWord (.bool false) ['a', 'l', 's', 'e'] rest
      | '-' :: rest => scanNumber true rest
      | '"' :: rest => scanText rest
      | '[' :: rest =>
          match depth with
          | 0 =>
              let (stop, rest) := Stop.ofSkip .malformed (skipItems fuel true rest)
              (.stopped stop, rest)
          | depth + 1 =>
              let (items, tail, rest) := scanItems fuel depth true rest
              (.list items tail, rest)
      | '\x7b' :: rest =>
          match depth with
          | 0 =>
              let (stop, rest) := Stop.ofSkip .malformed (skipMembers fuel true rest)
              (.stopped stop, rest)
          | depth + 1 =>
              let (members, tail, rest) := scanMembers fuel depth true rest
              (.record members tail, rest)
      | c :: rest =>
          if isDigit c then
            scanNumber false (c :: rest)
          else
            (.stopped (Stop.both .malformed), none)

/-- The outlines of the items of a list, before the first one or after one. -/
def scanItems : Nat -> Nat -> Bool -> List Char ->
    List Outline × Option Stop × Option (List Char)
  | 0, _, _, _ => ([], some (Stop.both .cutShort), none)
  | fuel + 1, depth, first, cs =>
      match dropBlank cs with
      | [] => ([], some (Stop.both .cutShort), none)
      | c :: rest =>
          if c = ']' then
            ([], none, some rest)
          else if first then
            scanItem fuel depth (c :: rest)
          else if c = ',' then
            match dropBlank rest with
            | ']' :: _ => ([], some (Stop.both .malformed), none)
            | rest => scanItem fuel depth rest
          else
            ([], some (Stop.both .malformed), none)

def scanItem : Nat -> Nat -> List Char -> List Outline × Option Stop × Option (List Char)
  | 0, _, _ => ([], some (Stop.both .cutShort), none)
  | fuel + 1, depth, cs =>
      match scanValue fuel depth cs with
      | (item, none) => ([item], none, none)
      | (item, some rest) =>
          let (items, tail, rest) := scanItems fuel depth false rest
          (item :: items, tail, rest)

/-- The outlines of the members of a record, before the first one or after one. -/
def scanMembers : Nat -> Nat -> Bool -> List Char ->
    List (String × Outline) × Option Stop × Option (List Char)
  | 0, _, _, _ => ([], some (Stop.both .cutShort), none)
  | fuel + 1, depth, first, cs =>
      match dropBlank cs with
      | [] => ([], some (Stop.both .cutShort), none)
      | c :: rest =>
          if c = '\x7d' then
            ([], none, some rest)
          else if first then
            scanMember fuel depth (c :: rest)
          else if c = ',' then
            scanMember fuel depth rest
          else
            ([], some (Stop.both .malformed), none)

def scanMember : Nat -> Nat -> List Char ->
    List (String × Outline) × Option Stop × Option (List Char)
  | 0, _, _ => ([], some (Stop.both .cutShort), none)
  | fuel + 1, depth, cs =>
      match dropBlank cs with
      | [] => ([], some (Stop.both .cutShort), none)
      | '"' :: rest =>
          match readText (rest.length + 1) [] rest with
          | .error fault =>
              let (stop, rest) := Stop.ofSkip fault (skipMember fuel ('"' :: rest))
              ([], some stop, rest)
          | .ok (name, rest) =>
              match dropBlank rest with
              | [] => ([(name, .stopped (Stop.both .cutShort))], none, none)
              | ':' :: rest =>
                  match scanValue fuel depth rest with
                  | (value, none) => ([(name, value)], none, none)
                  | (value, some rest) =>
                      let (members, tail, rest) := scanMembers fuel depth false rest
                      ((name, value) :: members, tail, rest)
              | _ => ([(name, .stopped (Stop.both .malformed))], none, none)
      | _ => ([], some (Stop.both .malformed), none)

end

namespace Outline

/-- The outline of the value that starts a text, and the text after it. -/
def ofText (s : String) : Outline × Option (List Char) :=
  let cs := s.toList
  scanValue (4 * cs.length + 4) depthLimit cs

mutual

def ofJson : Json -> Outline
  | .null => .null
  | .bool b => .bool b
  | .number n => .number n
  | .text s => .text s
  | .list items => .list (ofItems items) none
  | .record members => .record (ofMembers members) none

def ofItems : List Json -> List Outline
  | [] => []
  | item :: items => ofJson item :: ofItems items

def ofMembers : List (String × Json) -> List (String × Outline)
  | [] => []
  | (name, value) :: members => (name, ofJson value) :: ofMembers members

end

end Outline
end Json
end KeyRegistry
