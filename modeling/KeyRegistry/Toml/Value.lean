/-!
# TOML values and tables

A document fills one table, line by line.  A table remembers how it came to be,
because a header may name a table only once, and a dotted key may extend only the
tables that dotted keys have made.
-/

namespace KeyRegistry
namespace Toml

inductive Origin where
  /-- Written on one line, and complete. -/
  | closed
  /-- Named by a header. -/
  | headed
  /-- On the way to a table that a header names. -/
  | implied
  /-- Made by a dotted key. -/
  | dotted
deriving DecidableEq, Repr

/-- A value.  Floats and moments in time are told apart from other values, and no more. -/
inductive Value where
  | text (s : String)
  | integer (n : Int)
  | float
  | bool (b : Bool)
  | moment
  | list (items : List Value)
  | table (origin : Origin) (entries : List (String × Value))
  /-- The tables of one repeated header, the last one apart. -/
  | tables (earlier : List Value) (last : List (String × Value))
deriving Inhabited

abbrev Entries := List (String × Value)

namespace Entries

/-- The entries with the value of `name` changed by `f`, which may refuse; `f` gets nothing where
there is no such entry. -/
def update (name : String) (f : Option Value -> Option Value) : Entries -> Option Entries
  | [] => (f none).map fun value => [(name, value)]
  | entry :: entries =>
      if entry.1 = name then
        (f (some entry.2)).map fun value => (name, value) :: entries
      else
        (update name f entries).map fun entries => entry :: entries

def add (name : String) (value : Value) (entries : Entries) : Option Entries :=
  update name (fun old => if old.isNone then some value else none) entries

/-- Adds a value under a dotted key: the names on the way, and the last name.  The table that
gets the entry must have been made by a dotted key. -/
def assign (name : String) (value : Value) : List String -> Entries -> Option Entries
  | [], entries => add name value entries
  | step :: path, entries =>
      update step (fun
        | none => (assign name value path []).map (.table .dotted)
        | some (.table .dotted inner) => (assign name value path inner).map (.table .dotted)
        | some (.table .implied inner) =>
            if path.isEmpty then none
            else (assign name value path inner).map (.table .implied)
        | some (.tables earlier last) =>
            if path.isEmpty then none
            else (assign name value path last).map (.tables earlier)
        | _ => none) entries

/-- Changes the table that a header path leads to, making the tables on the way. -/
def enter (f : Entries -> Option Entries) : List String -> Entries -> Option Entries
  | [], entries => f entries
  | step :: path, entries =>
      update step (fun
        | none => (enter f path []).map (.table .implied)
        | some (.table .closed _) => none
        | some (.table origin inner) => (enter f path inner).map (.table origin)
        | some (.tables earlier last) => (enter f path last).map (.tables earlier)
        | _ => none) entries

/-- Makes the table of a header, or takes over one that was only implied. -/
def head (name : String) (entries : Entries) : Option Entries :=
  update name (fun
    | none => some (.table .headed [])
    | some (.table .implied inner) => some (.table .headed inner)
    | _ => none) entries

def headAgain (name : String) (entries : Entries) : Option Entries :=
  update name (fun
    | none => some (.tables [] [])
    | some (.tables earlier last) => some (.tables (earlier ++ [.table .headed last]) [])
    | _ => none) entries

end Entries
end Toml
end KeyRegistry
