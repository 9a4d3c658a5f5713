import KeyRegistry.Address
import KeyRegistry.Text.Blank
import KeyRegistry.Text.Utf8

/-!
# Command lines

A command line names one command.  Options that apply to every command may stand
before the command, after it, or in both places; the later place wins.  A value
stands after its option, or is attached to it.  A value is checked when the next
option, argument or the end shows that it is complete, so of two faults the one
that is seen first counts.
-/

namespace KeyRegistry

inductive Command where
  | deploy
  /-- Asks about an account, or about the sender. -/
  | authorized (account : Option Address)
  | store (id key : String)
  | retrieve (id : String)
  | mine (threads : Option UInt32)
  | status
deriving DecidableEq

namespace CommandLine

inductive Refusal where
  | help
  | version
  /-- Nothing was given. -/
  | nothing
  | missingCommand
  | unknownCommand
  | unknownArgument
  | missingArgument
  | missingValue
  /-- A flag has a value. -/
  | surplusValue
  | badValue
  | repeatedOption
deriving DecidableEq, Repr

def Refusal.exitCode : Refusal -> Nat
  | .help => 0
  | .version => 0
  | _ => 2

/-- What is said of a refusal; help and the version are told by the program itself. -/
def Refusal.message : Refusal -> String
  | .help => "help was asked for"
  | .version => "the version was asked for"
  | .nothing => "no command is given"
  | .missingCommand => "a command is missing after the options"
  | .unknownCommand => "there is no such command"
  | .unknownArgument => "there is an argument or an option too many"
  | .missingArgument => "the command needs more arguments"
  | .missingValue => "an option has no value"
  | .surplusValue => "a flag has a value"
  | .badValue => "a value is not in order"
  | .repeatedOption => "an option is given twice"

structure Options where
  settingsFile : Option String := none
  rpcUrl : Option String := none
  wsUrl : Option String := none
  logLevel : Option String := none
  threads : Option UInt32 := none
deriving DecidableEq

def Options.over (inner outer : Options) : Options where
  settingsFile := inner.settingsFile.or outer.settingsFile
  rpcUrl := inner.rpcUrl.or outer.rpcUrl
  wsUrl := inner.wsUrl.or outer.wsUrl
  logLevel := inner.logLevel.or outer.logLevel
  threads := inner.threads.or outer.threads

def Options.isEmpty (o : Options) : Bool :=
  o.settingsFile.isNone && o.rpcUrl.isNone && o.wsUrl.isNone && o.logLevel.isNone &&
    o.threads.isNone

inductive Switch where
  | settingsFile
  | rpcUrl
  | wsUrl
  | logLevel
  | threads
  | help
  | version
deriving DecidableEq, Repr

/-- What may stand in one place of a command line. -/
structure Grammar where
  /-- The commands that may follow. -/
  commands : List String
  /-- The switches beyond those of every place. -/
  extra : List Switch
  /-- The checks of the arguments, in their order. -/
  arguments : List (String -> Bool)

namespace Switch

def ofLong? (grammar : Grammar) (name : String) : Option Switch :=
  let known := [("config", settingsFile), ("rpc", rpcUrl), ("ws", wsUrl), ("log-level", logLevel),
    ("help", help)] ++ (if version ∈ grammar.extra then [("version", version)] else []) ++
    (if threads ∈ grammar.extra then [("threads", threads)] else [])
  (known.find? fun entry => entry.1 = name).map Prod.snd

def ofShort? (grammar : Grammar) (c : Char) : Option Switch :=
  let known := [('r', rpcUrl), ('h', help)] ++
    (if version ∈ grammar.extra then [('V', version)] else []) ++
    (if threads ∈ grammar.extra then [('t', threads)] else [])
  (known.find? fun entry => entry.1 = c).map Prod.snd

def refusal? : Switch -> Option Refusal
  | help => some .help
  | version => some .version
  | _ => none

def fill {α : Type} (old : Option α) (value : α) : Except Refusal (Option α) :=
  if old.isSome then .error .repeatedOption else .ok (some value)

def store (s : Switch) (value : String) (o : Options) : Except Refusal Options :=
  match s with
  | settingsFile => do
      let filled <- fill o.settingsFile value
      if value.isEmpty then
        throw .missingValue
      return { o with settingsFile := filled }
  | rpcUrl => do return { o with rpcUrl := <- fill o.rpcUrl value }
  | wsUrl => do return { o with wsUrl := <- fill o.wsUrl value }
  | logLevel => do return { o with logLevel := <- fill o.logLevel value }
  | threads => do
      let filled <- fill o.threads (0 : UInt32)
      match filled, Numeral.signed? 64 value.toList with
      | some _, some n =>
          if 0 ≤ n ∧ n < UInt32.size then
            return { o with threads := some (UInt32.ofNat n.toNat) }
          else
            throw .badValue
      | _, _ => throw .badValue
  | help => .error .help
  | version => .error .version

end Switch

/-- What has been seen last and is still to be checked. -/
inductive Pending where
  | nothing
  | switch (s : Switch) (value : Option String)
  | argument (check : String -> Bool) (value : String)

structure Scan where
  options : Options
  arguments : List String
  pending : Pending
  /-- Whether everything that follows is an argument. -/
  argumentsOnly : Bool

namespace Scan

def start : Scan :=
  { options := {}, arguments := [], pending := .nothing, argumentsOnly := false }

def settle (s : Scan) : Except Refusal Scan :=
  match s.pending with
  | .nothing => .ok s
  | .switch _ none => .error .missingValue
  | .switch o (some value) => do
      return { s with options := <- o.store value s.options, pending := .nothing }
  | .argument check value =>
      if check value then
        .ok { s with arguments := s.arguments ++ [value], pending := .nothing }
      else
        .error .badValue

/-- Takes a switch, with the value that is attached to it, if there is one. -/
def takeSwitch (s : Scan) (o : Switch) (attached : Option String) : Except Refusal Scan := do
  match o.refusal?, attached with
  | some _, some _ => throw .surplusValue
  | some refusal, none =>
      let _ <- s.settle
      throw refusal
  | none, some value =>
      let s <- s.settle
      settle { s with pending := .switch o (some value) }
  | none, none =>
      let s <- s.settle
      return { s with pending := .switch o none }

def argumentCount (s : Scan) : Nat :=
  match s.pending with
  | .argument _ _ => s.arguments.length + 1
  | _ => s.arguments.length

/-- Takes a word that is no switch and no value of one. -/
def takeArgument (grammar : Grammar) (s : Scan) (word : String) : Except Refusal Scan := do
  match grammar.arguments[s.argumentCount]? with
  | some check =>
      let s <- s.settle
      return { s with pending := .argument check word }
  | none =>
      if grammar.commands.isEmpty ∨ (s.argumentsOnly ∧ word ∈ grammar.commands) then
        throw .unknownArgument
      else
        throw .unknownCommand

/-- A word after two dashes: its name, and the value after an equals sign. -/
def longParts (cs : List Char) : String × Option String :=
  match Text.cutFirst? '=' cs with
  | some (name, value) => (String.ofList name, some (String.ofList value))
  | none => (String.ofList cs, none)

def shortValue : List Char -> Option String
  | [] => none
  | '=' :: cs => some (String.ofList cs)
  | cs => some (String.ofList cs)

def takeWord (grammar : Grammar) (s : Scan) (word : String) : Except Refusal Scan :=
  if s.argumentsOnly then
    s.takeArgument grammar word
  else
    match word.toList with
    | ['-', '-'] => .ok { s with argumentsOnly := true }
    | '-' :: '-' :: cs =>
        let (name, attached) := longParts cs
        match Switch.ofLong? grammar name with
        | some o => s.takeSwitch o attached
        | none => .error .unknownArgument
    | '-' :: c :: cs =>
        match Switch.ofShort? grammar c with
        | some o => s.takeSwitch o (if o.refusal?.isSome then none else shortValue cs)
        | none => .error .unknownArgument
    | _ =>
        match s.pending with
        | .switch o none => .ok { s with pending := .switch o (some word) }
        | _ => s.takeArgument grammar word

def expectsValue (s : Scan) : Bool :=
  match s.pending with
  | .switch _ none => true
  | _ => false

end Scan

/-- Reads the words of one place up to a command, which is returned with the words after it. -/
def scan (grammar : Grammar) : Scan -> List String ->
    Except Refusal (Scan × Option (String × List String))
  | s, [] => .ok (s, none)
  | s, word :: words =>
      if !s.argumentsOnly ∧ !s.expectsValue ∧ word ∈ grammar.commands then
        .ok (s, some (word, words))
      else
        match s.takeWord grammar word with
        | .ok s => scan grammar s words
        | .error refusal => .error refusal

/-! ## The commands -/

def commandNames : List String :=
  ["deploy", "authorized", "store", "retrieve", "mine", "status"]

def outerGrammar : Grammar where
  commands := commandNames ++ ["help"]
  extra := [.version]
  arguments := []

def isFilled (word : String) : Bool :=
  !(Text.trim word.toList).isEmpty

def isAddress (word : String) : Bool :=
  (Address.parse word).toOption.isSome

def innerGrammar (name : String) : Grammar where
  commands := []
  extra := if name = "mine" then [.threads] else []
  arguments :=
    if name = "authorized" then [isAddress]
    else if name = "store" then [isFilled, isFilled]
    else if name = "retrieve" then [isFilled]
    else []

def command (name : String) (arguments : List String) (options : Options) :
    Except Refusal Command :=
  match name, arguments with
  | "deploy", _ => .ok .deploy
  | "authorized", [] => .ok (.authorized none)
  | "authorized", word :: _ => .ok (.authorized (Address.parse word).toOption)
  | "store", id :: key :: _ => .ok (.store id key)
  | "store", _ => .error .missingArgument
  | "retrieve", id :: _ => .ok (.retrieve id)
  | "retrieve", _ => .error .missingArgument
  | "mine", _ => .ok (.mine options.threads)
  | _, _ => .ok .status

def helpOn : List String -> Refusal
  | [] => .help
  | [topic] => if topic ∈ outerGrammar.commands then .help else .unknownCommand
  | _ => .unknownCommand

structure Invocation where
  settingsFile : Option String
  rpcUrl : Option String
  wsUrl : Option String
  logLevel : Option String
  command : Command
deriving DecidableEq

def parse (words : List String) : Except Refusal Invocation := do
  match <- scan outerGrammar Scan.start words with
  | (outer, none) =>
      let outer <- outer.settle
      if outer.options.isEmpty then throw .nothing else throw .missingCommand
  | (outer, some (name, words)) =>
      if name = "help" then
        throw (helpOn words)
      let (inner, _) <- scan (innerGrammar name) Scan.start words
      let inner <- inner.settle
      let command <- command name inner.arguments inner.options
      let outer <- outer.settle
      let options := inner.options.over outer.options
      return {
        settingsFile := options.settingsFile, rpcUrl := options.rpcUrl, wsUrl := options.wsUrl,
        logLevel := options.logLevel, command }

end CommandLine
end KeyRegistry
