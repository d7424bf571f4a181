import TestScheduler.Config.Environment
import TestScheduler.Tree.Basic

/-! # Command lines

A command line names nested commands, each with options and operands. Words are read from left to
right. The value of an option is checked when the next option or operand is reached, so an earlier
mistake wins over a later request for help.
-/

namespace TestScheduler.Usage

/-- Why a command line is not carried out. -/
inductive Refusal where
  | help | version | misuse
  deriving DecidableEq, Repr

inductive ValueKind where
  | text
  /-- A text that is not empty. -/
  | path
  /-- A number of 64 bits. -/
  | number
  deriving DecidableEq, Repr

namespace ValueKind

def accepts : ValueKind → String → Bool
  | text, _ => true
  | path, value => value ≠ ""
  | number, value => (Text.word64? value).isSome

end ValueKind

inductive Role where
  /-- An option that stands for itself. -/
  | switch
  | value (kind : ValueKind)
  | help
  | version
  deriving DecidableEq, Repr

structure CommandOption where
  name : String
  short : Option Char := none
  role : Role := .switch
  deriving DecidableEq, Repr

structure Operand where
  name : String
  kind : ValueKind := .path
  deriving DecidableEq, Repr

structure Rules where
  options : List CommandOption := []
  operands : List Operand := []
  deriving DecidableEq, Repr

/-- The commands of a program, each with its name. -/
abbrev Grammar := Tree (String × Rules)

/-- An option or operand whose value is yet to be checked. -/
structure Pending where
  name : String
  kind : ValueKind
  value : Option String
  deriving DecidableEq, Repr

/-- What has been read for one command. -/
structure Level where
  grammar : Grammar
  switches : List String := []
  values : List (String × String) := []
  pending : Option Pending := none
  operandsRead : Nat := 0

namespace Level

def rules (l : Level) : Rules := l.grammar.value.2

def findLong? (l : Level) (name : String) : Option CommandOption :=
  l.rules.options.find? (·.name = name)

def findShort? (l : Level) (c : Char) : Option CommandOption :=
  l.rules.options.find? (·.short = some c)

def value? (l : Level) (name : String) : Option String := l.values.lookup name

def isOn (l : Level) (name : String) : Bool := l.switches.contains name

/-- Whether the next word is the value of an option. -/
def awaitsValue (l : Level) : Bool := l.pending.any (·.value.isNone)

/-- Takes a value over if it is of its kind and the only one. -/
def addValue (l : Level) (name : String) (kind : ValueKind) (value : String) :
    Except Refusal Level :=
  if (l.value? name).isSome || !kind.accepts value then .error .misuse
  else .ok { l with values := l.values ++ [(name, value)] }

/-- Checks the pending value. -/
def settle (l : Level) : Except Refusal Level :=
  match l.pending with
  | none => .ok l
  | some p =>
    match p.value with
    | none => .error .misuse
    | some value => { l with pending := none }.addValue p.name p.kind value

/-- Reads an option, perhaps with a value attached to it. -/
def readOption (l : Level) (o : CommandOption) (attached : Option String) :
    Except Refusal Level := do
  match o.role, attached with
  | .value kind, some value => (← l.settle).addValue o.name kind value
  | .value kind, none => .ok { ← l.settle with pending := some ⟨o.name, kind, none⟩ }
  | _, some _ => .error .misuse
  | .switch, none =>
    let l ← l.settle
    if l.isOn o.name then .error .misuse
    else .ok { l with switches := o.name :: l.switches }
  | .help, none => do
    let _ ← l.settle
    .error .help
  | .version, none => do
    let _ ← l.settle
    .error .version

/-- Reads an option written with its name. -/
def readLong (l : Level) (text : List Char) : Except Refusal Level :=
  let name := String.ofList (text.takeWhile (· ≠ '='))
  let attached := match text.dropWhile (· ≠ '=') with
    | [] => none
    | _ :: value => some (String.ofList value)
  match l.findLong? name with
  | some o => l.readOption o attached
  | none => .error .misuse

/-- Reads options of one letter each; what follows one that takes a value is its value. -/
def readShort (l : Level) : List Char → Except Refusal Level
  | [] => .ok l
  | c :: rest =>
    match l.findShort? c with
    | none => .error .misuse
    | some o =>
      match o.role with
      | .value _ =>
        let attached := match rest with
          | [] => none
          | '=' :: value => some (String.ofList value)
          | value => some (String.ofList value)
        l.readOption o attached
      | _ => do readShort (← l.readOption o none) rest

def readOperand (l : Level) (word : String) : Except Refusal Level := do
  match l.rules.operands[l.operandsRead]? with
  | none => .error .misuse
  | some operand =>
    .ok { ← l.settle with
      pending := some ⟨operand.name, operand.kind, some word⟩
      operandsRead := l.operandsRead + 1 }

/-- Reads a word that names no command. -/
def readWord (l : Level) (word : String) : Except Refusal Level :=
  match word.toList with
  | '-' :: '-' :: text => l.readLong text
  | '-' :: c :: rest => l.readShort (c :: rest)
  | _ =>
    match l.pending with
    | some ⟨name, kind, none⟩ => .ok { l with pending := some ⟨name, kind, some word⟩ }
    | _ => l.readOperand word

end Level

def commandNamed? (g : Grammar) (name : String) : Option Grammar :=
  g.children.find? (·.value.1 = name)

/-- The command that lists commands; it is there wherever commands are. -/
def helpCommand : String := "help"

/-- What has been read of a command line. -/
inductive Reading where
  /-- Commands, innermost first, and whether only operands may follow. -/
  | commands (inner : Level) (outer : List Level) (onlyOperands : Bool)
  /-- A request for help on a command. -/
  | helpOn (g : Grammar)

namespace Reading

def step : Reading → String → Except Refusal Reading
  | helpOn g, word =>
    match commandNamed? g word with
    | some g => .ok (helpOn g)
    | none =>
      if word = helpCommand && !g.children.isEmpty then .ok (helpOn (.node (word, {}) []))
      else .error .misuse
  | commands inner outer true, word => do .ok (commands (← inner.readOperand word) outer true)
  | commands inner outer false, word =>
    let other : Except Refusal Reading :=
      if word = "--" then .ok (commands inner outer true)
      else do .ok (commands (← inner.readWord word) outer false)
    if inner.awaitsValue then other
    else
      match commandNamed? inner.grammar word with
      | some g => .ok (commands { grammar := g } (inner :: outer) false)
      | none =>
        if word = helpCommand && !inner.grammar.children.isEmpty then .ok (helpOn inner.grammar)
        else other

/-- The levels of a finished command line, outermost first. -/
def finish : Reading → Except Refusal (List Level)
  | helpOn _ => .error .help
  | commands inner outer _ => do .ok (← (inner :: outer).mapM Level.settle).reverse

end Reading

/-- Reads the words after the program's name. -/
def readWords (g : Grammar) (words : List String) : Except Refusal (List Level) := do
  (← words.foldlM Reading.step (.commands { grammar := g } [] false)).finish

end TestScheduler.Usage
