import TestScheduler.Text.Numeral
import TestScheduler.Yaml.Cursor

/-! # Scalars in YAML text

Plain, quoted and block scalars. Each reader starts at the first character of a scalar and
returns its text with the cursor behind it.
-/

namespace TestScheduler.Yaml

/-- White space between the words of a scalar: blanks on one line, or line breaks. -/
structure Spacing where
  blanks : List Char := []
  isBroken : Bool := false
  firstBreak : List Char := []
  moreBreaks : List Char := []

namespace Spacing

def isNone (s : Spacing) : Bool := s.blanks.isEmpty && !s.isBroken

def addBlank (s : Spacing) (c : Char) : Spacing :=
  if s.isBroken then s else { s with blanks := s.blanks ++ [c] }

def addBreak (s : Spacing) (text : List Char) : Spacing :=
  if s.isBroken then { s with moreBreaks := s.moreBreaks ++ text }
  else { isBroken := true, firstBreak := text }

def text (s : Spacing) : List Char :=
  if s.isBroken then folded s.firstBreak s.moreBreaks else s.blanks

end Spacing

/-! ## Plain scalars -/

def isFlowMark (c : Char) : Bool := [',', '[', ']', '\x7b', '\x7d'].contains c

/-- Whether a plain scalar ends before a character that is not white space. -/
def endsPlain (inFlow : Bool) : List Char → Bool
  | [] => true
  | ':' :: rest => isGap rest
  | c :: _ => inFlow && isFlowMark c

/-- Whether a colon stands where none may stand in a flow collection. -/
def isBadColon (inFlow : Bool) : List Char → Bool
  | ':' :: c :: _ => inFlow && (isFlowMark c || c = '?')
  | _ => false

/-- A plain scalar whose lines after the first are indented at least to a column. The flag tells
whether line breaks follow it. -/
def plainFrom (inFlow : Bool) (indent : Nat) :
    Nat → List Char → Spacing → Cursor → Option (List Char × Bool × Cursor)
  | 0, _, _, _ => none
  | fuel + 1, read, spacing, c =>
    let done := some (read, spacing.isBroken, c)
    match c.rest with
    | [] => done
    | x :: _ =>
      if isBlank x then
        if spacing.isBroken && c.column < indent && x = '\t' then none
        else plainFrom inFlow indent fuel read (spacing.addBlank x) (c.skip 1)
      else if isBreak x then
        let (text, next) := c.takeBreak
        plainFrom inFlow indent fuel read (spacing.addBreak text) next
      else if !spacing.isNone && ((!inFlow && c.column < indent) || x = '#' ||
          (c.column = 0 && startsDocumentMark c.rest)) then done
      else if isBadColon inFlow c.rest then none
      else if endsPlain inFlow c.rest then done
      else plainFrom inFlow indent fuel (read ++ spacing.text ++ [x]) {} (c.skip 1)

def plain? (inFlow : Bool) (indent : Nat) (c : Cursor) : Option (List Char × Bool × Cursor) :=
  plainFrom inFlow indent (c.rest.length + 1) [] {} c

/-! ## Quoted scalars -/

/-- The character with a code of so many hexadecimal digits. -/
def coded? (digits : Nat) (cs : List Char) : Option Char := do
  guard (digits ≤ cs.length)
  Text.charOf? (← Text.number? 16 (cs.take digits))

/-- The character that an escape stands for, and the length of the escape. -/
def escaped? (letter : Char) (rest : List Char) : Option (Char × Nat) :=
  let one (c : Char) := some (c, 2)
  match letter with
  | '0' => one '\x00'
  | 'a' => one '\x07'
  | 'b' => one '\x08'
  | 't' => one '\t'
  | '\t' => one '\t'
  | 'n' => one '\n'
  | 'v' => one '\x0b'
  | 'f' => one '\x0c'
  | 'r' => one '\r'
  | 'e' => one '\x1b'
  | ' ' => one ' '
  | '"' => one '"'
  | '/' => one '/'
  | '\\' => one '\\'
  | 'N' => one '\x85'
  | '_' => one '\xa0'
  | 'L' => one '\u2028'
  | 'P' => one '\u2029'
  | 'x' => (coded? 2 rest).map (·, 4)
  | 'u' => (coded? 4 rest).map (·, 6)
  | 'U' => (coded? 8 rest).map (·, 10)
  | _ => none

/-- The rest of a quoted scalar after its opening quote. -/
def quotedFrom (quote : Char) :
    Nat → List Char → Spacing → Cursor → Option (List Char × Cursor)
  | 0, _, _, _ => none
  | fuel + 1, read, spacing, c =>
    let add (text : List Char) (length : Nat) :=
      quotedFrom quote fuel (read ++ spacing.text ++ text) {} (c.skip length)
    match c.rest with
    | [] => none
    | x :: rest =>
      if c.column = 0 && startsDocumentMark c.rest then none
      else if isBlank x then quotedFrom quote fuel read (spacing.addBlank x) (c.skip 1)
      else if isBreak x then
        let (text, next) := c.takeBreak
        quotedFrom quote fuel read (spacing.addBreak text) next
      else if x = '\'' && quote = '\'' && rest.head? = some '\'' then add ['\''] 2
      else if x = quote then some (read ++ spacing.text, c.skip 1)
      else if x = '\\' && quote = '"' then
        match rest with
        | [] => none
        | letter :: rest =>
          if isBreak letter then
            quotedFrom quote fuel (read ++ spacing.text) { isBroken := true }
              (c.skip 1).takeBreak.2
          else
            match escaped? letter rest with
            | some (char, length) => add [char] length
            | none => none
      else add [x] 1

def quoted? (quote : Char) (c : Cursor) : Option (List Char × Cursor) :=
  quotedFrom quote (c.rest.length + 1) [] {} (c.skip 1)

/-! ## Block scalars -/

inductive Chomping where
  | strip | clip | keep
  deriving DecidableEq

def chomping? (c : Char) : Option Chomping :=
  if c = '-' then some .strip else if c = '+' then some .keep else none

def indentHint? (c : Char) : Option Nat :=
  if '1' ≤ c ∧ c ≤ '9' then some (c.toNat - '0'.toNat) else none

/-- The chomping and indentation hints in either order. -/
def blockHints (c : Cursor) : Chomping × Option Nat × Cursor :=
  match c.rest with
  | x :: y :: _ =>
    match chomping? x, indentHint? x with
    | some chomp, _ =>
      match indentHint? y with
      | some n => (chomp, some n, c.skip 2)
      | none => (chomp, none, c.skip 1)
    | none, some n =>
      match chomping? y with
      | some chomp => (chomp, some n, c.skip 2)
      | none => (.clip, some n, c.skip 1)
    | none, none => (.clip, none, c)
  | [x] =>
    match chomping? x, indentHint? x with
    | some chomp, _ => (chomp, none, c.skip 1)
    | none, some n => (.clip, some n, c.skip 1)
    | none, none => (.clip, none, c)
  | [] => (.clip, none, c)

/-- Empty lines, up to an indentation if it is known, and the widest indentation seen. -/
def emptyLines (indent : Option Nat) :
    Nat → Nat → List Char → Cursor → Option (Nat × List Char × Cursor)
  | 0, _, _, _ => none
  | fuel + 1, widest, breaks, c =>
    let spaces := (c.rest.takeWhile (· = ' ')).length
    let c := c.skip (match indent with
      | some n => min spaces (n - c.column)
      | none => spaces)
    let widest := max widest c.column
    let isOpen := match indent with
      | some n => decide (c.column < n)
      | none => true
    match c.rest with
    | x :: _ =>
      if isOpen && x = '\t' then none
      else if isBreak x then
        let (text, next) := c.takeBreak
        emptyLines indent fuel widest (breaks ++ text) next
      else some (widest, breaks, c)
    | [] => some (widest, breaks, c)

/-- The lines of a block scalar. `lastBreak` ended the line before, `breaks` are the empty lines
after it, and `wasBlank` tells whether it began with a blank. -/
def blockLines (isLiteral : Bool) (chomping : Chomping) (indent : Nat) :
    Nat → List Char → List Char → List Char → Bool → Cursor → Option (List Char × Cursor)
  | 0, _, _, _, _, _ => none
  | fuel + 1, read, lastBreak, breaks, wasBlank, c =>
    if c.column = indent && !c.rest.isEmpty then
      let isBlankNow := c.head?.any isBlank
      let joint :=
        if !isLiteral && lastBreak = ['\n'] && !wasBlank && !isBlankNow then
          (if breaks.isEmpty then [' '] else breaks)
        else lastBreak ++ breaks
      let line := c.rest.takeWhile (!isBreak ·)
      let (lineBreak, next) := c.skipLine.takeBreak
      match emptyLines (some indent) (next.rest.length + 1) 0 [] next with
      | none => none
      | some (_, breaks, next) =>
        blockLines isLiteral chomping indent fuel (read ++ joint ++ line) lineBreak breaks
          isBlankNow next
    else
      let ending := match chomping with
        | .strip => []
        | .clip => lastBreak
        | .keep => lastBreak ++ breaks
      some (read ++ ending, c)

/-- A block scalar inside a collection with a given indentation. -/
def block? (isLiteral : Bool) (outer : Option Nat) (c : Cursor) : Option (List Char × Cursor) := do
  let (chomping, hint, c) := blockHints (c.skip 1)
  let c := c.skipWhile isBlank
  let c := if c.head? = some '#' then c.skipLine else c
  guard (c.rest.isEmpty || c.head?.any isBreak)
  let c := c.takeBreak.2
  let least := match outer with
    | some n => n + 1
    | none => 1
  let fuel := c.rest.length + 2
  match hint with
  | some n =>
    let indent := outer.getD 0 + n
    let (_, breaks, c) ← emptyLines (some indent) fuel 0 [] c
    blockLines isLiteral chomping indent fuel [] [] breaks false c
  | none =>
    let (widest, breaks, c) ← emptyLines none fuel 0 [] c
    blockLines isLiteral chomping (max widest least) fuel [] [] breaks false c

end TestScheduler.Yaml
