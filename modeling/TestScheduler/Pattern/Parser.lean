import TestScheduler.Pattern.Syntax
import TestScheduler.Text.Numeral

/-! # Reading patterns

Patterns are read from left to right with an explicit stack of open groups. Anything outside the
syntax makes the whole pattern invalid: a repetition without an operand, an unknown letter after
a backslash, a bracket left open, a range that runs backwards.
-/

namespace TestScheduler.Pattern

/-- The switches a pattern can set with `(?...)`. -/
structure Flags where
  anyCase : Bool := false
  multiLine : Bool := false
  dotAll : Bool := false
  /-- Blanks and comments in the pattern are skipped. -/
  spaced : Bool := false
  ascii : Bool := false
  crlf : Bool := false
  deriving DecidableEq, Repr

def Flags.folding (f : Flags) : Folding :=
  if f.anyCase then (if f.ascii then .ascii else .full) else .exact

/-- Turns the switch with a letter on or off. -/
def Flags.with? (f : Flags) (switch : Char) (on : Bool) : Option Flags :=
  match switch with
  | 'i' => some { f with anyCase := on }
  | 'm' => some { f with multiLine := on }
  | 's' => some { f with dotAll := on }
  | 'x' => some { f with spaced := on }
  | 'u' => some { f with ascii := !on }
  | 'R' => some { f with crlf := on }
  | 'U' => some f
  | _ => none

namespace Reader

def skipComment : List Char → List Char
  | [] => []
  | '\n' :: cs => cs
  | _ :: cs => skipComment cs

/-- In spaced patterns, drops blanks and comments; `fuel` bounds their number. -/
def skipSpaceFrom : Nat → List Char → List Char
  | 0, cs => cs
  | _, [] => []
  | n + 1, c :: cs =>
    if Text.isBlank c then skipSpaceFrom n cs
    else if c = '#' then skipSpaceFrom n (skipComment cs)
    else c :: cs

def skipSpace (f : Flags) (cs : List Char) : List Char :=
  if f.spaced then skipSpaceFrom cs.length cs else cs

def skipBlanks (cs : List Char) : List Char := cs.dropWhile Text.isBlank

/-- A number that fits 32 bits, with blanks allowed on both sides. -/
def count? (f : Flags) (cs : List Char) : Option (Option Nat × List Char) :=
  let cs := skipBlanks cs
  let digits := cs.takeWhile Char.isDigit
  let rest := skipSpace f (skipBlanks (cs.dropWhile Char.isDigit))
  match Text.number? 10 digits with
  | none => some (none, rest)
  | some n => if n < UInt32.size then some (some n, rest) else none

/-- The bounds of a counted repetition, after its opening brace. -/
def bounds? (f : Flags) (cs : List Char) : Option ((Nat × Option Nat) × List Char) := do
  let (least, rest) ← count? f cs
  let least ← least
  match rest with
  | '}' :: rest => some ((least, some least), rest)
  | ',' :: rest =>
    match skipSpace f rest with
    | '}' :: rest => some ((least, none), rest)
    | rest =>
      let (most, rest) ← count? f rest
      let most ← most
      match rest with
      | '}' :: rest => if least ≤ most then some ((least, some most), rest) else none
      | _ => none
  | _ => none

inductive Primitive where
  | literal (c : Char)
  | set (set : CharSet)
  | anchor (anchor : Anchor)

/-- Hexadecimal escapes: a fixed number of digits, or any number of them in braces. -/
def hexEscape? (f : Flags) (width : Nat) (cs : List Char) : Option (Char × List Char) :=
  match skipSpace f cs with
  | '{' :: rest =>
    let digits := rest.takeWhile (· ≠ '}')
    match rest.dropWhile (· ≠ '}') with
    | '}' :: rest => do
      let digits := if f.spaced then digits.filter (!Text.isBlank ·) else digits
      let c ← Text.charOf? (← Text.number? 16 digits)
      some (c, rest)
    | _ => none
  | cs => do
    let digits := cs.take width
    guard (digits.length = width)
    let c ← Text.charOf? (← Text.number? 16 digits)
    guard (!f.ascii || width ≠ 2 || c.toNat < 128)
    some (c, cs.drop width)

/-- Blank, digit and word classes and their complements. -/
def classEscape? (f : Flags) (c : Char) : Option CharSet :=
  let ascii (ranges : List (Char × Char)) (set : CharSet) : CharSet :=
    if f.ascii then CharSet.ofRanges ranges .exact else set
  let digits := ascii [('0', '9')] .digit
  let blanks := ascii [('\t', '\r'), (' ', ' ')] .blank
  let words := ascii [('0', '9'), ('A', 'Z'), ('_', '_'), ('a', 'z')] .word
  let outside (set : CharSet) : Option CharSet := if f.ascii then none else some (.complement set)
  match c with
  | 'd' => some digits
  | 's' => some blanks
  | 'w' => some words
  | 'D' => outside digits
  | 'S' => outside blanks
  | 'W' => outside words
  | _ => none

def isBoundaryNameChar (c : Char) : Bool := c.isAlpha || c = '-'

/-- What follows the `b` of a word boundary; a brace that opens no name is left for a count. -/
def wordBoundary? (f : Flags) (cs : List Char) : Option (Anchor × List Char) :=
  match cs with
  | '{' :: rest =>
    match skipSpace f rest with
    | [] => none
    | c :: more =>
      if isBoundaryNameChar c then
        let name := (c :: more).takeWhile isBoundaryNameChar
        match (c :: more).dropWhile isBoundaryNameChar with
        | '}' :: rest =>
          match String.ofList name with
          | "start" => some (.wordStart f.ascii, rest)
          | "end" => some (.wordEnd f.ascii, rest)
          | "start-half" => some (.wordStartHalf f.ascii, rest)
          | "end-half" => some (.wordEndHalf f.ascii, rest)
          | _ => none
        | _ => none
      else some (.wordBoundary f.ascii, cs)
  | _ => some (.wordBoundary f.ascii, cs)

/-- What a backslash introduces. Letters and digits need a meaning; other ASCII stands for
itself. -/
def escape? (f : Flags) : List Char → Option (Primitive × List Char)
  | [] => none
  | c :: rest =>
    match c with
    | 'x' => (hexEscape? f 2 rest).map fun (c, rest) => (.literal c, rest)
    | 'u' => (hexEscape? f 4 rest).map fun (c, rest) => (.literal c, rest)
    | 'U' => (hexEscape? f 8 rest).map fun (c, rest) => (.literal c, rest)
    | 'a' => some (.literal '\x07', rest)
    | 'f' => some (.literal '\x0c', rest)
    | 't' => some (.literal '\t', rest)
    | 'n' => some (.literal '\n', rest)
    | 'r' => some (.literal '\r', rest)
    | 'v' => some (.literal '\x0b', rest)
    | 'A' => some (.anchor .textStart, rest)
    | 'z' => some (.anchor .textEnd, rest)
    | 'b' => (wordBoundary? f rest).map fun (a, rest) => (.anchor a, rest)
    | 'B' => some (.anchor (.wordInterior f.ascii), rest)
    | '<' => some (.anchor (.wordStart f.ascii), rest)
    | '>' => some (.anchor (.wordEnd f.ascii), rest)
    | _ =>
      match classEscape? f c with
      | some set => some (.set set, rest)
      | none =>
        if c.toNat < 128 && !c.isAlphanum then some (.literal c, rest) else none

/-! ## Bracketed classes -/

inductive SetOperator where
  | intersection | difference | symmetricDifference

def SetOperator.apply : SetOperator → CharSet → CharSet → CharSet
  | intersection => .intersection
  | difference => .difference
  | symmetricDifference => .symmetricDifference

/-- A class under construction: an open bracket with what stood before it, or an operator with
its left side. -/
inductive ClassFrame where
  | bracket (outer : CharSet) (negated : Bool)
  | operator (op : SetOperator) (left : CharSet)

def asciiClass? (f : Flags) (name : String) : Option CharSet :=
  let set (ranges : List (Char × Char)) := some (CharSet.ofRanges ranges f.folding)
  match name with
  | "alnum" => set [('0', '9'), ('A', 'Z'), ('a', 'z')]
  | "alpha" => set [('A', 'Z'), ('a', 'z')]
  | "ascii" => set [('\x00', '\x7f')]
  | "blank" => set [('\t', '\t'), (' ', ' ')]
  | "cntrl" => set [('\x00', '\x1f'), ('\x7f', '\x7f')]
  | "digit" => set [('0', '9')]
  | "graph" => set [('!', '~')]
  | "lower" => set [('a', 'z')]
  | "print" => set [(' ', '~')]
  | "punct" => set [('!', '/'), (':', '@'), ('[', '\x60'), ('\x7b', '~')]
  | "space" => set [('\t', '\r'), (' ', ' ')]
  | "upper" => set [('A', 'Z')]
  | "word" => set [('0', '9'), ('A', 'Z'), ('_', '_'), ('a', 'z')]
  | "xdigit" => set [('0', '9'), ('A', 'F'), ('a', 'f')]
  | _ => none

/-- A named class such as `[:alpha:]`, after its opening bracket. -/
def namedClass? (f : Flags) (cs : List Char) : Option (CharSet × List Char) :=
  match cs with
  | ':' :: rest =>
    let (negated, rest) := match rest with
      | '^' :: rest => (true, rest)
      | rest => (false, rest)
    let name := String.ofList (rest.takeWhile (· ≠ ':'))
    match rest.dropWhile (· ≠ ':') with
    | ':' :: ']' :: rest =>
      (asciiClass? f name).map fun set => (if negated then .complement set else set, rest)
    | _ => none
  | _ => none

/-- The start of a bracketed class, after its bracket: an optional caret, then dashes or a
closing bracket that stand for themselves. -/
def openClass? (f : Flags) (cs : List Char) : Option ((Bool × CharSet) × List Char) :=
  let (negated, cs) := match skipSpace f cs with
    | '^' :: cs => (true, skipSpace f cs)
    | cs => (false, cs)
  let dash := CharSet.single '-' f.folding
  let dashes := cs.takeWhile (· = '-')
  let cs := skipSpace f (cs.dropWhile (· = '-'))
  if !dashes.isEmpty then some ((negated, dash), cs)
  else match cs with
    | ']' :: cs => some ((negated, CharSet.single ']' f.folding), skipSpace f cs)
    | cs => some ((negated, .nothing), cs)

def classItem? (f : Flags) : List Char → Option (Primitive × List Char)
  | [] => none
  | '\\' :: rest => escape? f rest
  | c :: rest => some (.literal c, rest)

/-- One member of a class: a character, a range or an escaped class. -/
def classMember? (f : Flags) (cs : List Char) : Option (CharSet × List Char) := do
  let allowed (c : Char) : Bool := !f.ascii || c.toNat < 128
  let (first, rest) ← classItem? f cs
  let rest := skipSpace f rest
  let isRange := match rest with
    | '-' :: more =>
      match skipSpace f more with
      | ']' :: _ => false
      | '-' :: _ => false
      | _ => true
    | _ => false
  if isRange then
    let (last, rest) ← classItem? f (skipSpace f rest.tail)
    match first, last with
    | .literal low, .literal high =>
      guard (low ≤ high && allowed high)
      some (.range low high f.folding, rest)
    | _, _ => none
  else
    match first with
    | .literal c => guard (allowed c); some (.single c f.folding, rest)
    | .set set => some (set, rest)
    | .anchor _ => none

/-- Reads a bracketed class with `current` collected in the innermost bracket. -/
def classFrom (f : Flags) : Nat → List ClassFrame → CharSet → List Char →
    Option (CharSet × List Char)
  | 0, _, _, _ => none
  | fuel + 1, stack, current, cs =>
    let operator (op : SetOperator) (rest : List Char) :=
      match stack with
      | .operator earlier left :: stack =>
        classFrom f fuel (.operator op (earlier.apply left current) :: stack) .nothing rest
      | stack => classFrom f fuel (.operator op current :: stack) .nothing rest
    match skipSpace f cs with
    | [] => none
    | '[' :: rest =>
      match namedClass? f rest with
      | some (set, rest) => classFrom f fuel stack (current.union set) rest
      | none => do
        let ((negated, inner), rest) ← openClass? f rest
        classFrom f fuel (.bracket current negated :: stack) inner rest
    | ']' :: rest =>
      let (inner, stack) := match stack with
        | .operator op left :: stack => (op.apply left current, stack)
        | stack => (current, stack)
      match stack with
      | .bracket outer negated :: stack =>
        if negated && f.ascii then none
        else
          let set := if negated then .complement inner else inner
          if stack.isEmpty then some (set, rest)
          else classFrom f fuel stack (outer.union set) rest
      | _ => none
    | '&' :: '&' :: rest => operator .intersection rest
    | '-' :: '-' :: rest => operator .difference rest
    | '~' :: '~' :: rest => operator .symmetricDifference rest
    | cs => do
      let (set, rest) ← classMember? f cs
      classFrom f fuel stack (current.union set) rest

/-- A bracketed class, after its opening bracket. -/
def bracketed? (f : Flags) (cs : List Char) : Option (CharSet × List Char) := do
  let ((negated, inner), rest) ← openClass? f cs
  classFrom f (rest.length + 1) [.bracket .nothing negated] inner rest

/-! ## Groups -/

/-- A list of switches up to `:` or `)`. No switch may be named twice, and a dash needs one
after it. -/
def switches? (f : Flags) (on : Bool) (seen : List Char) :
    List Char → Option (Flags × List Char × List Char)
  | [] => none
  | c :: rest =>
    if c = ':' ∨ c = ')' then
      if seen.head? = some '-' then none else some (f, seen, c :: rest)
    else if seen.contains c then none
    else if c = '-' then switches? f false (c :: seen) rest
    else do
      let f ← f.with? c on
      switches? f on (c :: seen) rest

def isNameChar (first : Bool) (c : Char) : Bool :=
  c = '_' || (Text.isWord c && !(first && Text.isDigit c)) ||
    (!first && (c = '.' || c = '[' || c = ']'))

def groupName? (cs : List Char) : Option (String × List Char) :=
  match cs.takeWhile (· ≠ '>'), cs.dropWhile (· ≠ '>') with
  | c :: name, '>' :: rest =>
    if isNameChar true c && name.all (isNameChar false) then
      some (String.ofList (c :: name), rest)
    else none
  | _, _ => none

inductive Opening where
  /-- A group, read under its own switches, with its name if it has one. -/
  | group (name : Option String) (flags : Flags)
  /-- Switches for the rest of the enclosing group. -/
  | switches (flags : Flags)

/-- What an opening parenthesis begins. Look-around is not part of the syntax. -/
def opening? (f : Flags) (cs : List Char) : Option (Opening × List Char) :=
  match skipSpace f cs with
  | '?' :: '=' :: _ => none
  | '?' :: '!' :: _ => none
  | '?' :: '<' :: '=' :: _ => none
  | '?' :: '<' :: '!' :: _ => none
  | '?' :: 'P' :: '<' :: rest => (groupName? rest).map fun (n, rest) => (.group (some n) f, rest)
  | '?' :: '<' :: rest => (groupName? rest).map fun (n, rest) => (.group (some n) f, rest)
  | '?' :: rest => do
    let (flags, seen, rest) ← switches? f true [] rest
    match rest with
    | ')' :: rest => if seen.isEmpty then none else some (.switches flags, rest)
    | _ :: rest => some (.group none flags, rest)
    | [] => none
  | rest => some (.group none f, rest)

/-! ## Patterns -/

/-- One element of a sequence; switches are elements that cannot be repeated. -/
inductive Piece where
  | expression (r : Regex)
  | switches

def sequenceOf (pieces : List Piece) : Regex :=
  pieces.foldl (fun after piece =>
    match piece with
    | .expression r => (match after with
      | .empty => r
      | after => .sequence r after)
    | .switches => after) .empty

/-- A group being read, with its latest pieces first. -/
structure Level where
  alternatives : List Regex := []
  pieces : List Piece := []
  /-- The switches to return to when the group closes. -/
  outer : Flags := {}

/-- The expression of a finished group. -/
def Level.close (l : Level) : Regex :=
  l.alternatives.foldl (fun later r => .either r later) (sequenceOf l.pieces)

def Level.push (l : Level) (r : Regex) : Level :=
  { l with pieces := .expression r :: l.pieces }

def Level.repeatLast? (l : Level) (least : Nat) (most : Option Nat) : Option Level :=
  match l.pieces with
  | .expression r :: pieces =>
    some { l with pieces := .expression (.repeated r least most) :: pieces }
  | _ => none

def lineAnchor (f : Flags) (plain line crlf : Anchor) : Anchor :=
  if f.multiLine then (if f.crlf then crlf else line) else plain

def dot? (f : Flags) : Option CharSet :=
  if f.ascii then none
  else if f.dotAll then some (.complement .nothing)
  else if f.crlf then some (.complement (.union (.single '\n' .exact) (.single '\r' .exact)))
  else some (.complement (.single '\n' .exact))

/-- Groups may be nested this deep. -/
def nestingLimit : Nat := 250

def readFrom : Nat → List Level → Level → List String → Flags → List Char → Option Regex
  | 0, _, _, _, _, _ => none
  | fuel + 1, stack, level, names, f, cs =>
    let next (level : Level) (rest : List Char) := readFrom fuel stack level names f rest
    let dropLazy (rest : List Char) := match skipSpace f rest with
      | '?' :: rest => rest
      | rest => rest
    let repeated (least : Nat) (most : Option Nat) (rest : List Char) := do
      next (← level.repeatLast? least most) (dropLazy rest)
    match skipSpace f cs with
    | [] => if stack.isEmpty then some level.close else none
    | '(' :: rest => do
      match ← opening? f rest with
      | (.switches flags, rest) =>
        readFrom fuel stack { level with pieces := .switches :: level.pieces } names flags rest
      | (.group name flags, rest) =>
        guard (stack.length < nestingLimit)
        guard (name.all (!names.contains ·))
        readFrom fuel (level :: stack) { outer := f } (name.toList ++ names) flags rest
    | ')' :: rest =>
      match stack with
      | [] => none
      | enclosing :: stack =>
        readFrom fuel stack (enclosing.push level.close) names level.outer rest
    | '|' :: rest =>
      next { level with
        alternatives := sequenceOf level.pieces :: level.alternatives, pieces := [] } rest
    | '[' :: rest => do
      let (set, rest) ← bracketed? f rest
      next (level.push (.one set)) rest
    | '?' :: rest => repeated 0 (some 1) rest
    | '*' :: rest => repeated 0 none rest
    | '+' :: rest => repeated 1 none rest
    | '{' :: rest => do
      let ((least, most), rest) ← bounds? f (skipSpace f rest)
      repeated least most rest
    | '.' :: rest => do next (level.push (.one (← dot? f))) rest
    | '^' :: rest =>
      next (level.push (.anchor (lineAnchor f .textStart .lineStart .lineStartCrlf))) rest
    | '$' :: rest => next (level.push (.anchor (lineAnchor f .textEnd .lineEnd .lineEndCrlf))) rest
    | '\\' :: rest => do
      match ← escape? f rest with
      | (.literal c, rest) => next (level.push (.one (.single c f.folding))) rest
      | (.set set, rest) => next (level.push (.one set)) rest
      | (.anchor a, rest) => next (level.push (.anchor a)) rest
    | c :: rest => next (level.push (.one (.single c f.folding))) rest

end Reader

/-- An estimate of how many states a set of characters takes. -/
def CharSet.weight : CharSet → Nat
  | nothing => 1
  | range _ high _ => high.utf8Size
  | blank => 16
  | digit => 120
  | word => 500
  | complement s => s.weight + 8
  | union s t => max s.weight t.weight
  | intersection s t => max s.weight t.weight
  | difference s t => max s.weight t.weight
  | symmetricDifference s t => max s.weight t.weight

/-- An estimate of how many states a pattern unfolds to. -/
def Regex.weight : Regex → Nat
  | empty => 1
  | one set => set.weight
  | anchor _ => 1
  | sequence r s => r.weight + s.weight
  | either r s => r.weight + s.weight + 1
  | repeated r least (some most) => r.weight * most + (most - least) + 1
  | repeated r least none => r.weight * max least 1 + 2

/-- Patterns that unfold to more states than this are refused. -/
def weightLimit : Nat := 327680

/-- Reads a pattern, or nothing if it is invalid. -/
def Regex.parse? (source : String) : Option Regex := do
  let chars := source.toList
  let r ← Reader.readFrom (chars.length + 1) [] {} [] {} chars
  guard (r.weight ≤ weightLimit)
  some r

end TestScheduler.Pattern
