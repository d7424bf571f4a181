import TestScheduler.Yaml.Scalar

/-! # YAML tokens

Indentation becomes tokens that open and close block collections. A scalar may turn out to be the
key of a mapping only when a colon follows it, so the place of every such scalar is remembered and
the tokens before it are put in afterwards.
-/

namespace TestScheduler.Yaml

inductive Token where
  | directive
  | documentStart | documentEnd
  | blockSequenceStart | blockMappingStart | blockEnd
  | flowSequenceStart | flowSequenceEnd
  | flowMappingStart | flowMappingEnd
  | blockEntry | flowEntry
  | key | value
  | anchor (name : String)
  | alias (name : String)
  | tag (text : String)
  | scalar (text : String) (isPlain : Bool)
  deriving DecidableEq, Repr

/-- A place at which a key without a question mark may begin. -/
structure KeyPlace where
  /-- Whether only a key may stand here. -/
  isRequired : Bool
  /-- The number of tokens before it. -/
  position : Nat
  line : Nat
  column : Nat
  index : Nat

/-- The tokens read so far and what decides about the next one. -/
structure Reading where
  cursor : Cursor
  tokens : List Token := []
  /-- The columns of the open block collections, innermost first. -/
  indents : List Nat := []
  /-- The possible keys of the open flow collections, innermost first, and of the block around. -/
  keys : List (Option KeyPlace) := [none]
  isKeyAllowed : Bool := true

namespace Reading

/-- How far a possible key may reach. -/
def keyReach : Nat := 1024

def inFlow (r : Reading) : Bool := 1 < r.keys.length

def indent? (r : Reading) : Option Nat := r.indents.head?

def append (r : Reading) (t : Token) : Reading := { r with tokens := r.tokens ++ [t] }

def insertAt (r : Reading) (position : Nat) (t : Token) : Reading :=
  { r with tokens := r.tokens.take position ++ t :: r.tokens.drop position }

def allowKey (r : Reading) (isAllowed : Bool) : Reading := { r with isKeyAllowed := isAllowed }

/-- Moves to the next token, over white space, comments and line breaks. -/
def skipSpace : Nat → Reading → Reading
  | 0, r => r
  | fuel + 1, r =>
    let c := r.cursor.skipWhile fun x => x = ' ' || (x = '\t' && (r.inFlow || !r.isKeyAllowed))
    let c := if c.head? = some '#' then c.skipLine else c
    if c.head?.any isBreak then
      skipSpace fuel { r with
        cursor := c.takeBreak.2
        isKeyAllowed := r.isKeyAllowed || !r.inFlow }
    else { r with cursor := c }

/-- Gives up the possible keys that ended without a colon. -/
def dropStaleKeys (r : Reading) : Option Reading := do
  let keys ← r.keys.mapM fun key =>
    match key with
    | none => some none
    | some k =>
      if k.line < r.cursor.line || k.index + keyReach < r.cursor.index then
        (if k.isRequired then none else some none)
      else some (some k)
  some { r with keys }

/-- Gives up the possible key of the innermost collection. -/
def dropKey (r : Reading) : Option Reading :=
  match r.keys with
  | some k :: keys => if k.isRequired then none else some { r with keys := none :: keys }
  | _ => some r

/-- Remembers that a key may begin here. -/
def noteKey (r : Reading) : Option Reading := do
  if !r.isKeyAllowed then some r
  else
    let r ← r.dropKey
    let place : KeyPlace := {
      isRequired := !r.inFlow && r.indent? = some r.cursor.column
      position := r.tokens.length
      line := r.cursor.line
      column := r.cursor.column
      index := r.cursor.index }
    some { r with keys := some place :: r.keys.drop 1 }

/-- Closes the block collections that are indented deeper than a column. -/
def closeTo (column : Option Nat) (r : Reading) : Reading :=
  if r.inFlow then r
  else
    let isDeeper (n : Nat) := match column with
      | some column => column < n
      | none => true
    let closed := (r.indents.takeWhile isDeeper).length
    { r with
      tokens := r.tokens ++ List.replicate closed .blockEnd
      indents := r.indents.drop closed }

/-- Opens a block collection at a column unless one is open there. -/
def openAt (r : Reading) (column position : Nat) (t : Token) : Reading :=
  let isOpen := match r.indent? with
    | some n => decide (column ≤ n)
    | none => false
  if r.inFlow || isOpen then r
  else { r.insertAt position t with indents := column :: r.indents }

/-- Reads a token of a few characters. -/
def mark (r : Reading) (t : Token) (length : Nat) : Reading :=
  { r.append t with cursor := r.cursor.skip length }

def documentMark (r : Reading) (t : Token) : Option Reading := do
  let r ← (r.closeTo none).dropKey
  some ((r.allowKey false).mark t 3)

/-- Directives say nothing about the content. -/
def directive? (r : Reading) : Option Reading := do
  let r ← (r.closeTo none).dropKey
  let line := r.cursor.rest.takeWhile (!isBreak ·)
  guard ("%YAML ".toList.isPrefixOf line || "%TAG ".toList.isPrefixOf line)
  some { (r.allowKey false).append .directive with cursor := r.cursor.skipLine }

def openFlow (r : Reading) (t : Token) : Option Reading := do
  let r ← r.noteKey
  some ({ r with keys := none :: r.keys, isKeyAllowed := true }.mark t 1)

def closeFlow (r : Reading) (t : Token) : Option Reading := do
  let r ← r.dropKey
  some ({ r with
    keys := if r.inFlow then r.keys.drop 1 else r.keys
    isKeyAllowed := false }.mark t 1)

def flowEntry (r : Reading) : Option Reading := do
  let r ← r.dropKey
  some ((r.allowKey true).mark .flowEntry 1)

def blockEntry (r : Reading) : Option Reading := do
  guard (r.inFlow || r.isKeyAllowed)
  let r ← (r.openAt r.cursor.column r.tokens.length .blockSequenceStart).dropKey
  some ((r.allowKey true).mark .blockEntry 1)

def explicitKey (r : Reading) : Option Reading := do
  guard (r.inFlow || r.isKeyAllowed)
  let r ← (r.openAt r.cursor.column r.tokens.length .blockMappingStart).dropKey
  some ((r.allowKey (!r.inFlow)).mark .key 1)

def valueMark (r : Reading) : Option Reading :=
  match r.keys with
  | some k :: keys =>
    let r := { r.insertAt k.position .key with keys := none :: keys, isKeyAllowed := false }
    some ((r.openAt k.column k.position .blockMappingStart).mark .value 1)
  | _ => do
    guard (r.inFlow || r.isKeyAllowed)
    let r := r.openAt r.cursor.column r.tokens.length .blockMappingStart
    some ((r.allowKey (!r.inFlow)).mark .value 1)

def isNameChar (c : Char) : Bool := c.isAlphanum || c = '_' || c = '-'

/-- An anchor or an alias: a mark and a name. -/
def reference (r : Reading) (token : String → Token) : Option Reading := do
  let r ← r.noteKey
  let name := (r.cursor.rest.drop 1).takeWhile isNameChar
  let c := r.cursor.skip (1 + name.length)
  let ends := ['?', ':', ',', ']', '\x7d', '%', '@', '\x60']
  guard (!name.isEmpty && (c.atGap || c.head?.any ends.contains))
  some { (r.allowKey false).append (token (String.ofList name)) with cursor := c }

def isTagChar (c : Char) : Bool :=
  isNameChar c || [';', '/', '?', ':', '@', '&', '=', '+', '$', '.', '%', '!', '~', '*', '\'',
    '(', ')'].contains c

/-- A tag: an exclamation mark with a name, or a whole name in angle brackets. -/
def tagMark (r : Reading) : Option Reading := do
  let r ← r.noteKey
  let (text, c) ← match r.cursor.rest with
    | '!' :: '<' :: rest =>
      let name := rest.takeWhile fun x => isTagChar x || x = ',' || x = '[' || x = ']'
      let c := r.cursor.skip (2 + name.length)
      if name.isEmpty || c.head? ≠ some '>' then none else some (name, c.skip 1)
    | rest =>
      let text := rest.takeWhile isTagChar
      some (text, r.cursor.skip text.length)
  guard (c.atGap || (r.inFlow && c.head? = some ','))
  some { (r.allowKey false).append (.tag (String.ofList text)) with cursor := c }

def blockScalar (r : Reading) (isLiteral : Bool) : Option Reading := do
  let r ← r.dropKey
  let (text, c) ← block? isLiteral r.indent? r.cursor
  some { (r.allowKey true).append (.scalar (String.ofList text) false) with cursor := c }

def quotedScalar (r : Reading) (quote : Char) : Option Reading := do
  let r ← r.noteKey
  let (text, c) ← quoted? quote r.cursor
  some { (r.allowKey false).append (.scalar (String.ofList text) false) with cursor := c }

def plainScalar (r : Reading) : Option Reading := do
  let r ← r.noteKey
  let indent := match r.indent? with
    | some n => n + 1
    | none => 0
  let (text, isBroken, c) ← plain? r.inFlow indent r.cursor
  some { (r.allowKey isBroken).append (.scalar (String.ofList text) true) with cursor := c }

/-- Reads the token that begins with a character. -/
def next (r : Reading) (first : Char) (rest : List Char) : Option Reading :=
  let isAlone := isGap rest
  if r.cursor.column = 0 && first = '%' then r.directive?
  else if r.cursor.column = 0 && startsDocumentMark r.cursor.rest then
    r.documentMark (if first = '-' then .documentStart else .documentEnd)
  else
    match first with
    | '[' => r.openFlow .flowSequenceStart
    | '\x7b' => r.openFlow .flowMappingStart
    | ']' => r.closeFlow .flowSequenceEnd
    | '\x7d' => r.closeFlow .flowMappingEnd
    | ',' => r.flowEntry
    | '*' => r.reference .alias
    | '&' => r.reference .anchor
    | '!' => r.tagMark
    | '\'' => r.quotedScalar '\''
    | '"' => r.quotedScalar '"'
    | '|' => if r.inFlow then none else r.blockScalar true
    | '>' => if r.inFlow then none else r.blockScalar false
    | '-' =>
      if isAlone then r.blockEntry
      else r.plainScalar
    | '?' =>
      if isAlone || r.inFlow then r.explicitKey
      else r.plainScalar
    | ':' =>
      if isAlone || r.inFlow then r.valueMark
      else r.plainScalar
    | _ => if ['#', '%', '@', '\x60', '\t'].contains first then none else r.plainScalar

/-- Reads tokens up to the end of the text. -/
def run : Nat → Reading → Option (List Token)
  | 0, _ => none
  | fuel + 1, r => do
    let r ← (r.skipSpace (r.cursor.rest.length + 1)).dropStaleKeys
    let r := r.closeTo (some r.cursor.column)
    match r.cursor.rest with
    | [] => do
      let r ← (r.closeTo none).dropKey
      some r.tokens
    | first :: rest => run fuel (← r.next first rest)

end Reading

/-- The tokens of a text. -/
def Token.ofText? (text : String) : Option (List Token) :=
  let chars := match text.toList with
    | '\ufeff' :: rest => rest
    | chars => chars
  if chars.all isAllowed then Reading.run (chars.length + 1) { cursor := { rest := chars } }
  else none

end TestScheduler.Yaml
