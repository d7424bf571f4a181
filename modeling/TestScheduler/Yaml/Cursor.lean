/-! # Places in YAML text

A cursor stands at a place in a text and knows its line and column.
-/

namespace TestScheduler.Yaml

def isBlank (c : Char) : Bool := c = ' ' || c = '\t'

def isBreak (c : Char) : Bool :=
  c = '\n' || c = '\r' || c = '\x85' || c = '\u2028' || c = '\u2029'

/-- Characters that may stand in a text. -/
def isAllowed (c : Char) : Bool :=
  c = '\t' || c = '\n' || c = '\r' || (' ' ≤ c && c ≤ '~') || c = '\x85' ||
    ('\xa0' ≤ c && c.toNat ≤ 0xFFFD && c.toNat ≠ 0xFEFF) || 0x10000 ≤ c.toNat

/-- Whether a blank, a line break or the end comes first. -/
def isGap : List Char → Bool
  | [] => true
  | c :: _ => isBlank c || isBreak c

/-- Whether a mark that begins or ends a document comes first. -/
def startsDocumentMark : List Char → Bool
  | '-' :: '-' :: '-' :: rest => isGap rest
  | '.' :: '.' :: '.' :: rest => isGap rest
  | _ => false

structure Cursor where
  rest : List Char
  line : Nat := 0
  column : Nat := 0
  index : Nat := 0
  deriving DecidableEq, Repr

namespace Cursor

def head? (c : Cursor) : Option Char := c.rest.head?

/-- Moves over characters of one line. -/
def skip (c : Cursor) (n : Nat) : Cursor :=
  { c with rest := c.rest.drop n, column := c.column + n, index := c.index + n }

/-- Moves over the characters of a line that satisfy a condition. -/
def skipWhile (c : Cursor) (p : Char → Bool) : Cursor := c.skip (c.rest.takeWhile p).length

/-- The line break that comes first as it counts in a text, and the cursor behind it. -/
def takeBreak (c : Cursor) : List Char × Cursor :=
  let next (n : Nat) : Cursor :=
    { rest := c.rest.drop n, line := c.line + 1, column := 0, index := c.index + n }
  match c.rest with
  | '\r' :: '\n' :: _ => (['\n'], next 2)
  | b :: _ =>
    if b = '\u2028' || b = '\u2029' then ([b], next 1)
    else if isBreak b then (['\n'], next 1)
    else ([], c)
  | [] => ([], c)

/-- Moves to the end of the line. -/
def skipLine (c : Cursor) : Cursor := c.skipWhile (!isBreak ·)

def atGap (c : Cursor) : Bool := isGap c.rest

end Cursor

/-- Joins lines: a single break becomes a blank, and further breaks are kept. -/
def folded (firstBreak moreBreaks : List Char) : List Char :=
  if firstBreak = ['\n'] then (if moreBreaks.isEmpty then [' '] else moreBreaks)
  else firstBreak ++ moreBreaks

end TestScheduler.Yaml
