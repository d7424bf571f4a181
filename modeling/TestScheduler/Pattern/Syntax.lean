import TestScheduler.Text.CaseFold
import TestScheduler.Text.CharTable

/-! # Regular expressions

Regular expressions over Unicode text. An expression is searched for anywhere in a text, so captures
and the preference of a repetition leave no trace here.
-/

namespace TestScheduler.Pattern

/-- Which characters a range takes in besides its own members. -/
inductive Folding where
  | exact | ascii | full
  deriving DecidableEq, Repr

inductive CharSet where
  | nothing
  | range (low high : Char) (folding : Folding)
  | blank
  | digit
  | word
  | complement (set : CharSet)
  | union (left right : CharSet)
  | intersection (left right : CharSet)
  | difference (left right : CharSet)
  | symmetricDifference (left right : CharSet)
  deriving DecidableEq, Repr

namespace CharSet

def inRange (low high c : Char) : Bool := low ≤ c && c ≤ high

def has : CharSet → Char → Bool
  | nothing, _ => false
  | range low high .exact, c => inRange low high c
  | range low high .ascii, c => inRange low high c.toLower || inRange low high c.toUpper
  | range low high .full, c => (Text.caseVariants c).any (inRange low high)
  | blank, c => Text.isBlank c
  | digit, c => Text.isDigit c
  | word, c => Text.isWord c
  | complement s, c => !s.has c
  | union s t, c => s.has c || t.has c
  | intersection s t, c => s.has c && t.has c
  | difference s t, c => s.has c && !t.has c
  | symmetricDifference s t, c => s.has c != t.has c

/-- The one-element set of a character. -/
def single (c : Char) (folding : Folding) : CharSet := range c c folding

def ofRanges (ranges : List (Char × Char)) (folding : Folding) : CharSet :=
  ranges.foldl (fun set (low, high) => set.union (range low high folding)) nothing

end CharSet

/-- What stands on either side of a gap between characters. -/
structure Gap where
  before : Option Char
  after : Option Char

/-- Conditions on a gap. -/
inductive Anchor where
  | textStart
  | textEnd
  | lineStart
  | lineEnd
  | lineStartCrlf
  | lineEndCrlf
  | wordBoundary (ascii : Bool)
  | wordInterior (ascii : Bool)
  | wordStart (ascii : Bool)
  | wordEnd (ascii : Bool)
  | wordStartHalf (ascii : Bool)
  | wordEndHalf (ascii : Bool)
  deriving DecidableEq, Repr

def Anchor.holds (a : Anchor) (g : Gap) : Bool :=
  let inWord (ascii : Bool) (c : Option Char) : Bool :=
    c.any (if ascii then Text.isAsciiWord else Text.isWord)
  match a with
  | textStart => g.before.isNone
  | textEnd => g.after.isNone
  | lineStart => g.before.all (· = '\n')
  | lineEnd => g.after.all (· = '\n')
  | lineStartCrlf => g.before.all fun c => c = '\n' || (c = '\r' && g.after != some '\n')
  | lineEndCrlf => g.after.all fun c => c = '\r' || (c = '\n' && g.before != some '\r')
  | wordBoundary ascii => inWord ascii g.before != inWord ascii g.after
  | wordInterior ascii => inWord ascii g.before == inWord ascii g.after
  | wordStart ascii => !inWord ascii g.before && inWord ascii g.after
  | wordEnd ascii => inWord ascii g.before && !inWord ascii g.after
  | wordStartHalf ascii => !inWord ascii g.before
  | wordEndHalf ascii => !inWord ascii g.after

inductive Regex where
  | empty
  | one (set : CharSet)
  | anchor (anchor : Anchor)
  | sequence (first second : Regex)
  | either (left right : Regex)
  /-- At least `least` copies, and at most `most` if a bound is given. -/
  | repeated (body : Regex) (least : Nat) (most : Option Nat)
  deriving DecidableEq, Repr

end TestScheduler.Pattern
