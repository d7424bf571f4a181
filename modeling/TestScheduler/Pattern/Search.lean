import TestScheduler.Pattern.Syntax

/-! # Searching a text

A set of gaps in a text is a list of marks, one per gap. `Regex.advance` maps the gaps where a
match may begin to the gaps where it may end; a text contains a match if some mark is left.
-/

namespace TestScheduler.Pattern

/-- The gaps of a text, one more than it has characters. -/
def gapsFrom (before : Option Char) : List Char → List Gap
  | [] => [⟨before, none⟩]
  | c :: cs => ⟨before, some c⟩ :: gapsFrom (some c) cs

def gaps (text : List Char) : List Gap := gapsFrom none text

/-- Applies `f` a number of times, stopping early where it changes nothing. -/
def settle [DecidableEq α] (f : α → α) : Nat → α → α
  | 0, x => x
  | n + 1, x => if f x = x then x else settle f n (f x)

abbrev Marks := List Bool

def Marks.union (m n : Marks) : Marks := m.zipWith (· || ·) n

def Regex.advance (text : List Char) : Regex → Marks → Marks
  | empty, m => m
  | one set, m => false :: m.zipWith (fun mark c => mark && set.has c) text
  | anchor a, m => m.zipWith (fun mark gap => mark && a.holds gap) (gaps text)
  | sequence r s, m => s.advance text (r.advance text m)
  | either r s, m => (r.advance text m).union (s.advance text m)
  | repeated r least most, m =>
    let rounds := match most with
      | some most => most - least
      | none => text.length + 1
    settle (fun m => m.union (r.advance text m)) rounds (settle (r.advance text) least m)

/-- Whether a match begins anywhere in the text. -/
def Regex.isIn (r : Regex) (text : String) : Bool :=
  let chars := text.toList
  (r.advance chars (List.replicate (chars.length + 1) true)).any id

end TestScheduler.Pattern
