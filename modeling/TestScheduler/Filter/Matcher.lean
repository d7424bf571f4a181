import TestScheduler.Pattern.Basic

/-! # Matchers

A matcher compares one text with a literal or searches it for a pattern.
-/

namespace TestScheduler

variable {Expression : Type} [Pattern.Dialect Expression]

inductive Matcher where
  | literal (value : String)
  | pattern (pattern : Pattern)

namespace Matcher

instance : DecidableEq Matcher
  | literal a, literal b => decidable_of_iff (a = b) (by simp)
  | pattern p, pattern q => decidable_of_iff (p = q) (by simp)
  | literal _, pattern _ | pattern _, literal _ => isFalse nofun

/-- The literal or the source of the pattern. -/
def value : Matcher → String
  | literal value => value
  | pattern p => p.source

def isPattern : Matcher → Bool
  | literal _ => false
  | pattern _ => true

/-- The matcher for a value, or nothing if the value is read as a pattern and is not valid. -/
def ofValue? (value : String) (isPattern : Bool) : Option Matcher :=
  if isPattern then (Pattern.ofSource? value).map .pattern else some (.literal value)

@[simp] theorem ofValue?_value (m : Matcher) : ofValue? m.value m.isPattern = some m := by
  cases m <;> simp [ofValue?, value, isPattern]

def accepts : Matcher → String → Bool
  | literal value, text => value = text
  | pattern p, text => p.isIn text

end Matcher

end TestScheduler
