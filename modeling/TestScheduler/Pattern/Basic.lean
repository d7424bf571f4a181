/-! # Patterns

Which texts are patterns, and where they are found, is up to a dialect. A `Pattern` is a source text
together with the expression it reads as, so an invalid pattern has no value. Patterns are equal
when their sources are.
-/

namespace TestScheduler

/-- How patterns are read as expressions, and in which texts they are found. The expressions are
those of the one dialect in use, so that a `Pattern` need not name them. -/
class Pattern.Dialect (Expression : outParam Type) where
  parse? : String → Option Expression
  isIn : Expression → String → Bool

structure Pattern {Expression : Type} [Pattern.Dialect Expression] where
  source : String
  expression : Expression
  parse_source : Pattern.Dialect.parse? source = some expression

namespace Pattern

variable {Expression : Type} [Dialect Expression]

def ofSource? (source : String) : Option Pattern :=
  match h : Dialect.parse? source with
  | some expression => some ⟨source, expression, h⟩
  | none => none

def isIn (p : Pattern) (text : String) : Bool := Dialect.isIn p.expression text

@[ext] theorem ext {p q : Pattern} (h : p.source = q.source) : p = q := by
  obtain ⟨s, e, hp⟩ := p
  obtain ⟨_, e', hq⟩ := q
  cases h
  have : e = e' := Option.some.inj (hp.symm.trans hq)
  subst this
  rfl

instance : DecidableEq Pattern := fun p q =>
  decidable_of_iff (p.source = q.source) ⟨ext, fun h => h ▸ rfl⟩

theorem ofSource?_eq_some_iff {source : String} {p : Pattern} :
    ofSource? source = some p ↔ p.source = source := by
  constructor
  · intro h
    unfold ofSource? at h
    split at h
    · cases h; rfl
    · cases h
  · rintro rfl
    unfold ofSource?
    split
    · next h => exact congrArg some (ext rfl)
    · next h => exact absurd (h.symm.trans p.parse_source) nofun

@[simp] theorem ofSource?_source (p : Pattern) : ofSource? p.source = some p :=
  ofSource?_eq_some_iff.2 rfl

end Pattern

end TestScheduler
