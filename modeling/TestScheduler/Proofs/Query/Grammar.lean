import Mathlib.Data.List.Chain
import TestScheduler.Proofs.Prelude
import TestScheduler.Query.Parser

/-! # The grammar of queries

The grammar as a relation between the kinds of tokens and the filters that they stand for, with one
rule for each production. An operand that follows an operator may not begin with the word `and` or
`or`, so that such a word there is never taken for the name of a property.
-/

namespace TestScheduler.Query

variable {Expression : Type} [Pattern.Dialect Expression]

namespace Token.Kind

/-- Whether a kind is a given word in any mix of ASCII cases. -/
def IsKeyword (k : Kind) (keyword : String) : Prop :=
  ∃ text, k = .word text ∧ text.toList.map Char.toLower = keyword.toList

/-- The operators that join the terms of a conjunction. -/
def IsAnd (k : Kind) : Prop := k = .and ∨ k.IsKeyword "and"

/-- The operators that join the terms of a disjunction. -/
def IsOr (k : Kind) : Prop := k = .or ∨ k.IsKeyword "or"

/-- Whether a kind is one of the words that the grammar also reads as operators. -/
def IsReserved (k : Kind) : Prop := k.IsKeyword "and" ∨ k.IsKeyword "or"

/-- The kinds that a value may have, with the text of the value. -/
inductive IsValue : Kind → String → Prop
  | word (text : String) : IsValue (.word text) text
  | quoted (text : String) : IsValue (.quoted text) text

end Token.Kind

/-- Whether a run of kinds may follow an operator. -/
def MayFollow (ks : List Token.Kind) : Prop := ∀ k ∈ ks.head?, ¬ k.IsReserved

/-- What the comparison of a field with a value stands for. A value that is searched for is the
source of a valid pattern. -/
inductive Denotes (field : Field) (value : String) : Comparison → Filter → Prop
  | equal : Denotes field value .equal (.predicate field (.literal value))
  | notEqual : Denotes field value .notEqual (.not (.predicate field (.literal value)) false)
  | found {p : Pattern} (source : p.source = value) :
      Denotes field value .found (.predicate field (.pattern p))
  | notFound {p : Pattern} (source : p.source = value) :
      Denotes field value .notFound (.not (.predicate field (.pattern p)) false)

mutual

inductive IsOperand : List Token.Kind → Filter → Prop
  | negation {ks : List Token.Kind} {f : Filter} (free : MayFollow ks) (term : IsOperand ks f) :
      IsOperand (.bang :: ks) (.not f false)
  | parentheses {ks : List Token.Kind} {f : Filter} (inner : IsDisjunction ks f) :
      IsOperand (.openParen :: (ks ++ [.closeParen])) f
  | predicate {word text : String} {comparison : Comparison} {value : Token.Kind} {f : Filter}
      (isValue : value.IsValue text) (denotes : Denotes (Field.ofWord word) text comparison f) :
      IsOperand [.word word, .comparison comparison, value] f

inductive IsConjunction : List Token.Kind → Filter → Prop
  | single {ks : List Token.Kind} {f : Filter} (term : IsOperand ks f) : IsConjunction ks f
  | chain {ks ls : List Token.Kind} {f g : Filter} {fs : List Filter} (first : IsOperand ks f)
      (more : AreFactors ls (g :: fs)) : IsConjunction (ks ++ ls) (.and (f :: g :: fs))

/-- Operands, each of them after an operator. -/
inductive AreFactors : List Token.Kind → List Filter → Prop
  | nil : AreFactors [] []
  | cons {k : Token.Kind} {ks ls : List Token.Kind} {f : Filter} {fs : List Filter}
      (operator : k.IsAnd) (free : MayFollow ks) (term : IsOperand ks f)
      (more : AreFactors ls fs) : AreFactors (k :: (ks ++ ls)) (f :: fs)

inductive IsDisjunction : List Token.Kind → Filter → Prop
  | single {ks : List Token.Kind} {f : Filter} (term : IsConjunction ks f) : IsDisjunction ks f
  | chain {ks ls : List Token.Kind} {f g : Filter} {fs : List Filter} (first : IsConjunction ks f)
      (more : AreAlternatives ls (g :: fs)) : IsDisjunction (ks ++ ls) (.or (f :: g :: fs))

/-- Conjunctions, each of them after an operator. -/
inductive AreAlternatives : List Token.Kind → List Filter → Prop
  | nil : AreAlternatives [] []
  | cons {k : Token.Kind} {ks ls : List Token.Kind} {f : Filter} {fs : List Filter}
      (operator : k.IsOr) (free : MayFollow ks) (term : IsConjunction ks f)
      (more : AreAlternatives ls fs) : AreAlternatives (k :: (ks ++ ls)) (f :: fs)

end

/-! ## Kinds and tokens -/

section Token

variable {t : Token}

theorem Token.isKeyword_iff {keyword : String} :
    t.isKeyword keyword = true ↔ t.kind.IsKeyword keyword := by
  unfold Token.isKeyword Token.Kind.IsKeyword
  cases t.kind <;> simp

theorem Token.isAnd_iff : t.isAnd = true ↔ t.kind.IsAnd := by
  simp [Token.isAnd, Token.Kind.IsAnd, Token.isKeyword_iff]

theorem Token.isOr_iff : t.isOr = true ↔ t.kind.IsOr := by
  simp [Token.isOr, Token.Kind.IsOr, Token.isKeyword_iff]

end Token

namespace Token.Kind

variable {k : Kind}

@[simp] theorem isKeyword_word {text keyword : String} :
    IsKeyword (.word text) keyword ↔ text.toList.map Char.toLower = keyword.toList := by
  simp [IsKeyword]

theorem IsKeyword.eq {keyword keyword' : String} (h : k.IsKeyword keyword)
    (h' : k.IsKeyword keyword') : keyword = keyword' := by
  obtain ⟨text, rfl, h⟩ := h
  obtain ⟨text', ht, h'⟩ := h'
  cases ht
  exact String.toList_injective (h.symm.trans h')

theorem IsOr.not_isAnd (h : k.IsOr) : ¬ k.IsAnd := by
  rcases h with rfl | h
  · rintro (h | ⟨_, h, _⟩) <;> cases h
  · rintro (rfl | h')
    · obtain ⟨_, h, _⟩ := h
      cases h
    · exact absurd (h.eq h') (by decide)

end Token.Kind

/-! ## Joined terms -/

theorem IsConjunction.joined {ks ls : List Token.Kind} {f : Filter} {fs : List Filter}
    (first : IsOperand ks f) (more : AreFactors ls fs) :
    IsConjunction (ks ++ ls) (joined .and f fs) := by
  cases fs with
  | nil =>
    cases more
    simpa [Query.joined] using IsConjunction.single first
  | cons g fs => exact .chain first more

theorem IsDisjunction.joined {ks ls : List Token.Kind} {f : Filter} {fs : List Filter}
    (first : IsConjunction ks f) (more : AreAlternatives ls fs) :
    IsDisjunction (ks ++ ls) (joined .or f fs) := by
  cases fs with
  | nil =>
    cases more
    simpa [Query.joined] using IsDisjunction.single first
  | cons g fs => exact .chain first more

theorem IsOperand.conjunction {ks : List Token.Kind} {f : Filter} (h : IsOperand ks f) :
    IsDisjunction ks f := .single (.single h)

/-! ## The ends of a derivation -/

section Ends

variable {ks ls : List Token.Kind} {f : Filter} {fs : List Filter}

/-- Whether an operand may begin with a kind. -/
def Token.Kind.Begins (k : Token.Kind) : Prop := k = .bang ∨ k = .openParen ∨ ∃ word, k = .word word

theorem IsOperand.begins {ks : List Token.Kind} (h : IsOperand ks f) :
    ∃ k ∈ ks.head?, k.Begins := by
  cases h with
  | negation => exact ⟨_, rfl, .inl rfl⟩
  | parentheses => exact ⟨_, rfl, .inr (.inl rfl)⟩
  | predicate => exact ⟨_, rfl, .inr (.inr ⟨_, rfl⟩)⟩

theorem IsConjunction.begins {ks : List Token.Kind} (h : IsConjunction ks f) :
    ∃ k ∈ ks.head?, k.Begins := by
  cases h with
  | single term => exact term.begins
  | chain first =>
    obtain ⟨k, hk, begins⟩ := first.begins
    exact ⟨k, by simp [Option.mem_def.mp hk], begins⟩

theorem IsDisjunction.begins {ks : List Token.Kind} (h : IsDisjunction ks f) :
    ∃ k ∈ ks.head?, k.Begins := by
  cases h with
  | single term => exact term.begins
  | chain first =>
    obtain ⟨k, hk, begins⟩ := first.begins
    exact ⟨k, by simp [Option.mem_def.mp hk], begins⟩

/-- Whether a kind is an operator that no word spells. -/
def Token.Kind.IsSymbol (k : Token.Kind) : Prop := k = .and ∨ k = .or ∨ k = .bang

/-- Whether a kind may follow another one: no reserved word follows the symbol of an operator. -/
def Follows (k l : Token.Kind) : Prop := k.IsSymbol → ¬ l.IsReserved

/-- Whether each kind may follow the one before it, and the last one ends an operand. -/
structure Placed (ks : List Token.Kind) : Prop where
  follows : ks.IsChain Follows
  ends : ∀ k ∈ ks.getLast?, ¬ k.IsSymbol ∧ k ≠ .endOfQuery

namespace Placed

theorem nil : Placed [] := ⟨.nil, by simp⟩

theorem append (h : Placed ks) (h' : Placed ls) : Placed (ks ++ ls) := by
  constructor
  · refine List.isChain_append.mpr ⟨h.follows, h'.follows, ?_⟩
    intro k hk l _ symbol
    exact absurd symbol (h.ends k hk).1
  · exact forall_mem_getLast?_append h.ends h'.ends

theorem cons {k : Token.Kind} (free : k.IsSymbol → MayFollow ks)
    (begins : ∃ l ∈ ks.head?, l.Begins) (h : Placed ks) : Placed (k :: ks) := by
  constructor
  · exact List.isChain_cons.mpr ⟨fun l hl symbol => free symbol l hl, h.follows⟩
  · obtain ⟨l, hl, -⟩ := begins
    cases ks with
    | nil => cases hl
    | cons l ks => exact h.ends

end Placed

mutual

theorem IsDisjunction.placed {ks : List Token.Kind} {f : Filter} (h : IsDisjunction ks f) :
    Placed ks := by
  match h with
  | .single term => exact term.placed
  | .chain first more => exact first.placed.append more.placed

theorem AreAlternatives.placed {ks : List Token.Kind} {fs : List Filter}
    (h : AreAlternatives ks fs) : Placed ks := by
  match h with
  | .nil => exact .nil
  | .cons _ free term more =>
    exact (term.placed.cons (fun _ => free) term.begins).append more.placed

theorem IsConjunction.placed {ks : List Token.Kind} {f : Filter} (h : IsConjunction ks f) :
    Placed ks := by
  match h with
  | .single term => exact term.placed
  | .chain first more => exact first.placed.append more.placed

theorem AreFactors.placed {ks : List Token.Kind} {fs : List Filter} (h : AreFactors ks fs) :
    Placed ks := by
  match h with
  | .nil => exact .nil
  | .cons _ free term more =>
    exact (term.placed.cons (fun _ => free) term.begins).append more.placed

theorem IsOperand.placed {ks : List Token.Kind} {f : Filter} (h : IsOperand ks f) :
    Placed ks := by
  match h with
  | .negation free term => exact term.placed.cons (fun _ => free) term.begins
  | .parentheses inner =>
    have opened := inner.placed.cons (k := .openParen) (by simp [Token.Kind.IsSymbol]) inner.begins
    exact opened.append ⟨.singleton _, by simp [Token.Kind.IsSymbol]⟩
  | .predicate isValue _ =>
    constructor
    · simp [Follows, Token.Kind.IsSymbol]
    · cases isValue <;> simp [Token.Kind.IsSymbol]

end

end Ends

end TestScheduler.Query
