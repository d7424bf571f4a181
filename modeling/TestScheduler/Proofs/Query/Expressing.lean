import TestScheduler.Pattern.Common
import TestScheduler.Proofs.Query.Composing

/-! # Filters that queries express

The filters that some query compiles to, told by their shape alone. For each of them there is a
query in which every term stands between parentheses, so that a property may be named like an
operator.
-/

namespace TestScheduler

open Query

namespace Field

variable {field : Field}

/-- Whether a query can name a field: the name of a property is a word, and not a keyword. -/
def Writable : Field → Prop
  | property key => IsWord key ∧ key ∉ builtIn.map word
  | _ => True

example : builtIn.map word = ["id", "test", "name", "class", "method", "namespace", "cat"] := rfl

theorem writable_ofWord {word : String} (isWord : IsWord word) : (ofWord word).Writable := by
  unfold ofWord
  cases found : builtIn.find? (·.word = word) with
  | none =>
    refine ⟨isWord, fun keyword => ?_⟩
    obtain ⟨field, hfield, rfl⟩ := List.mem_map.mp keyword
    simpa using List.find?_eq_none.mp found field hfield
  | some field =>
    have := List.mem_of_find?_eq_some found
    simp only [builtIn, List.mem_cons, List.not_mem_nil, or_false] at this
    rcases this with rfl | rfl | rfl | rfl | rfl | rfl | rfl <;> trivial

theorem Writable.ofWord_word (h : field.Writable) : ofWord field.word = field := by
  cases field with
  | property key =>
    have none : builtIn.find? (·.word = key) = none :=
      List.find?_eq_none.mpr fun field hfield same =>
        h.2 (List.mem_map.mpr ⟨field, hfield, of_decide_eq_true same⟩)
    rw [word, ofWord, none]
    rfl
  | _ => rfl

theorem Writable.isWord (h : field.Writable) : IsWord field.word := by
  cases field with
  | property key => exact h.1
  | _ => exact isWord_of_all (by decide) (by decide)

end Field

namespace Filter

variable {Expression : Type} [Pattern.Dialect Expression] {f : Filter}

/-- Whether a filter has the shape of a compiled one. A group has two terms or more, only a negation
of the whole is marked as the top of a run, and nothing selects everything. -/
inductive Expressible : Bool → Filter → Prop
  -- Any matcher will do, as a pattern that cannot be read is no value.
  | predicate {atTop : Bool} {field : Field} {m : Matcher} (writable : field.Writable) :
      Expressible atTop (.predicate field m)
  | and {atTop : Bool} {fs : List Filter} (two : 2 ≤ fs.length)
      (terms : ∀ f ∈ fs, Expressible false f) : Expressible atTop (.and fs)
  | or {atTop : Bool} {fs : List Filter} (two : 2 ≤ fs.length)
      (terms : ∀ f ∈ fs, Expressible false f) : Expressible atTop (.or fs)
  | not {atTop : Bool} {f : Filter} (term : Expressible false f) :
      Expressible atTop (.not f atTop)

theorem Expressible.clearTop_eq (h : Expressible false f) : f.clearTop = f := by
  cases h <;> rfl

theorem Expressible.markTop_clearTop (h : Expressible true f) : f.clearTop.markTop = f := by
  cases h <;> rfl

theorem Queried.clearTop_markTop (h : f.Queried) : f.markTop.clearTop = f := by
  cases h <;> rfl

theorem Queried.expressible (h : f.Queried) : Expressible false f := by
  induction h with
  | predicate isWord => exact .predicate (Field.writable_ofWord isWord)
  | and _ ih => exact .and (by simp) ih
  | or _ ih => exact .or (by simp) ih
  | not _ ih => exact .not ih

theorem Expressible.atTop (h : Expressible false f) : Expressible true f.markTop := by
  cases h with
  | predicate writable => exact .predicate writable
  | and two terms => exact .and two terms
  | or two terms => exact .or two terms
  | not term => exact .not term

theorem Expressible.queried {atTop : Bool} (h : Expressible atTop f) : f.clearTop.Queried := by
  induction h with
  | @predicate _ field m writable =>
    have := Queried.predicate (m := m) writable.isWord
    rwa [writable.ofWord_word] at this
  | @and _ fs two terms ih =>
    obtain _ | ⟨f, _ | ⟨g, fs⟩⟩ := fs
    · simp at two
    · simp at two
    · exact .and fun t ht => (terms t ht).clearTop_eq ▸ ih t ht
  | @or _ fs two terms ih =>
    obtain _ | ⟨f, _ | ⟨g, fs⟩⟩ := fs
    · simp at two
    · simp at two
    · exact .or fun t ht => (terms t ht).clearTop_eq ▸ ih t ht
  | not term ih => exact .not (term.clearTop_eq ▸ ih)

/-! ## A query for each of them -/

mutual

/-- A query for a filter, with every term of a group or a negation between parentheses. -/
def bracketed : Filter → String
  | empty => ""
  | predicate field m => predicateQuery field m
  | and terms => " && ".intercalate (bracketedEach terms)
  | or terms => " || ".intercalate (bracketedEach terms)
  | not term _ => "!" ++ enclosed (bracketed term)

def bracketedEach : List Filter → List String
  | [] => []
  | f :: fs => enclosed (bracketed f) :: bracketedEach fs

end

theorem bracketedEach_eq_map (fs : List Filter) :
    bracketedEach fs = (fs.map bracketed).map enclosed := by
  induction fs with
  | nil => rfl
  | cons f fs ih => rw [bracketedEach, ih, List.map_cons, List.map_cons]

end Filter

example : Filter.bracketed (.and [.literal .category "A", .literal (.property "and") "it's"]) =
    "(cat == 'A') && (and == 'it\\'s')" := by decide +kernel

namespace Query

variable {Expression : Type} [Pattern.Dialect Expression] {text : String} {f : Filter}

theorem compile_of_blank (blank : Text.isBlankText text = true) : compile text = .ok .empty := by
  rw [compile, if_pos blank]

theorem compiles_of_ok (h : compile text = .ok f) (some : f ≠ .empty) : Compiles text f := by
  refine ⟨Bool.eq_false_iff.mpr fun blank => some ?_, h⟩
  rw [compile_of_blank blank] at h
  exact (Except.ok.inj h).symm

end Query

namespace Filter

variable {Expression : Type} [Pattern.Dialect Expression] {f : Filter} {fs : List Filter}

theorem Queried.markTop_ne_empty (h : f.Queried) : f.markTop ≠ .empty := by
  cases h <;> exact nofun

theorem spells_bracketedEach (separator : String) {operator : Token.Kind}
    {terms : List Token.Kind → List Filter → Prop} (hseparator : Spells separator.toList [operator])
    (queried : ∀ t ∈ f :: fs, t.Queried) (each : ∀ t ∈ f :: fs, Compiles t.bracketed t.markTop)
    (nil : terms [] [])
    (cons : ∀ {ks ls f fs}, MayFollow ks → IsOperand ks f → terms ls fs →
      terms (operator :: (ks ++ ls)) (f :: fs)) :
    ∃ ks ls, Spells (separator.intercalate (bracketedEach (f :: fs))).toList (ks ++ ls) ∧
      IsOperand ks f ∧ terms ls fs := by
  rw [List.forall_mem_cons] at queried each
  have later : List.Forall₂ Compiles (fs.map bracketed) (fs.map markTop) := by
    rw [List.forall₂_map_left_iff, List.forall₂_map_right_iff]
    exact List.forall₂_same.mpr each.2
  have cleared : (fs.map markTop).map clearTop = fs := by
    rw [List.map_map]
    refine (List.map_congr_left fun t ht => ?_).trans (List.map_id fs)
    exact (queried.2 t ht).clearTop_markTop
  have joined := spells_joined separator hseparator each.1 later nil cons
  rwa [cleared, queried.1.clearTop_markTop, ← List.map_cons, ← bracketedEach_eq_map] at joined

theorem Queried.compiles_bracketed (h : f.Queried) : Compiles f.bracketed f.markTop := by
  induction h with
  | @predicate word m isWord =>
    have queried := Queried.predicate (m := m) isWord
    refine compiles_of_ok ?_ queried.markTop_ne_empty
    exact (compile_toQuery_iff queried).mpr ⟨rfl, .predicate⟩
  | @and f g fs queried ih =>
    obtain ⟨ks, ls, spelt, first, more⟩ := spells_bracketedEach " && " Spells.and.spaced queried
      ih AreFactors.nil fun free term more => .cons (.inl rfl) free term more
    exact compiles_of_ok (compile_of_spells spelt (.single (.chain first more))) nofun
  | @or f g fs queried ih =>
    obtain ⟨ks, ls, spelt, first, more⟩ := spells_bracketedEach " || " Spells.or.spaced queried
      ih AreAlternatives.nil fun free term more => .cons (.inl rfl) free (.single term) more
    exact compiles_of_ok (compile_of_spells spelt (.chain (.single first) more)) nofun
  | @not f queried ih =>
    obtain ⟨ks, spelt, free, term, -⟩ := ih.enclosed
    rw [queried.clearTop_markTop] at term
    rw [toList_enclosed] at spelt
    refine compiles_of_ok (compile_of_spells ?_ (IsOperand.negation free term).conjunction) nofun
    rw [bracketed, String.toList_append, toList_enclosed]
    exact spelt.negation

/-- Exactly the filters of the shape of a compiled one are expressed by a query, and a query that
selects everything is blank. -/
theorem compile_image :
    (∀ f, (∃ text, compile text = .ok f) ↔ f = .empty ∨ Expressible true f) ∧
      ∀ text, compile text = .ok .empty ↔ Text.isBlankText text = true := by
  refine ⟨fun f => ⟨?_, ?_⟩, fun text => ⟨fun h => ?_, compile_of_blank⟩⟩
  · rintro ⟨text, h⟩
    rcases queried_of_compile h with rfl | ⟨g, queried, rfl⟩
    · exact .inl rfl
    · exact .inr queried.expressible.atTop
  · rintro (rfl | shape)
    · exact ⟨"", compile_of_blank rfl⟩
    · have compiles := shape.queried.compiles_bracketed.2
      rw [shape.markTop_clearTop] at compiles
      exact ⟨_, compiles⟩
  · refine (Bool.eq_false_or_eq_true _).resolve_right fun visible => ?_
    obtain ⟨-, -, g, -, -, queried, same⟩ := exists_derives_of_compile visible h
    exact queried.markTop_ne_empty same.symm

end Filter

end TestScheduler
