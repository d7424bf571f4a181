import TestScheduler.Filter.Basic

/-! # The shape of filters

Texts carry neither empty groups nor the marks of negations. `Filter.unmarked` forgets the marks,
and a filter that was read from a text is a solid filter without marks, except at its top.
-/

namespace TestScheduler.Filter

variable {Expression : Type} [Pattern.Dialect Expression]

mutual

/-- The filter without the mark of any negation. -/
def unmarked : Filter → Filter
  | empty => empty
  | predicate field m => predicate field m
  | and terms => and (unmarkedEach terms)
  | or terms => or (unmarkedEach terms)
  | not term _ => not (unmarked term) false

def unmarkedEach : List Filter → List Filter
  | [] => []
  | f :: fs => unmarked f :: unmarkedEach fs

end

@[simp] theorem unmarkedEach_eq_map (fs : List Filter) : unmarkedEach fs = fs.map unmarked := by
  induction fs with
  | nil => rfl
  | cons f fs ih => simp [unmarkedEach, ih]

/-- Whether no group in a filter is empty. -/
inductive Solid : Filter → Prop
  | empty : Solid .empty
  | predicate {field : Field} {m : Matcher} : Solid (.predicate field m)
  | and {fs : List Filter} (nonempty : fs ≠ []) (terms : ∀ f ∈ fs, Solid f) : Solid (.and fs)
  | or {fs : List Filter} (nonempty : fs ≠ []) (terms : ∀ f ∈ fs, Solid f) : Solid (.or fs)
  | not {f : Filter} {atTop : Bool} (term : Solid f) : Solid (.not f atTop)

/-- Whether a filter is what its text stands for, before a negation at its top is marked. -/
structure Canonical (f : Filter) : Prop where
  solid : f.Solid
  unmarked : f.unmarked = f

theorem unmarked_markTop (f : Filter) : f.markTop.unmarked = f.unmarked := by
  cases f <;> rfl

theorem Solid.markTop {f : Filter} (h : f.Solid) : f.markTop.Solid := by
  cases h with
  | not term => exact .not term
  | empty => exact .empty
  | predicate => exact .predicate
  | and nonempty terms => exact .and nonempty terms
  | or nonempty terms => exact .or nonempty terms

namespace Canonical

variable {f : Filter} {fs : List Filter}

theorem map_unmarked (h : ∀ f ∈ fs, Canonical f) : fs.map Filter.unmarked = fs := by
  conv => rhs; rw [← List.map_id fs]
  exact List.map_congr_left fun f hf => (h f hf).unmarked

theorem empty : Canonical .empty := ⟨.empty, rfl⟩

theorem predicate {field : Field} {m : Matcher} : Canonical (.predicate field m) :=
  ⟨.predicate, rfl⟩

theorem and (nonempty : fs ≠ []) (h : ∀ f ∈ fs, Canonical f) : Canonical (.and fs) := by
  refine ⟨.and nonempty fun f hf => (h f hf).solid, ?_⟩
  rw [Filter.unmarked, unmarkedEach_eq_map, map_unmarked h]

theorem or (nonempty : fs ≠ []) (h : ∀ f ∈ fs, Canonical f) : Canonical (.or fs) := by
  refine ⟨.or nonempty fun f hf => (h f hf).solid, ?_⟩
  rw [Filter.unmarked, unmarkedEach_eq_map, map_unmarked h]

theorem not (h : Canonical f) : Canonical (.not f false) := by
  refine ⟨.not h.solid, ?_⟩
  rw [Filter.unmarked, h.unmarked]

end Canonical

end TestScheduler.Filter
