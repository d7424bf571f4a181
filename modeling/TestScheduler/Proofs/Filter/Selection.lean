import Mathlib.Data.List.Basic
import TestScheduler.Pattern.Common
import TestScheduler.Proofs.Filter.Keeping
import TestScheduler.Suite.Blueprint

/-! # Selected test cases

A filter selects the test cases that it keeps, although it looks for them from the root downwards.
Selection therefore turns conjunction, disjunction and negation of filters into those of sets of
test cases.
-/

namespace TestScheduler.Filter

variable {Expression : Type} [Pattern.Dialect Expression] {l : Location Node}

theorem selectEach_eq_flatMap (f : Filter) (above ts : List TestTree) :
    selectEach f above ts =
      (ts.map (⟨·, above⟩ : TestTree → Location Node)).flatMap
        fun l => selectFrom f l.above l.tree := by
  induction ts with
  | nil => rfl
  | cons t ts ih => simp [selectEach, ih]

theorem selectFrom_of_drops (f : Filter) (h : f.keeps l = false) :
    selectFrom f l.above l.tree = [] := by
  obtain ⟨⟨n, ts⟩, above⟩ := l
  simp [selectFrom, h]

theorem selectFrom_of_leaf (f : Filter) (h : f.keeps l = true) (hn : l.value.isSuite = false) :
    selectFrom f l.above l.tree = [l] := by
  obtain ⟨⟨n, ts⟩, above⟩ := l
  simp only [Location.value, Tree.value_node] at hn
  simp [selectFrom, h, hn]

theorem selectFrom_of_suite (f : Filter) (h : f.keeps l = true) (hn : l.value.isSuite = true) :
    selectFrom f l.above l.tree = l.children.flatMap fun c => selectFrom f c.above c.tree := by
  obtain ⟨⟨n, ts⟩, above⟩ := l
  simp only [Location.value, Tree.value_node] at hn
  simp only [selectFrom, h, hn, selectEach_eq_flatMap]
  rfl

/-- The search from the root downwards misses no test case: below a location that is dropped
nothing is kept. -/
theorem selectFrom_eq_filter (f : Filter) (hl : l.Placed)
    (bare : ∀ k ∈ l.preorder, k.value.kind = .leaf → k.tree.children = []) :
    selectFrom f l.above l.tree =
      (l.preorder.filter fun k => k.value.kind = .leaf).filter f.keeps := by
  induction l using Location.induction with
  | step l ih =>
    have hself := Location.self_mem_preorder l
    cases hk : f.keeps l with
    | false =>
      rw [selectFrom_of_drops f hk, List.filter_comm, f.filter_keeps_preorder hl hk,
        List.filter_nil]
    | true =>
      cases hn : l.value.isSuite with
      | false =>
        have hleaf := Node.isSuite_eq_false_iff.mp hn
        have hnone : l.descendants = [] := by
          rw [Location.descendants_eq_flatMap, Location.children, bare l hself hleaf]
          rfl
        rw [selectFrom_of_leaf f hk hn, Location.preorder_eq_cons, hnone]
        simp [hleaf, hk]
      | true =>
        have hsuite : l.value.kind ≠ .leaf := by
          intro hleaf
          simp [Node.isSuite_eq_false_iff.mpr hleaf] at hn
        rw [selectFrom_of_suite f hk hn, Location.preorder_eq_cons,
          List.filter_cons_of_neg (by simpa using hsuite), Location.descendants_eq_flatMap,
          List.filter_flatMap, List.filter_flatMap]
        exact List.flatMap_congr fun c hc => ih c hc (hl.child hc) fun k hk =>
          bare k (Location.mem_preorder_of_child hc hk)

theorem select_eq_filter (f : Filter) {t : TestTree} (bare : t.LeavesAreBare) :
    f.select t = t.testCases.filter f.keeps :=
  selectFrom_eq_filter f (.root t) bare

theorem mem_select_iff (f : Filter) {t : TestTree} (bare : t.LeavesAreBare) :
    l ∈ f.select t ↔ l ∈ t.testCases ∧ f.keeps l = true := by
  rw [f.select_eq_filter bare, List.mem_filter]

theorem keeps_not (g : Filter) (hl : l.Placed) (below : l.descendants = []) :
    (Filter.not g false).keeps l = !g.keeps l := by
  simp only [keeps, negated, Bool.false_and, Bool.not_false, Bool.true_and]
  cases h : g.keeps l with
  | false => exact List.any_eq_true.mpr ⟨l, l.self_mem_kin, by simp [h]⟩
  | true =>
    refine List.any_eq_false.mpr fun k hk => ?_
    rcases Location.mem_kin_iff.mp hk with rfl | hk | hk
    · simp [h]
    · simp [g.keeps_ancestor hl hk h]
    · simp [below] at hk

theorem keeps_not_of_testCase (g : Filter) {t : TestTree} (bare : t.LeavesAreBare)
    (hl : l ∈ t.testCases) : (Filter.not g false).keeps l = !g.keeps l := by
  obtain ⟨hmem, hleaf⟩ := List.mem_filter.mp hl
  refine g.keeps_not (Location.placed_of_mem_locations hmem) ?_
  rw [Location.descendants_eq_flatMap, Location.children,
    bare l hmem (by simpa using hleaf)]
  rfl

/-- Selection is a homomorphism from filters to sets of test cases. -/
theorem select_boolean {t : TestTree} (bare : t.LeavesAreBare) :
    select .empty t = t.testCases ∧
    (∀ fs, select (.and fs) t = t.testCases.filter fun l => ∀ f ∈ fs, l ∈ select f t) ∧
    (∀ fs, select (.or fs) t = t.testCases.filter fun l => ∃ f ∈ fs, l ∈ select f t) ∧
    (∀ g, select (.not g false) t = t.testCases.filter fun l => l ∉ select g t) ∧
    ∀ g, ∀ l ∈ t.testCases, l ∈ select (.not g false) t ↔ l ∉ select g t := by
  have mem_not (g : Filter) (l : Location Node) (hl : l ∈ t.testCases) :
      l ∈ select (.not g false) t ↔ l ∉ select g t := by
    simp [mem_select_iff _ bare, hl, g.keeps_not_of_testCase bare hl]
  refine ⟨?_, fun fs => ?_, fun fs => ?_, fun g => ?_, mem_not⟩
  · simp [select_eq_filter _ bare, keeps]
  · rw [select_eq_filter _ bare]
    refine List.filter_congr fun l hl => Bool.eq_iff_iff.mpr ?_
    simp [mem_select_iff _ bare, hl, keeps, keepsAll_eq]
  · rw [select_eq_filter _ bare]
    refine List.filter_congr fun l hl => Bool.eq_iff_iff.mpr ?_
    simp [mem_select_iff _ bare, hl, keeps, keepsAny_eq]
  · rw [select_eq_filter _ bare]
    refine List.filter_congr fun l hl => Bool.eq_iff_iff.mpr ?_
    simp [mem_select_iff _ bare, hl, g.keeps_not_of_testCase bare hl]

end TestScheduler.Filter

namespace TestScheduler.Filter

theorem select_boolean_sample :
    TestTree.sample.LeavesAreBare ∧
      (select (.literal .category "Fast") .sample).map (·.value.name) = ["Plain", "Hidden"] ∧
      select (.not (.literal .category "Fast") false) .sample =
        TestTree.sample.testCases.filter fun l => l ∉ select (.literal .category "Fast") .sample :=
  ⟨by decide, by decide, (select_boolean (by decide)).2.2.2.1 _⟩

end TestScheduler.Filter
