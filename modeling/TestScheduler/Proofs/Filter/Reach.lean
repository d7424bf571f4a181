import TestScheduler.Proofs.Filter.Selection

/-! # What lies below a suite that is kept

A conjunction may keep a suite because of different nodes below it, none of which it keeps. No other
filter keeps a suite without a test case below it, as long as there is a test case at all.
-/

namespace TestScheduler

namespace Location

variable {l k : Location Node}

/-- Whether no suite at or below a location is empty. -/
def Filled (l : Location Node) : Prop :=
  ∀ k ∈ l.preorder, k.value.isSuite = true → k.tree.children ≠ []

theorem Filled.below (h : l.Filled) (hk : k ∈ l.preorder) : k.Filled :=
  fun a ha => h a (mem_preorder_trans hk ha)

theorem Filled.exists_testCase (h : l.Filled) : ∃ c ∈ l.preorder, c.value.kind = .leaf := by
  induction l using Location.induction with
  | step l ih =>
    cases suite : l.value.isSuite with
    | false => exact ⟨l, l.self_mem_preorder, Node.isSuite_eq_false_iff.mp suite⟩
    | true =>
      obtain ⟨t, ht⟩ := List.exists_mem_of_ne_nil _ (h l l.self_mem_preorder suite)
      have child : ⟨t, l.tree :: l.above⟩ ∈ l.children := List.mem_map.mpr ⟨t, ht, rfl⟩
      have below := mem_preorder_of_descendants (mem_descendants_of_child child)
      obtain ⟨c, hc, leaf⟩ := ih _ child (h.below below)
      exact ⟨c, mem_preorder_of_child child hc, leaf⟩

theorem Filled.exists_testCase_kin (h : l.Filled) (hk : k ∈ l.kin) :
    ∃ c ∈ l.preorder, c.value.kind = .leaf ∧ k ∈ c.kin := by
  have below (a : Location Node) (ha : a ∈ l.preorder) (hk : k = a ∨ k ∈ a.ancestors) :
      ∃ c ∈ l.preorder, c.value.kind = .leaf ∧ k ∈ c.kin := by
    obtain ⟨c, hc, leaf⟩ := (h.below ha).exists_testCase
    refine ⟨c, mem_preorder_trans ha hc, leaf, mem_kin_iff.mpr ?_⟩
    rcases hk with rfl | hk
    · rcases mem_preorder_iff.mp hc with rfl | hc
      · exact .inl rfl
      · exact .inr (.inl (mem_ancestors_of_descendant hc))
    · exact .inr (.inl (ancestors_subset_of_preorder hc hk))
  rcases mem_kin_iff.mp hk with rfl | above | hd
  · exact below k k.self_mem_preorder (.inl rfl)
  · exact below l l.self_mem_preorder (.inr above)
  · exact below k (mem_preorder_of_descendants hd) (.inl rfl)

end Location

namespace Filter

variable {Expression : Type} [Pattern.Dialect Expression]

/-- Whether conjunctions occur in a filter only inside negations. -/
inductive Disjunctive : Filter → Prop
  | empty : Disjunctive .empty
  | predicate {field : Field} {m : Matcher} : Disjunctive (.predicate field m)
  | or {fs : List Filter} (terms : ∀ f ∈ fs, Disjunctive f) : Disjunctive (.or fs)
  | not {f : Filter} {atTop : Bool} : Disjunctive (.not f atTop)

variable {f : Filter} {l : Location Node}

theorem Disjunctive.exists_testCase (h : f.Disjunctive) (filled : l.Filled)
    (keeps : f.keeps l = true) : ∃ c ∈ l.preorder, c.value.kind = .leaf ∧ f.keeps c = true := by
  have of_kin (p : Location Node → Bool) (any : l.kin.any p = true) :
      ∃ c ∈ l.preorder, c.value.kind = .leaf ∧ c.kin.any p = true := by
    obtain ⟨k, hk, hp⟩ := List.any_eq_true.mp any
    obtain ⟨c, hc, leaf, kin⟩ := filled.exists_testCase_kin hk
    exact ⟨c, hc, leaf, List.any_eq_true.mpr ⟨k, kin, hp⟩⟩
  induction h with
  | empty =>
    obtain ⟨c, hc, leaf⟩ := filled.exists_testCase
    exact ⟨c, hc, leaf, rfl⟩
  | predicate =>
    simp only [Filter.keeps] at keeps ⊢
    exact of_kin _ keeps
  | or _ ih =>
    simp only [Filter.keeps, keepsAny_eq, List.any_eq_true] at keeps ⊢
    obtain ⟨f, hf, keeps⟩ := keeps
    obtain ⟨c, hc, leaf, kept⟩ := ih f hf keeps
    exact ⟨c, hc, leaf, f, hf, kept⟩
  | not =>
    simp only [Filter.keeps] at keeps ⊢
    exact of_kin _ keeps

theorem exists_select_below_iff {tree : TestTree} (bare : tree.LeavesAreBare)
    (hl : l ∈ tree.locations) :
    (∃ c ∈ f.select tree, l ∈ c.ancestors) ↔
      ∃ c ∈ l.descendants, f.keeps c = true ∧ c.value.kind = .leaf := by
  constructor
  · rintro ⟨c, hc, above⟩
    obtain ⟨hc, kept⟩ := (f.mem_select_iff bare).mp hc
    obtain ⟨hc, leaf⟩ := List.mem_filter.mp hc
    have placed := Location.placed_of_mem_locations hc
    exact ⟨c, placed.mem_descendants above, kept, of_decide_eq_true leaf⟩
  · rintro ⟨c, below, kept, leaf⟩
    have hc := Location.mem_preorder_trans hl (Location.mem_preorder_of_descendants below)
    refine ⟨c, (f.mem_select_iff bare).mpr ⟨?_, kept⟩, Location.mem_ancestors_of_descendant below⟩
    exact List.mem_filter.mpr ⟨hc, decide_eq_true leaf⟩

/-- Without conjunctions, a group that is kept has a selected test case. -/
theorem Disjunctive.exists_select_below {tree : TestTree} (h : f.Disjunctive)
    (bare : tree.LeavesAreBare) (filled : (Location.root tree).Filled)
    (hl : l ∈ tree.locations) (grouped : l.value.kind.isGrouped = true)
    (keeps : f.keeps l = true) : ∃ c ∈ f.select tree, l ∈ c.ancestors := by
  obtain ⟨c, hc, leaf, kept⟩ := h.exists_testCase (filled.below hl) keeps
  refine (f.exists_select_below_iff bare hl).mpr ⟨c, ?_, kept, leaf⟩
  refine (Location.mem_preorder_iff.mp hc).resolve_left ?_
  rintro rfl
  rw [leaf] at grouped
  cases grouped

end Filter

end TestScheduler
