import TestScheduler.Pattern.Common
import TestScheduler.Proofs.Filter.Naming
import TestScheduler.Proofs.Filter.Reach

/-! # Double negation

A negation looks at all kin of a node, so a double negation asks for more than its term: some kin of
the node must have all of its own kin kept. A node that the term accepts is such an anchor for all
its kin. Only a conjunction can keep a node without an anchor, for the sake of different nodes.
-/

namespace TestScheduler.Filter

variable {Expression : Type} [Pattern.Dialect Expression] {f g : Filter} {fs : List Filter}
  {l k : Location Node} {t : TestTree}

/-- Whether some kin of a location has only kin that the filter keeps. -/
def Anchored (g : Filter) (l : Location Node) : Prop :=
  ∃ k ∈ l.kin, ∀ a ∈ k.kin, g.keeps a = true

theorem keeps_not_not_iff : (not (not g false) false).keeps l = true ↔ g.Anchored l := by
  simp only [keeps_not_eq_true_iff, keeps_not_eq_false_iff, Anchored]

theorem Anchored.keeps (h : g.Anchored l) (hl : l.Placed) : g.keeps l = true := by
  obtain ⟨k, hk, kept⟩ := h
  exact kept l (hl.mem_kin_symm hk)

theorem Anchored.imp (h : g.Anchored l) (keeps : ∀ a, g.keeps a = true → f.keeps a = true) :
    f.Anchored l := by
  obtain ⟨k, hk, kept⟩ := h
  exact ⟨k, hk, fun a ha => keeps a (kept a ha)⟩

theorem anchored_of_any_accepts (hl : l ∈ t.locations) (some : l.kin.any g.accepts = true) :
    g.Anchored l := by
  obtain ⟨k, hk, accepts⟩ := List.any_eq_true.mp some
  have placed := Location.placed_of_mem_locations (Location.mem_locations_of_kin hl hk)
  exact ⟨k, hk, fun _ ha => g.keeps_of_accepts placed ha accepts⟩

theorem Anchored.or (hf : f ∈ fs) (h : f.Anchored l) : (Filter.or fs).Anchored l :=
  h.imp fun a keeps => by
    rw [Filter.keeps, keepsAny_eq]
    exact List.any_eq_true.mpr ⟨f, hf, keeps⟩

/-- Without conjunctions, what keeps a node is a single node that is accepted. -/
theorem Disjunctive.anchored (h : g.Disjunctive) (hl : l ∈ t.locations)
    (keeps : g.keeps l = true) : g.Anchored l := by
  induction h with
  | empty => exact anchored_of_any_accepts hl (List.any_eq_true.mpr ⟨l, l.self_mem_kin, rfl⟩)
  | predicate => exact anchored_of_any_accepts hl keeps
  | or _ ih =>
    rw [Filter.keeps, keepsAny_eq] at keeps
    obtain ⟨f, hf, keeps⟩ := List.any_eq_true.mp keeps
    exact (ih f hf keeps).or hf
  | not => exact anchored_of_any_accepts hl keeps

/-- A double negation keeps only what its term keeps, and all of it if the term is disjunctive. -/
theorem keeps_not_not (g : Filter) {t : TestTree} {l : Location Node} (hl : l ∈ t.locations) :
    ((not (not g false) false).keeps l = true → g.keeps l = true) ∧
      (g.Disjunctive → (not (not g false) false).keeps l = g.keeps l) := by
  have term (h : (not (not g false) false).keeps l = true) : g.keeps l = true :=
    (keeps_not_not_iff.mp h).keeps (Location.placed_of_mem_locations hl)
  refine ⟨term, fun disjunctive => ?_⟩
  exact Bool.eq_iff_iff.mpr ⟨term, fun h => keeps_not_not_iff.mpr (disjunctive.anchored hl h)⟩

end TestScheduler.Filter

namespace TestScheduler.Filter

theorem keeps_not_not_sample :
    Location.root TestTree.sample ∈ TestTree.sample.locations ∧
      (literal .category "Fast").keeps (.root TestTree.sample) = true ∧
      (not (not (literal .category "Fast") false) false).keeps (.root TestTree.sample) = true :=
  have root := (Location.root TestTree.sample).self_mem_preorder
  have keeps : (literal .category "Fast").keeps (.root TestTree.sample) = true := by decide
  have h := keeps_not_not (literal .category "Fast") root
  ⟨root, keeps, (h.2 .predicate).trans keeps⟩

/-- A conjunction that keeps the root for the sake of two tests. -/
example :
    let f := Filter.and [literal .name "Plain", literal .name "Slow"]
    f.keeps (.root TestTree.sample) = true ∧
      (not (not f false) false).keeps (.root TestTree.sample) = false := by decide

end TestScheduler.Filter
