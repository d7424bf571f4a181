import Mathlib.Data.List.Basic
import TestScheduler.Pattern.Common
import TestScheduler.Proofs.Filter.Keeping
import TestScheduler.Proofs.Tree.Throughout
import TestScheduler.Run.WorkItem
import TestScheduler.Suite.Blueprint

/-! # Pruning

Work items are made from the root downwards, and what lies below a dropped node is never looked
at. Still no node is lost: the items below the root are those of all nodes that the filter keeps.
-/

namespace TestScheduler.WorkTree

variable {Expression : Type} [Pattern.Dialect Expression] {f : Filter} {l : Location Node}

theorem createEach_eq_map (f : Filter) (above ts : List TestTree) :
    createEach f above ts =
      ((ts.map (⟨·, above⟩ : TestTree → Location Node)).filter f.keeps).map (create f) := by
  induction ts with
  | nil => rfl
  | cons t ts ih =>
    cases h : f.keeps ⟨t, above⟩ <;> simp [createEach, create, h, ih]

theorem create_eq_node (f : Filter) (l : Location Node) :
    create f l =
      .node { location := l, filter := f } ((l.children.filter f.keeps).map (create f)) := by
  obtain ⟨⟨n, ts⟩, above⟩ := l
  simp only [create, createFrom, createEach_eq_map]
  rfl

/-- The locations that the items stand for, in pre-order. -/
def nodeLocations (t : WorkTree) : List (Location Node) := t.preorder.map (·.location)

theorem nodeLocations_node (item : WorkItem) (ts : List WorkTree) :
    nodeLocations (.node item ts) = item.location :: ts.flatMap nodeLocations := by
  rw [nodeLocations, Tree.preorder_node, List.map_cons, List.map_flatten, List.map_map]
  rfl

theorem flatMap_nodeLocations {cs : List (Location Node)} (placed : ∀ c ∈ cs, c.Placed)
    (each : ∀ c ∈ cs, (create f c).nodeLocations = c :: c.descendants.filter f.keeps) :
    ((cs.filter f.keeps).map (create f)).flatMap nodeLocations =
      (cs.flatMap Location.preorder).filter f.keeps := by
  induction cs with
  | nil => rfl
  | cons c cs ih =>
    have hc : c ∈ c :: cs := List.mem_cons_self
    have rest := ih (fun c hc => placed c (List.mem_cons_of_mem _ hc))
      fun c hc => each c (List.mem_cons_of_mem _ hc)
    rw [List.flatMap_cons, List.filter_append, ← rest]
    cases hk : f.keeps c with
    | false =>
      rw [List.filter_cons_of_neg (by simp [hk]), f.filter_keeps_preorder (placed c hc) hk,
        List.nil_append]
    | true =>
      rw [List.filter_cons_of_pos hk, List.map_cons, List.flatMap_cons, each c hc,
        Location.preorder_eq_cons, List.filter_cons_of_pos hk]

theorem nodeLocations_create (hl : l.Placed) :
    (create f l).nodeLocations = l :: l.descendants.filter f.keeps := by
  induction l using Location.induction with
  | step l ih =>
    rw [create_eq_node, nodeLocations_node, Location.descendants_eq_flatMap,
      flatMap_nodeLocations (fun c hc => hl.child hc) fun c hc => ih c hc (hl.child hc)]

theorem node_create (f : Filter) (l : Location Node) : (create f l).value.node = l.value := by
  rw [create_eq_node]
  rfl

/-- What holds of the items of all locations holds throughout the items of a tree. -/
theorem throughout_create {P : WorkTree → Prop}
    (h : ∀ k ∈ l.preorder, P (create f k)) : (create f l).Throughout P := by
  induction l using Location.induction with
  | step l ih =>
    have top := h l l.self_mem_preorder
    rw [create_eq_node] at top ⊢
    refine Tree.throughout_node.mpr ⟨top, fun t ht => ?_⟩
    obtain ⟨c, hc, rfl⟩ := List.mem_map.mp ht
    have hc := (List.mem_filter.mp hc).1
    exact ih c hc fun k hk => h k (Location.mem_preorder_of_child hc hk)

theorem somewhere_create_iff {P : WorkTree → Prop} (hl : l.Placed) :
    (create f l).Somewhere P ↔
      ∃ k ∈ l.preorder, (k = l ∨ f.keeps k = true) ∧ P (create f k) := by
  induction l using Location.induction with
  | step l ih =>
    rw [create_eq_node, Tree.somewhere_node, ← create_eq_node]
    constructor
    · rintro (top | ⟨t, ht, some⟩)
      · exact ⟨l, l.self_mem_preorder, .inl rfl, top⟩
      · obtain ⟨c, hc, rfl⟩ := List.mem_map.mp ht
        obtain ⟨hc, kept⟩ := List.mem_filter.mp hc
        obtain ⟨k, hk, stays, hP⟩ := (ih c hc (hl.child hc)).mp some
        have keeps : f.keeps k = true := stays.elim (fun same => same ▸ kept) id
        exact ⟨k, Location.mem_preorder_of_child hc hk, .inr keeps, hP⟩
    · rintro ⟨k, hk, rfl | keeps, hP⟩
      · exact .inl hP
      · rcases Location.mem_preorder_iff.mp hk with rfl | below
        · exact .inl hP
        · obtain ⟨c, hc, hk⟩ := Location.mem_descendants_iff.mp below
          have kept : f.keeps c = true := by
            rcases Location.mem_preorder_iff.mp hk with rfl | hd
            · exact keeps
            · exact f.keeps_ancestor ((hl.child hc).of_preorder hk)
                (Location.mem_ancestors_of_descendant hd) keeps
          have some := (ih c hc (hl.child hc)).mpr ⟨k, hk, .inr keeps, hP⟩
          exact .inr ⟨_, List.mem_map.mpr ⟨c, List.mem_filter.mpr ⟨hc, kept⟩, rfl⟩, some⟩

/-- Whatever a filter accepts stays in view with all its kin, so that an explicit node which the
filter requests has a work item. -/
theorem keeps_kin_of_accepts (f : Filter) {t : TestTree} (hl : l ∈ t.locations) :
    (f.keeps l = true → ∀ a ∈ l.ancestors, f.keeps a = true) ∧
    (f.accepts l = true →
      f.keeps l = true ∧ (∀ a ∈ l.ancestors, f.keeps a = true) ∧
        ∀ e ∈ l.descendants, f.keeps e = true) ∧
    (f.requests l = true → f.keeps l = true ∧ l ∈ (create f (Location.root t)).nodeLocations) := by
  have placed := Location.placed_of_mem_locations hl
  have of_accepts (h : f.accepts l = true) (k) (hk : k ∈ l.kin) : f.keeps k = true :=
    f.keeps_of_accepts placed hk h
  refine ⟨fun h a ha => f.keeps_ancestor placed ha h, fun h => ⟨?_, fun a ha => ?_, fun e he => ?_⟩,
    fun h => ?_⟩
  · exact of_accepts h l l.self_mem_kin
  · exact of_accepts h a (Location.mem_kin_iff.mpr (.inr (.inl ha)))
  · exact of_accepts h e (Location.mem_kin_iff.mpr (.inr (.inr he)))
  · have keeps := of_accepts (Filter.accepts_of_requests h) l l.self_mem_kin
    refine ⟨keeps, ?_⟩
    rw [nodeLocations_create (.root t), List.mem_cons, List.mem_filter]
    rcases Location.mem_preorder_iff.mp hl with rfl | hl
    · exact .inl rfl
    · exact .inr ⟨hl, keeps⟩

end TestScheduler.WorkTree

namespace TestScheduler.WorkTree

theorem keeps_kin_of_accepts_sample :
    let l := TestTree.sample.locations.get ⟨3, by decide⟩
    let f := Filter.literal .name "Hidden"
    l ∈ TestTree.sample.locations ∧ f.requests l = true ∧ f.keeps l = true ∧
      l ∈ (create f (Location.root TestTree.sample)).nodeLocations :=
  ⟨List.get_mem .., by decide,
    (keeps_kin_of_accepts (.literal .name "Hidden")
      (List.get_mem TestTree.sample.locations ⟨3, by decide⟩)).2.2 (by decide)⟩

end TestScheduler.WorkTree
