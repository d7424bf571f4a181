import TestScheduler.Suite.Node

/-! # Ancestors and descendants

The trees above a location can be any list. In a placed location each of them contains the one
before it, and then being an ancestor is the converse of being a descendant. An ancestor has among
its kin all kin of the locations below it.
-/

namespace TestScheduler.Location

variable {α : Type u} {l k a : Location α}

/-- The locations that are reached from a root by going to children. -/
inductive Placed : Location α → Prop where
  | root (t : Tree α) : Placed (root t)
  | child {l c : Location α} (h : Placed l) (hc : c ∈ l.children) : Placed c

theorem listFromEach_eq_flatMap (above ts : List (Tree α)) :
    listFromEach above ts = (ts.map (⟨·, above⟩ : Tree α → Location α)).flatMap preorder := by
  induction ts with
  | nil => rfl
  | cons t ts ih => simp [listFromEach, preorder, ih]

theorem descendants_eq_flatMap (l : Location α) : l.descendants = l.children.flatMap preorder :=
  listFromEach_eq_flatMap _ _

theorem preorder_eq_cons (l : Location α) : l.preorder = l :: l.descendants := by
  obtain ⟨⟨a, ts⟩, above⟩ := l
  rfl

theorem mem_preorder_iff : k ∈ l.preorder ↔ k = l ∨ k ∈ l.descendants := by
  rw [preorder_eq_cons, List.mem_cons]

theorem mem_descendants_iff : k ∈ l.descendants ↔ ∃ c ∈ l.children, k ∈ c.preorder := by
  rw [descendants_eq_flatMap, List.mem_flatMap]

theorem self_mem_preorder (l : Location α) : l ∈ l.preorder :=
  mem_preorder_iff.mpr (.inl rfl)

theorem mem_preorder_of_descendants (h : k ∈ l.descendants) : k ∈ l.preorder :=
  mem_preorder_iff.mpr (.inr h)

theorem mem_preorder_of_child (hc : a ∈ l.children) (hk : k ∈ a.preorder) : k ∈ l.preorder :=
  mem_preorder_of_descendants (mem_descendants_iff.mpr ⟨a, hc, hk⟩)

/-- Induction that goes from the children of a location to the location. -/
theorem induction {motive : Location α → Prop}
    (step : ∀ l, (∀ c ∈ l.children, motive c) → motive l) (l : Location α) : motive l := by
  obtain ⟨t, above⟩ := l
  induction t generalizing above with
  | node a ts ih =>
    refine step _ fun c hc => ?_
    obtain ⟨t, ht, rfl⟩ := List.mem_map.mp hc
    exact ih t ht _

/-- What holds of a location and passes on to children holds of all locations below it. -/
theorem preorder_induction {motive : Location α → Prop} (here : motive l)
    (step : ∀ k ∈ l.preorder, motive k → ∀ c ∈ k.children, motive c) (hk : k ∈ l.preorder) :
    motive k := by
  induction l using Location.induction with
  | step l ih =>
    rcases mem_preorder_iff.mp hk with rfl | hk
    · exact here
    · obtain ⟨c, hc, hk⟩ := mem_descendants_iff.mp hk
      refine ih c hc ?_ (fun m hm => step m (mem_preorder_of_child hc hm)) hk
      exact step l l.self_mem_preorder here c hc

theorem depth_lt_of_descendants (h : k ∈ l.descendants) : l.above.length < k.above.length := by
  induction l using induction with
  | step l ih =>
    obtain ⟨c, hc, hk⟩ := mem_descendants_iff.mp h
    have child : c.above.length = l.above.length + 1 := by
      obtain ⟨t, -, rfl⟩ := List.mem_map.mp hc
      rfl
    rcases mem_preorder_iff.mp hk with rfl | hk
    · omega
    · have := ih c hc hk
      omega

theorem not_mem_descendants (l : Location α) : l ∉ l.descendants :=
  fun h => Nat.lt_irrefl _ (depth_lt_of_descendants h)

theorem map_value_preorder (l : Location α) : l.preorder.map value = l.tree.preorder := by
  induction l using induction with
  | step l ih =>
    obtain ⟨⟨a, ts⟩, above⟩ := l
    rw [preorder_eq_cons, descendants_eq_flatMap, List.map_cons, List.map_flatMap,
      List.flatMap_def, List.map_congr_left ih, ← List.flatMap_def, children, List.flatMap_map,
      Tree.preorder_eq_cons]
    rfl

theorem map_value_locations (t : Tree α) : t.locations.map value = t.preorder :=
  map_value_preorder (root t)

theorem mem_preorder_trans (h : k ∈ l.preorder) (ha : a ∈ k.preorder) : a ∈ l.preorder := by
  induction l using induction with
  | step l ih =>
    rcases mem_preorder_iff.mp h with rfl | h
    · exact ha
    · obtain ⟨c, hc, hk⟩ := mem_descendants_iff.mp h
      exact mem_preorder_of_child hc (ih c hc hk)

theorem mem_descendants_of_preorder (h : k ∈ l.descendants) (ha : a ∈ k.preorder) :
    a ∈ l.descendants := by
  obtain ⟨c, hc, hk⟩ := mem_descendants_iff.mp h
  exact mem_descendants_iff.mpr ⟨c, hc, mem_preorder_trans hk ha⟩

theorem mem_descendants_of_child (hc : k ∈ l.children) : k ∈ l.descendants :=
  mem_descendants_iff.mpr ⟨k, hc, self_mem_preorder k⟩

theorem ancestors_of_child (hc : k ∈ l.children) : k.ancestors = l :: l.ancestors := by
  obtain ⟨t, -, rfl⟩ := List.mem_map.mp hc
  rfl

theorem ancestors_subset_of_preorder (h : k ∈ l.preorder) : l.ancestors ⊆ k.ancestors := by
  induction l using induction with
  | step l ih =>
    rcases mem_preorder_iff.mp h with rfl | h
    · exact List.Subset.refl _
    · obtain ⟨c, hc, hk⟩ := mem_descendants_iff.mp h
      have hs : l.ancestors ⊆ c.ancestors := by
        rw [ancestors_of_child hc]; exact List.subset_cons_self _ _
      exact List.Subset.trans hs (ih c hc hk)

theorem mem_ancestors_of_descendant (h : k ∈ l.descendants) : l ∈ k.ancestors := by
  obtain ⟨c, hc, hk⟩ := mem_descendants_iff.mp h
  apply ancestors_subset_of_preorder hk
  rw [ancestors_of_child hc]
  exact List.mem_cons_self

theorem Placed.of_preorder (hl : l.Placed) (h : k ∈ l.preorder) : k.Placed :=
  preorder_induction hl (fun _ _ placed _ hc => placed.child hc) h

theorem placed_of_mem_locations {t : Tree α} (h : l ∈ t.locations) : l.Placed :=
  (Placed.root t).of_preorder h

theorem Placed.mem_descendants (hl : l.Placed) (ha : a ∈ l.ancestors) : l ∈ a.descendants := by
  induction hl generalizing a with
  | root t => simp [Location.root, ancestors, ofChain] at ha
  | @child l c _ hc ih =>
    rw [ancestors_of_child hc] at ha
    rcases List.mem_cons.mp ha with rfl | ha
    · exact mem_descendants_of_child hc
    · exact mem_descendants_of_preorder (ih ha)
        (mem_preorder_of_child hc (self_mem_preorder c))

theorem Placed.ancestors_comparable (hl : l.Placed) (ha : a ∈ l.ancestors) (hk : k ∈ l.ancestors) :
    k = a ∨ k ∈ a.ancestors ∨ k ∈ a.descendants := by
  induction hl with
  | root t => simp [Location.root, ancestors, ofChain] at ha
  | @child l c hl hc ih =>
    rw [ancestors_of_child hc] at ha hk
    rcases List.mem_cons.mp ha with rfl | ha <;> rcases List.mem_cons.mp hk with rfl | hk
    · exact .inl rfl
    · exact .inr (.inl hk)
    · exact .inr (.inr (hl.mem_descendants ha))
    · exact ih ha hk

theorem mem_kin_iff : k ∈ l.kin ↔ k = l ∨ k ∈ l.ancestors ∨ k ∈ l.descendants := by
  simp [kin]

theorem self_mem_kin (l : Location α) : l ∈ l.kin := mem_kin_iff.mpr (.inl rfl)

theorem Placed.mem_kin_symm (hl : l.Placed) (hk : k ∈ l.kin) : l ∈ k.kin := by
  rcases mem_kin_iff.mp hk with rfl | hk | hk
  · exact self_mem_kin _
  · exact mem_kin_iff.mpr (.inr (.inr (hl.mem_descendants hk)))
  · exact mem_kin_iff.mpr (.inr (.inl (mem_ancestors_of_descendant hk)))

theorem Placed.kin_subset (hl : l.Placed) (ha : a ∈ l.ancestors) : l.kin ⊆ a.kin := by
  intro k hk
  rw [mem_kin_iff] at hk ⊢
  rcases hk with rfl | hk | hk
  · exact .inr (.inr (hl.mem_descendants ha))
  · exact hl.ancestors_comparable ha hk
  · exact .inr (.inr (mem_descendants_of_preorder (hl.mem_descendants ha)
      (mem_preorder_of_descendants hk)))

theorem Placed.any_kin_ancestor (hl : l.Placed) (ha : a ∈ l.ancestors) {p : Location α → Bool}
    (h : l.kin.any p = true) : a.kin.any p = true := by
  obtain ⟨k, hk, hp⟩ := List.any_eq_true.mp h
  exact List.any_eq_true.mpr ⟨k, hl.kin_subset ha hk, hp⟩

theorem Placed.any_kin_of_self (hl : l.Placed) (hk : k ∈ l.kin) {p : Location α → Bool}
    (h : p l = true) : k.kin.any p = true :=
  List.any_eq_true.mpr ⟨l, hl.mem_kin_symm hk, h⟩

end TestScheduler.Location
