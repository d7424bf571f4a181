import Mathlib.Data.List.Basic
import TestScheduler.Proofs.Tree.Kinship

/-! # Properties of all subtrees

A property of trees may hold throughout a tree, at every place in it. What passes from children to
their parent throughout a tree passes from every place to all that are above it, and what passes
from a tree to its children reaches every place.
-/

namespace TestScheduler

variable {α : Type u}

/-- Whether a property holds of the subtree at every place. -/
def Tree.Throughout (P : Tree α → Prop) (t : Tree α) : Prop := ∀ l ∈ t.locations, P l.tree

namespace Location

theorem map_tree_preorder (t : Tree α) (above above' : List (Tree α)) :
    (⟨t, above⟩ : Location α).preorder.map Location.tree =
      (⟨t, above'⟩ : Location α).preorder.map Location.tree := by
  induction t generalizing above above' with
  | node a ts ih =>
    rw [preorder_eq_cons, preorder_eq_cons, descendants_eq_flatMap, descendants_eq_flatMap]
    simp only [children, Tree.children_node, List.map_cons, List.map_flatMap, List.flatMap_map]
    rw [List.flatMap_def, List.flatMap_def]
    congr 2
    exact List.map_congr_left fun t ht => ih t ht _ _

/-- What passes from children to their parent rises to a location and to all that lies between. -/
theorem rises {P : α → Prop} {k l : Location α}
    (step : ∀ l ∈ k.preorder, ∀ c ∈ l.tree.children, P c.value → P l.value)
    (hl : l ∈ k.preorder) (h : P l.value) :
    P k.value ∧ ∀ a ∈ l.ancestors, a ∈ k.ancestors ∨ P a.value := by
  induction k using Location.induction with
  | step k ih =>
    rcases mem_preorder_iff.mp hl with rfl | hl
    · exact ⟨h, fun a ha => .inl ha⟩
    · obtain ⟨c, hc, hl⟩ := mem_descendants_iff.mp hl
      obtain ⟨hP, between⟩ := ih c hc (fun l hl => step l (mem_preorder_of_child hc hl)) hl
      have hk : P k.value := by
        obtain ⟨t, ht, rfl⟩ := List.mem_map.mp hc
        exact step k k.self_mem_preorder t ht hP
      refine ⟨hk, fun a ha => ?_⟩
      rcases between a ha with ha | ha
      · rw [ancestors_of_child hc] at ha
        rcases List.mem_cons.mp ha with rfl | ha
        · exact .inr hk
        · exact .inl ha
      · exact .inr ha

/-- What passes from a location to its children, unless something holds there, descends to all
locations above which it does not hold. -/
theorem descends {P Q : Tree α → Prop} {k l : Location α}
    (step : ∀ l ∈ k.preorder, P l.tree → ¬ Q l.tree → ∀ c ∈ l.tree.children, P c)
    (hl : l ∈ k.preorder) (above : ∀ a ∈ l.ancestors, ¬ Q a.tree) (h : P k.tree) : P l.tree := by
  refine preorder_induction (motive := fun l => (∀ a ∈ l.ancestors, ¬ Q a.tree) → P l.tree)
    (fun _ => h) (fun m hm holds c hc above => ?_) hl above
  obtain ⟨t, ht, rfl⟩ := List.mem_map.mp hc
  rw [ancestors_of_child hc, List.forall_mem_cons] at above
  exact step m hm (holds above.2) above.1 t ht

end Location

namespace Tree

variable {P Q : Tree α → Prop} {t : Tree α}

theorem map_tree_locations (a : α) (ts : List (Tree α)) :
    (node a ts).locations.map Location.tree =
      node a ts :: ts.flatMap fun t => t.locations.map Location.tree := by
  unfold locations
  rw [Location.preorder_eq_cons, List.map_cons, Location.descendants_eq_flatMap, List.map_flatMap,
    Location.children, List.flatMap_map]
  congr 1
  exact List.flatMap_congr fun t _ => Location.map_tree_preorder t _ _

theorem throughout_node {a : α} {ts : List (Tree α)} :
    (node a ts).Throughout P ↔ P (node a ts) ∧ ∀ t ∈ ts, t.Throughout P := by
  have subtrees (t : Tree α) : t.Throughout P ↔ ∀ s ∈ t.locations.map Location.tree, P s :=
    List.forall_mem_map.symm
  rw [subtrees, map_tree_locations, List.forall_mem_cons, List.forall_mem_flatMap]
  exact and_congr_right fun _ => forall₂_congr fun t _ => (subtrees t).symm

theorem Throughout.mono (h : t.Throughout P) (hPQ : ∀ t, P t → Q t) : t.Throughout Q :=
  fun l hl => hPQ _ (h l hl)

theorem Throughout.rises {P : α → Prop}
    (h : t.Throughout fun s => ∀ c ∈ s.children, P c.value → P s.value) {l : Location α}
    (hl : l ∈ t.locations) (hP : P l.value) : P t.value ∧ ∀ a ∈ l.ancestors, P a.value := by
  obtain ⟨root, between⟩ := Location.rises h hl hP
  refine ⟨root, fun a ha => ?_⟩
  rcases between a ha with ha | ha
  · cases ha
  · exact ha

theorem Throughout.descends
    (h : t.Throughout fun s => P s → ¬ Q s → ∀ c ∈ s.children, P c) (root : P t) {l : Location α}
    (hl : l ∈ t.locations) (above : ∀ a ∈ l.ancestors, ¬ Q a.tree) : P l.tree :=
  Location.descends h hl above root

/-- Whether a property holds of the subtree at some place. -/
def Somewhere (P : Tree α → Prop) (t : Tree α) : Prop := ∃ l ∈ t.locations, P l.tree

theorem somewhere_node {a : α} {ts : List (Tree α)} :
    (node a ts).Somewhere P ↔ P (node a ts) ∨ ∃ t ∈ ts, t.Somewhere P := by
  have nowhere (t : Tree α) : t.Somewhere P ↔ ¬ t.Throughout fun t => ¬ P t := by
    simp [Somewhere, Throughout]
  simp only [nowhere, throughout_node, Classical.not_and_iff_not_or_not, Classical.not_not,
    Classical.not_forall, exists_prop]

end Tree

end TestScheduler
