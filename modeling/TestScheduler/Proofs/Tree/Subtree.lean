import TestScheduler.Tree.Basic

/-! # Subtrees at paths

A path leads to a subtree by the numbers of the children on the way. Replacing the subtree at a path
changes one child of each node on the way.
-/

namespace TestScheduler.Tree

variable {α : Type u} {a : α} {ts : List (Tree α)} {t u new : Tree α} {i : Nat} {path : List Nat}

@[simp] theorem subtreeAt?_nil (t : Tree α) : t.subtreeAt? [] = some t := by
  rw [subtreeAt?]

theorem subtreeAt?_cons_eq_some_iff :
    (node a ts).subtreeAt? (i :: path) = some u ↔
      ∃ t, ts[i]? = some t ∧ t.subtreeAt? path = some u := by
  rw [subtreeAt?, children_node, Option.bind_eq_some_iff]

@[simp] theorem replaceAt_nil (t new : Tree α) : t.replaceAt new [] = new := by
  rw [replaceAt]

theorem replaceAt_cons :
    (node a ts).replaceAt new (i :: path) = node a (ts.modify i (replaceAt · new path)) := by
  rw [replaceAt, value_node, children_node]

theorem value_mem_preorder (t : Tree α) : t.value ∈ t.preorder := by
  cases t with
  | node a ts => simp

theorem length_preorder (t : Tree α) : t.preorder.length = t.size := by
  induction t with
  | node a ts ih =>
    rw [preorder_node, List.length_cons, List.length_flatten, List.map_map, size_node, Nat.add_comm,
      ← List.map_congr_left ih]
    rfl

theorem mem_preorder_of_subtreeAt? (h : t.subtreeAt? path = some u) (ha : a ∈ u.preorder) :
    a ∈ t.preorder := by
  induction path generalizing t with
  | nil =>
    rw [subtreeAt?_nil] at h
    exact Option.some.inj h ▸ ha
  | cons i path ih =>
    obtain ⟨b, ts⟩ := t
    obtain ⟨t, ht, hu⟩ := subtreeAt?_cons_eq_some_iff.mp h
    rw [preorder_eq_cons]
    exact List.mem_cons_of_mem _ (List.mem_flatMap.mpr ⟨t, List.mem_of_getElem? ht, ih hu⟩)

theorem exists_subtreeAt?_of_mem_preorder (h : a ∈ t.preorder) :
    ∃ path u, t.subtreeAt? path = some u ∧ u.value = a := by
  induction t with
  | node b ts ih =>
    rw [preorder_eq_cons] at h
    rcases List.mem_cons.mp h with rfl | h
    · exact ⟨[], _, subtreeAt?_nil _, rfl⟩
    · obtain ⟨t, ht, ha⟩ := List.mem_flatMap.mp h
      obtain ⟨i, hi⟩ := List.getElem?_of_mem ht
      obtain ⟨path, u, hu, value⟩ := ih t ht ha
      exact ⟨i :: path, u, subtreeAt?_cons_eq_some_iff.mpr ⟨t, hi, hu⟩, value⟩

theorem exists_preorder_replaceAt (place : t.subtreeAt? path = some u) :
    ∃ before after, t.preorder = before ++ u.preorder ++ after ∧
      ∀ new, (t.replaceAt new path).preorder = before ++ new.preorder ++ after := by
  induction path generalizing t with
  | nil =>
    rw [subtreeAt?_nil] at place
    obtain rfl := Option.some.inj place
    exact ⟨[], [], by simp, by simp⟩
  | cons i path ih =>
    obtain ⟨a, ts⟩ := t
    obtain ⟨t, ht, place⟩ := subtreeAt?_cons_eq_some_iff.mp place
    obtain ⟨before, after, same, replaced⟩ := ih place
    obtain ⟨hi, rfl⟩ := List.getElem?_eq_some_iff.mp ht
    refine ⟨a :: (ts.take i).flatMap preorder ++ before,
      after ++ (ts.drop (i + 1)).flatMap preorder, ?_, fun new => ?_⟩
    · have split : ts.flatMap preorder = (ts.take i).flatMap preorder ++
          (ts[i].preorder ++ (ts.drop (i + 1)).flatMap preorder) := by
        rw [← List.flatMap_cons, List.getElem_cons_drop, ← List.flatMap_append,
          List.take_append_drop]
      simp [← List.flatMap_def, split, same]
    · rw [replaceAt_cons, preorder_eq_cons, List.modify_eq_take_cons_drop hi]
      simp [replaced]

end TestScheduler.Tree
