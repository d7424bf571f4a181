import Mathlib.Data.List.Infix
import TestScheduler.Proofs.Tree.Kinship
import TestScheduler.Proofs.Tree.Subtree

/-! # Paths to locations

A location in a tree lies at the end of a path from the root. The trees above it stand at the
shorter paths on the way.
-/

namespace TestScheduler.Location

variable {α : Type u} {l k : Location α}

theorem exists_path (hk : k ∈ l.preorder) :
    ∃ path : List Nat, (k :: k.ancestors).reverse.map (fun a => some a.tree) =
      l.ancestors.reverse.map (fun a => some a.tree) ++ path.inits.map l.tree.subtreeAt? := by
  induction l using Location.induction with
  | step l ih =>
    rcases mem_preorder_iff.mp hk with rfl | hk
    · exact ⟨[], by simp⟩
    · obtain ⟨c, hc, hk⟩ := mem_descendants_iff.mp hk
      obtain ⟨path, way⟩ := ih c hc hk
      obtain ⟨⟨a, ts⟩, above⟩ := l
      obtain ⟨t, ht, rfl⟩ := List.mem_map.mp hc
      obtain ⟨i, hi⟩ := List.getElem?_of_mem ht
      rw [Tree.children_node] at hi
      have down : (Tree.node a ts).subtreeAt? ∘ (i :: ·) = t.subtreeAt? := by
        funext path
        simp [Tree.subtreeAt?, hi]
      refine ⟨i :: path, way.trans ?_⟩
      rw [ancestors_of_child hc, List.inits_cons, List.map_cons, List.map_map, down]
      simp

end TestScheduler.Location
