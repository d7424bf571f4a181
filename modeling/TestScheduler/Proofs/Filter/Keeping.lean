import TestScheduler.Filter.Basic
import TestScheduler.Proofs.Tree.Kinship

/-! # What a filter keeps

A filter that keeps a location keeps all locations above it, so nothing that it keeps lies below a
location that it drops. A filter that accepts a location keeps all kin of the location.
-/

namespace TestScheduler.Filter

variable {Expression : Type} [Pattern.Dialect Expression] {l k a : Location Node}

theorem keeps_ancestor (f : Filter) (hl : l.Placed) (ha : a ∈ l.ancestors)
    (h : f.keeps l = true) : f.keeps a = true := by
  induction f with
  | empty => rfl
  | predicate field matcher =>
    simp only [keeps] at h ⊢
    exact hl.any_kin_ancestor ha h
  | and fs ih =>
    simp only [keeps, keepsAll_eq, List.all_eq_true] at h ⊢
    exact fun f hf => ih f hf (h f hf)
  | or fs ih =>
    simp only [keeps, keepsAny_eq, List.any_eq_true] at h ⊢
    obtain ⟨f, hf, h⟩ := h
    exact ⟨f, hf, ih f hf h⟩
  | not f atTop _ =>
    simp only [keeps] at h ⊢
    exact hl.any_kin_ancestor ha h

theorem keeps_of_accepts (f : Filter) (hl : l.Placed) (hk : k ∈ l.kin)
    (h : f.accepts l = true) : f.keeps k = true := by
  induction f with
  | empty => rfl
  | predicate field matcher =>
    simp only [accepts] at h
    simp only [keeps]
    exact hl.any_kin_of_self hk (p := fun k => fieldAccepts field matcher k.value) h
  | and fs ih =>
    simp only [accepts, acceptsAll_eq, List.all_eq_true] at h
    simp only [keeps, keepsAll_eq, List.all_eq_true]
    exact fun f hf => ih f hf (h f hf)
  | or fs ih =>
    simp only [accepts, acceptsAny_eq, List.any_eq_true] at h
    simp only [keeps, keepsAny_eq, List.any_eq_true]
    obtain ⟨f, hf, h⟩ := h
    exact ⟨f, hf, ih f hf h⟩
  | not f atTop _ =>
    simp only [accepts] at h
    simp only [keeps]
    exact hl.any_kin_of_self hk (p := fun k => negated atTop (f.keeps k) k.value) h

theorem accepts_of_requests {f : Filter} (h : f.requests l = true) : f.accepts l = true := by
  simp only [requests, Bool.and_eq_true] at h
  exact h.2

theorem filter_keeps_preorder (f : Filter) (hl : l.Placed) (h : f.keeps l = false) :
    l.preorder.filter f.keeps = [] := by
  rw [List.filter_eq_nil_iff]
  intro k hk hkeeps
  rcases Location.mem_preorder_iff.mp hk with rfl | hd
  · simp [h] at hkeeps
  · have := f.keeps_ancestor (hl.of_preorder hk) (Location.mem_ancestors_of_descendant hd) hkeeps
    simp [h] at this

end TestScheduler.Filter
