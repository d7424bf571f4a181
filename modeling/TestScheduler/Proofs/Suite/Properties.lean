import TestScheduler.Proofs.Prelude
import TestScheduler.Suite.Properties

/-! # Reading property lists

Adding and setting change what is read under one key.
-/

namespace TestScheduler.Properties

variable {p : Properties} {key k value : String}

theorem lookup_alter (change : List String → List String) (es : List (String × List String)) :
    ((alter change key es).lookup k).getD [] =
      if k = key then change ((es.lookup key).getD []) else (es.lookup k).getD [] := by
  induction es with
  | nil =>
    rw [alter, lookup_cons_eq_ite]
    split
    · rfl
    · rfl
  | cons e es ih =>
    obtain ⟨first, values⟩ := e
    rw [alter]
    by_cases here : first = key
    · subst here
      rw [if_pos rfl, lookup_cons_eq_ite, lookup_cons_eq_ite, lookup_cons_eq_ite, if_pos rfl]
      split
      · rfl
      · rfl
    · rw [if_neg here, lookup_cons_eq_ite, lookup_cons_eq_ite, lookup_cons_eq_ite,
        if_neg (Ne.symm here)]
      by_cases same : k = first
      · rw [if_pos same, if_pos same, if_neg (same ▸ here)]
      · rw [if_neg same, if_neg same, ih]

theorem getAll_add :
    (p.add key value).getAll k = if k = key then p.getAll key ++ [value] else p.getAll k :=
  lookup_alter _ _

theorem getAll_set :
    (p.set key value).getAll k = if k = key then [value] else p.getAll k :=
  lookup_alter _ _

theorem get?_add_of_ne (h : k ≠ key) : (p.add key value).get? k = p.get? k := by
  rw [get?, getAll_add, if_neg h, get?]

theorem get?_set : (p.set key value).get? k = if k = key then some value else p.get? k := by
  rw [get?, getAll_set]
  split
  · rfl
  · rfl

end TestScheduler.Properties
