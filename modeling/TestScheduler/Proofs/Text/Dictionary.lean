import Mathlib.Data.List.Induction
import Mathlib.Data.List.Nodup
import TestScheduler.Proofs.Prelude
import TestScheduler.Text.Dictionary

/-! # Reading dictionaries

An insertion changes what is read at one key. A dictionary made from a list of entries has the last
entry of each key, so it is as large as the list exactly if no key occurs twice.
-/

namespace TestScheduler.Dictionary

variable {α : Type} {d : Dictionary α} {key k : String} {value v : α} {es : List (String × α)}

theorem lookup_place :
    (place key value es).lookup k = if k = key then some value else es.lookup k := by
  induction es with
  | nil => exact lookup_cons_eq_ite
  | cons e es ih =>
    obtain ⟨first, old⟩ := e
    rw [place]
    split
    · exact lookup_cons_eq_ite
    · next notBefore =>
      split
      · next after =>
        rw [lookup_cons_eq_ite, ih, lookup_cons_eq_ite]
        by_cases same : k = key
        · simp [same, (String.ne_of_lt after).symm]
        · simp [same]
      · next notAfter =>
        obtain rfl : key = first :=
          String.le_antisymm (String.not_lt.mp notAfter) (String.not_lt.mp notBefore)
        rw [lookup_cons_eq_ite, lookup_cons_eq_ite]
        split <;> rfl

theorem length_place (ascending : es.Pairwise fun a b => a.1 < b.1) :
    (place key value es).length = if (es.lookup key).isSome then es.length else es.length + 1 := by
  induction es with
  | nil => rfl
  | cons e es ih =>
    obtain ⟨first, old⟩ := e
    obtain ⟨before, ascending⟩ := List.pairwise_cons.mp ascending
    rw [place, lookup_cons_eq_ite]
    split
    · next smaller =>
      have new : es.lookup key = none := by
        rw [List.lookup_eq_none_iff]
        intro e he
        exact bne_iff_ne.mpr (String.ne_of_lt (String.lt_trans smaller (before e he)))
      simp [String.ne_of_lt smaller, new]
    · next notBefore =>
      split
      · next after =>
        rw [List.length_cons, ih ascending, if_neg (String.ne_of_lt after).symm]
        split <;> rfl
      · next notAfter =>
        obtain rfl : key = first :=
          String.le_antisymm (String.not_lt.mp notAfter) (String.not_lt.mp notBefore)
        simp

@[simp] theorem get?_insert :
    (d.insert key value).get? k = if k = key then some value else d.get? k :=
  lookup_place

/-- Of several insertions under one key the last one counts. -/
theorem get?_foldl_insert :
    (es.foldl (fun d (key, value) => d.insert key value) d).get? k =
      (es.reverse.lookup k).or (d.get? k) := by
  induction es generalizing d with
  | nil => rfl
  | cons e es ih =>
    obtain ⟨key, value⟩ := e
    rw [List.foldl_cons, ih, get?_insert, List.reverse_cons, List.lookup_append, Option.or_assoc,
      lookup_cons_eq_ite]
    split
    · rfl
    · rfl

theorem size_insert :
    (d.insert key value).size = if d.contains key then d.size else d.size + 1 :=
  length_place d.ascending

theorem contains_insert_iff :
    (d.insert key value).contains k = true ↔ k = key ∨ d.contains k = true := by
  rw [contains, get?_insert]
  split
  · next same => simp [same]
  · next differs => simp [differs, contains]

theorem ofList_concat : ofList (es ++ [(key, value)]) = (ofList es).insert key value := by
  rw [ofList, List.foldl_concat]
  rfl

theorem contains_ofList_iff : (ofList es).contains k = true ↔ k ∈ es.map Prod.fst := by
  induction es using List.reverseRecOn with
  | nil => simp [ofList, contains, get?]
  | append_singleton es e ih =>
    rw [ofList_concat, contains_insert_iff, ih, List.map_append, List.mem_append]
    simp [or_comm]

theorem place_of_forall_lt (last : ∀ e ∈ es, e.1 < key) :
    place key value es = es ++ [(key, value)] := by
  induction es with
  | nil => rfl
  | cons e es ih =>
    obtain ⟨first, rest⟩ := List.forall_mem_cons.mp last
    rw [place, if_neg (String.lt_asymm first), if_pos first, ih rest, List.cons_append]

theorem entries_ofList (ascending : es.Pairwise fun a b => a.1 < b.1) :
    (ofList es).entries = es := by
  induction es using List.reverseRecOn with
  | nil => rfl
  | append_singleton es e ih =>
    obtain ⟨key, value⟩ := e
    obtain ⟨before, -, last⟩ := List.pairwise_append.mp ascending
    have whole : (ofList (es ++ [(key, value)])).entries = place key value (ofList es).entries := by
      rw [ofList_concat, insert]
    rw [whole, ih before]
    exact place_of_forall_lt fun e he => last e he _ (List.mem_singleton_self _)

theorem get?_ofList (mem : (k, v) ∈ es) (agree : ∀ w, (k, w) ∈ es → w = v) :
    (ofList es).get? k = some v := by
  induction es using List.reverseRecOn with
  | nil => cases mem
  | append_singleton es e ih =>
    obtain ⟨key, value⟩ := e
    rw [ofList_concat, get?_insert]
    split
    · next same => rw [agree value (by simp [same])]
    · next differs =>
      have earlier : (k, v) ∈ es := by simpa [differs] using mem
      exact ih earlier fun w hw => agree w (List.mem_append_left _ hw)

theorem size_ofList_le : (ofList es).size ≤ es.length := by
  induction es using List.reverseRecOn with
  | nil => exact Nat.le_refl 0
  | append_singleton es e ih =>
    rw [ofList_concat, size_insert, List.length_append, List.length_singleton]
    split <;> omega

theorem size_ofList_eq_iff : (ofList es).size = es.length ↔ (es.map Prod.fst).Nodup := by
  induction es using List.reverseRecOn with
  | nil => exact iff_of_true rfl List.nodup_nil
  | append_singleton es e ih =>
    have fits := @size_ofList_le _ es
    rw [ofList_concat, size_insert, List.map_append, List.length_append, List.length_singleton,
      List.map_singleton, ← List.concat_eq_append, List.nodup_concat, ← ih, ← contains_ofList_iff]
    split
    · next known =>
      simp only [known, not_true_eq_false, false_and, iff_false]
      omega
    · next new => simp [new]

end TestScheduler.Dictionary
