import Mathlib.Data.List.DropRight
import Mathlib.Data.List.Induction
import TestScheduler.Proofs.Suite.Properties

/-! # Property lists as multi-maps

After writes to an empty property list, a key holds the value that was last set under it and those
that have been added since. The keys stand in the order of their first use, and a write leaves the
other keys alone.
-/

namespace TestScheduler.Properties

inductive Write where
  | add (key value : String)
  | set (key value : String)
  deriving DecidableEq

namespace Write

def key : Write → String
  | add key _ => key
  | set key _ => key

def value : Write → String
  | add _ value => value
  | set _ value => value

def isAdd : Write → Bool
  | add .. => true
  | set .. => false

def apply : Write → Properties → Properties
  | add key value, p => p.add key value
  | set key value, p => p.set key value

/-- What becomes of the values of the key. -/
def change : Write → List String → List String
  | add _ value, values => values ++ [value]
  | set _ value, _ => [value]

/-- The last write that is no addition, if there is one, and the additions after it. -/
def lasting (ws : List Write) : List Write :=
  (ws.rdropWhile isAdd).getLast?.toList ++ ws.rtakeWhile isAdd

end Write

/-- The property list after writes to an empty one. -/
def written (ws : List Write) : Properties := ws.foldl (fun p w => w.apply p) {}

/-- The value that was last set under the key, if there is one, and those added later. -/
def held (key : String) (ws : List Write) : List String :=
  (Write.lasting (ws.filter (·.key = key))).map Write.value

variable {p : Properties} {w : Write} {ws : List Write} {key k : String}

/-! ## One write -/

theorem mem_keys_iff : key ∈ p.keys ↔ p.contains key = true := by
  simp [keys, contains]

theorem map_fst_alter (change : List String → List String) (es : List (String × List String)) :
    (alter change key es).map Prod.fst =
      if key ∈ es.map Prod.fst then es.map Prod.fst else es.map Prod.fst ++ [key] := by
  induction es with
  | nil => rfl
  | cons e es ih =>
    rw [alter, List.map_cons]
    by_cases here : e.1 = key
    · rw [if_pos here, if_pos (List.mem_cons.mpr (.inl here.symm)), List.map_cons]
    · rw [if_neg here, List.map_cons, ih]
      by_cases later : key ∈ es.map Prod.fst
      · rw [if_pos later, if_pos (List.mem_cons_of_mem _ later)]
      · have new : key ∉ e.1 :: es.map Prod.fst := by
          rw [List.mem_cons, not_or]
          exact ⟨Ne.symm here, later⟩
        rw [if_neg later, if_neg new, List.cons_append]

namespace Write

theorem keys_apply :
    (w.apply p).keys = if w.key ∈ p.keys then p.keys else p.keys ++ [w.key] := by
  cases w with
  | add key value => exact map_fst_alter _ _
  | set key value => exact map_fst_alter _ _

theorem getAll_apply :
    (w.apply p).getAll k = if k = w.key then w.change (p.getAll w.key) else p.getAll k := by
  cases w with
  | add key value => exact getAll_add
  | set key value => exact getAll_set

theorem lasting_concat :
    lasting (ws ++ [w]) = if w.isAdd then lasting ws ++ [w] else [w] := by
  unfold lasting
  split
  · next add =>
    rw [List.rdropWhile_concat_pos _ _ _ add, List.rtakeWhile_concat_pos _ _ _ add,
      List.append_assoc]
  · next set =>
    rw [List.rdropWhile_concat_neg _ _ _ set, List.rtakeWhile_concat_neg _ _ _ set,
      List.getLast?_concat]
    rfl

end Write

theorem held_concat :
    held k (ws ++ [w]) = if k = w.key then w.change (held w.key ws) else held k ws := by
  unfold held
  by_cases own : k = w.key
  · subst own
    have here : [w].filter (·.key = w.key) = [w] := by simp
    rw [if_pos rfl, List.filter_append, here, Write.lasting_concat]
    cases w with
    | add key value => exact List.map_append
    | set key value => rfl
  · have elsewhere : [w].filter (·.key = k) = [] := by simp [Ne.symm own]
    rw [if_neg own, List.filter_append, elsewhere, List.append_nil]

/-! ## Any writes -/

theorem written_concat (ws : List Write) (w : Write) :
    written (ws ++ [w]) = w.apply (written ws) := by
  rw [written, List.foldl_concat]
  rfl

theorem getAll_written (ws : List Write) (key : String) :
    (written ws).getAll key = held key ws := by
  induction ws using List.reverseRecOn generalizing key with
  | nil => rfl
  | append_singleton ws w ih => rw [written_concat, Write.getAll_apply, held_concat, ih, ih]

theorem mem_keys_written : key ∈ (written ws).keys ↔ key ∈ ws.map Write.key := by
  induction ws using List.reverseRecOn with
  | nil => rfl
  | append_singleton ws w ih =>
    rw [written_concat, Write.keys_apply, List.map_append, List.mem_append, ← ih,
      List.map_singleton, List.mem_singleton]
    split
    · next used =>
      constructor
      · exact .inl
      · rintro (h | rfl)
        · exact h
        · exact used
    · rw [List.mem_append, List.mem_singleton]

/-- The keys stand in the order in which they were first used. -/
theorem pairwise_keys_written (ws : List Write) :
    (written ws).keys.Pairwise fun a b =>
      (ws.map Write.key).idxOf a < (ws.map Write.key).idxOf b := by
  induction ws using List.reverseRecOn with
  | nil => exact .nil
  | append_singleton ws w ih =>
    have before {a : String} (h : a ∈ (written ws).keys) :
        ((ws ++ [w]).map Write.key).idxOf a = (ws.map Write.key).idxOf a := by
      rw [List.map_append, List.idxOf_append_of_mem (mem_keys_written.mp h)]
    have kept : (written ws).keys.Pairwise fun a b =>
        ((ws ++ [w]).map Write.key).idxOf a < ((ws ++ [w]).map Write.key).idxOf b := by
      refine ih.imp_of_mem fun ha hb first => ?_
      rwa [before ha, before hb]
    rw [written_concat, Write.keys_apply]
    split
    · exact kept
    · next new =>
      refine List.pairwise_append.mpr ⟨kept, List.pairwise_singleton _ _, fun a ha b hb => ?_⟩
      obtain rfl := List.mem_singleton.mp hb
      have first : (ws.map Write.key).idxOf a < (ws.map Write.key).length :=
        List.idxOf_lt_length_of_mem (mem_keys_written.mp ha)
      rw [before ha, List.map_append,
        List.idxOf_append_of_notMem fun h => new (mem_keys_written.mpr h)]
      exact Nat.lt_of_lt_of_le first (Nat.le_add_right _ _)

/-- Whatever is written to an empty property list, every key holds the value that was last set and
those added since, and the keys that have been used stand in the order of their first use. No write
changes the values of another key or the order of the keys. -/
theorem written_refines (ws : List Write) :
    (∀ key, (written ws).getAll key = held key ws ∧
      (written ws).get? key = (held key ws).head? ∧
      ((written ws).contains key = true ↔ key ∈ (written ws).keys)) ∧
    (∀ key, key ∈ (written ws).keys ↔ ∃ w ∈ ws, w.key = key) ∧
    (written ws).keys.Nodup ∧
    (written ws).keys.Pairwise
      (fun a b => (ws.map Write.key).idxOf a < (ws.map Write.key).idxOf b) ∧
    ∀ w : Write,
      (∀ key, key ≠ w.key → (w.apply (written ws)).getAll key = (written ws).getAll key) ∧
      (written ws).keys <+: (w.apply (written ws)).keys := by
  have order := pairwise_keys_written ws
  refine ⟨fun key => ⟨getAll_written ws key, ?_, mem_keys_iff.symm⟩, fun key => ?_, ?_, order,
    fun w => ⟨fun key other => ?_, ?_⟩⟩
  · rw [get?, getAll_written]
  · rw [mem_keys_written, List.mem_map]
  · refine order.imp fun {a b} first same => ?_
    rw [same] at first
    exact Nat.lt_irrefl _ first
  · rw [Write.getAll_apply, if_neg other]
  · rw [Write.keys_apply]
    split
    · exact List.prefix_refl _
    · exact List.prefix_append _ _

theorem written_refines_sample :
    let ws : List Write := [.add "Priority" "High", .add "Owner" "qa", .set "Priority" "Medium",
      .add "Owner" "dev", .add "Priority" "Low"]
    (written ws).getAll "Priority" = ["Medium", "Low"] ∧ (written ws).get? "Owner" = some "qa" ∧
      "Owner" ≠ (Write.set "Priority" "").key ∧
      ((written ws).set "Priority" "").getAll "Owner" = (written ws).getAll "Owner" := by
  intro ws
  obtain ⟨values, -, -, -, writes⟩ := written_refines ws
  have other : "Owner" ≠ (Write.set "Priority" "").key := by decide
  exact ⟨(values "Priority").1.trans (by decide), (values "Owner").2.1.trans (by decide), other,
    (writes (.set "Priority" "")).1 "Owner" other⟩

end TestScheduler.Properties
