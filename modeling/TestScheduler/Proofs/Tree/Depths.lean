import Mathlib.Data.List.Basic
import TestScheduler.Proofs.Prelude
import TestScheduler.Tree.Basic

/-! # Trees from depths

The values of a tree in pre-order, each with its depth, determine the tree: read from the end, a
value takes as its children the trees that come next and lie deeper.
-/

namespace TestScheduler.Tree

variable {α : Type u} {β : Type v} {t : Tree α} {depth : Nat} {later : List (Nat × Tree α)}

/-- Makes a value the root of the trees that come next and lie deeper. -/
def gather (entry : Nat × α) (later : List (Nat × Tree α)) : List (Nat × Tree α) :=
  (entry.1, .node entry.2 ((later.takeWhile (entry.1 < ·.1)).map Prod.snd)) ::
    later.dropWhile (entry.1 < ·.1)

/-- The trees whose values in pre-order have the given depths. -/
def ofDepths (entries : List (Nat × α)) : List (Nat × Tree α) := entries.foldr gather []

/-- Whether trees begin with none that lies deeper than some depth. -/
def NoDeeper (depth : Nat) (later : List (Nat × Tree α)) : Prop :=
  ∀ first ∈ later.head?, first.1 ≤ depth

theorem preorderWithDepth_node (a : α) (ts : List (Tree α)) :
    (node a ts).preorderWithDepth =
      (0, a) :: (ts.flatMap preorderWithDepth).map fun (depth, b) => (depth + 1, b) := by
  rw [preorderWithDepth, fold_node, List.flatMap_def]

theorem map_snd_preorderWithDepth (t : Tree α) :
    t.preorderWithDepth.map Prod.snd = t.preorder := by
  induction t with
  | node a ts ih =>
    rw [preorderWithDepth_node, preorder_eq_cons, List.map_cons, List.map_map, List.map_flatMap]
    exact congrArg _ (List.flatMap_congr ih)

theorem preorderWithDepth_map (f : α → β) (t : Tree α) :
    (t.map f).preorderWithDepth = t.preorderWithDepth.map fun (depth, a) => (depth, f a) := by
  induction t with
  | node a ts ih =>
    rw [map_node, preorderWithDepth_node, preorderWithDepth_node, List.map_cons, List.map_map,
      List.flatMap_map, List.flatMap_congr ih, ← List.map_flatMap, List.map_map]
    rfl

/-- The values of a tree in pre-order with their depths, if its root lies at some depth. -/
def entriesFrom (depth : Nat) (t : Tree α) : List (Nat × α) :=
  t.preorderWithDepth.map fun (d, a) => (depth + d, a)

theorem entriesFrom_node (a : α) (ts : List (Tree α)) :
    (node a ts).entriesFrom depth = (depth, a) :: ts.flatMap (entriesFrom (depth + 1)) := by
  rw [entriesFrom, preorderWithDepth_node, List.map_cons, List.map_map, List.map_flatMap]
  refine congrArg _ (List.flatMap_congr fun t _ => List.map_congr_left fun e _ => ?_)
  simp only [Function.comp_apply, Prod.mk.injEq, and_true]
  omega

theorem NoDeeper.mono {lower : Nat} (h : NoDeeper depth later) (le : depth ≤ lower) :
    NoDeeper lower later :=
  fun first hfirst => Nat.le_trans (h first hfirst) le

theorem NoDeeper.siblings (h : NoDeeper depth later) (ts : List (Tree α)) :
    NoDeeper depth (ts.map (depth, ·) ++ later) := by
  cases ts with
  | nil => exact h
  | cons t ts =>
    rintro first ⟨⟩
    exact Nat.le_refl _

theorem NoDeeper.shallow (h : NoDeeper depth later) :
    ∀ first ∈ later.head?, decide (depth < first.1) = false := by
  intro first hfirst
  simpa using h first hfirst

/-- A value becomes the root of the trees one level below it. -/
theorem gather_children {a : α} (h : NoDeeper depth later) (ts : List (Tree α)) :
    gather (depth, a) (ts.map (depth + 1, ·) ++ later) = (depth, node a ts) :: later := by
  have deeper : ∀ child ∈ ts.map fun t => (depth + 1, t), decide (depth < child.1) = true := by
    simp
  rw [gather, List.takeWhile_append_of_pos deeper, List.dropWhile_append_of_pos deeper,
    takeWhile_of_head? h.shallow, dropWhile_of_head? h.shallow, List.append_nil, List.map_map]
  congr
  exact List.map_id ts

theorem foldr_gather_each {ts : List (Tree α)}
    (each : ∀ t ∈ ts, ∀ later : List (Nat × Tree α), NoDeeper depth later →
      (t.entriesFrom depth).foldr gather later = (depth, t) :: later)
    (h : NoDeeper depth later) :
    (ts.flatMap (entriesFrom depth)).foldr gather later = ts.map (depth, ·) ++ later := by
  induction ts with
  | nil => rfl
  | cons t ts ih =>
    obtain ⟨first, each⟩ := List.forall_mem_cons.mp each
    rw [List.flatMap_cons, List.foldr_append, ih each, first _ (h.siblings ts)]
    rfl

/-- The entries of a tree whose root lies at some depth are gathered into that tree. -/
theorem foldr_gather (t : Tree α) (h : NoDeeper depth later) :
    (t.entriesFrom depth).foldr gather later = (depth, t) :: later := by
  induction t generalizing depth later with
  | node a ts ih =>
    have below := foldr_gather_each (fun t ht later h => ih t ht h) (h.mono (Nat.le_succ depth))
    rw [entriesFrom_node, List.foldr_cons, below]
    exact gather_children h ts

theorem ofDepths_preorderWithDepth (t : Tree α) : ofDepths t.preorderWithDepth = [(0, t)] := by
  have last : NoDeeper 0 ([] : List (Nat × Tree α)) := nofun
  have gathered := foldr_gather t last
  simpa [ofDepths, entriesFrom] using gathered

end TestScheduler.Tree
