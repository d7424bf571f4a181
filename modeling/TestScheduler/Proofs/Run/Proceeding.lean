import Mathlib.Data.List.Forall2
import TestScheduler.Proofs.Prelude
import TestScheduler.Proofs.Run.Completion
import TestScheduler.Proofs.Tree.Subtree

/-! # Using items again

Items may be executed in any order, and more than once, and a call that meets an item with a result
ends in a fault half-way. Whatever happens, items keep the results that they have, and an item is
given one only together with a result for every item below it.
-/

namespace TestScheduler

namespace WorkTree

variable {Expression : Type} [Pattern.Dialect Expression] {item : WorkItem}
  {below below' ts ts' : List WorkTree} {t t' t'' u u' : WorkTree} {path : List Nat}

/-- Whether no item has a result yet. -/
def Blank (t : WorkTree) : Prop := ∀ item ∈ t.preorder, item.result = none

theorem blank_node :
    Blank (.node item below) ↔ item.result = none ∧ ∀ t ∈ below, t.Blank := by
  unfold Blank
  rw [Tree.preorder_eq_cons, List.forall_mem_cons, List.forall_mem_flatMap]

/-- What the results of a tree of items are to say about its nodes. -/
def headings (t : WorkTree) : Tree Result := t.map fun item => Result.ofNode item.node

theorem headings_node :
    headings (.node item below) = .node (Result.ofNode item.node) (below.map headings) := by
  rw [headings, Tree.map_node]
  rfl

/-- A tree of items without results becomes one item that holds a result for each of them. -/
inductive Concludes : WorkTree → WorkTree → Prop where
  | intro {item : WorkItem} {below : List WorkTree} {r : ResultTree}
      (blank : Blank (.node item below))
      (headings : r.map Result.heading = headings (.node item below)) :
      Concludes (.node item below) (.node { item with stage := .complete, result := some r } [])

/-- What calls may make of a tree of items. -/
inductive Proceeds : WorkTree → WorkTree → Prop where
  | done {item : WorkItem} {r : ResultTree} (stage : item.stage = .complete)
      (result : item.result = some r) : Proceeds (.node item []) (.node item [])
  | pending {item : WorkItem} {stage : Stage} {below below' : List WorkTree}
      (before : item.Open) (after : (item.moved stage).Open)
      (each : List.Forall₂ Proceeds below below') :
      Proceeds (.node item below) (.node (item.moved stage) below')
  | concluded {t t' : WorkTree} (h : Concludes t t') : Proceeds t t'

/-- Items as calls leave them: one with a result holds no items any more. -/
inductive Coherent : WorkTree → Prop where
  | done {item : WorkItem} {r : ResultTree} (stage : item.stage = .complete)
      (result : item.result = some r) : Coherent (.node item [])
  | pending {item : WorkItem} {below : List WorkTree} (isOpen : item.Open)
      (bare : item.node.isSuite = false → below = []) (each : ∀ t ∈ below, Coherent t) :
      Coherent (.node item below)

theorem Fresh.coherent (h : t.Fresh) (bare : t.Bare) : t.Coherent := by
  induction t using Tree.induction with
  | node item below ih =>
    obtain ⟨stage, result, each⟩ := h
    obtain ⟨leaf, rest⟩ := bare_node.mp bare
    exact .pending (open_of_ready stage result) leaf fun t ht => ih t ht (each t ht) (rest t ht)

theorem Coherent.of_mem (h : Coherent (.node item below)) (ht : t ∈ below) : t.Coherent := by
  cases h with
  | done => cases ht
  | pending _ _ each => exact each t ht

theorem Fresh.blank (h : t.Fresh) : t.Blank := by
  induction t using Tree.induction with
  | node item below ih =>
    obtain ⟨-, result, each⟩ := h
    exact blank_node.mpr ⟨result, fun t ht => ih t ht (each t ht)⟩

theorem Proceeds.unmoved (isOpen : item.Open) (each : List.Forall₂ Proceeds below below') :
    Proceeds (.node item below) (.node item below') :=
  @Proceeds.pending _ _ item item.stage _ _ isOpen isOpen each

theorem Coherent.refl (h : t.Coherent) : t.Proceeds t := by
  induction t using Tree.induction with
  | node item below ih =>
    cases h with
    | done stage result => exact .done stage result
    | pending isOpen _ each =>
      exact .unmoved isOpen (List.forall₂_same.mpr fun t ht => ih t ht (each t ht))

theorem Concludes.coherent (h : t.Concludes t') : t'.Coherent := by
  cases h with
  | intro => exact .done rfl rfl

theorem Proceeds.coherent (h : t.Proceeds t') (coherent : t.Coherent) : t'.Coherent := by
  induction t using Tree.induction generalizing t' with
  | node item below ih =>
    cases h with
    | done => exact coherent
    | concluded h => exact h.coherent
    | pending before after each =>
      cases coherent with
      | done stage => exact absurd stage before.stage
      | pending _ bare coherent =>
        refine .pending after (fun leaf => ?_) ?_
        · rw [bare leaf] at each
          exact List.forall₂_nil_left_iff.mp each
        · exact forall_right_of_forall₂ each fun t ht t' h => ih t ht h (coherent t ht)

theorem not_blank_of_result {r : ResultTree} (result : item.result = some r) :
    ¬ Blank (.node item below) := by
  rw [blank_node, result]
  exact fun h => nomatch h.1

theorem Concludes.not_blank (h : t.Concludes t') : ¬ t'.Blank := by
  cases h with
  | intro => exact not_blank_of_result rfl

theorem blank_of_each (each : List.Forall₂ Proceeds ts ts')
    (step : ∀ t ∈ ts, ∀ t', t.Proceeds t' → t'.Blank → t.Blank ∧ t'.headings = t.headings)
    (blank : ∀ t' ∈ ts', t'.Blank) :
    (∀ t ∈ ts, t.Blank) ∧ ts'.map headings = ts.map headings := by
  induction each with
  | nil => exact ⟨List.forall_mem_nil _, rfl⟩
  | cons first _ ih =>
    obtain ⟨stepFirst, stepRest⟩ := List.forall_mem_cons.mp step
    obtain ⟨blankFirst, blankRest⟩ := List.forall_mem_cons.mp blank
    obtain ⟨first, eq⟩ := stepFirst _ first blankFirst
    obtain ⟨rest, eqs⟩ := ih stepRest blankRest
    exact ⟨List.forall_mem_cons.mpr ⟨first, rest⟩, by rw [List.map_cons, eq, eqs, List.map_cons]⟩

theorem Proceeds.blank (h : t.Proceeds t') (blank : t'.Blank) :
    t.Blank ∧ t'.headings = t.headings := by
  induction t using Tree.induction generalizing t' with
  | node item below ih =>
    cases h with
    | done _ result => exact absurd blank (not_blank_of_result result)
    | concluded h => exact absurd blank h.not_blank
    | pending before _ each =>
      obtain ⟨kept, same⟩ := blank_of_each each (fun t ht t' h => ih t ht h) (blank_node.mp blank).2
      rw [blank_node, headings_node, headings_node, same]
      exact ⟨⟨before.result, kept⟩, rfl⟩

theorem Concludes.final (h : t.Concludes t') (h' : t'.Proceeds t'') : t'' = t' := by
  cases h with
  | intro =>
    cases h' with
    | done => rfl
    | pending before => exact absurd rfl before.stage
    | concluded h =>
      cases h with
      | intro blank => exact absurd blank (not_blank_of_result rfl)

theorem Proceeds.trans (h : t.Proceeds t') (h' : t'.Proceeds t'') : t.Proceeds t'' := by
  induction t using Tree.induction generalizing t' t'' with
  | node item below ih =>
    cases h with
    | done => exact h'
    | concluded h => exact h.final h' ▸ .concluded h
    | pending before after each =>
      cases h' with
      | done stage => exact absurd stage after.stage
      | pending _ after' each' =>
        exact .pending before after' (forall₂_trans each each' fun t ht _ _ h h' => ih t ht h h')
      | concluded h =>
        cases h with
        | intro blank headings =>
          obtain ⟨blank, same⟩ := (Proceeds.pending before after each).blank blank
          exact .concluded (.intro blank (headings.trans same))

/-! ## At the places of a tree -/

theorem Coherent.subtree (h : t.Coherent) (place : t.subtreeAt? path = some u) : u.Coherent := by
  induction path generalizing t with
  | nil =>
    rw [Tree.subtreeAt?_nil] at place
    exact Option.some.inj place ▸ h
  | cons i path ih =>
    obtain ⟨item, below⟩ := t
    obtain ⟨t, ht, place⟩ := Tree.subtreeAt?_cons_eq_some_iff.mp place
    exact ih (h.of_mem (List.mem_of_getElem? ht)) place

theorem Blank.subtree (h : t.Blank) (place : t.subtreeAt? path = some u) : u.Blank :=
  fun item hitem => h item (Tree.mem_preorder_of_subtreeAt? place hitem)

theorem proceeds_modify {i : Nat} {f : WorkTree → WorkTree} (coherent : ∀ t ∈ ts, t.Coherent)
    (step : ∀ t, ts[i]? = some t → t.Proceeds (f t)) :
    List.Forall₂ Proceeds ts (ts.modify i f) := by
  induction ts generalizing i with
  | nil =>
    rw [List.modify_nil]
    exact .nil
  | cons t ts ih =>
    obtain ⟨first, rest⟩ := List.forall_mem_cons.mp coherent
    cases i with
    | zero => exact .cons (step t rfl) (List.forall₂_same.mpr fun t ht => (rest t ht).refl)
    | succ i => exact .cons first.refl (ih rest step)

/-- A call at one place is a call on the tree. -/
theorem Proceeds.replaceAt (coherent : t.Coherent) (place : t.subtreeAt? path = some u)
    (h : u.Proceeds u') : t.Proceeds (t.replaceAt u' path) := by
  induction path generalizing t with
  | nil =>
    rw [Tree.subtreeAt?_nil] at place
    rw [Tree.replaceAt_nil]
    exact Option.some.inj place ▸ h
  | cons i path ih =>
    obtain ⟨item, below⟩ := t
    obtain ⟨t, ht, place⟩ := Tree.subtreeAt?_cons_eq_some_iff.mp place
    rw [Tree.replaceAt_cons]
    cases coherent with
    | done => simp at ht
    | pending isOpen _ each =>
      refine .unmoved isOpen (proceeds_modify each fun t' ht' => ?_)
      obtain rfl := Option.some.inj (ht.symm.trans ht')
      exact ih (each t (List.mem_of_getElem? ht)) place

/-- An item that is still there stands for the same part of the original tree. -/
theorem Proceeds.subtree (h : t.Proceeds t') (place : t'.subtreeAt? path = some u') :
    ∃ u, t.subtreeAt? path = some u ∧ Proceeds u u' := by
  induction path generalizing t t' with
  | nil =>
    rw [Tree.subtreeAt?_nil] at place
    exact ⟨t, Tree.subtreeAt?_nil t, Option.some.inj place ▸ h⟩
  | cons i path ih =>
    cases h with
    | done => simp [Tree.subtreeAt?] at place
    | concluded h => cases h; simp [Tree.subtreeAt?] at place
    | pending _ _ each =>
      obtain ⟨x', hx', place⟩ := Tree.subtreeAt?_cons_eq_some_iff.mp place
      have flipped := List.Forall₂.flip (R := flip Proceeds) each
      obtain ⟨x, hx, h⟩ := exists_getElem?_of_forall₂ flipped hx'
      obtain ⟨u, hu, hu'⟩ := ih h place
      exact ⟨u, Tree.subtreeAt?_cons_eq_some_iff.mpr ⟨x, hx, hu⟩, hu'⟩

theorem Coherent.result_iff (h : t.Coherent) :
    t.value.result.isSome = true ↔ t.value.stage = .complete := by
  cases h with
  | done stage result => simp [stage, result]
  | pending isOpen => simp [isOpen.stage, isOpen.result]

theorem Proceeds.keeps (h : t.Proceeds t') (place : t.subtreeAt? path = some u)
    {r : ResultTree} (result : u.value.result = some r) : t'.subtreeAt? path = some u := by
  induction path generalizing t t' with
  | nil =>
    rw [Tree.subtreeAt?_nil] at place ⊢
    obtain rfl := Option.some.inj place
    cases h with
    | done => rfl
    | pending before => exact absurd (before.result.symm.trans result) nofun
    | concluded h =>
      cases h with
      | intro blank => exact absurd blank (not_blank_of_result result)
  | cons i path ih =>
    cases h with
    | done => exact place
    | pending _ _ each =>
      obtain ⟨x, hx, place⟩ := Tree.subtreeAt?_cons_eq_some_iff.mp place
      obtain ⟨x', hx', h⟩ := exists_getElem?_of_forall₂ each hx
      exact Tree.subtreeAt?_cons_eq_some_iff.mpr ⟨x', hx', ih h place⟩
    | concluded h =>
      cases h with
      | intro blank =>
        have none := blank.subtree place _ u.value_mem_preorder
        exact absurd (none.symm.trans result) nofun

/-- The first result of an item is one for all items below it. -/
theorem Proceeds.ids (h : t.Proceeds t') (blank : t.Blank) {r : ResultTree}
    (result : t'.value.result = some r) :
    r.map Result.id = t.map fun item => item.node.id := by
  cases h with
  | done _ earlier => exact absurd blank (not_blank_of_result earlier)
  | pending _ after => exact absurd (after.result.symm.trans result) nofun
  | concluded h =>
    cases h with
    | @intro item below r' _ same =>
      cases result
      calc r.map Result.id
        _ = (r.map Result.heading).map Result.id := by rw [Tree.map_map]; rfl
        _ = (headings (.node item below)).map Result.id := by rw [same]
        _ = Tree.map (fun item => item.node.id) (.node item below) := by
          rw [WorkTree.headings, Tree.map_map]
          rfl

end WorkTree

end TestScheduler
