import TestScheduler.Proofs.Prelude
import TestScheduler.Proofs.Tree.Subtree
import TestScheduler.Suite.Blueprint

/-! # What is built from a blueprint

A plan gives its node all but an id, a seed, a parent and the first part of the full name.
Attributes change nothing of a node but its runnability and its properties, and the tree that is
built has one node for the plan at each place.
-/

namespace TestScheduler

namespace Attribute

theorem exists_apply_eq (a : Attribute) (n : Node) :
    ∃ state properties, a.apply n = { n with runnability := state, properties } := by
  have restrict (requested : Runnability) (reason : Option String) :
      ∃ state properties,
        n.restrict requested reason = { n with runnability := state, properties } := by
    unfold Node.restrict
    dsimp only
    split
    · exact ⟨_, _, rfl⟩
    · exact ⟨_, _, rfl⟩
  cases a with
  | category | property | description | setProperty => exact ⟨_, _, rfl⟩
  | ignore reason => exact restrict .ignored reason
  | explicit reason => exact restrict .explicit reason
  | notRunnable reason => exact restrict .notRunnable reason
  | skip reason => exact restrict .skipped reason
  | restrict state reason => exact restrict state reason

/-- Applies attributes one after another. -/
def applyAll (as : List Attribute) (n : Node) : Node := as.foldl (fun n a => a.apply n) n

theorem applyAll_concat (as : List Attribute) (a : Attribute) (n : Node) :
    applyAll (as ++ [a]) n = a.apply (applyAll as n) := by
  rw [applyAll, List.foldl_concat]
  rfl

theorem exists_applyAll_eq (as : List Attribute) (n : Node) :
    ∃ state properties, applyAll as n = { n with runnability := state, properties } := by
  induction as generalizing n with
  | nil => exact ⟨_, _, rfl⟩
  | cons a as ih =>
    obtain ⟨_, _, first⟩ := a.exists_apply_eq n
    obtain ⟨_, _, rest⟩ := ih (a.apply n)
    exact ⟨_, _, rest.trans (by rw [first])⟩

end Attribute

namespace NodePlan

variable (plan : NodePlan) (parent : Option Node) (id : TestId) (seed : UInt64)

/-- The node of a plan before its attributes are applied. -/
def bare : Node where
  id := id
  parent := parent.map (·.id)
  name := plan.name
  fullName := parent.elim plan.name fun parent => parent.fullName ++ "." ++ plan.name
  kind := plan.kind
  runnability := .runnable
  properties := {}
  className := plan.className
  methodName := plan.methodName
  seed := seed
  settings := Setting.inOrder plan.settings

theorem toNode_eq_applyAll :
    plan.toNode parent id seed = Attribute.applyAll plan.attributes (plan.bare parent id seed) := by
  cases parent <;> rfl

theorem exists_toNode_eq :
    ∃ state properties, plan.toNode parent id seed =
      { plan.bare parent id seed with runnability := state, properties } := by
  rw [toNode_eq_applyAll]
  exact Attribute.exists_applyAll_eq _ _

theorem id_toNode : (plan.toNode parent id seed).id = id := by
  obtain ⟨_, _, h⟩ := plan.exists_toNode_eq parent id seed
  exact congrArg Node.id h

theorem parent_toNode : (plan.toNode parent id seed).parent = parent.map (·.id) := by
  obtain ⟨_, _, h⟩ := plan.exists_toNode_eq parent id seed
  exact congrArg Node.parent h

theorem name_toNode : (plan.toNode parent id seed).name = plan.name := by
  obtain ⟨_, _, h⟩ := plan.exists_toNode_eq parent id seed
  exact congrArg Node.name h

theorem kind_toNode : (plan.toNode parent id seed).kind = plan.kind := by
  obtain ⟨_, _, h⟩ := plan.exists_toNode_eq parent id seed
  exact congrArg Node.kind h

theorem fullName_toNode :
    (plan.toNode parent id seed).fullName =
      parent.elim plan.name fun parent => parent.fullName ++ "." ++ plan.name := by
  obtain ⟨_, _, h⟩ := plan.exists_toNode_eq parent id seed
  exact congrArg Node.fullName h

theorem settings_toNode :
    (plan.toNode parent id seed).settings = Setting.inOrder plan.settings := by
  obtain ⟨_, _, h⟩ := plan.exists_toNode_eq parent id seed
  exact congrArg Node.settings h

end NodePlan

namespace Blueprint

theorem value_buildUnder (b : Blueprint) (parent : Option Node) (numbering : Numbering) :
    (buildUnder parent b numbering).1.value =
      b.value.toNode parent numbering.next.1 numbering.next.2.1 := by
  obtain ⟨plan, bs⟩ := b
  rfl

theorem forall₂_buildEachUnder (parent : Node) (bs : List Blueprint) (numbering : Numbering) :
    List.Forall₂ (fun b t => ∃ numbering, t = (buildUnder (some parent) b numbering).1) bs
      (buildEachUnder parent bs numbering).1 := by
  induction bs generalizing numbering with
  | nil => exact .nil
  | cons b bs ih => exact .cons ⟨numbering, rfl⟩ (ih _)

/-- What each plan alone decides about its node is the same all over the tree. -/
theorem map_buildUnder {β : Type} {f : Node → β} {g : NodePlan → β}
    (same : ∀ plan parent id seed, f (NodePlan.toNode plan parent id seed) = g plan)
    (b : Blueprint) (parent : Option Node) (numbering : Numbering) :
    (buildUnder parent b numbering).1.map f = b.map g := by
  induction b using Tree.induction generalizing parent numbering with
  | node plan bs ih =>
    rw [buildUnder, Tree.map_node, Tree.map_node]
    congr 1
    · exact same _ _ _ _
    · refine (map_eq_map_of_forall₂ (forall₂_buildEachUnder _ bs _) fun b hb t built => ?_).symm
      obtain ⟨numbering, rfl⟩ := built
      exact (ih b hb _ _).symm

theorem exists_subtreeAt?_buildUnder {b c : Blueprint} {path : List Nat}
    (place : b.subtreeAt? path = some c) (parent : Option Node) (numbering : Numbering) :
    ∃ parent' numbering', (buildUnder parent b numbering).1.subtreeAt? path =
      some (buildUnder parent' c numbering').1 := by
  induction path generalizing b parent numbering with
  | nil =>
    rw [Tree.subtreeAt?_nil] at place
    cases place
    exact ⟨parent, numbering, Tree.subtreeAt?_nil _⟩
  | cons i path ih =>
    obtain ⟨plan, bs⟩ := b
    obtain ⟨b, hb, place⟩ := Tree.subtreeAt?_cons_eq_some_iff.mp place
    obtain ⟨t, ht, built⟩ := exists_getElem?_of_forall₂ (forall₂_buildEachUnder _ bs _) hb
    obtain ⟨numbering', rfl⟩ := built
    obtain ⟨parent', numbering'', below⟩ := ih place _ numbering'
    exact ⟨parent', numbering'', Tree.subtreeAt?_cons_eq_some_iff.mpr ⟨_, ht, below⟩⟩

end Blueprint

end TestScheduler
