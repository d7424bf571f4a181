import Mathlib.Data.List.Nodup
import TestScheduler.Proofs.Suite.Construction
import TestScheduler.Proofs.Tree.Paths
import TestScheduler.Proofs.Tree.Throughout

/-! # Identities of nodes

The nodes of trees that are built one after another are numbered in pre-order, so that no two of
them are the same. A built tree has the shape of its blueprint, the full name of a node lists the
names on the way down to it, and the references to parents lead back up the same way.
-/

namespace TestScheduler

namespace Blueprint

/-! ## Ids -/

/-- The ids that trees take, and the first one that they leave. -/
structure Numbers (ts : List TestTree) (before after : Numbering) : Prop where
  ids : (ts.flatMap Tree.preorder).map Node.id =
    List.range' before.nextId (ts.flatMap Tree.preorder).length
  next : after.nextId = before.nextId + (ts.flatMap Tree.preorder).length

variable {t : TestTree} {ts : List TestTree} {before middle after : Numbering}

theorem Numbers.cons (first : Numbers [t] before middle) (rest : Numbers ts middle after) :
    Numbers (t :: ts) before after := by
  obtain ⟨firstIds, next⟩ := first
  obtain ⟨restIds, last⟩ := rest
  simp only [List.flatMap_cons, List.flatMap_nil, List.append_nil] at firstIds next
  rw [next] at restIds last
  constructor
  · rw [List.flatMap_cons, List.map_append, List.length_append, firstIds, restIds,
      List.range'_append_1]
  · rw [List.flatMap_cons, List.length_append, last, Nat.add_assoc]

theorem numbers_buildEachUnder {plans : List Blueprint}
    (h : ∀ plan ∈ plans, ∀ parent numbering,
      Numbers [(buildUnder parent plan numbering).1] numbering (buildUnder parent plan numbering).2)
    (parent : Node) (numbering : Numbering) :
    Numbers (buildEachUnder parent plans numbering).1 numbering
      (buildEachUnder parent plans numbering).2 := by
  induction plans generalizing numbering with
  | nil => exact ⟨rfl, rfl⟩
  | cons plan plans ih =>
    obtain ⟨first, others⟩ := List.forall_mem_cons.mp h
    exact (first _ _).cons (ih others _)

theorem numbers_buildUnder (plan : Blueprint) (parent : Option Node) (numbering : Numbering) :
    Numbers [(buildUnder parent plan numbering).1] numbering
      (buildUnder parent plan numbering).2 := by
  induction plan using Tree.induction generalizing parent numbering with
  | node plan plans ih =>
    obtain ⟨ids, next⟩ := numbers_buildEachUnder ih
      (plan.toNode parent numbering.next.1 numbering.next.2.1) numbering.next.2.2
    have first : numbering.next.2.2.nextId = numbering.nextId + 1 := rfl
    rw [first] at ids next
    constructor
    · simp only [buildUnder, List.flatMap_cons, List.flatMap_nil, List.append_nil,
        Tree.preorder_eq_cons, List.map_cons, ids, NodePlan.id_toNode, List.length_cons,
        List.range'_succ]
      rfl
    · simp only [buildUnder, List.flatMap_cons, List.flatMap_nil, List.append_nil,
        Tree.preorder_eq_cons, List.length_cons, next]
      exact Nat.add_right_comm _ _ _

/-- Builds trees one after another, numbering on. -/
def buildAll : List Blueprint → Numbering → List TestTree × Numbering
  | [], numbering => ([], numbering)
  | b :: bs, numbering =>
    let (tree, numbering) := b.build numbering
    let (trees, numbering) := buildAll bs numbering
    (tree :: trees, numbering)

theorem numbers_buildAll (bs : List Blueprint) (numbering : Numbering) :
    Numbers (buildAll bs numbering).1 numbering (buildAll bs numbering).2 := by
  induction bs generalizing numbering with
  | nil => exact ⟨rfl, rfl⟩
  | cons b bs ih => exact (numbers_buildUnder b none numbering).cons (ih _)

/-- No id is given twice, in one tree or in several. -/
theorem nodup_ids_buildAll (bs : List Blueprint) (numbering : Numbering) :
    (((buildAll bs numbering).1.flatMap Tree.preorder).map Node.id).Nodup := by
  rw [(numbers_buildAll bs numbering).ids]
  exact List.nodup_range'

theorem nodup_build (plan : Blueprint) (numbering : Numbering) :
    (plan.build numbering).1.preorder.Nodup := by
  have ids : (([(plan.build numbering).1].flatMap Tree.preorder).map Node.id).Nodup :=
    nodup_ids_buildAll [plan] numbering
  rw [List.flatMap_singleton] at ids
  exact List.Nodup.of_map Node.id ids

theorem size_build (b : Blueprint) (numbering : Numbering) :
    (b.build numbering).1.size = b.size := by
  have shape : (b.build numbering).1.map (fun _ => ()) = b.map fun _ => () :=
    map_buildUnder (fun _ _ _ _ => rfl) b none numbering
  simpa using congrArg Tree.size shape

end Blueprint

/-! ## Names -/

/-- The names on the way down to a location, joined by dots. -/
def Location.dottedName (l : Location Node) : String :=
  ".".intercalate ((l :: l.ancestors).reverse.map (·.value.name))

theorem Location.dottedName_of_child {l c : Location Node} (hc : c ∈ l.children) :
    c.dottedName = l.dottedName ++ "." ++ c.value.name := by
  have way : (c :: c.ancestors).reverse = (l :: l.ancestors).reverse ++ [c] := by
    rw [ancestors_of_child hc, List.reverse_cons]
  apply String.toList_injective
  unfold dottedName
  rw [way, String.toList_intercalate, List.map_append, List.map_append, List.map_singleton,
    List.map_singleton, intercalate_concat (by simp)]
  simp [String.toList_intercalate]

namespace Blueprint

theorem children_go_on (b : Blueprint) (parent : Option Node) (numbering : Numbering) :
    (buildUnder parent b numbering).1.Throughout fun t => ∀ c ∈ t.children,
      c.value.parent = some t.value.id ∧
        c.value.fullName = t.value.fullName ++ "." ++ c.value.name := by
  induction b using Tree.induction generalizing parent numbering with
  | node plan bs ih =>
    rw [buildUnder, Tree.throughout_node]
    have below := forall₂_buildEachUnder
      (plan.toNode parent numbering.next.1 numbering.next.2.1) bs numbering.next.2.2
    constructor
    · refine forall_right_of_forall₂ below fun b _ t built => ?_
      obtain ⟨numbering, rfl⟩ := built
      rw [value_buildUnder, NodePlan.parent_toNode, NodePlan.fullName_toNode, NodePlan.name_toNode]
      exact ⟨rfl, rfl⟩
    · refine forall_right_of_forall₂ below fun b hb t built => ?_
      obtain ⟨numbering, rfl⟩ := built
      exact ih b hb _ _

theorem fullName_build {b : Blueprint} {numbering : Numbering} {l : Location Node}
    (hl : l ∈ (b.build numbering).1.locations) : l.value.fullName = l.dottedName := by
  refine Location.preorder_induction (motive := fun l => l.value.fullName = l.dottedName) ?_
    (fun k hk named c hc => ?_) hl
  · obtain ⟨plan, bs⟩ := b
    exact (plan.fullName_toNode none _ _).trans (plan.name_toNode none _ _).symm
  · obtain ⟨t, ht, rfl⟩ := List.mem_map.mp hc
    rw [Location.dottedName_of_child hc, ← named]
    exact (children_go_on b none numbering k hk t ht).2

/-! ## Parents -/

variable {b : Blueprint} {numbering : Numbering} {l k : Location Node}

theorem parent_root_build (b : Blueprint) (numbering : Numbering) :
    (b.build numbering).1.value.parent = none := by
  rw [build, value_buildUnder, NodePlan.parent_toNode]
  rfl

theorem parent_of_child (hk : k ∈ (b.build numbering).1.locations) (hl : l ∈ k.children) :
    l.value.parent = some k.value.id := by
  obtain ⟨t, ht, rfl⟩ := List.mem_map.mp hl
  exact (children_go_on b none numbering k hk t ht).1

theorem eq_of_id_eq {n m : Node} (hn : n ∈ (b.build numbering).1.preorder)
    (hm : m ∈ (b.build numbering).1.preorder) (same : n.id = m.id) : n = m := by
  have ids := nodup_ids_buildAll [b] numbering
  rw [show (buildAll [b] numbering).1 = [(b.build numbering).1] from rfl,
    List.flatMap_singleton] at ids
  exact List.inj_on_of_nodup_map ids hn hm same

end Blueprint

/-- Whether the references from node to parent lead from a node to given nodes, nearest first, and
then end. -/
inductive TestTree.Ascends (t : TestTree) : Node → List Node → Prop where
  | root {n : Node} (none : n.parent = none) : Ascends t n []
  | up {n p : Node} {ns : List Node} (parent : n.parent = some p.id) (held : p ∈ t.preorder)
      (rest : Ascends t p ns) : Ascends t n (p :: ns)

namespace Blueprint

variable {b : Blueprint} {numbering : Numbering} {l : Location Node} {ns : List Node}

theorem ascends_ancestors (hl : l ∈ (b.build numbering).1.locations) :
    (b.build numbering).1.Ascends l.value (l.ancestors.map Location.value) := by
  refine Location.preorder_induction
    (motive := fun l => (b.build numbering).1.Ascends l.value (l.ancestors.map Location.value))
    (.root (parent_root_build b numbering)) (fun k hk above c hc => ?_) hl
  rw [Location.ancestors_of_child hc]
  refine .up (parent_of_child hk hc) ?_ above
  rw [← Location.map_value_locations]
  exact List.mem_map_of_mem hk

/-- The references lead nowhere but up to the root. -/
theorem eq_ancestors_of_ascends (hl : l ∈ (b.build numbering).1.locations)
    (h : (b.build numbering).1.Ascends l.value ns) : ns = l.ancestors.map Location.value := by
  refine Location.preorder_induction (motive := fun l => ∀ ns,
    (b.build numbering).1.Ascends l.value ns → ns = l.ancestors.map Location.value)
    (fun ns h => ?_) (fun k hk above c hc ns h => ?_) hl ns h
  · cases h with
    | root => rfl
    | up parent => cases (parent_root_build b numbering).symm.trans parent
  · have parent := parent_of_child hk hc
    cases h with
    | root none => cases none.symm.trans parent
    | @up _ p ns parent' held rest =>
      have hk' : k.value ∈ (b.build numbering).1.preorder := by
        rw [← Location.map_value_locations]
        exact List.mem_map_of_mem hk
      obtain rfl := eq_of_id_eq held hk' (Option.some.inj (parent'.symm.trans parent))
      rw [Location.ancestors_of_child hc, List.map_cons, above ns rest]

/-- The nodes of a built tree are numbered in pre-order, and no node of a tree built with the same
numbering has the same id. The tree has the shape, the names and the kinds of its blueprint. The
full name of each node lists the names from the root to it, and the references to parents lead to
its ancestors, the nodes on the path to it, nearest first. -/
theorem build_identifies (b : Blueprint) (numbering : Numbering) :
    let (tree, after) := b.build numbering
    tree.locations.map (·.value.id) = List.range' numbering.nextId b.size ∧
    after.nextId = numbering.nextId + b.size ∧
    (∀ bs, (((buildAll bs numbering).1.flatMap Tree.preorder).map Node.id).Nodup) ∧
    tree.map (fun n => (n.name, n.kind)) = b.map (fun plan => (plan.name, plan.kind)) ∧
    ∀ l ∈ tree.locations,
      l.value.fullName = ".".intercalate ((l :: l.ancestors).reverse.map (·.value.name)) ∧
      (∀ ns, tree.Ascends l.value ns ↔ ns = l.ancestors.map Location.value) ∧
      ∃ path : List Nat,
        (l :: l.ancestors).reverse.map (fun a => some a.tree) = path.inits.map tree.subtreeAt? := by
  obtain ⟨ids, next⟩ := numbers_buildUnder b none numbering
  rw [List.flatMap_singleton, Tree.length_preorder] at ids next
  have size := size_build b numbering
  unfold build at size
  rw [size] at ids next
  refine ⟨?_, next, fun bs => nodup_ids_buildAll bs numbering, ?_, fun l hl => ?_⟩
  · rw [← ids, ← Location.map_value_locations, List.map_map]
    rfl
  · refine map_buildUnder (fun plan parent id seed => ?_) b none numbering
    rw [plan.name_toNode, plan.kind_toNode]
  · obtain ⟨path, way⟩ := Location.exists_path hl
    refine ⟨fullName_build hl, fun ns => ⟨eq_ancestors_of_ascends hl, ?_⟩, path, way⟩
    rintro rfl
    exact ascends_ancestors hl

end Blueprint

end TestScheduler
