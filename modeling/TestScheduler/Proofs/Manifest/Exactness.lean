import TestScheduler.Proofs.Manifest.Scripting
import TestScheduler.Proofs.Suite.Restricting

/-! # Exactness of validation

A manifest is valid exactly if its version is the current one and every node has a name, children
with different names, and none if it is a leaf. The tree that is built from it has the same shape,
with the kind of each node and the strictest restriction that the node asks for.
-/

namespace TestScheduler

namespace ManifestTree

/-- Whether the node at the top of a subtree is as it must be. -/
structure IsSound (t : ManifestTree) : Prop where
  named : Text.isBlankText t.value.name = false
  bare : kind t = .leaf → t.children = []
  distinct : (t.children.map (·.value.name)).Nodup

variable {path : String} {n : ManifestNode} {t : ManifestTree} {ts : List ManifestTree}

theorem validateEach_eq_ok_iff {seen : List String} :
    validateEach path seen ts = .ok () ↔
      ((ts.map (·.value.name)).Nodup ∧ ∀ name ∈ ts.map (·.value.name), name ∉ seen) ∧
        ∀ t ∈ ts, validate path t = .ok () := by
  refine ⟨fun valid => ⟨names_of_validateEach valid, fun t => validate_of_mem valid⟩, ?_⟩
  rintro ⟨⟨distinct, new⟩, each⟩
  induction ts generalizing seen with
  | nil => rfl
  | cons t ts ih =>
    rw [List.map_cons, List.nodup_cons] at distinct
    rw [List.map_cons, List.forall_mem_cons] at new
    rw [List.forall_mem_cons] at each
    have later : ∀ name ∈ ts.map (·.value.name), name ∉ t.value.name :: seen := by
      intro name h
      rw [List.mem_cons, not_or]
      exact ⟨fun same => distinct.1 (same ▸ h), new.2 name h⟩
    rw [validateEach, if_neg (by simpa using new.1), bind_eq_ok_iff]
    exact ⟨(), each.1, ih each.2 distinct.2 later⟩

theorem validate_node_eq_ok_iff :
    validate path (.node n ts) = .ok () ↔
      IsSound (.node n ts) ∧ ∀ t ∈ ts, validate (joinName path n.name) t = .ok () := by
  constructor
  · intro valid
    have each := validateEach_eq_ok_iff.mp (validateEach_of_validate valid)
    refine ⟨⟨?_, (Tree.throughout_node.mp (bare_of_validate valid)).1, each.1.1⟩, each.2⟩
    rw [validate] at valid
    split at valid
    · cases valid
    · next named => exact eq_false_of_ne_true named
  · rintro ⟨sound, each⟩
    have named : ¬ Text.isBlankText n.name = true := ne_true_of_eq_false sound.named
    have bare : ¬ (n.kindWith (!ts.isEmpty) = .leaf && !ts.isEmpty) = true := by
      rw [Bool.and_eq_true, decide_eq_true_iff]
      rintro ⟨leaf, below⟩
      have none : ts = [] := sound.bare leaf
      rw [none] at below
      cases below
    rw [validate, if_neg named, if_neg bare]
    exact validateEach_eq_ok_iff.mpr ⟨⟨sound.distinct, fun _ _ => List.not_mem_nil⟩, each⟩

theorem validate_eq_ok_iff : validate path t = .ok () ↔ t.Throughout IsSound := by
  induction t using Tree.induction generalizing path with
  | node n ts ih =>
    rw [validate_node_eq_ok_iff, Tree.throughout_node]
    exact and_congr_right fun _ => forall₂_congr fun t ht => ih t ht

theorem preorder_blueprint (t : ManifestTree) :
    t.blueprint.preorder =
      t.locations.map fun l => l.tree.value.plan (!l.tree.children.isEmpty) := by
  have planned (t : ManifestTree) :
      (t.locations.map fun l => l.tree.value.plan (!l.tree.children.isEmpty)) =
        (t.locations.map Location.tree).map fun t => t.value.plan (!t.children.isEmpty) := by
    rw [List.map_map]
    rfl
  induction t using Tree.induction with
  | node n ts ih =>
    rw [blueprint_node, Tree.preorder_eq_cons, planned, Tree.map_tree_locations, List.map_cons,
      List.flatMap_map, List.map_flatMap]
    congr 1
    exact List.flatMap_congr fun t ht => (ih t ht).trans (planned t)

theorem subtreeAt?_blueprint {places : List Nat} {u : ManifestTree}
    (place : t.subtreeAt? places = some u) : t.blueprint.subtreeAt? places = some u.blueprint := by
  induction places generalizing t with
  | nil =>
    rw [Tree.subtreeAt?_nil] at place
    rw [Tree.subtreeAt?_nil, Option.some.inj place]
  | cons i places ih =>
    obtain ⟨n, ts⟩ := t
    obtain ⟨t, ht, place⟩ := Tree.subtreeAt?_cons_eq_some_iff.mp place
    rw [blueprint_node]
    refine Tree.subtreeAt?_cons_eq_some_iff.mpr ⟨blueprint t, ?_, ih place⟩
    rw [List.getElem?_map, ht, Option.map_some]

theorem map_name_blueprint (t : ManifestTree) :
    t.blueprint.map NodePlan.name = t.map ManifestNode.name := by
  induction t using Tree.induction with
  | node n ts ih =>
    rw [blueprint_node, Tree.map_node, Tree.map_node, List.map_map]
    congr 1
    exact List.map_congr_left ih

theorem value_blueprint (t : ManifestTree) :
    t.blueprint.value = t.value.plan (!t.children.isEmpty) := by
  obtain ⟨n, ts⟩ := t
  rw [blueprint_node]
  rfl

end ManifestTree

/-! ## Restrictions -/

namespace ManifestNode

/-- Whether a node of a manifest asks for a restriction; that it may run goes without asking. -/
def asks (n : ManifestNode) : Runnability → Bool
  | .runnable => true
  | .explicit => n.isExplicit
  | .skipped => n.skipped.isSome
  | .ignored => n.ignored.isSome
  | .notRunnable => n.notRunnable.isSome

theorem requests_attributes (n : ManifestNode) :
    Attribute.requests n.attributes =
      n.notRunnable.toList.map (⟨.notRunnable, some ·⟩) ++
        n.ignored.toList.map (⟨.ignored, some ·⟩) ++
        n.skipped.toList.map (⟨.skipped, some ·⟩) ++
        if n.isExplicit then [⟨.explicit, none⟩] else [] := by
  have unasked {α : Type} (as : List α) : as.filterMap (fun _ => (none : Option Request)) = [] :=
    List.filterMap_eq_nil_iff.mpr fun _ _ => rfl
  unfold Attribute.requests attributes
  simp only [List.filterMap_append, List.filterMap_map]
  cases n.isExplicit <;> simp [Function.comp_def, Attribute.request?, unasked]

theorem mem_requests_iff {n : ManifestNode} {state : Runnability} :
    state ∈ .runnable :: (Attribute.requests n.attributes).map Request.state ↔
      n.asks state = true := by
  rw [requests_attributes]
  cases state with
  | runnable => simp [asks]
  | explicit => simp [asks]
  | skipped => simp [asks, Option.isSome_iff_exists]
  | ignored => simp [asks, Option.isSome_iff_exists]
  | notRunnable => simp [asks, Option.isSome_iff_exists]

end ManifestNode

/-! ## Building -/

theorem TestTree.testCaseCount_eq {t : TestTree} (bare : t.LeavesAreBare) :
    t.testCaseCount = t.preorder.countP (·.kind = .leaf) := by
  change t.Throughout fun t => t.value.kind = .leaf → t.children = [] at bare
  induction t using Tree.induction with
  | node n ts ih =>
    obtain ⟨here, below⟩ := Tree.throughout_node.mp bare
    rw [testCaseCount_node, Tree.preorder_eq_cons, List.countP_cons, List.countP_flatMap]
    cases suite : n.isSuite with
    | false =>
      have leaf : n.kind = .leaf := Node.isSuite_eq_false_iff.mp suite
      have none : ts = [] := here leaf
      simp [none, leaf]
    | true =>
      have inner : n.kind ≠ .leaf := fun leaf => by
        rw [Node.isSuite_eq_false_iff.mpr leaf] at suite
        cases suite
      rw [if_pos rfl, if_neg (by simpa using inner), Nat.add_zero]
      exact congrArg List.sum (List.map_congr_left fun t ht => ih t ht (below t ht))

namespace ManifestTree

/-- What is built for the subtree at a place has the kind of its node, and is restricted as strictly
as the node asks for. -/
theorem exists_built_at {t u : ManifestTree} {path : List Nat}
    (place : t.subtreeAt? path = some u) (numbering : Numbering) :
    ∃ v, (t.blueprint.build numbering).1.subtreeAt? path = some v ∧ v.value.kind = u.kind ∧
      u.value.asks v.value.runnability = true ∧
      ∀ state, u.value.asks state = true → state.rank ≤ v.value.runnability.rank := by
  obtain ⟨parent, numbering', built⟩ :=
    Blueprint.exists_subtreeAt?_buildUnder (subtreeAt?_blueprint place) none numbering
  refine ⟨_, built, ?_⟩
  rw [Blueprint.value_buildUnder, value_blueprint, NodePlan.kind_toNode,
    NodePlan.toNode_eq_applyAll, Attribute.runnability_applyAll]
  refine ⟨rfl, ?_, fun state asked => ?_⟩
  · exact ManifestNode.mem_requests_iff.mp (Runnability.foldl_tighten_mem _ _)
  · exact Runnability.rank_le_foldl_tighten (ManifestNode.mem_requests_iff.mpr asked)

theorem map_name_build (t : ManifestTree) (numbering : Numbering) :
    (t.blueprint.build numbering).1.map Node.name = t.map ManifestNode.name :=
  (Blueprint.map_buildUnder NodePlan.name_toNode t.blueprint none numbering).trans
    t.map_name_blueprint

theorem countP_kind_build (t : ManifestTree) (numbering : Numbering) :
    (t.blueprint.build numbering).1.preorder.countP (·.kind = .leaf) =
      t.locations.countP fun l => kind l.tree = .leaf := by
  have kinds : (t.blueprint.build numbering).1.map Node.kind = t.blueprint.map NodePlan.kind :=
    Blueprint.map_buildUnder NodePlan.kind_toNode t.blueprint none numbering
  have count := congrArg (List.countP (· = Kind.leaf)) (congrArg Tree.preorder kinds)
  rw [Tree.preorder_map, Tree.preorder_map, preorder_blueprint, List.countP_map, List.countP_map,
    List.countP_map] at count
  exact count

end ManifestTree

/-- A manifest can be built exactly if its version is the current one and each of its nodes is
sound. The tree has the names and the kinds of the manifest's nodes at the same places, none of its
leaves has children, and each node has the strictest restriction that is asked for. -/
theorem Manifest.build_exact (m : Manifest) (numbering : Numbering) :
    (m.validate = .ok () ↔ m.version = "1.0" ∧ m.root.Throughout ManifestTree.IsSound) ∧
    ((∃ built, m.build numbering = .ok built) ↔ m.validate = .ok ()) ∧
    ∀ tree rest, m.build numbering = .ok (tree, rest) →
      tree.map Node.name = m.root.map ManifestNode.name ∧ tree.LeavesAreBare ∧
      tree.testCaseCount =
        m.root.locations.countP (fun l => ManifestTree.kind l.tree = .leaf) ∧
      ∀ path t, m.root.subtreeAt? path = some t →
        ∃ u, tree.subtreeAt? path = some u ∧ u.value.kind = ManifestTree.kind t ∧
          t.value.asks u.value.runnability = true ∧
          ∀ state, t.value.asks state = true → state.rank ≤ u.value.runnability.rank := by
  refine ⟨?_, ?_, fun tree rest h => ?_⟩
  · unfold validate currentVersion
    split
    · next version => simpa [version] using ManifestTree.validate_eq_ok_iff
    · next version => simp [version]
  · constructor
    · rintro ⟨⟨tree, rest⟩, h⟩
      exact (build_eq_ok_iff.mp h).1
    · exact fun valid => ⟨_, build_eq_ok_iff.mpr ⟨valid, rfl⟩⟩
  · have bare : tree.LeavesAreBare := leavesAreBare_of_build h
    obtain rfl : (m.root.blueprint.build numbering).1 = tree :=
      congrArg Prod.fst (build_eq_ok_iff.mp h).2
    refine ⟨m.root.map_name_build numbering, bare, ?_, fun path t place => ?_⟩
    · rw [TestTree.testCaseCount_eq bare, ManifestTree.countP_kind_build]
    · exact ManifestTree.exists_built_at place numbering

/-- A test case that is to be both skipped and ignored beside an empty suite. -/
theorem Manifest.build_exact_sample :
    let leaf : ManifestTree :=
      .node { ManifestNode.ofName "Case" with skipped := some "later", ignored := some "slow" } []
    let suite : ManifestTree :=
      .node { ManifestNode.ofName "Suite" with statedKind := some .suite } []
    let m : Manifest := .ofRoot (.node (.ofName "Root") [leaf, suite])
    ∃ tree rest, m.build (.start 0) = .ok (tree, rest) ∧ tree.testCaseCount = 1 ∧
      m.root.subtreeAt? [0] = some leaf ∧ leaf.value.asks .ignored = true ∧
      ∃ u, tree.subtreeAt? [0] = some u ∧ u.value.runnability = .ignored := by
  intro leaf suite m
  obtain ⟨-, build, holds⟩ := Manifest.build_exact m (.start 0)
  obtain ⟨⟨tree, rest⟩, built⟩ := build.mpr (by decide +kernel)
  obtain ⟨-, -, count, places⟩ := holds tree rest built
  have asked : leaf.value.asks .ignored = true := rfl
  obtain ⟨u, place, -, own, strictest⟩ := places [0] leaf rfl
  refine ⟨tree, rest, built, count.trans (by decide +kernel), rfl, asked, u, place, ?_⟩
  have strict := strictest .ignored asked
  generalize u.value.runnability = state at own strict
  revert own strict
  cases state <;> decide

end TestScheduler
