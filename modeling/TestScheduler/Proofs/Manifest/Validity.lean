import TestScheduler.Manifest.Load
import TestScheduler.Proofs.Suite.Construction
import TestScheduler.Proofs.Tree.Throughout

/-! # Validity of manifests

No leaf of a valid manifest has children, and so none of the test tree that is built from it. Every
manifest that is loaded is valid.
-/

namespace TestScheduler

namespace ManifestTree

variable {path : String} {t : ManifestTree}

theorem validate_of_mem {seen : List String} {ts : List ManifestTree}
    (h : validateEach path seen ts = .ok ()) (ht : t ∈ ts) : validate path t = .ok () := by
  induction ts generalizing seen with
  | nil => cases ht
  | cons t' ts ih =>
    rw [validateEach] at h
    split at h
    · cases h
    · obtain ⟨_, first, rest⟩ := bind_eq_ok_iff.mp h
      rcases List.mem_cons.mp ht with rfl | ht
      · exact first
      · exact ih rest ht

theorem bare_of_validate (h : validate path t = .ok ()) :
    t.Throughout fun t => kind t = .leaf → t.children = [] := by
  induction t using Tree.induction generalizing path with
  | node n ts ih =>
    rw [validate] at h
    rw [Tree.throughout_node]
    split at h
    · cases h
    · split at h
      · cases h
      · next bare =>
        refine ⟨fun leaf => ?_, fun t ht => ih t ht (validate_of_mem h ht)⟩
        have leaf : n.kindWith (!ts.isEmpty) = .leaf := leaf
        simpa [leaf] using bare

theorem blueprint_node (n : ManifestNode) (ts : List ManifestTree) :
    blueprint (.node n ts) = .node (n.plan (!ts.isEmpty)) (ts.map blueprint) := by
  rw [blueprint, Tree.fold_node, List.isEmpty_map]

theorem bare_blueprint (h : t.Throughout fun t => kind t = .leaf → t.children = []) :
    t.blueprint.Throughout fun b => b.value.kind = .leaf → b.children = [] := by
  induction t using Tree.induction with
  | node n ts ih =>
    rw [Tree.throughout_node] at h
    rw [blueprint_node, Tree.throughout_node]
    refine ⟨fun leaf => ?_, fun b hb => ?_⟩
    · have none : ts = [] := h.1 leaf
      rw [Tree.children_node, none, List.map_nil]
    · obtain ⟨t, ht, rfl⟩ := List.mem_map.mp hb
      exact ih t ht (h.2 t ht)

end ManifestTree

namespace Blueprint

theorem bare_buildUnder {b : Blueprint}
    (h : b.Throughout fun b => b.value.kind = .leaf → b.children = []) (parent : Option Node)
    (numbering : Numbering) : (buildUnder parent b numbering).1.LeavesAreBare := by
  change (buildUnder parent b numbering).1.Throughout fun t =>
    t.value.kind = .leaf → t.children = []
  induction b using Tree.induction generalizing parent numbering with
  | node plan bs ih =>
    rw [Tree.throughout_node] at h
    rw [buildUnder, Tree.throughout_node]
    constructor
    · intro leaf
      have none : bs = [] := h.1 ((plan.kind_toNode parent _ _).symm.trans leaf)
      subst none
      rfl
    · refine forall_right_of_forall₂ (forall₂_buildEachUnder _ bs _) fun b hb t built => ?_
      obtain ⟨numbering', rfl⟩ := built
      exact ih b hb (h.2 b hb) _ _

end Blueprint

namespace Manifest

theorem leavesAreBare_of_validate {m : Manifest} (valid : m.validate = .ok ())
    (numbering : Numbering) : (m.root.blueprint.build numbering).1.LeavesAreBare := by
  unfold validate at valid
  split at valid
  · exact Blueprint.bare_buildUnder
      (ManifestTree.bare_blueprint (ManifestTree.bare_of_validate valid)) _ _
  · cases valid

theorem build_eq_ok_iff {m : Manifest} {numbering rest : Numbering} {tree : TestTree} :
    m.build numbering = .ok (tree, rest) ↔
      m.validate = .ok () ∧ m.root.blueprint.build numbering = (tree, rest) := by
  unfold build
  rw [bind_eq_ok_iff]
  constructor
  · rintro ⟨_, valid, built⟩
    exact ⟨valid, Except.ok.inj built⟩
  · rintro ⟨valid, built⟩
    exact ⟨(), valid, congrArg Except.ok built⟩

theorem leavesAreBare_of_build {m : Manifest} {numbering rest : Numbering} {tree : TestTree}
    (h : m.build numbering = .ok (tree, rest)) : tree.LeavesAreBare := by
  obtain ⟨valid, built⟩ := build_eq_ok_iff.mp h
  have bare := leavesAreBare_of_validate valid numbering
  rwa [built] at bare

end Manifest

/-- A node of which nothing is said but its name. -/
def ManifestNode.ofName (name : String) : ManifestNode := { name, properties := .ofList [] }

/-- A suite of two test cases, of which one fails, beside a test case that is ignored. -/
def Manifest.sample : Manifest :=
  let leaf (n : ManifestNode) : ManifestTree := .node n []
  let suite : ManifestTree := .node (.ofName "Suite")
    [leaf (.ofName "Plain"), leaf { ManifestNode.ofName "Failing" with outcome := some .fail }]
  .ofRoot (.node (.ofName "Root")
    [suite, leaf { ManifestNode.ofName "Ignored" with ignored := some "too slow" }])

end TestScheduler
