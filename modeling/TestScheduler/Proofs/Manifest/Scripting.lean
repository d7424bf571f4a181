import Mathlib.Data.List.Perm.Basic
import TestScheduler.Proofs.Manifest.Naming
import TestScheduler.Proofs.Text.Dictionary
import TestScheduler.Manifest.Script

/-! # Scripts of nodes

The scripts of a manifest are filed under full names, one for each name. A node whose full name no
other node has plays its own script. Where nodes share a full name there is one script for all of
them, and fewer scripts than nodes.
-/

namespace TestScheduler

namespace Tree

variable {α : Type}

/-- The values of all nodes, each after those below it. -/
def postorder : Tree α → List α := fold fun a below => below.flatten ++ [a]

@[simp] theorem postorder_node (a : α) (ts : List (Tree α)) :
    (node a ts).postorder = ts.flatMap postorder ++ [a] := by
  rw [postorder, fold_node, List.flatMap_def]

theorem postorder_perm_preorder (t : Tree α) : t.postorder.Perm t.preorder := by
  induction t with
  | node a ts ih =>
    rw [postorder_node, preorder_eq_cons]
    exact List.perm_append_comm.trans ((List.Perm.flatMap_left ts ih).cons a)

end Tree

namespace ManifestTree

variable {path : String} {t : ManifestTree} {ts : List ManifestTree}

/-- The scripts of all nodes with their full names, in the order in which they are filed. -/
def entries (path : String) (t : ManifestTree) : List (String × Script) :=
  (t.named path).postorder.map fun (name, n) => (name, n.script)

theorem entries_node (path : String) (n : ManifestNode) (ts : List ManifestTree) :
    entries path (.node n ts) =
      ts.flatMap (entries (joinName path n.name)) ++ [(joinName path n.name, n.script)] := by
  rw [entries, named_node, Tree.postorder_node, List.flatMap_map, List.map_append,
    List.map_flatMap]
  rfl

theorem addEachScripts_eq (each : ∀ t ∈ ts, ∀ scripts, t.addScripts path scripts =
      (t.entries path).foldl (fun d (name, script) => d.insert name script) scripts)
    (scripts : Scripts) :
    addEachScripts path ts scripts =
      (ts.flatMap (entries path)).foldl (fun d (name, script) => d.insert name script) scripts := by
  induction ts generalizing scripts with
  | nil => rfl
  | cons t ts ih =>
    obtain ⟨first, rest⟩ := List.forall_mem_cons.mp each
    rw [addEachScripts, ih rest, first, List.flatMap_cons, List.foldl_append]

theorem addScripts_eq (path : String) (t : ManifestTree) (scripts : Scripts) :
    t.addScripts path scripts =
      (t.entries path).foldl (fun d (name, script) => d.insert name script) scripts := by
  induction t using Tree.induction generalizing path scripts with
  | node n ts ih =>
    rw [addScripts, entries_node, List.foldl_concat]
    rw [addEachScripts_eq fun t ht scripts => ih t ht _ scripts]

theorem map_fst_entries_perm (path : String) (t : ManifestTree) :
    ((t.entries path).map Prod.fst).Perm (t.fullNames path) := by
  rw [entries, List.map_map]
  exact (t.named path).postorder_perm_preorder.map Prod.fst

theorem mem_entries_iff {name : String} {script : Script} :
    (name, script) ∈ t.entries path ↔
      ∃ n, (name, n) ∈ (t.named path).preorder ∧ n.script = script := by
  simp [entries, (t.named path).postorder_perm_preorder.mem_iff]

theorem length_entries (path : String) (t : ManifestTree) :
    (t.entries path).length = t.size := by
  rw [entries, List.length_map, (t.named path).postorder_perm_preorder.length_eq,
    Tree.length_preorder]
  conv => rhs; rw [← t.map_snd_named path, Tree.size_map]

end ManifestTree

/-- Whether an invoker plays a script wherever it is called for a node of a given full name. -/
def Invoker.Plays (invoker : Invoker) (fullName : String) (s : Script) : Prop :=
  ∀ log call, call.node.fullName = fullName →
    invoker log call =
      { ending := s.ending call.hook
        ambient := call.context.toAmbient
        elapsedMs := if call.hook = .test then s.delayMs.toNat else 0 }

theorem Scripts.plays_of_get? {scripts : Scripts} {fullName : String} {s : Script}
    (h : scripts.get? fullName = some s) : scripts.invoker.Plays fullName s := by
  intro log call same
  simp only [invoker, same, h]

namespace Manifest

theorem scripts_eq_ofList (m : Manifest) : m.scripts = .ofList (m.root.entries "") :=
  ManifestTree.addScripts_eq "" m.root {}

theorem size_scripts_eq_iff (m : Manifest) :
    m.scripts.size = m.root.size ↔ (m.root.fullNames "").Nodup := by
  rw [scripts_eq_ofList, ← ManifestTree.length_entries "", Dictionary.size_ofList_eq_iff]
  exact (ManifestTree.map_fst_entries_perm "" m.root).nodup_iff

theorem get?_scripts {m : Manifest} {name : String} {n : ManifestNode}
    (mem : (name, n) ∈ (m.root.named "").preorder)
    (once : (m.root.fullNames "").count name = 1) : m.scripts.get? name = some n.script := by
  rw [scripts_eq_ofList]
  refine Dictionary.get?_ofList (ManifestTree.mem_entries_iff.mpr ⟨n, mem, rfl⟩) ?_
  intro script h
  obtain ⟨n', mem', rfl⟩ := ManifestTree.mem_entries_iff.mp h
  cases eq_of_count_map_eq_one once mem mem' rfl rfl
  rfl

theorem root_valid {m : Manifest} (valid : m.validate = .ok ()) : m.root.validate "" = .ok () := by
  unfold validate at valid
  split at valid
  · exact valid
  · cases valid

theorem fullNames_build {m : Manifest} (valid : m.validate = .ok ()) (numbering : Numbering) :
    (m.root.blueprint.build numbering).1.preorder.map Node.fullName = m.root.fullNames "" := by
  have root : (none : Option Node).map Node.fullName = ManifestTree.parentOf "" := rfl
  have names := congrArg Tree.preorder
    (ManifestTree.map_fullName_buildUnder root (root_valid valid) numbering)
  rw [Tree.preorder_map, Tree.preorder_map] at names
  exact names

/-- Each node of the test tree of a valid manifest plays its own script if no other node has its
full name. There are as many scripts as nodes exactly if no full name occurs twice, and none does if
no child has a name that goes on from the name of a sibling with a dot. -/
theorem plays_own_scripts {m : Manifest} (valid : m.validate = .ok ()) (numbering : Numbering) :
    let tree := (m.root.blueprint.build numbering).1
    let names := tree.preorder.map Node.fullName
    List.Forall₂ (fun n e => names.count n.fullName = 1 →
        m.scripts.invoker.Plays n.fullName (ManifestNode.script e))
      tree.preorder m.root.preorder ∧
    (m.scripts.size = m.root.size ↔ names.Nodup) ∧
    ((∀ l ∈ m.root.locations, ∀ a ∈ l.tree.children, ∀ b ∈ l.tree.children,
      ¬ (a.value.name ++ ".").toList <+: b.value.name.toList) → names.Nodup) := by
  intro tree names
  have named : names = m.root.fullNames "" := fullNames_build valid numbering
  refine ⟨?_, ?_, fun apart => ?_⟩
  · -- Both lists are read off the tree that has each full name beside the node.
    have nodes : m.root.preorder = (m.root.named "").preorder.map Prod.snd := by
      rw [← Tree.preorder_map, ManifestTree.map_snd_named]
    have each : List.Forall₂ (fun name e => names.count name = 1 →
        m.scripts.invoker.Plays name (ManifestNode.script e)) names m.root.preorder := by
      rw [named, nodes, ManifestTree.fullNames, List.forall₂_map_left_iff,
        List.forall₂_map_right_iff, List.forall₂_same]
      exact fun _ mem once => Scripts.plays_of_get? (get?_scripts mem once)
    exact List.forall₂_map_left_iff.mp each
  · rw [named]
    exact m.size_scripts_eq_iff
  · rw [named]
    exact ManifestTree.nodup_fullNames (root_valid valid) apart

theorem plays_own_scripts_sample :
    let tree := (sample.root.blueprint.build (.start 0)).1
    let names := tree.preorder.map Node.fullName
    sample.validate = .ok () ∧
      names = ["Root", "Root.Suite", "Root.Suite.Plain", "Root.Suite.Failing", "Root.Ignored"] ∧
      sample.scripts.size = 5 ∧
      sample.scripts.invoker.Plays "Root.Suite.Failing"
        { ManifestNode.script (.ofName "Failing") with outcome := .fail } := by
  have valid : sample.validate = .ok () := by decide +kernel
  obtain ⟨own, size, distinct⟩ := plays_own_scripts valid (.start 0)
  have failing := own.get (i := 3) (by decide +kernel) (by decide +kernel) (by decide +kernel)
  refine ⟨valid, by decide +kernel, (size.mpr (distinct (by decide))).trans (by decide), ?_⟩
  have name : ((sample.root.blueprint.build (.start 0)).1.preorder.get ⟨3, by decide⟩).fullName =
      "Root.Suite.Failing" := by decide +kernel
  exact name ▸ failing

/-- A child may have a name with a dot that reads like the way to a node below its sibling. -/
def dotted : Manifest :=
  let failing : ManifestNode :=
    { ManifestNode.ofName "A.B" with outcome := some .fail, message := some "own" }
  .ofRoot (.node (.ofName "Root")
    [.node failing [], .node (.ofName "A") [.node (.ofName "B") []]])

/-- A failing test case whose full name another node has passes, as it plays the script of the
other node, and there are fewer scripts than nodes. -/
theorem not_plays_own_scripts_of_dotted :
    let tree := (dotted.root.blueprint.build (.start 0)).1
    dotted.validate = .ok () ∧ ¬ (tree.preorder.map Node.fullName).Nodup ∧
      dotted.scripts.size ≠ dotted.root.size ∧
      ¬ List.Forall₂ (fun n e => dotted.scripts.invoker.Plays n.fullName (ManifestNode.script e))
        tree.preorder dotted.root.preorder := by
  refine ⟨by decide +kernel, by decide +kernel, by decide +kernel, fun each => ?_⟩
  let call (n : Node) : Call :=
    { hook := .test, node := n, context := .initial 0, stopped := false }
  let nodes := (dotted.root.blueprint.build (.start 0)).1.preorder
  have other : ((nodes.zip dotted.root.preorder).any fun (n, e) =>
      (dotted.scripts.invoker [] (call n)).ending ≠ e.script.ending .test) = true := by
    decide +kernel
  obtain ⟨⟨n, e⟩, mem, differs⟩ := List.any_eq_true.mp other
  have plays := List.forall₂_zip each mem [] (call n) rfl
  exact of_decide_eq_true differs (congrArg Response.ending plays)

end Manifest

end TestScheduler
