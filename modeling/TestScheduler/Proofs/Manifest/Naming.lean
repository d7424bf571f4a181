import Mathlib.Data.List.Nodup
import TestScheduler.Proofs.Manifest.Validity

/-! # Full names in manifests

The scripts of a manifest and the nodes of its test tree get their full names separately. For a
valid manifest both are the same. Siblings have different names, but as names may contain dots this
does not keep the nodes below one sibling apart from those below another: full names are distinct if
no sibling has a name that goes on from the name of another with a dot.
-/

namespace TestScheduler

namespace ManifestTree

mutual

/-- The tree with the full name of each node beside the node. -/
def named (path : String) : ManifestTree → Tree (String × ManifestNode)
  | .node n ts => .node (joinName path n.name, n) (namedEach (joinName path n.name) ts)

def namedEach (path : String) : List ManifestTree → List (Tree (String × ManifestNode))
  | [] => []
  | t :: ts => named path t :: namedEach path ts

end

variable {path : String} {t : ManifestTree} {ts : List ManifestTree}

theorem namedEach_eq_map (path : String) (ts : List ManifestTree) :
    namedEach path ts = ts.map (named path) := by
  induction ts with
  | nil => rfl
  | cons t ts ih => rw [namedEach, ih, List.map_cons]

theorem named_node (path : String) (n : ManifestNode) (ts : List ManifestTree) :
    named path (.node n ts) =
      .node (joinName path n.name, n) (ts.map (named (joinName path n.name))) := by
  rw [named, namedEach_eq_map]

theorem map_snd_named (path : String) (t : ManifestTree) : (t.named path).map Prod.snd = t := by
  induction t using Tree.induction generalizing path with
  | node n ts ih =>
    rw [named_node, Tree.map_node, List.map_map]
    congr 1
    exact (List.map_congr_left fun t ht => ih t ht _).trans ts.map_id

theorem name_ne_empty {n : ManifestNode} (valid : validate path (.node n ts) = .ok ()) :
    n.name ≠ "" := by
  intro empty
  rw [validate, empty] at valid
  simp [show Text.isBlankText "" = true from rfl] at valid

theorem validateEach_of_validate {n : ManifestNode}
    (valid : validate path (.node n ts) = .ok ()) :
    validateEach (joinName path n.name) [] ts = .ok () := by
  rw [validate] at valid
  split at valid
  · cases valid
  · split at valid
    · cases valid
    · exact valid

theorem joinName_of_ne_empty {name : String} (h : path ≠ "") :
    joinName path name = path ++ "." ++ name := if_neg h

theorem joinName_ne_empty {name : String} (h : name ≠ "") : joinName path name ≠ "" := by
  unfold joinName
  split
  · exact h
  · intro empty
    have := congrArg String.toList empty
    simp at this

/-- The full name of the node above a path. -/
def parentOf (path : String) : Option String := if path = "" then none else some path

theorem fullName_toNode_plan {parent : Option Node}
    (above : parent.map Node.fullName = parentOf path) (n : ManifestNode) (hasChildren : Bool)
    (id : TestId) (seed : UInt64) :
    ((n.plan hasChildren).toNode parent id seed).fullName = joinName path n.name := by
  have joined : (parent.map Node.fullName).elim n.name (· ++ "." ++ n.name) =
      joinName path n.name := by
    rw [above, parentOf, joinName]
    split <;> rfl
  rw [NodePlan.fullName_toNode, ← joined]
  cases parent <;> rfl

theorem map_fullName_buildEachUnder {parent : Node}
    (each : ∀ t ∈ ts, ∀ numbering,
      (Blueprint.buildUnder (some parent) t.blueprint numbering).1.map Node.fullName =
        (t.named path).map Prod.fst) (numbering : Numbering) :
    (Blueprint.buildEachUnder parent (ts.map blueprint) numbering).1.map (Tree.map Node.fullName) =
      (ts.map (named path)).map (Tree.map Prod.fst) := by
  induction ts generalizing numbering with
  | nil => rfl
  | cons t ts ih =>
    obtain ⟨first, rest⟩ := List.forall_mem_cons.mp each
    simp only [List.map_cons, Blueprint.buildEachUnder, first, ih rest]

/-- The nodes of the test tree have the full names under which their scripts are filed. -/
theorem map_fullName_buildUnder {parent : Option Node}
    (above : parent.map Node.fullName = parentOf path) (valid : validate path t = .ok ())
    (numbering : Numbering) :
    (Blueprint.buildUnder parent t.blueprint numbering).1.map Node.fullName =
      (t.named path).map Prod.fst := by
  induction t using Tree.induction generalizing path parent numbering with
  | node n ts ih =>
    have nonempty : joinName path n.name ≠ "" := joinName_ne_empty (name_ne_empty valid)
    have each := validateEach_of_validate valid
    have named := fullName_toNode_plan above n (!ts.isEmpty) numbering.next.1 numbering.next.2.1
    rw [blueprint_node, Blueprint.buildUnder, named_node, Tree.map_node, Tree.map_node]
    congr 1
    refine map_fullName_buildEachUnder (fun t ht => ih t ht ?_ (validate_of_mem each ht)) _
    rw [Option.map_some, parentOf, if_neg nonempty]
    exact congrArg some named

/-! ## Distinct names -/

/-- The full names of all nodes, each before those below it. -/
def fullNames (path : String) (t : ManifestTree) : List String :=
  (t.named path).preorder.map Prod.fst

theorem fullNames_node (path : String) (n : ManifestNode) (ts : List ManifestTree) :
    fullNames path (.node n ts) =
      joinName path n.name :: ts.flatMap (fullNames (joinName path n.name)) := by
  rw [fullNames, named_node, Tree.preorder_node, List.map_cons, List.map_flatten, List.map_map,
    List.map_map, List.flatMap_def]
  rfl

/-- Whether a full name is another one or goes on from it with a dot. -/
def GoesOn (above name : String) : Prop :=
  ∃ rest : List Char, name.toList = above.toList ++ rest ∧ ∀ c ∈ rest.head?, c = '.'

variable {above name other : String}

theorem GoesOn.refl (name : String) : GoesOn name name := ⟨[], by simp, nofun⟩

theorem GoesOn.of_joinName (h : GoesOn (joinName path name) other) (nonempty : path ≠ "") :
    ∃ rest, other.toList = path.toList ++ '.' :: rest := by
  obtain ⟨rest, same, -⟩ := h
  refine ⟨name.toList ++ rest, ?_⟩
  rw [same, joinName_of_ne_empty nonempty]
  simp

/-- What goes on from the names of two siblings tells them apart, unless one of these names goes on
from the other. -/
theorem GoesOn.unique {a b : String} (ha : GoesOn (joinName path a) name)
    (hb : GoesOn (joinName path b) name) (nonempty : path ≠ "")
    (apart : ¬ (a ++ ".").toList <+: b.toList) (apart' : ¬ (b ++ ".").toList <+: a.toList) :
    a = b := by
  obtain ⟨u, hu, dot⟩ := ha
  obtain ⟨w, hw, dot'⟩ := hb
  have cancelled : a.toList ++ u = b.toList ++ w := by
    rw [hu, joinName_of_ne_empty nonempty, joinName_of_ne_empty nonempty] at hw
    simpa using hw
  rcases List.append_eq_append_iff.mp cancelled with ⟨e, longer, rest⟩ | ⟨e, longer, rest⟩
  · cases e with
    | nil => exact String.toList_injective (by simpa using longer.symm)
    | cons c e =>
      obtain rfl : c = '.' := dot c (by simp [rest])
      exact absurd ⟨e, by simp [longer]⟩ apart
  · cases e with
    | nil => exact String.toList_injective (by simpa using longer)
    | cons c e =>
      obtain rfl : c = '.' := dot' c (by simp [rest])
      exact absurd ⟨e, by simp [longer]⟩ apart'

theorem goesOn_of_mem (valid : validate path t = .ok ()) (h : name ∈ t.fullNames path) :
    GoesOn (joinName path t.value.name) name := by
  induction t using Tree.induction generalizing path with
  | node n ts ih =>
    rw [fullNames_node, List.mem_cons] at h
    rcases h with rfl | h
    · exact .refl _
    · obtain ⟨t, ht, h⟩ := List.mem_flatMap.mp h
      have nonempty : joinName path n.name ≠ "" := joinName_ne_empty (name_ne_empty valid)
      have below := ih t ht (validate_of_mem (validateEach_of_validate valid) ht) h
      obtain ⟨rest, longer⟩ := below.of_joinName nonempty
      exact ⟨'.' :: rest, longer, by simp⟩

theorem names_of_validateEach {seen : List String} (valid : validateEach path seen ts = .ok ()) :
    (ts.map (·.value.name)).Nodup ∧ ∀ name ∈ ts.map (·.value.name), name ∉ seen := by
  induction ts generalizing seen with
  | nil => exact ⟨List.nodup_nil, List.forall_mem_nil _⟩
  | cons t ts ih =>
    rw [validateEach] at valid
    split at valid
    · cases valid
    · next new =>
      obtain ⟨_, -, rest⟩ := bind_eq_ok_iff.mp valid
      obtain ⟨nodup, others⟩ := ih rest
      refine ⟨List.nodup_cons.mpr ⟨fun h => others _ h List.mem_cons_self, nodup⟩, ?_⟩
      refine List.forall_mem_cons.mpr ⟨by simpa using new, fun name h known => ?_⟩
      exact others name h (List.mem_cons_of_mem _ known)

theorem nodup_fullNames (valid : validate path t = .ok ())
    (apart : t.Throughout fun t => ∀ a ∈ t.children, ∀ b ∈ t.children,
      ¬ (a.value.name ++ ".").toList <+: b.value.name.toList) : (t.fullNames path).Nodup := by
  induction t using Tree.induction generalizing path with
  | node n ts ih =>
    obtain ⟨top, below⟩ := Tree.throughout_node.mp apart
    have nonempty : joinName path n.name ≠ "" := joinName_ne_empty (name_ne_empty valid)
    have each := validateEach_of_validate valid
    rw [fullNames_node, List.nodup_cons, List.nodup_flatMap]
    refine ⟨?_, fun t ht => ih t ht (validate_of_mem each ht) (below t ht), ?_⟩
    · intro h
      obtain ⟨t, ht, h⟩ := List.mem_flatMap.mp h
      obtain ⟨rest, longer⟩ := (goesOn_of_mem (validate_of_mem each ht) h).of_joinName nonempty
      simp at longer
    · have distinct := List.pairwise_map.mp (names_of_validateEach each).1
      refine distinct.imp_of_mem fun {a b} ha hb differ name hname hname' => differ ?_
      exact (goesOn_of_mem (validate_of_mem each ha) hname).unique
        (goesOn_of_mem (validate_of_mem each hb) hname') nonempty (top a ha b hb) (top b hb a ha)

end ManifestTree

end TestScheduler
