import TestScheduler.Suite.Blueprint
import TestScheduler.Text.Dictionary

/-! # Manifests

A manifest describes a test tree together with a scripted behaviour for every node.
-/

namespace TestScheduler

/-- What a scripted hook does. -/
inductive ScriptedOutcome where
  | pass | fail | error | inconclusive | ignore | panic
  deriving DecidableEq, Repr

namespace ScriptedOutcome

def keyword : ScriptedOutcome → String
  | pass => "pass"
  | fail => "fail"
  | error => "error"
  | inconclusive => "inconclusive"
  | ignore => "ignore"
  | panic => "panic"

def all : List ScriptedOutcome := [pass, fail, error, inconclusive, ignore, panic]

def ofKeyword? (word : String) : Option ScriptedOutcome := all.find? (·.keyword = word)

end ScriptedOutcome

/-- What a manifest says of one node, apart from its children. -/
structure ManifestNode where
  name : String
  /-- The kind, where it does not follow from the children. -/
  statedKind : Option Kind := none
  className : Option String := none
  methodName : Option String := none
  categories : List String := []
  properties : Dictionary String := {}
  description : Option String := none
  /-- A reason to ignore the node. -/
  ignored : Option String := none
  isExplicit : Bool := false
  /-- A reason to skip the node. -/
  skipped : Option String := none
  /-- A reason why the node cannot run. -/
  notRunnable : Option String := none
  settings : List Setting := []
  outcome : Option ScriptedOutcome := none
  message : Option String := none
  asserts : UInt32 := 0
  delayMs : UInt64 := 0
  setUp : Option ScriptedOutcome := none
  tearDown : Option ScriptedOutcome := none
  deriving DecidableEq

abbrev ManifestTree := Tree ManifestNode

/-- The kind of a node: the stated one, or else a suite if it has children. -/
def ManifestNode.kindWith (n : ManifestNode) (hasChildren : Bool) : Kind :=
  n.statedKind.getD (if hasChildren then .suite else .leaf)

def ManifestTree.kind (t : ManifestTree) : Kind := t.value.kindWith (!t.children.isEmpty)

structure Manifest where
  version : String
  seed : Option UInt64 := none
  root : ManifestTree
  deriving DecidableEq

namespace Manifest

/-- The only version of the form. -/
def currentVersion : String := "1.0"

def ofRoot (root : ManifestTree) : Manifest := { version := currentVersion, root }

end Manifest

/-! ## Blueprints -/

namespace ManifestNode

/-- The attributes of a node, those that restrict it last. -/
def attributes (n : ManifestNode) : List Attribute :=
  n.categories.map .category ++
    n.properties.entries.map (fun (key, value) => .property key value) ++
    n.description.toList.map .description ++ n.notRunnable.toList.map .notRunnable ++
    n.ignored.toList.map .ignore ++ n.skipped.toList.map .skip ++
    if n.isExplicit then [.explicit none] else []

def plan (n : ManifestNode) (hasChildren : Bool) : NodePlan :=
  { name := n.name
    kind := n.kindWith hasChildren
    className := n.className
    methodName := n.methodName
    attributes := n.attributes
    settings := n.settings }

end ManifestNode

/-- The blueprint of a manifest's tree. -/
def ManifestTree.blueprint : ManifestTree → Blueprint :=
  Tree.fold fun n below => .node (n.plan (!below.isEmpty)) below

end TestScheduler
