import TestScheduler.Suite.Kind
import TestScheduler.Suite.Properties
import TestScheduler.Suite.Runnability
import TestScheduler.Suite.Setting
import TestScheduler.Tree.Location

/-! # Test nodes

A node is one test case or suite. A `TestTree` arranges nodes by containment, and the full name
of a node lists the names on the way down to it.
-/

namespace TestScheduler

/-- Identifies a node within one run. -/
abbrev TestId := Nat

structure Node where
  id : TestId
  /-- The node that holds this one; the root has none. -/
  parent : Option TestId
  name : String
  fullName : String
  kind : Kind
  runnability : Runnability
  properties : Properties
  className : Option String
  methodName : Option String
  seed : UInt64
  settings : List Setting
  deriving DecidableEq, Repr

abbrev TestTree := Tree Node

namespace Node

def categoryKey : String := "Category"

/-- Holds why a test is kept from running freely. -/
def skipReasonKey : String := "_SKIPREASON"

def descriptionKey : String := "Description"

def isSuite (n : Node) : Bool := n.kind.isSuite

theorem isSuite_eq_false_iff {n : Node} : n.isSuite = false ↔ n.kind = .leaf := by
  cases hk : n.kind <;> simp [isSuite, Kind.isSuite, hk]

def categories (n : Node) : List String := n.properties.getAll categoryKey

def skipReason (n : Node) : Option String := n.properties.get? skipReasonKey

/-- The part of a dotted name before its last dot. -/
def qualifier? (name : String) : Option String :=
  match name.toList.reverse.dropWhile (· ≠ '.') with
  | [] => none
  | _ :: before => some (String.ofList before.reverse)

/-- The namespace of the declaring class, if it has one. -/
def namespaceName (n : Node) : Option String := n.className.bind qualifier?

/-- Tightens the runnability; a reason is recorded only when the state changes. -/
def restrict (n : Node) (requested : Runnability) (reason : Option String) : Node :=
  let state := n.runnability.tighten requested
  if state = n.runnability then n
  else
    { n with
      runnability := state
      properties := match reason with
        | some reason => n.properties.set skipReasonKey reason
        | none => n.properties }

def title (n : Node) : String := n.fullName ++ " [" ++ toString n.id ++ "]"

end Node

namespace TestTree

/-- The number of test cases; what lies below a leaf does not count. -/
def testCaseCount : TestTree → Nat :=
  Tree.fold fun n below => if n.isSuite then below.foldr (· + ·) 0 else 1

@[simp] theorem testCaseCount_node (n : Node) (ts : List TestTree) :
    testCaseCount (.node n ts) =
      if n.isSuite then (ts.map testCaseCount).foldr (· + ·) 0 else 1 := by
  simp [testCaseCount]

/-- The first node in pre-order with a full name. -/
def find? (t : TestTree) (fullName : String) : Option (Location Node) :=
  t.locations.find? (·.value.fullName = fullName)

/-- The leaves of a tree, in pre-order. -/
def testCases (t : TestTree) : List (Location Node) :=
  t.locations.filter fun l => l.value.kind = .leaf

/-- No leaf has children. -/
def LeavesAreBare (t : TestTree) : Prop :=
  ∀ l ∈ t.locations, l.value.kind = .leaf → l.tree.children = []

instance (t : TestTree) : Decidable t.LeavesAreBare :=
  inferInstanceAs (Decidable (∀ l ∈ t.locations, l.value.kind = .leaf → l.tree.children = []))

end TestTree

end TestScheduler
