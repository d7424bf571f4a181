import TestScheduler.Filter.Basic
import TestScheduler.Report.Outline

/-! # Listings of tests

The nodes that a filter keeps, one line each and indented by level. A detailed listing adds the
identity and the properties of each node.
-/

namespace TestScheduler

namespace Node

/-- The lines of a node at a depth. -/
def listing (n : Node) (isDetailed : Bool) (depth : Nat) : List String :=
  let indent := Text.indentation depth
  let title := indent ++ n.name ++ " (" ++ n.kind.title ++ ")"
  if isDetailed then
    (title ++ " [id " ++ toString n.id ++ ", " ++ n.runnability.title ++ "]") ::
      n.properties.entries.map fun (key, values) =>
        indent ++ "    " ++ key ++ ": " ++ ", ".intercalate values
  else [title]

end Node

namespace Filter

variable {Expression : Type} [Pattern.Dialect Expression]

mutual

/-- The kept nodes of a subtree with their depths, given the trees above it. -/
def keptFrom (f : Filter) (above : List TestTree) : TestTree → List (Nat × Node)
  | .node n ts =>
    if f.keeps ⟨.node n ts, above⟩ then (above.length, n) :: keptEach f (.node n ts :: above) ts
    else []

def keptEach (f : Filter) (above : List TestTree) : List TestTree → List (Nat × Node)
  | [] => []
  | t :: ts => keptFrom f above t ++ keptEach f above ts

end

/-- The nodes that stay in view from the root downwards, with their depths. -/
def kept (f : Filter) (t : TestTree) : List (Nat × Node) := keptFrom f [] t

def listing (f : Filter) (t : TestTree) (isDetailed : Bool) : String :=
  String.join <| (f.kept t).flatMap fun (depth, n) =>
    (n.listing isDetailed depth).map (· ++ "\n")

end Filter

end TestScheduler
