import TestScheduler.Suite.Node
import TestScheduler.Suite.Randomizer

/-! # Blueprints

A blueprint describes a test tree before its nodes have identities. Building it draws ids and
seeds in pre-order and applies the attributes of each node in the order in which they are listed.
-/

namespace TestScheduler

inductive Attribute where
  | ignore (reason : String)
  | explicit (reason : Option String)
  | notRunnable (reason : String)
  | skip (reason : String)
  | category (name : String)
  | property (key value : String)
  | description (text : String)
  /-- Replaces the values of a property. -/
  | setProperty (key value : String)
  | restrict (state : Runnability) (reason : Option String)
  deriving DecidableEq, Repr

namespace Attribute

def apply : Attribute → Node → Node
  | ignore reason, n => n.restrict .ignored reason
  | explicit reason, n => n.restrict .explicit reason
  | notRunnable reason, n => n.restrict .notRunnable reason
  | skip reason, n => n.restrict .skipped reason
  | category name, n => { n with properties := n.properties.add Node.categoryKey name }
  | property key value, n => { n with properties := n.properties.add key value }
  | description text, n => { n with properties := n.properties.set Node.descriptionKey text }
  | setProperty key value, n => { n with properties := n.properties.set key value }
  | restrict state reason, n => n.restrict state reason

end Attribute

/-- Hands out ids and node seeds. -/
structure Numbering where
  nextId : TestId
  randomizer : Randomizer
  generator : Generator

namespace Numbering

def firstId : TestId := 1000

def start (seed : UInt64) (generator : Generator := .mixing) : Numbering :=
  ⟨firstId, { seed }, generator⟩

/-- Draws the id and the seed of one node. -/
def next (n : Numbering) : TestId × UInt64 × Numbering :=
  let (seed, randomizer) := n.randomizer.next n.generator
  (n.nextId, seed, { n with nextId := n.nextId + 1, randomizer })

end Numbering

structure NodePlan where
  name : String
  kind : Kind
  className : Option String := none
  methodName : Option String := none
  attributes : List Attribute := []
  settings : List Setting := []
  deriving DecidableEq, Repr

abbrev Blueprint := Tree NodePlan

namespace NodePlan

/-- The node of a plan, given the node that holds it. -/
def toNode (plan : NodePlan) (parent : Option Node) (id : TestId) (seed : UInt64) : Node :=
  let bare : Node :=
    { id, seed
      parent := parent.map (·.id)
      name := plan.name
      fullName := match parent with
        | some parent => parent.fullName ++ "." ++ plan.name
        | none => plan.name
      kind := plan.kind
      runnability := .runnable
      properties := {}
      className := plan.className
      methodName := plan.methodName
      settings := Setting.inOrder plan.settings }
  plan.attributes.foldl (fun n a => a.apply n) bare

end NodePlan

namespace Blueprint

mutual

def buildUnder (parent : Option Node) : Blueprint → Numbering → TestTree × Numbering
  | .node plan plans, numbering =>
    let (id, seed, numbering) := numbering.next
    let node := plan.toNode parent id seed
    let (children, numbering) := buildEachUnder node plans numbering
    (.node node children, numbering)

def buildEachUnder (parent : Node) : List Blueprint → Numbering → List TestTree × Numbering
  | [], numbering => ([], numbering)
  | plan :: plans, numbering =>
    let (tree, numbering) := buildUnder (some parent) plan numbering
    let (trees, numbering) := buildEachUnder parent plans numbering
    (tree :: trees, numbering)

end

/-- Builds the tree of a blueprint, numbering its nodes in pre-order. -/
def build (b : Blueprint) (numbering : Numbering) : TestTree × Numbering :=
  buildUnder none b numbering

end Blueprint

/-- A suite of fast tests, one of them explicit, beside a slow test. -/
def TestTree.sample : TestTree :=
  let leaf (name : String) (attributes : List Attribute) : Blueprint :=
    .node { name, kind := .leaf, attributes } []
  let fast : Blueprint :=
    .node { name := "Fast", kind := .suite, attributes := [.category "Fast"] }
      [leaf "Plain" [], leaf "Hidden" [.explicit none]]
  (Blueprint.build (.node { name := "Root", kind := .suite } [fast, leaf "Slow" []])
    (.start 0)).1

end TestScheduler
