/-! # Kinds of test nodes

Leaves are single test cases. Suites hold other nodes; the grouped ones hold the generated cases
of one method.
-/

namespace TestScheduler

inductive Kind where
  | leaf | suite | parameterizedSuite | theorySuite
  deriving DecidableEq, Repr

namespace Kind

def isSuite : Kind → Bool
  | leaf => false
  | _ => true

def isGrouped : Kind → Bool
  | parameterizedSuite => true
  | theorySuite => true
  | _ => false

def title : Kind → String
  | leaf => "TestCase"
  | suite => "TestSuite"
  | parameterizedSuite => "ParameterizedMethod"
  | theorySuite => "Theory"

/-- The name of a kind in data files. -/
def keyword : Kind → String
  | leaf => "leaf"
  | suite => "suite"
  | parameterizedSuite => "parameterized_suite"
  | theorySuite => "theory_suite"

def all : List Kind := [leaf, suite, parameterizedSuite, theorySuite]

def ofKeyword? (word : String) : Option Kind := all.find? (·.keyword = word)

end Kind

end TestScheduler
