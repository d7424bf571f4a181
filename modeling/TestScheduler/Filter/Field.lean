import TestScheduler.Suite.Node

/-! # Fields

A field names the texts of a node that a predicate looks at. Every word that is not the keyword
of a built-in field names a property.
-/

namespace TestScheduler

inductive Field where
  | id | fullName | name | className | methodName | namespaceName | category
  | property (key : String)
  deriving DecidableEq, Repr

namespace Field

/-- The word that stands for a field in a query. -/
def word : Field → String
  | id => "id"
  | fullName => "test"
  | name => "name"
  | className => "class"
  | methodName => "method"
  | namespaceName => "namespace"
  | category => "cat"
  | property key => key

def builtIn : List Field := [id, fullName, name, className, methodName, namespaceName, category]

/-- The field a word stands for in a query. -/
def ofWord (word : String) : Field :=
  (builtIn.find? (·.word = word)).getD (property word)

/-- The texts of a node that a field refers to. -/
def texts : Field → Node → List String
  | id, n => [toString n.id]
  | fullName, n => [n.fullName]
  | name, n => [n.name]
  | className, n => n.className.toList
  | methodName, n => n.methodName.toList
  | namespaceName, n => n.namespaceName.toList
  | category, n => n.categories
  | property key, n => n.properties.getAll key

end Field

end TestScheduler
