import TestScheduler.Tree.Basic

/-! # Locations in a tree

A location is a node seen in place: the subtree it heads together with the chain of trees above
it. Questions about ancestors and descendants are asked of locations.
-/

namespace TestScheduler

structure Location (α : Type u) where
  tree : Tree α
  /-- The trees that contain this one, nearest first. -/
  above : List (Tree α)
  deriving DecidableEq

namespace Location

variable {α : Type u}

def root (t : Tree α) : Location α := ⟨t, []⟩

def value (l : Location α) : α := l.tree.value

def parent? (l : Location α) : Option (Location α) :=
  match l.above with
  | [] => none
  | t :: above => some ⟨t, above⟩

/-- The locations of a chain of trees, each with the rest of the chain above it. -/
def ofChain : List (Tree α) → List (Location α)
  | [] => []
  | t :: above => ⟨t, above⟩ :: ofChain above

/-- Parent, grandparent and so on up to the root. -/
def ancestors (l : Location α) : List (Location α) := ofChain l.above

def children (l : Location α) : List (Location α) :=
  l.tree.children.map (⟨·, l.tree :: l.above⟩)

mutual

/-- The locations of a subtree in pre-order, given the trees above it. -/
def listFrom (above : List (Tree α)) : Tree α → List (Location α)
  | .node a ts => ⟨.node a ts, above⟩ :: listFromEach (.node a ts :: above) ts

def listFromEach (above : List (Tree α)) : List (Tree α) → List (Location α)
  | [] => []
  | t :: ts => listFrom above t ++ listFromEach above ts

end

/-- This location and those below it, in pre-order. -/
def preorder (l : Location α) : List (Location α) := listFrom l.above l.tree

def descendants (l : Location α) : List (Location α) :=
  listFromEach (l.tree :: l.above) l.tree.children

/-- This location, those above it and those below it. -/
def kin (l : Location α) : List (Location α) := l :: (l.ancestors ++ l.descendants)

end Location

/-- Every location of a tree, in pre-order. -/
def Tree.locations (t : Tree α) : List (Location α) := (Location.root t).preorder

end TestScheduler
