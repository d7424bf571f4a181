/-! # Rose trees

A tree has one value per node and an ordered list of children. Traversals are instances of
`Tree.fold`, and pre-order is the order in which nodes are listed everywhere.
-/

namespace TestScheduler

inductive Tree (α : Type u) where
  | node (value : α) (children : List (Tree α))
  deriving Repr

namespace Tree

variable {α : Type u} {β : Type v}

def value : Tree α → α
  | .node a _ => a

def children : Tree α → List (Tree α)
  | .node _ ts => ts

@[simp] theorem value_node (a : α) (ts : List (Tree α)) : (node a ts).value = a := rfl

@[simp] theorem children_node (a : α) (ts : List (Tree α)) : (node a ts).children = ts := rfl

instance [Inhabited α] : Inhabited (Tree α) := ⟨.node default []⟩

mutual

/-- Combines the value of each node with what its children gave. -/
def fold (f : α → List β → β) : Tree α → β
  | .node a ts => f a (foldEach f ts)

def foldEach (f : α → List β → β) : List (Tree α) → List β
  | [] => []
  | t :: ts => fold f t :: foldEach f ts

end

theorem foldEach_eq_map (f : α → List β → β) (ts : List (Tree α)) :
    foldEach f ts = ts.map (fold f) := by
  induction ts with
  | nil => rfl
  | cons t ts ih => simp [foldEach, ih]

@[simp] theorem fold_node (f : α → List β → β) (a : α) (ts : List (Tree α)) :
    fold f (.node a ts) = f a (ts.map (fold f)) := by
  simp [fold, foldEach_eq_map]

/-- Induction with one hypothesis for all children. -/
@[elab_as_elim, induction_eliminator]
theorem induction {motive : Tree α → Prop}
    (node : ∀ a ts, (∀ t ∈ ts, motive t) → motive (.node a ts)) (t : Tree α) : motive t :=
  Tree.rec (motive_2 := fun ts => ∀ t ∈ ts, motive t) node
    (fun _ h => nomatch h)
    (fun _ _ head tail _ h => by
      rcases List.mem_cons.1 h with rfl | h
      · exact head
      · exact tail _ h)
    t

/-- The values of all nodes, each before those below it. -/
def preorder : Tree α → List α := fold fun a below => a :: below.flatten

@[simp] theorem preorder_node (a : α) (ts : List (Tree α)) :
    (node a ts).preorder = a :: (ts.map preorder).flatten := by
  simp [preorder]

theorem preorder_eq_cons (a : α) (ts : List (Tree α)) :
    (node a ts).preorder = a :: ts.flatMap preorder := by
  rw [preorder_node, List.flatMap_def]

def size : Tree α → Nat := fold fun _ below => 1 + below.foldr (· + ·) 0

@[simp] theorem size_node (a : α) (ts : List (Tree α)) :
    (node a ts).size = 1 + (ts.map size).foldr (· + ·) 0 := by
  simp [size]

def map (f : α → β) : Tree α → Tree β := fold fun a below => .node (f a) below

@[simp] theorem map_node (f : α → β) (a : α) (ts : List (Tree α)) :
    (node a ts).map f = .node (f a) (ts.map (map f)) := by
  simp [map]

@[simp] theorem map_map {γ : Type w} (g : β → γ) (f : α → β) (t : Tree α) :
    (t.map f).map g = t.map fun a => g (f a) := by
  induction t with
  | node a ts ih =>
    simp only [map_node, List.map_map]
    congr 1
    exact List.map_congr_left ih

@[simp] theorem preorder_map (f : α → β) (t : Tree α) :
    (t.map f).preorder = t.preorder.map f := by
  induction t with
  | node a ts ih =>
    simp only [map_node, preorder_node, List.map_map, List.map_cons, List.map_flatten]
    congr 2
    exact List.map_congr_left ih

@[simp] theorem size_map (f : α → β) (t : Tree α) : (t.map f).size = t.size := by
  induction t with
  | node a ts ih =>
    simp only [map_node, size_node, List.map_map]
    congr 2
    exact List.map_congr_left ih

/-- The subtree reached by following child indices from the root. -/
def subtreeAt? (t : Tree α) : List Nat → Option (Tree α)
  | [] => some t
  | i :: path => t.children[i]?.bind (subtreeAt? · path)

/-- Replaces the subtree at a path, leaving a tree without that path as it is. -/
def replaceAt (t : Tree α) (new : Tree α) : List Nat → Tree α
  | [] => new
  | i :: path => .node t.value (t.children.modify i (replaceAt · new path))

/-- The values of all nodes in pre-order, each with its distance from the root. -/
def preorderWithDepth : Tree α → List (Nat × α) :=
  fold fun a below => (0, a) :: below.flatten.map fun (depth, b) => (depth + 1, b)

mutual

protected def decEq [DecidableEq α] : (s t : Tree α) → Decidable (s = t)
  | .node a ss, .node b ts =>
    match decEq a b, Tree.decEqEach ss ts with
    | isTrue h, isTrue h' => isTrue (by rw [h, h'])
    | isFalse h, _ => isFalse fun e => h (Tree.node.inj e).1
    | _, isFalse h => isFalse fun e => h (Tree.node.inj e).2

protected def decEqEach [DecidableEq α] : (ss ts : List (Tree α)) → Decidable (ss = ts)
  | [], [] => isTrue rfl
  | [], _ :: _ => isFalse nofun
  | _ :: _, [] => isFalse nofun
  | s :: ss, t :: ts =>
    match Tree.decEq s t, Tree.decEqEach ss ts with
    | isTrue h, isTrue h' => isTrue (by rw [h, h'])
    | isFalse h, _ => isFalse fun e => h (List.cons.inj e).1
    | _, isFalse h => isFalse fun e => h (List.cons.inj e).2

end

instance [DecidableEq α] : DecidableEq (Tree α) := Tree.decEq

end Tree

end TestScheduler
