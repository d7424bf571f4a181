import TestScheduler.Filter.Field
import TestScheduler.Filter.Matcher

/-! # Filters

A filter is a Boolean expression over the nodes of a test tree. `Filter.accepts` is its verdict on
a node alone. `Filter.keeps` also lets a node stay when a node above or below it is accepted, so
the way to a selected test is kept.
-/

namespace TestScheduler

variable {Expression : Type} [Pattern.Dialect Expression]

inductive Filter where
  | empty
  | predicate (field : Field) (matcher : Matcher)
  | and (terms : List Filter)
  | or (terms : List Filter)
  /-- A negation; one at the top of a run never accepts an explicit node. -/
  | not (term : Filter) (atTop : Bool)

namespace Filter

instance : Inhabited Filter := ⟨empty⟩

def literal (field : Field) (value : String) : Filter := .predicate field (.literal value)

/-- Marks a negation as the top of a run's filter, and leaves other filters as they are. -/
def markTop : Filter → Filter
  | not term _ => not term true
  | f => f

/-- Clears the mark that `markTop` sets. -/
def clearTop : Filter → Filter
  | not term _ => not term false
  | f => f

def isEmpty : Filter → Bool
  | empty => true
  | _ => false

/-- Whether a node has a text in the field that the matcher accepts. -/
def fieldAccepts (field : Field) (matcher : Matcher) (n : Node) : Bool :=
  (field.texts n).any matcher.accepts

/-- The verdict of a negation on a node, given whether its term keeps the node. -/
def negated (atTop : Bool) (kept : Bool) (n : Node) : Bool :=
  !(atTop && n.runnability = .explicit) && !kept

mutual

/-- The verdict on a node alone. -/
def accepts : Filter → Location Node → Bool
  | empty, _ => true
  | predicate field matcher, l => fieldAccepts field matcher l.value
  | and terms, l => acceptsAll terms l
  | or terms, l => acceptsAny terms l
  | not term atTop, l => negated atTop (keeps term l) l.value

def acceptsAll : List Filter → Location Node → Bool
  | [], _ => true
  | f :: fs, l => accepts f l && acceptsAll fs l

def acceptsAny : List Filter → Location Node → Bool
  | [], _ => false
  | f :: fs, l => accepts f l || acceptsAny fs l

/-- Whether a node stays in view: a predicate or a negation keeps the kin of what it accepts. -/
def keeps : Filter → Location Node → Bool
  | empty, _ => true
  | predicate field matcher, l => l.kin.any fun k => fieldAccepts field matcher k.value
  | and terms, l => keepsAll terms l
  | or terms, l => keepsAny terms l
  | not term atTop, l => l.kin.any fun k => negated atTop (keeps term k) k.value

def keepsAll : List Filter → Location Node → Bool
  | [], _ => true
  | f :: fs, l => keeps f l && keepsAll fs l

def keepsAny : List Filter → Location Node → Bool
  | [], _ => false
  | f :: fs, l => keeps f l || keepsAny fs l

end

theorem acceptsAll_eq (fs : List Filter) (l : Location Node) :
    acceptsAll fs l = fs.all (·.accepts l) := by
  induction fs with
  | nil => rfl
  | cons f fs ih => simp [acceptsAll, ih]

theorem acceptsAny_eq (fs : List Filter) (l : Location Node) :
    acceptsAny fs l = fs.any (·.accepts l) := by
  induction fs with
  | nil => rfl
  | cons f fs ih => simp [acceptsAny, ih]

theorem keepsAll_eq (fs : List Filter) (l : Location Node) :
    keepsAll fs l = fs.all (·.keeps l) := by
  induction fs with
  | nil => rfl
  | cons f fs ih => simp [keepsAll, ih]

theorem keepsAny_eq (fs : List Filter) (l : Location Node) :
    keepsAny fs l = fs.any (·.keeps l) := by
  induction fs with
  | nil => rfl
  | cons f fs ih => simp [keepsAny, ih]

/-- Induction with one hypothesis for all terms of a conjunction or disjunction. -/
@[elab_as_elim, induction_eliminator]
theorem induction {motive : Filter → Prop} (empty : motive .empty)
    (predicate : ∀ field matcher, motive (.predicate field matcher))
    (and : ∀ fs, (∀ f ∈ fs, motive f) → motive (.and fs))
    (or : ∀ fs, (∀ f ∈ fs, motive f) → motive (.or fs))
    (not : ∀ f atTop, motive f → motive (.not f atTop)) (f : Filter) : motive f :=
  Filter.rec (motive_2 := fun fs => ∀ f ∈ fs, motive f) empty predicate and or not
    (fun _ h => nomatch h)
    (fun _ _ head tail _ h => by
      rcases List.mem_cons.1 h with rfl | h
      · exact head
      · exact tail _ h)
    f

/-- Whether the filter accepts an explicit node itself, so that it may run. -/
def requests (f : Filter) (l : Location Node) : Bool :=
  !f.isEmpty && l.value.runnability = .explicit && f.accepts l

mutual

/-- The test cases of a subtree that the filter keeps, given the trees above it. -/
def selectFrom (f : Filter) (above : List TestTree) : TestTree → List (Location Node)
  | .node n ts =>
    let l : Location Node := ⟨.node n ts, above⟩
    if !f.keeps l then []
    else if n.isSuite then selectEach f (.node n ts :: above) ts
    else [l]

def selectEach (f : Filter) (above : List TestTree) : List TestTree → List (Location Node)
  | [] => []
  | t :: ts => selectFrom f above t ++ selectEach f above ts

end

/-- The test cases of a tree that the filter selects, in pre-order. -/
def select (f : Filter) (t : TestTree) : List (Location Node) := selectFrom f [] t

mutual

protected def decEq : (f g : Filter) → Decidable (f = g)
  | empty, empty => isTrue rfl
  | predicate a m, predicate b n =>
    if h : a = b ∧ m = n then isTrue (by rw [h.1, h.2])
    else isFalse fun e => h ⟨(predicate.inj e).1, (predicate.inj e).2⟩
  | and fs, and gs =>
    match Filter.decEqList fs gs with
    | isTrue h => isTrue (by rw [h])
    | isFalse h => isFalse fun e => h (and.inj e)
  | or fs, or gs =>
    match Filter.decEqList fs gs with
    | isTrue h => isTrue (by rw [h])
    | isFalse h => isFalse fun e => h (or.inj e)
  | not f a, not g b =>
    match Filter.decEq f g with
    | isFalse h => isFalse fun e => h (not.inj e).1
    | isTrue h =>
      if h' : a = b then isTrue (by rw [h, h']) else isFalse fun e => h' (not.inj e).2
  | empty, predicate .. => isFalse nofun
  | empty, and _ => isFalse nofun
  | empty, or _ => isFalse nofun
  | empty, not .. => isFalse nofun
  | predicate .., empty => isFalse nofun
  | predicate .., and _ => isFalse nofun
  | predicate .., or _ => isFalse nofun
  | predicate .., not .. => isFalse nofun
  | and _, empty => isFalse nofun
  | and _, predicate .. => isFalse nofun
  | and _, or _ => isFalse nofun
  | and _, not .. => isFalse nofun
  | or _, empty => isFalse nofun
  | or _, predicate .. => isFalse nofun
  | or _, and _ => isFalse nofun
  | or _, not .. => isFalse nofun
  | not .., empty => isFalse nofun
  | not .., predicate .. => isFalse nofun
  | not .., and _ => isFalse nofun
  | not .., or _ => isFalse nofun

protected def decEqList : (fs gs : List Filter) → Decidable (fs = gs)
  | [], [] => isTrue rfl
  | [], _ :: _ => isFalse nofun
  | _ :: _, [] => isFalse nofun
  | f :: fs, g :: gs =>
    match Filter.decEq f g, Filter.decEqList fs gs with
    | isTrue h, isTrue h' => isTrue (by rw [h, h'])
    | isFalse h, _ => isFalse fun e => h (List.cons.inj e).1
    | _, isFalse h => isFalse fun e => h (List.cons.inj e).2

end

instance : DecidableEq Filter := Filter.decEq

end Filter

end TestScheduler
