import TestScheduler.Run.Context

/-! # Families of contexts

A context made anew has a stop flag of its own. The contexts made for children share the flag of
the one they come from.
-/

namespace TestScheduler

structure ContextFamily where
  /-- The contexts in order of their making, each with the number of its stop flag. -/
  members : List (Context × Nat) := []
  stopped : List Bool := []

namespace ContextFamily

def context? (f : ContextFamily) (i : Nat) : Option Context := f.members[i]?.map (·.1)

def isStopped (f : ContextFamily) (i : Nat) : Bool :=
  (f.members[i]?.bind fun (_, flag) => f.stopped[flag]?).getD false

/-- Adds a context with a flag of its own. -/
def addNew (f : ContextFamily) (c : Context) : ContextFamily :=
  ⟨f.members ++ [(c, f.stopped.length)], f.stopped ++ [false]⟩

/-- Adds the context of a node below that of a member. -/
def addChild (f : ContextFamily) (i : Nat) (n : Node) : ContextFamily :=
  match f.members[i]? with
  | some (c, flag) => { f with members := f.members ++ [(c.forChild n, flag)] }
  | none => f

def modify (f : ContextFamily) (i : Nat) (change : Context → Context) : ContextFamily :=
  { f with members := f.members.modify i fun (c, flag) => (change c, flag) }

/-- Stops a context and all that share its flag. -/
def stop (f : ContextFamily) (i : Nat) : ContextFamily :=
  match f.members[i]? with
  | some (_, flag) => { f with stopped := f.stopped.set flag true }
  | none => f

/-- Draws a random number from a context. -/
def draw (f : ContextFamily) (i : Nat) (generator : Generator := .mixing) :
    Option UInt64 × ContextFamily :=
  match f.context? i with
  | some c =>
    let (word, randomizer) := c.randomizer.next generator
    (some word, f.modify i fun c => { c with randomizer })
  | none => (none, f)

end ContextFamily

end TestScheduler
