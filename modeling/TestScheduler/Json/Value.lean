/-! # JSON values

Objects keep their members in order, repeated names included. Whole numbers have a value; any
other number keeps its spelling, since nothing here calculates with it.
-/

namespace TestScheduler

inductive Json where
  | null
  | boolean (value : Bool)
  | integer (value : Int)
  | fraction (spelling : String)
  | text (value : String)
  | array (items : List Json)
  | object (members : List (String × Json))
  deriving Repr

namespace Json

instance : Inhabited Json := ⟨null⟩

instance : Coe String Json := ⟨text⟩

instance : Coe Bool Json := ⟨boolean⟩

instance : Coe Nat Json := ⟨fun n => integer n⟩

/-- An optional value, `null` if there is none. -/
def ofOption (f : α → Json) : Option α → Json
  | some a => f a
  | none => null

/-- A member that is there only under a condition. -/
def memberIf (condition : Bool) (name : String) (value : Json) : List (String × Json) :=
  if condition then [(name, value)] else []

/-- A member for an optional value. -/
def memberOf (name : String) (value : Option α) (f : α → Json) : List (String × Json) :=
  value.toList.map fun a => (name, f a)

/-- The last member with a name. -/
def member? (j : Json) (name : String) : Option Json :=
  match j with
  | object members => (members.reverse.find? (·.1 = name)).map (·.2)
  | _ => none

def text? : Json → Option String
  | text s => some s
  | _ => none

def boolean? : Json → Option Bool
  | boolean b => some b
  | _ => none

/-- A whole number from 0 to 2^64 - 1. -/
def natural? : Json → Option Nat
  | integer n => if 0 ≤ n ∧ n < UInt64.size then some n.toNat else none
  | _ => none

def array? : Json → Option (List Json)
  | array items => some items
  | _ => none

end Json

end TestScheduler
