/-! # Property lists

An ordered multi-map: keys stand in the order of their first use, and each keeps its values in
the order in which they were added.
-/

namespace TestScheduler

structure Properties where
  entries : List (String × List String) := []
  deriving DecidableEq, Repr

namespace Properties

/-- Changes the values of a key, which starts a new entry at the end if it has none. -/
def alter (change : List String → List String) (key : String) :
    List (String × List String) → List (String × List String)
  | [] => [(key, change [])]
  | (k, values) :: rest =>
    if k = key then (k, change values) :: rest else (k, values) :: alter change key rest

/-- Appends a value, keeping earlier ones. -/
def add (p : Properties) (key value : String) : Properties :=
  ⟨alter (· ++ [value]) key p.entries⟩

/-- Replaces all values of a key by one. -/
def set (p : Properties) (key value : String) : Properties :=
  ⟨alter (fun _ => [value]) key p.entries⟩

def getAll (p : Properties) (key : String) : List String := (p.entries.lookup key).getD []

/-- The first value of a key. -/
def get? (p : Properties) (key : String) : Option String := (p.getAll key).head?

def contains (p : Properties) (key : String) : Bool := p.entries.any (·.1 = key)

def keys (p : Properties) : List String := p.entries.map (·.1)

def isEmpty (p : Properties) : Bool := p.entries.isEmpty

end Properties

end TestScheduler
