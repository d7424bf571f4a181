import TestScheduler.Data.Datum
import TestScheduler.Yaml.Node

/-! # Types of YAML scalars

Every scalar can be taken for a text. A plain one can also be a null, a truth value or a number,
as its spelling allows; digits after a leading zero are not a number.
-/

namespace TestScheduler.Yaml

def isNullWord (s : String) : Bool := ["null", "Null", "NULL", "~"].contains s

def truth? (s : String) : Option Bool :=
  if ["true", "True", "TRUE"].contains s then some true
  else if ["false", "False", "FALSE"].contains s then some false
  else none

/-- The number that follows a radix mark. -/
def marked? : List Char → Option Nat
  | '0' :: 'x' :: rest => Text.number? 16 rest
  | '0' :: 'o' :: rest => Text.number? 8 rest
  | '0' :: 'b' :: rest => Text.number? 2 rest
  | _ => none

/-- Whether digits follow a leading zero, perhaps after a sign. -/
def isPaddedDigits (cs : List Char) : Bool :=
  let digits := match cs with
    | '-' :: rest => rest
    | '+' :: rest => rest
    | cs => cs
  1 < digits.length && digits.head? = some '0' && digits.all Char.isDigit

def unsigned? (cs : List Char) : Option Nat :=
  if isPaddedDigits cs then none else (marked? cs).or (Text.number? 10 cs)

/-- A natural number, perhaps with a sign; only zero may be negative. -/
def natural? (s : String) : Option Nat :=
  match s.toList with
  | '+' :: rest => unsigned? rest
  | '-' :: rest => (unsigned? rest).filter (· = 0)
  | cs => unsigned? cs

mutual

def Node.toDatum : Node → Datum
  | .scalar text isPlain tag =>
    let value : Scalar := {
      text := some text
      truth := if isPlain then truth? text else none
      natural := if isPlain then natural? text else none
      isNull := isPlain && (text = "" || isNullWord text)
      isEmpty := isPlain && text = "" }
    match tag with
    | none => .scalar value
    | some tag => .variant (String.ofList (tag.toList.drop 1)) (.scalar value)
  | .sequence items => .list (toDatumEach items) false
  | .mapping entries => .record (toDatumEntries entries)

def Node.toDatumEach : List Node → List Datum
  | [] => []
  | n :: ns => n.toDatum :: toDatumEach ns

def Node.toDatumEntries : List (Node × Node) → List (Datum × Datum)
  | [] => []
  | (key, value) :: entries => (key.toDatum, value.toDatum) :: toDatumEntries entries

end

mutual

/-- The number of collections around the innermost node. -/
def Node.depth : Node → Nat
  | .scalar _ _ _ => 0
  | .sequence items => depthOfItems items + 1
  | .mapping entries => depthOfEntries entries + 1

def Node.depthOfItems : List Node → Nat
  | [] => 0
  | n :: ns => max n.depth (depthOfItems ns)

def Node.depthOfEntries : List (Node × Node) → Nat
  | [] => 0
  | (key, value) :: entries => max (max key.depth value.depth) (depthOfEntries entries)

end

def nestingLimit : Nat := 128

/-- The datum of a text whose collections are not nested too deep. -/
def datum? (text : String) : Option Datum := do
  let n ← Node.ofText? text
  guard (n.depth ≤ nestingLimit)
  some n.toDatum

end TestScheduler.Yaml
