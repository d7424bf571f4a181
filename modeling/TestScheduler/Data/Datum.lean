import TestScheduler.Json.Value

/-! # Data

A datum is the content of a data file apart from its format. A scalar tells what it may be taken
for, because in some formats one spelling fits several types.
-/

namespace TestScheduler

structure Scalar where
  text : Option String := none
  truth : Option Bool := none
  natural : Option Nat := none
  /-- Whether it stands for an optional value that is absent. -/
  isNull : Bool := false
  /-- Whether it also stands for an empty list or record. -/
  isEmpty : Bool := false
  deriving DecidableEq, Repr

inductive Datum where
  | scalar (value : Scalar)
  /-- A list. In some formats it may also give the fields of a record, in their order. -/
  | list (items : List Datum) (givesFields : Bool)
  | record (entries : List (Datum × Datum))
  /-- A value marked as a variant. -/
  | variant (name : String) (value : Datum)
  deriving Repr

namespace Datum

def ofText (s : String) : Datum := scalar { text := some s }

def null : Datum := scalar { isNull := true }

mutual

def ofJson : Json → Datum
  | .null => null
  | .boolean b => scalar { truth := some b }
  | .integer n => scalar { natural := if 0 ≤ n then some n.toNat else none }
  | .fraction _ => scalar {}
  | .text s => ofText s
  | .array items => list (ofJsonEach items) true
  | .object members => record (ofJsonMembers members)

def ofJsonEach : List Json → List Datum
  | [] => []
  | j :: js => ofJson j :: ofJsonEach js

def ofJsonMembers : List (String × Json) → List (Datum × Datum)
  | [] => []
  | (name, j) :: members => (ofText name, ofJson j) :: ofJsonMembers members

end

/-! ## Reading -/

def text? : Datum → Option String
  | scalar s => s.text
  | variant _ value => value.text?
  | _ => none

def truth? : Datum → Option Bool
  | scalar s => s.truth
  | _ => none

/-- A natural number below a bound. -/
def natural? (bound : Nat) : Datum → Option Nat
  | scalar s => s.natural.filter (· < bound)
  | _ => none

def word64? (d : Datum) : Option UInt64 := (d.natural? UInt64.size).map UInt64.ofNat

def word32? (d : Datum) : Option UInt32 := (d.natural? UInt32.size).map UInt32.ofNat

def isNull : Datum → Bool
  | scalar s => s.isNull
  | _ => false

/-- An optional value: nothing for null. -/
def optional? (read : Datum → Option α) (d : Datum) : Option (Option α) :=
  if d.isNull then some none else (read d).map some

/-- The items of a list. -/
def items? : Datum → Option (List Datum)
  | list items _ => some items
  | scalar s => if s.isEmpty then some [] else none
  | _ => none

def list? (read : Datum → Option α) (d : Datum) : Option (List α) := do
  (← d.items?).mapM read

/-- The entries of a record. -/
def entries? : Datum → Option (List (Datum × Datum))
  | record entries => some entries
  | scalar s => if s.isEmpty then some [] else none
  | _ => none

/-- Whether the datum is a null that cannot be taken for a text. -/
def isBareNull : Datum → Bool
  | scalar s => s.isNull && s.text.isNone
  | _ => false

/-- A word that names a variant without content: alone, as a mark on null, or as the one key of a
record that holds a bare null. -/
def word? : Datum → Option String
  | scalar s => s.text
  | variant name value => if value.isNull then some name else none
  | record [(key, value)] => if value.isBareNull then key.text? else none
  | _ => none

/-- A variant given by a word. -/
def variant? (ofWord : String → Option α) (d : Datum) : Option α := d.word?.bind ofWord

/-- A part of a datum is smaller than the whole. -/
abbrev Part (whole : Datum) := { d : Datum // sizeOf d < sizeOf whole }

theorem sizeOf_item {items : List Datum} {d : Datum} {givesFields : Bool} (h : d ∈ items) :
    sizeOf d < sizeOf (list items givesFields) := by
  have := List.sizeOf_lt_of_mem h
  simp only [list.sizeOf_spec]
  omega

theorem sizeOf_entry {entries : List (Datum × Datum)} {entry : Datum × Datum}
    (h : entry ∈ entries) : sizeOf entry.2 < sizeOf (record entries) := by
  have := List.sizeOf_lt_of_mem h
  obtain ⟨key, value⟩ := entry
  simp only [Prod.mk.sizeOf_spec, record.sizeOf_spec] at *
  omega

/-- The items of a list, as parts of it. -/
def parts? : (d : Datum) → Option (List d.Part)
  | list items _ => some (items.attach.map fun ⟨item, h⟩ => ⟨item, sizeOf_item h⟩)
  | scalar s => if s.isEmpty then some [] else none
  | _ => none

end Datum

/-! ## Fields -/

/-- The fields of a record, or of a list that gives them in their order. -/
structure Fields (whole : Datum) where
  values : List (String × whole.Part)
  isOrdered : Bool

namespace Fields

variable {whole : Datum}

/-- Names the items of a list in order. -/
def ofItems? : List String → List whole.Part → Option (Fields whole)
  | names, items =>
    if items.length ≤ names.length then some ⟨names.zip items, true⟩ else none

/-- The fields of a datum. No known name may occur twice, and a strict reader knows every name. -/
def ofDatum? (names : List String) (isStrict : Bool) : (d : Datum) → Option (Fields d)
  | .record entries => do
    let named ← entries.attach.mapM fun ⟨entry, h⟩ => do
      some (← entry.1.text?, (⟨entry.2, Datum.sizeOf_entry h⟩ : Datum.Part (.record entries)))
    let known := named.filter fun (name, _) => names.contains name
    guard (!isStrict || known.length = named.length)
    guard (names.all fun name => (known.filter (·.1 = name)).length ≤ 1)
    some ⟨known, false⟩
  | .list items true => do ofItems? names (← (Datum.list items true).parts?)
  | d => if d.entries?.isSome then some ⟨[], false⟩ else none

def part? (f : Fields whole) (name : String) : Option whole.Part := f.values.lookup name

def get? (f : Fields whole) (name : String) : Option Datum := (f.part? name).map (·.val)

def required? (f : Fields whole) (name : String) (read : Datum → Option α) : Option α := do
  read (← f.get? name)

/-- A field that may be left out. -/
def withDefault? (f : Fields whole) (name : String) (absent : α) (read : Datum → Option α) :
    Option α :=
  match f.get? name with
  | some d => read d
  | none => some absent

/-- An optional field that may be left out. -/
def optional? (f : Fields whole) (name : String) (read : Datum → Option α) :
    Option (Option α) :=
  f.withDefault? name none (Datum.optional? read)

/-- An optional field that may be left out of a record, but not of an ordered list. -/
def nullable? (f : Fields whole) (name : String) (read : Datum → Option α) :
    Option (Option α) :=
  match f.get? name with
  | some d => d.optional? read
  | none => if f.isOrdered then none else some none

end Fields

end TestScheduler
