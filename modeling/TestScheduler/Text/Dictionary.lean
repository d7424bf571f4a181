/-! # Dictionaries

A dictionary has a value for each of some texts. Its entries stand in ascending order of their
keys, so two dictionaries with the same values are equal.
-/

namespace TestScheduler

structure Dictionary (α : Type u) where
  entries : List (String × α) := []
  ascending : entries.Pairwise (fun a b => a.1 < b.1) := by simp

namespace Dictionary

variable {α : Type u}

/-- Puts an entry in its place, replacing one with the same key. -/
def place (key : String) (value : α) : List (String × α) → List (String × α)
  | [] => [(key, value)]
  | (k, v) :: rest =>
    if key < k then (key, value) :: (k, v) :: rest
    else if k < key then (k, v) :: place key value rest
    else (key, value) :: rest

theorem mem_place {key : String} {value : α} {entry : String × α} :
    ∀ {entries : List (String × α)}, entry ∈ place key value entries →
      entry = (key, value) ∨ entry ∈ entries
  | [], h => by simpa [place] using h
  | (k, v) :: rest, h => by
    simp only [place] at h
    split at h
    · simpa using h
    · split at h
      · rcases List.mem_cons.1 h with h | h
        · simp [h]
        · rcases mem_place h with h | h <;> simp [h]
      · rcases List.mem_cons.1 h with h | h <;> simp [h]

theorem ascending_place (key : String) (value : α) :
    ∀ {entries : List (String × α)}, entries.Pairwise (fun a b => a.1 < b.1) →
      (place key value entries).Pairwise (fun a b => a.1 < b.1)
  | [], _ => by simp [place]
  | (k, v) :: rest, h => by
    obtain ⟨first, others⟩ := List.pairwise_cons.1 h
    simp only [place]
    split
    · next lt =>
      refine List.pairwise_cons.2 ⟨fun e he => ?_, List.pairwise_cons.2 ⟨first, others⟩⟩
      rcases List.mem_cons.1 he with rfl | he
      · exact lt
      · exact String.lt_trans lt (first e he)
    · split
      · next gt =>
        refine List.pairwise_cons.2 ⟨fun e he => ?_, ascending_place key value others⟩
        rcases mem_place he with rfl | he
        · exact gt
        · exact first e he
      · next nlt ngt =>
        obtain rfl : key = k :=
          String.le_antisymm (String.not_lt.1 ngt) (String.not_lt.1 nlt)
        exact List.pairwise_cons.2 ⟨first, others⟩

def insert (d : Dictionary α) (key : String) (value : α) : Dictionary α :=
  ⟨place key value d.entries, ascending_place key value d.ascending⟩

def get? (d : Dictionary α) (key : String) : Option α := d.entries.lookup key

def contains (d : Dictionary α) (key : String) : Bool := (d.get? key).isSome

def isEmpty (d : Dictionary α) : Bool := d.entries.isEmpty

def size (d : Dictionary α) : Nat := d.entries.length

/-- The dictionary of some entries, of which later ones replace earlier ones. -/
def ofList (entries : List (String × α)) : Dictionary α :=
  entries.foldl (fun d (key, value) => d.insert key value) {}

@[ext] theorem ext {d e : Dictionary α} (h : d.entries = e.entries) : d = e := by
  cases d; cases e; cases h; rfl

instance [DecidableEq α] : DecidableEq (Dictionary α) := fun d e =>
  decidable_of_iff (d.entries = e.entries) ⟨ext, fun h => h ▸ rfl⟩

end Dictionary

end TestScheduler
