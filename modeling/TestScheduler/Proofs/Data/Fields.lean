import Mathlib.Data.List.Nodup
import TestScheduler.Data.Datum
import TestScheduler.Proofs.Prelude

/-! # Reading what was written

A record is written with the members that are there, under different names that its reader knows. So
each field is read as it was written, and one that was left out is read as absent.
-/

namespace TestScheduler

namespace Json

/-- The members that are there, of those that an object may have. -/
def present (slots : List (String × Option Json)) : List (String × Json) :=
  slots.flatMap fun (name, value) => memberOf name value id

variable {slots : List (String × Option Json)} {name : String} {value : Option Json}

theorem memberOf_map {α : Type} (value : Option α) (f : α → Json) :
    memberOf name (value.map f) id = memberOf name value f := by
  cases value <;> rfl

theorem memberOf_ite (condition : Bool) (j : Json) :
    memberOf name (if condition then some j else none) id = memberIf condition name j := by
  cases condition <;> rfl

theorem map_fst_present_sublist (slots : List (String × Option Json)) :
    ((present slots).map Prod.fst).Sublist (slots.map Prod.fst) := by
  induction slots with
  | nil => exact List.Sublist.refl _
  | cons slot slots ih =>
    obtain ⟨first, value⟩ := slot
    cases value with
    | none => exact ih.cons _
    | some j => exact ih.cons_cons _

theorem lookup_present (distinct : (slots.map Prod.fst).Nodup) (mem : (name, value) ∈ slots) :
    (present slots).lookup name = value := by
  induction slots with
  | nil => cases mem
  | cons slot slots ih =>
    obtain ⟨first, written⟩ := slot
    obtain ⟨new, distinct⟩ := List.nodup_cons.mp distinct
    have head : (memberOf first written id).lookup name =
        if name = first then written else none := by
      cases written <;> simp [memberOf, lookup_cons_eq_ite]
    rw [present, List.flatMap_cons, List.lookup_append, head]
    rcases List.mem_cons.mp mem with same | later
    · cases same
      have rest : (present slots).lookup name = none := by
        rw [List.lookup_eq_none_iff]
        intro e he
        refine bne_iff_ne.mpr fun same => new ?_
        rw [same]
        exact (map_fst_present_sublist slots).subset (List.mem_map_of_mem (f := Prod.fst) he)
      rw [if_pos rfl]
      exact (congrArg (value.or ·) rest).trans Option.or_none
    · have other : name ≠ first := by
        rintro rfl
        exact new (List.mem_map.mpr ⟨_, later, rfl⟩)
      rw [if_neg other]
      exact ih distinct later

end Json

namespace Datum

theorem ofJsonEach_eq_map (js : List Json) : ofJsonEach js = js.map ofJson := by
  induction js with
  | nil => rfl
  | cons j js ih => rw [ofJsonEach, ih, List.map_cons]

theorem ofJsonMembers_eq_map (members : List (String × Json)) :
    ofJsonMembers members = members.map fun (name, j) => (ofText name, ofJson j) := by
  induction members with
  | nil => rfl
  | cons member members ih =>
    obtain ⟨name, j⟩ := member
    rw [ofJsonMembers, ih, List.map_cons]

theorem list?_ofJson {α : Type} {write : α → Json} {read : Datum → Option α} {as : List α}
    (recovers : ∀ a ∈ as, read (ofJson (write a)) = some a) :
    (ofJson (.array (as.map write))).list? read = some as := by
  rw [ofJson, ofJsonEach_eq_map, list?]
  simp only [items?, Option.bind_eq_bind, Option.bind_some, List.mapM_map]
  exact (mapM_eq_some_map (g := id) recovers).trans (congrArg some (List.map_id as))

theorem mapM_parts? {α : Type} {read : Datum → Option α} {items : List Datum} {as : List α}
    (givesFields : Bool) (h : items.mapM read = some as) :
    ∃ parts, (list items givesFields).parts? = some parts ∧
      parts.mapM (fun part => read part.1) = some as := by
  refine ⟨_, rfl, ?_⟩
  have attached : items.attach.mapM (read ∘ Subtype.val) = some as := by
    rw [← List.mapM_map, List.attach_map_subtype_val, h]
  rw [List.mapM_map]
  exact attached

theorem word64?_ofJson (n : UInt64) : (ofJson (.integer n.toNat)).word64? = some n := by
  have small : n.toNat < UInt64.size := n.toNat_lt
  simp [ofJson, word64?, natural?, small]

theorem word32?_ofJson (n : UInt32) : (ofJson (.integer n.toNat)).word32? = some n := by
  have small : n.toNat < UInt32.size := n.toNat_lt
  simp [ofJson, word32?, natural?, small]

end Datum

namespace Fields

/-! ## Fields of a record -/

section

variable {entries : List (Datum × Datum)} {members : List (String × Datum)} {names : List String}

theorem exists_named (h : entries = members.map fun e => (Datum.ofText e.1, e.2)) :
    ∃ named : List (String × (Datum.record entries).Part),
      (entries.attach.mapM fun ⟨entry, h⟩ => do
        some (← entry.1.text?, (⟨entry.2, Datum.sizeOf_entry h⟩ : Datum.Part (.record entries)))) =
          some named ∧ named.map (fun e => (e.1, e.2.1)) = members := by
  have texts : ∀ e ∈ entries, e.1.text? = some (e.1.text?.getD "") := by
    rw [h, List.forall_mem_map]
    exact fun _ _ => rfl
  have pairs : entries.map (fun e => (e.1.text?.getD "", e.2)) = members := by
    rw [h, List.map_map]
    exact List.map_id _
  refine ⟨entries.attach.map fun e => (e.1.1.text?.getD "", ⟨e.1.2, Datum.sizeOf_entry e.2⟩),
    mapM_eq_some_map fun e _ => ?_, ?_⟩
  · simp only [Option.bind_eq_bind]
    rw [texts e.1 e.2]
    rfl
  · rw [← pairs, List.map_map]
    exact List.attach_map_val (l := entries) (f := fun e => (e.1.text?.getD "", e.2))

theorem exists_ofDatum? (h : entries = members.map fun e => (Datum.ofText e.1, e.2))
    (distinct : (members.map Prod.fst).Nodup) (known : ∀ name ∈ members.map Prod.fst, name ∈ names)
    (isStrict : Bool) :
    ∃ f, ofDatum? names isStrict (.record entries) = some f ∧
      ∀ name, f.get? name = members.lookup name := by
  obtain ⟨named, reads, values⟩ := exists_named h
  have keys : named.map Prod.fst = members.map Prod.fst := by
    rw [← values, List.map_map]
    rfl
  rw [← keys] at distinct known
  have all : named.filter (fun e => names.contains e.1) = named := by
    rw [List.filter_eq_self]
    intro e he
    simpa using known e.1 (List.mem_map_of_mem he)
  have once : (names.all fun name => (named.filter (·.1 = name)).length ≤ 1) = true := by
    rw [List.all_eq_true]
    intro name _
    have count := List.nodup_iff_count_le_one.mp distinct name
    rw [List.count, List.countP_map, List.countP_eq_length_filter] at count
    exact decide_eq_true count
  refine ⟨⟨named, false⟩, ?_, fun name => ?_⟩
  · rw [ofDatum?]
    refine bind_eq_some_of reads ?_
    have strict : (!isStrict || named.length = named.length) = true := by simp
    rw [all]
    exact bind_eq_some_of (if_pos strict) (bind_eq_some_of (if_pos once) rfl)
  · rw [get?, part?, ← lookup_map_snd, values]

end

/-- Whether fields were read from an object with all the members that are there. -/
def Holds {whole : Datum} (f : Fields whole) (slots : List (String × Option Json)) : Prop :=
  ∀ name value, (name, value) ∈ slots → f.get? name = value.map Datum.ofJson

theorem exists_holds (slots : List (String × Option Json)) (names : List String)
    (distinct : (slots.map Prod.fst).Nodup) (known : ∀ name ∈ slots.map Prod.fst, name ∈ names)
    (isStrict : Bool) :
    ∃ f, ofDatum? names isStrict (Datum.ofJson (.object (Json.present slots))) = some f ∧
      f.Holds slots := by
  have kept := Json.map_fst_present_sublist slots
  let members := (Json.present slots).map fun m => (m.1, Datum.ofJson m.2)
  have names : members.map Prod.fst = (Json.present slots).map Prod.fst := by
    rw [List.map_map]
    rfl
  rw [Datum.ofJson, Datum.ofJsonMembers_eq_map]
  obtain ⟨f, reads, values⟩ := @exists_ofDatum? _ members _ List.map_map.symm
    (names ▸ distinct.sublist kept) (names ▸ fun name h => known name (kept.subset h)) isStrict
  refine ⟨f, reads, fun name value h => ?_⟩
  rw [values, lookup_map_snd, Json.lookup_present distinct h]

/-! ## Single fields -/

section

variable {whole : Datum} {f : Fields whole} {slots : List (String × Option Json)} {name : String}
  {α : Type} (write : α → Json) {read : Datum → Option α}

theorem required?_of_holds {a : α} (h : f.Holds slots) (slot : (name, some (write a)) ∈ slots)
    (recovers : read (Datum.ofJson (write a)) = some a) : f.required? name read = some a := by
  rw [required?, h name _ slot]
  exact recovers

theorem withDefault?_of_holds (isThere : Bool) {value absent : α} (h : f.Holds slots)
    (slot : (name, if isThere then some (write value) else none) ∈ slots)
    (recovers : read (Datum.ofJson (write value)) = some value)
    (left : isThere = false → value = absent) :
    f.withDefault? name absent read = some value := by
  rw [withDefault?, h name _ slot]
  cases isThere with
  | false => rw [left rfl]; rfl
  | true => exact recovers

theorem optional?_of_holds {value : Option α} (h : f.Holds slots)
    (slot : (name, value.map write) ∈ slots)
    (recovers : ∀ a, read (Datum.ofJson (write a)) = some a)
    (isThere : ∀ a, (Datum.ofJson (write a)).isNull = false) :
    f.optional? name read = some value := by
  rw [optional?, withDefault?, h name _ slot]
  cases value with
  | none => rfl
  | some a =>
    rw [Option.map_some, Option.map_some]
    simp only [Datum.optional?, isThere a, recovers a, Bool.false_eq_true, if_false,
      Option.map_some]

theorem optional?_text {value : Option String} (h : f.Holds slots)
    (slot : (name, value.map .text) ∈ slots) : f.optional? name Datum.text? = some value :=
  optional?_of_holds Json.text h slot (fun _ => rfl) fun _ => rfl

theorem optional?_variant {keyword : α → String} {ofKeyword? : String → Option α}
    {value : Option α} (h : f.Holds slots)
    (slot : (name, value.map fun a => .text (keyword a)) ∈ slots)
    (recovers : ∀ a, ofKeyword? (keyword a) = some a) :
    f.optional? name (Datum.variant? ofKeyword?) = some value :=
  optional?_of_holds (fun a => .text (keyword a)) h slot recovers fun _ => rfl

end

end Fields

end TestScheduler
