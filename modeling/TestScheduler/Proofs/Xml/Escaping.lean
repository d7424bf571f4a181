import TestScheduler.Xml.Entity

/-! # Escaped text

Unescaping undoes escaping, and escaped text has none of the characters that end text or attribute
values.
-/

namespace TestScheduler.Xml

/-- The characters that are only written as entities. -/
def special : List Char := ['<', '>', '&', '\'', '"']

theorem ne_of_isAlpha {c d : Char} (h : c.isAlpha = true) (hd : d.isAlpha = false) : c ≠ d := by
  rintro rfl
  exact Bool.noConfusion (h.symm.trans hd)

theorem isAlpha_of_special {c : Char} (h : c ∈ special) : c.isAlpha = false := by
  have letterless : special.all (!·.isAlpha) = true := by decide
  simpa using List.all_eq_true.mp letterless c h

theorem escapeChar_of_not_special {c : Char} (h : c ∉ special) : escapeChar c = [c] := by
  simp only [special, List.mem_cons, not_or] at h
  unfold escapeChar
  split <;> simp_all

theorem escapeChar_of_special {c : Char} (h : c ∈ special) :
    ∃ name, escapeChar c = '&' :: (name ++ [';']) ∧ (∀ d ∈ name, d.isAlpha = true) ∧
      entity? name = some c := by
  revert c
  simp only [special, List.forall_mem_cons]
  refine ⟨⟨['l', 't'], rfl, ?_, rfl⟩, ⟨['g', 't'], rfl, ?_, rfl⟩, ⟨['a', 'm', 'p'], rfl, ?_, rfl⟩,
    ⟨['a', 'p', 'o', 's'], rfl, ?_, rfl⟩, ⟨['q', 'u', 'o', 't'], rfl, ?_, rfl⟩,
    List.forall_mem_nil _⟩
  all_goals exact List.all_eq_true.mp rfl

theorem unescapeFrom_entity {before name cs : List Char} (hname : ∀ c ∈ name, c.isAlpha = true) :
    unescapeFrom (some before) (name ++ ';' :: cs) =
      (entity? (before.reverse ++ name)).bind fun e => (unescapeFrom none cs).map (e :: ·) := by
  induction name generalizing before with
  | nil =>
    rw [List.nil_append, List.append_nil, unescapeFrom]
    cases entity? before.reverse with
    | none => rfl
    | some e => cases unescapeFrom none cs <;> rfl
  | cons c name ih =>
    rw [List.forall_mem_cons] at hname
    have hamp : c ≠ '&' := ne_of_isAlpha hname.1 (by decide)
    have hsemicolon : c ≠ ';' := ne_of_isAlpha hname.1 (by decide)
    rw [List.cons_append, unescapeFrom, if_neg hamp, if_neg hsemicolon, ih hname.2]
    simp

/-- What is written for a character is read back as the character. -/
theorem unescapeFrom_escapeChar (c : Char) (cs : List Char) :
    unescapeFrom none (escapeChar c ++ cs) = (unescapeFrom none cs).map (c :: ·) := by
  by_cases h : c ∈ special
  · obtain ⟨name, hc, hname, hentity⟩ := escapeChar_of_special h
    rw [hc, List.cons_append, List.append_assoc, unescapeFrom, if_pos rfl, List.singleton_append,
      unescapeFrom_entity hname, List.reverse_nil, List.nil_append, hentity, Option.bind_some]
  · have hamp : c ≠ '&' := by
      rintro rfl
      exact h (by decide)
    rw [escapeChar_of_not_special h, List.singleton_append, unescapeFrom, if_neg hamp]

theorem unescapeFrom_flatMap_escapeChar (cs : List Char) :
    unescapeFrom none (cs.flatMap escapeChar) = some cs := by
  induction cs with
  | nil => rfl
  | cons c cs ih => rw [List.flatMap_cons, unescapeFrom_escapeChar, ih, Option.map_some]

@[simp] theorem unescape?_escape (text : String) : unescape? (escape text) = some text := by
  unfold unescape? escape
  rw [String.toList_ofList, unescapeFrom_flatMap_escapeChar, Option.map_some, String.ofList_toList]

theorem not_mem_escape {c : Char} (h : c ∈ special) (hamp : c ≠ '&') (text : String) :
    c ∉ (escape text).toList := by
  unfold escape
  rw [String.toList_ofList, List.mem_flatMap]
  rintro ⟨d, -, hc⟩
  by_cases hd : d ∈ special
  · obtain ⟨name, hentity, hname, -⟩ := escapeChar_of_special hd
    rw [hentity, List.mem_cons, List.mem_append, List.mem_singleton] at hc
    rcases hc with hc | hc | rfl
    · exact hamp hc
    · exact absurd rfl (ne_of_isAlpha (hname c hc) (isAlpha_of_special h))
    · exact absurd h (by decide)
  · rw [escapeChar_of_not_special hd, List.mem_singleton] at hc
    exact hd (hc ▸ h)

end TestScheduler.Xml
