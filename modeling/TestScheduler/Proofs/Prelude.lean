import Mathlib.Data.List.Forall2

/-! # Lists and computations that may fail -/

namespace TestScheduler

theorem bind_eq_ok_iff {ε α β : Type} {p : Except ε α} {k : α → Except ε β} {b : β} :
    p >>= k = .ok b ↔ ∃ a, p = .ok a ∧ k a = .ok b := by
  cases p with
  | error e => simp [bind, Except.bind]
  | ok a => simp [bind, Except.bind]

theorem bind_eq_error_iff {ε α β : Type} {p : Except ε α} {k : α → Except ε β} {e : ε} :
    p >>= k = .error e ↔ p = .error e ∨ ∃ a, p = .ok a ∧ k a = .error e := by
  cases p with
  | error e => simp [bind, Except.bind]
  | ok a => simp [bind, Except.bind]

theorem of_toOption_any {ε α : Type} {p : Except ε α} {q : α → Bool} {a : α}
    (h : p.toOption.any q = true) (ok : p = .ok a) : q a = true := by
  rwa [ok] at h

theorem exists_eq_ok_of_toOption_any {ε α : Type} {p : Except ε α} {q : α → Bool}
    (h : p.toOption.any q = true) : ∃ a, p = .ok a ∧ q a = true := by
  cases p with
  | error e => cases h
  | ok a => exact ⟨a, rfl, h⟩

theorem bind_eq_some_of {α β : Type} {p : Option α} {k : α → Option β} {a : α} {b : β}
    (first : p = some a) (rest : k a = some b) : p >>= k = some b := by
  rw [first]
  exact rest

section Lists

variable {α β : Type} {P : α → Prop} {as bs : List α}

theorem forall_mem_getLast?_append (h : ∀ a ∈ as.getLast?, P a) (h' : ∀ b ∈ bs.getLast?, P b) :
    ∀ a ∈ (as ++ bs).getLast?, P a := by
  intro a ha
  rw [List.getLast?_append] at ha
  rcases Option.or_eq_some_iff.mp ha with ha | ⟨-, ha⟩
  · exact h' a ha
  · exact h a ha

theorem intercalate_cons (separator l : List α) (ls : List (List α)) :
    separator.intercalate (l :: ls) = l ++ ls.flatMap (separator ++ ·) := by
  induction ls generalizing l with
  | nil => simp
  | cons m ls ih =>
    rw [List.intercalate_cons_cons, ih, List.flatMap_cons]
    simp only [List.append_assoc]

theorem intercalate_concat {separator l : List α} {ls : List (List α)} (nonempty : ls ≠ []) :
    separator.intercalate (ls ++ [l]) = separator.intercalate ls ++ separator ++ l := by
  obtain ⟨first, rest, rfl⟩ := List.exists_cons_of_ne_nil nonempty
  rw [List.cons_append, intercalate_cons, intercalate_cons]
  simp

theorem takeWhile_of_head? {γ : Type u} {p : γ → Bool} {cs : List γ}
    (h : ∀ c ∈ cs.head?, p c = false) : cs.takeWhile p = [] := by
  cases cs with
  | nil => rfl
  | cons c cs => exact List.takeWhile_cons_of_neg (Bool.eq_false_iff.mp (h c rfl))

theorem dropWhile_of_head? {γ : Type u} {p : γ → Bool} {cs : List γ}
    (h : ∀ c ∈ cs.head?, p c = false) : cs.dropWhile p = cs := by
  cases cs with
  | nil => rfl
  | cons c cs => exact List.dropWhile_cons_of_neg (Bool.eq_false_iff.mp (h c rfl))

theorem lookup_cons_eq_ite [DecidableEq α] {key k : α} {value : β} {entries : List (α × β)} :
    ((key, value) :: entries).lookup k = if k = key then some value else entries.lookup k := by
  by_cases same : k = key
  · simp [same]
  · simp [List.lookup_cons, beq_false_of_ne same, same]

theorem lookup_map_snd {γ : Type} [DecidableEq α] {entries : List (α × β)} {key : α} (f : β → γ) :
    (entries.map fun e => (e.1, f e.2)).lookup key = (entries.lookup key).map f := by
  induction entries with
  | nil => rfl
  | cons e entries ih =>
    rw [List.map_cons, lookup_cons_eq_ite, lookup_cons_eq_ite, ih]
    split <;> rfl

theorem mapM_eq_some_map {f : α → Option β} {g : α → β} (h : ∀ a ∈ as, f a = some (g a)) :
    as.mapM f = some (as.map g) := by
  induction as with
  | nil => rfl
  | cons a as ih =>
    obtain ⟨first, rest⟩ := List.forall_mem_cons.mp h
    rw [List.mapM_cons, first, ih rest]
    rfl

theorem flatMap_filter {p : α → Bool} {f g : α → List β}
    (kept : ∀ a ∈ as, p a = true → f a = g a) (dropped : ∀ a ∈ as, p a = false → g a = []) :
    (as.filter p).flatMap f = as.flatMap g := by
  induction as with
  | nil => rfl
  | cons a as ih =>
    have rest := ih (fun a ha => kept a (List.mem_cons_of_mem _ ha))
      fun a ha => dropped a (List.mem_cons_of_mem _ ha)
    cases h : p a with
    | false =>
      rw [List.filter_cons_of_neg (by simp [h]), List.flatMap_cons,
        dropped a List.mem_cons_self h, rest, List.nil_append]
    | true =>
      rw [List.filter_cons_of_pos h, List.flatMap_cons, List.flatMap_cons,
        kept a List.mem_cons_self h, rest]

theorem forall_right_of_forall₂ {R : α → β → Prop} {Q : β → Prop} {bs : List β}
    (h : List.Forall₂ R as bs) (step : ∀ a ∈ as, ∀ b, R a b → Q b) : ∀ b ∈ bs, Q b := by
  induction h with
  | nil => exact List.forall_mem_nil _
  | cons first _ ih =>
    obtain ⟨stepFirst, stepRest⟩ := List.forall_mem_cons.mp step
    exact List.forall_mem_cons.mpr ⟨stepFirst _ first, ih stepRest⟩

theorem forall₂_trans {R : α → β → Prop} {S : β → β → Prop} {T : α → β → Prop}
    {bs cs : List β} (h : List.Forall₂ R as bs) (h' : List.Forall₂ S bs cs)
    (step : ∀ a ∈ as, ∀ b c, R a b → S b c → T a c) : List.Forall₂ T as cs := by
  induction h generalizing cs with
  | nil =>
    cases h'
    exact .nil
  | cons first _ ih =>
    cases h' with
    | cons first' rest' =>
      obtain ⟨stepFirst, stepRest⟩ := List.forall_mem_cons.mp step
      exact .cons (stepFirst _ _ first first') (ih rest' stepRest)

theorem forall₂_iff_forall_right {R S : α → β → Prop} {Q : β → Prop} {bs : List β}
    (h : List.Forall₂ R as bs) (same : ∀ a b, R a b → (S a b ↔ Q b)) :
    List.Forall₂ S as bs ↔ ∀ b ∈ bs, Q b := by
  induction h with
  | nil => simp
  | cons first _ ih => rw [List.forall₂_cons, List.forall_mem_cons, same _ _ first, ih]

theorem map_eq_map_of_forall₂ {γ : Type} {R : α → β → Prop} {f : α → γ} {g : β → γ} {bs : List β}
    (h : List.Forall₂ R as bs) (step : ∀ a ∈ as, ∀ b, R a b → f a = g b) :
    as.map f = bs.map g := by
  induction h with
  | nil => rfl
  | cons first _ ih =>
    obtain ⟨stepFirst, stepRest⟩ := List.forall_mem_cons.mp step
    rw [List.map_cons, List.map_cons, stepFirst _ first, ih stepRest]

theorem exists_mem_iff_of_forall₂ {R : α → β → Prop} {Q : β → Prop} {bs : List β}
    (h : List.Forall₂ R as bs) (step : ∀ a ∈ as, ∀ b, R a b → (P a ↔ Q b)) :
    (∃ a ∈ as, P a) ↔ ∃ b ∈ bs, Q b := by
  induction h with
  | nil => simp
  | cons first _ ih =>
    obtain ⟨stepFirst, stepRest⟩ := List.forall_mem_cons.mp step
    rw [List.exists_mem_cons_iff, List.exists_mem_cons_iff, stepFirst _ first, ih stepRest]

theorem exists_getElem?_of_forall₂ {R : α → β → Prop} {bs : List β} {i : Nat} {a : α}
    (h : List.Forall₂ R as bs) (ha : as[i]? = some a) : ∃ b, bs[i]? = some b ∧ R a b := by
  induction h generalizing i with
  | nil => simp at ha
  | cons first _ ih =>
    cases i with
    | zero => exact ⟨_, rfl, Option.some.inj ha ▸ first⟩
    | succ i => exact ih ha

theorem eq_of_count_map_eq_one [DecidableEq β] {f : α → β} {b : β} {a a' : α}
    (once : (as.map f).count b = 1) (ha : a ∈ as) (ha' : a' ∈ as) (h : f a = b) (h' : f a' = b) :
    a = a' := by
  rw [List.count, List.countP_map, List.countP_eq_length_filter, List.length_eq_one_iff] at once
  obtain ⟨x, only⟩ := once
  have eq_x (a : α) (ha : a ∈ as) (h : f a = b) : a = x := by
    have found : a ∈ as.filter ((· == b) ∘ f) := List.mem_filter.mpr ⟨ha, by simp [h]⟩
    rw [only] at found
    exact List.mem_singleton.mp found
  rw [eq_x a ha h, eq_x a' ha' h']

end Lists

end TestScheduler
