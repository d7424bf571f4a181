import TestScheduler.Proofs.Prelude
import TestScheduler.Proofs.Query.Grammar

/-! # Parsing queries

The readers accept what the grammar derives and nothing else. What each reader does is said once by
an equivalence between its success and that of the readers that it calls, so that the proofs in both
directions never open its code.
-/

namespace TestScheduler.Query

variable {Expression : Type} [Pattern.Dialect Expression]

/-- A reader gives a value and leaves tokens. -/
def Reads {α : Type} {P : List Token → Prop}
    (p : Except QueryError (α × {rest : List Token // P rest})) (a : α) (rest : List Token) :
    Prop :=
  ∃ h, p = .ok (a, ⟨rest, h⟩)

namespace Reads

variable {α β : Type} {P Q : List Token → Prop} {a b : α} {rest : List Token}

theorem left {p : Except QueryError (α × {rest : List Token // P rest})} (h : Reads p a rest) :
    P rest := h.1

theorem ok_iff {r : {rest : List Token // P rest}} :
    Reads (.ok (a, r)) b rest ↔ a = b ∧ r.val = rest := by
  constructor
  · rintro ⟨h, e⟩
    cases e
    exact ⟨rfl, rfl⟩
  · rintro ⟨rfl, rfl⟩
    exact ⟨r.property, rfl⟩

theorem not_error {e : QueryError} :
    ¬ Reads (.error e : Except QueryError (α × {rest : List Token // P rest})) a rest := by
  rintro ⟨_, h⟩
  cases h

theorem bind_iff {γ : Type} {p : Except QueryError γ}
    {k : γ → Except QueryError (α × {rest : List Token // P rest})} :
    Reads (p >>= k) a rest ↔ ∃ c, p = .ok c ∧ Reads (k c) a rest := by
  constructor
  · rintro ⟨h, hp⟩
    obtain ⟨c, hc, hk⟩ := bind_eq_ok_iff.mp hp
    exact ⟨c, hc, h, hk⟩
  · rintro ⟨c, hc, h, hk⟩
    exact ⟨h, bind_eq_ok_iff.mpr ⟨c, hc, hk⟩⟩

theorem then_iff {p : Except QueryError (α × {rest : List Token // P rest})}
    {k : α × {rest : List Token // P rest} → Except QueryError (β × {rest : List Token // Q rest})}
    {b : β} :
    Reads (p >>= k) b rest ↔ ∃ a mid h, Reads p a mid ∧ Reads (k (a, ⟨mid, h⟩)) b rest := by
  rw [bind_iff]
  constructor
  · rintro ⟨⟨a, mid, h⟩, hp, hk⟩
    exact ⟨a, mid, h, ⟨h, hp⟩, hk⟩
  · rintro ⟨a, mid, h, ⟨_, hp⟩, hk⟩
    exact ⟨_, hp, hk⟩

end Reads

/-! ## What each reader does -/

variable {ts rest : List Token} {f : Filter} {fs : List Filter} {op t : Token}

@[simp] theorem peek_cons (t : Token) (ts : List Token) : peek (t :: ts) = t := rfl

theorem expectOperand_eq_ok_iff {c : Unit} :
    expectOperand op ts = .ok c ↔ (peek ts).endsOperand = false := by
  unfold expectOperand
  split <;> simp_all

section Chain

variable {first : Except QueryError (Filter × Shorter ts)}
  {tail : (mid : List Token) → Except QueryError (List Filter × NoLonger mid)}
  {join : List Filter → Filter}

theorem Reads.joined_iff :
    Reads (P := fun rest => rest.length < ts.length) (do
      let (f, ⟨mid, hmid⟩) ← first
      let (fs, ⟨rest, hrest⟩) ← tail mid
      .ok (joined join f fs, ⟨rest, Nat.lt_of_le_of_lt hrest hmid⟩)) f rest ↔
    ∃ g gs mid, Reads first g mid ∧ Reads (tail mid) gs rest ∧ f = joined join g gs := by
  rw [Reads.then_iff]
  constructor
  · rintro ⟨g, mid, _, hg, h⟩
    obtain ⟨gs, _, _, hgs, h⟩ := Reads.then_iff.mp h
    obtain ⟨rfl, rfl⟩ := Reads.ok_iff.mp h
    exact ⟨g, gs, mid, hg, hgs, rfl⟩
  · rintro ⟨g, gs, mid, hg, hgs, rfl⟩
    refine ⟨g, mid, hg.left, hg, Reads.then_iff.mpr ⟨gs, rest, hgs.left, hgs, ?_⟩⟩
    exact Reads.ok_iff.mpr ⟨rfl, rfl⟩

theorem Reads.cons_iff :
    Reads (P := fun rest => rest.length ≤ (op :: ts).length) (do
      expectOperand op ts
      let (f, ⟨mid, _⟩) ← first
      let (fs, ⟨rest, _⟩) ← tail mid
      .ok (f :: fs, ⟨rest, by grind⟩)) fs rest ↔
    (peek ts).endsOperand = false ∧
      ∃ g gs mid, Reads first g mid ∧ Reads (tail mid) gs rest ∧ fs = g :: gs := by
  rw [Reads.bind_iff]
  constructor
  · rintro ⟨_, hop, h⟩
    obtain ⟨g, mid, _, hg, h⟩ := Reads.then_iff.mp h
    obtain ⟨gs, _, _, hgs, h⟩ := Reads.then_iff.mp h
    obtain ⟨rfl, rfl⟩ := Reads.ok_iff.mp h
    exact ⟨expectOperand_eq_ok_iff.mp hop, g, gs, mid, hg, hgs, rfl⟩
  · rintro ⟨hop, g, gs, mid, hg, hgs, rfl⟩
    refine ⟨(), expectOperand_eq_ok_iff.mpr hop, Reads.then_iff.mpr ⟨g, mid, hg.left, hg, ?_⟩⟩
    exact Reads.then_iff.mpr ⟨gs, rest, hgs.left, hgs, Reads.ok_iff.mpr ⟨rfl, rfl⟩⟩

end Chain

theorem reads_conjunction_iff : Reads (conjunction ts) f rest ↔
    ∃ g gs mid, Reads (operand ts) g mid ∧ Reads (conjunctionTail mid) gs rest ∧
      f = joined .and g gs := by
  rw [conjunction]
  exact Reads.joined_iff

theorem reads_disjunction_iff : Reads (disjunction ts) f rest ↔
    ∃ g gs mid, Reads (conjunction ts) g mid ∧ Reads (disjunctionTail mid) gs rest ∧
      f = joined .or g gs := by
  rw [disjunction]
  exact Reads.joined_iff

theorem reads_conjunctionTail_of_isAnd (h : op.isAnd = true) :
    Reads (conjunctionTail (op :: ts)) fs rest ↔ (peek ts).endsOperand = false ∧
      ∃ g gs mid, Reads (operand ts) g mid ∧ Reads (conjunctionTail mid) gs rest ∧
        fs = g :: gs := by
  rw [conjunctionTail, if_pos h]
  exact Reads.cons_iff

theorem reads_disjunctionTail_of_isOr (h : op.isOr = true) :
    Reads (disjunctionTail (op :: ts)) fs rest ↔ (peek ts).endsOperand = false ∧
      ∃ g gs mid, Reads (conjunction ts) g mid ∧ Reads (disjunctionTail mid) gs rest ∧
        fs = g :: gs := by
  rw [disjunctionTail, if_pos h]
  exact Reads.cons_iff

theorem reads_conjunctionTail_of_not_isAnd (h : (peek ts).isAnd = false) :
    Reads (conjunctionTail ts) fs rest ↔ fs = [] ∧ rest = ts := by
  cases ts with
  | nil => rw [conjunctionTail, Reads.ok_iff, @eq_comm _ fs, @eq_comm _ rest]
  | cons op ts =>
    rw [peek_cons] at h
    rw [conjunctionTail, if_neg (Bool.eq_false_iff.mp h), Reads.ok_iff, @eq_comm _ fs,
      @eq_comm _ rest]

theorem reads_disjunctionTail_of_not_isOr (h : (peek ts).isOr = false) :
    Reads (disjunctionTail ts) fs rest ↔ fs = [] ∧ rest = ts := by
  cases ts with
  | nil => rw [disjunctionTail, Reads.ok_iff, @eq_comm _ fs, @eq_comm _ rest]
  | cons op ts =>
    rw [peek_cons] at h
    rw [disjunctionTail, if_neg (Bool.eq_false_iff.mp h), Reads.ok_iff, @eq_comm _ fs,
      @eq_comm _ rest]

theorem reads_operand_of_bang (h : t.kind = .bang) : Reads (operand (t :: ts)) f rest ↔
    (peek ts).endsOperand = false ∧ ∃ g, Reads (operand ts) g rest ∧ f = .not g false := by
  rw [operand]
  simp only [h]
  rw [Reads.bind_iff]
  constructor
  · rintro ⟨_, hop, h⟩
    obtain ⟨g, mid, _, hg, h⟩ := Reads.then_iff.mp h
    obtain ⟨rfl, rfl⟩ := Reads.ok_iff.mp h
    exact ⟨expectOperand_eq_ok_iff.mp hop, g, hg, rfl⟩
  · rintro ⟨hop, g, hg, rfl⟩
    refine ⟨(), expectOperand_eq_ok_iff.mpr hop, Reads.then_iff.mpr ⟨g, rest, hg.left, hg, ?_⟩⟩
    exact Reads.ok_iff.mpr ⟨rfl, rfl⟩

theorem reads_operand_of_openParen (h : t.kind = .openParen) :
    Reads (operand (t :: ts)) f rest ↔ (peek ts).kind ≠ .endOfQuery ∧
      ∃ close, Reads (disjunction ts) f (close :: rest) ∧ close.kind = .closeParen := by
  rw [operand]
  simp only [h]
  split
  · next hend => simp [hend, Reads.not_error]
  · next hend =>
    rw [Reads.then_iff]
    constructor
    · rintro ⟨g, mid, _, hg, h⟩
      dsimp only at h
      split at h
      · exact (Reads.not_error h).elim
      · next close after hafter =>
        split at h
        · next hclose =>
          obtain ⟨rfl, rfl⟩ := Reads.ok_iff.mp h
          exact ⟨hend, close, hg, hclose⟩
        · exact (Reads.not_error h).elim
    · rintro ⟨-, close, hg, hclose⟩
      refine ⟨f, close :: rest, hg.left, hg, ?_⟩
      simp only [hclose, if_true]
      exact Reads.ok_iff.mpr ⟨rfl, rfl⟩

theorem reads_operand_of_word {word : String} (h : t.kind = .word word) :
    Reads (operand (t :: ts)) f rest ↔ Reads (comparisonAfter t ts) f rest := by
  rw [operand]
  simp only [h]
  rw [Reads.then_iff]
  constructor
  · rintro ⟨g, mid, _, hg, h⟩
    obtain ⟨rfl, rfl⟩ := Reads.ok_iff.mp h
    exact hg
  · intro hf
    exact ⟨f, rest, hf.left, hf, Reads.ok_iff.mpr ⟨rfl, rfl⟩⟩

theorem kind_of_reads_operand (h : Reads (operand (t :: ts)) f rest) :
    t.kind = .bang ∨ t.kind = .openParen ∨ ∃ word, t.kind = .word word := by
  rw [operand] at h
  cases hk : t.kind <;> simp_all [Reads.not_error]

theorem denotes_iff {field : Field} {comparison : Comparison} {text : String} :
    Denotes field text comparison f ↔ ∃ m,
      Matcher.ofValue? text (comparison = .found || comparison = .notFound) = some m ∧
        f = predicateFor field comparison m := by
  constructor
  · rintro (_ | _ | ⟨source⟩ | ⟨source⟩)
    · exact ⟨_, rfl, rfl⟩
    · exact ⟨_, rfl, rfl⟩
    · exact ⟨_, by simp [Matcher.ofValue?, ← source], rfl⟩
    · exact ⟨_, by simp [Matcher.ofValue?, ← source], rfl⟩
  · rintro ⟨m, hm, rfl⟩
    cases comparison with
    | equal => cases hm; exact .equal
    | notEqual => cases hm; exact .notEqual
    | found =>
      obtain ⟨p, hp, rfl⟩ := Option.map_eq_some_iff.mp hm
      exact .found (Pattern.ofSource?_eq_some_iff.mp hp)
    | notFound =>
      obtain ⟨p, hp, rfl⟩ := Option.map_eq_some_iff.mp hm
      exact .notFound (Pattern.ofSource?_eq_some_iff.mp hp)

theorem matcherFor_eq_ok_iff {comparison : Comparison} {text : String} {m : Matcher} :
    matcherFor comparison t text = .ok m ↔
      Matcher.ofValue? text (comparison = .found || comparison = .notFound) = some m := by
  unfold matcherFor
  split <;> simp_all

theorem Reads.predicate_iff {P : List Token → Prop} {field : Field} {comparison : Comparison}
    {text : String} {left : {rest : List Token // P rest}} :
    Reads (do
      let m ← matcherFor comparison t text
      .ok (predicateFor field comparison m, left)) f rest ↔
    Denotes field text comparison f ∧ left.val = rest := by
  rw [Reads.bind_iff, denotes_iff]
  constructor
  · rintro ⟨m, hm, h⟩
    obtain ⟨rfl, rfl⟩ := Reads.ok_iff.mp h
    exact ⟨⟨m, matcherFor_eq_ok_iff.mp hm, rfl⟩, rfl⟩
  · rintro ⟨⟨m, hm, rfl⟩, rfl⟩
    exact ⟨m, matcherFor_eq_ok_iff.mpr hm, Reads.ok_iff.mpr ⟨rfl, rfl⟩⟩

theorem reads_comparisonAfter_iff : Reads (comparisonAfter t ts) f rest ↔
    ∃ op value comparison text, ts = op :: value :: rest ∧ op.kind = .comparison comparison ∧
      value.kind.IsValue text ∧ Denotes (Field.ofWord t.text) text comparison f := by
  constructor
  · intro h
    unfold comparisonAfter at h
    split at h
    · next op value rest' =>
      split at h
      · next comparison hop =>
        dsimp only at h
        split at h
        · next text hvalue =>
          obtain ⟨denotes, rfl⟩ := Reads.predicate_iff.mp h
          exact ⟨op, value, comparison, text, rfl, hop, hvalue ▸ .word text, denotes⟩
        · next text hvalue =>
          obtain ⟨denotes, rfl⟩ := Reads.predicate_iff.mp h
          exact ⟨op, value, comparison, text, rfl, hop, hvalue ▸ .quoted text, denotes⟩
        · exact (Reads.not_error h).elim
      all_goals exact (Reads.not_error h).elim
    · split at h <;> exact (Reads.not_error h).elim
    · exact (Reads.not_error h).elim
  · rintro ⟨op, value, comparison, text, rfl, hop, hvalue, denotes⟩
    unfold comparisonAfter
    simp only [hop]
    generalize hkind : value.kind = kind at hvalue
    cases hvalue
    all_goals exact Reads.predicate_iff.mpr ⟨denotes, rfl⟩

/-! ## The readers and the grammar -/

def kinds (ts : List Token) : List Token.Kind := ts.map (·.kind)

@[simp] theorem kinds_nil : kinds [] = [] := rfl

@[simp] theorem kinds_cons (t : Token) (ts : List Token) : kinds (t :: ts) = t.kind :: kinds ts :=
  rfl

@[simp] theorem kinds_append (ts us : List Token) : kinds (ts ++ us) = kinds ts ++ kinds us :=
  List.map_append

/-- Whether the text of each word is the word. -/
def Faithful (ts : List Token) : Prop := ∀ t ∈ ts, ∀ word, t.kind = .word word → t.text = word

theorem Faithful.of_append {ts us : List Token} (h : Faithful (ts ++ us)) : Faithful us :=
  fun t ht => h t (List.mem_append_right _ ht)

theorem Faithful.before {ts us : List Token} (h : Faithful (ts ++ us)) : Faithful ts :=
  fun t ht => h t (List.mem_append_left _ ht)

theorem Faithful.of_cons {t : Token} {ts : List Token} (h : Faithful (t :: ts)) : Faithful ts :=
  fun u hu => h u (List.mem_cons_of_mem _ hu)

/-- The tokens that a reader consumed, those that it left, and what the grammar says of them. -/
def Consumes {α : Type} (derives : List Token.Kind → α → Prop) (ts : List Token) (a : α)
    (rest : List Token) : Prop :=
  ∃ used, ts = used ++ rest ∧ derives (kinds used) a

theorem endsOperand_eq_false_iff : t.endsOperand = false ↔
    t.kind ≠ .endOfQuery ∧ t.kind ≠ .closeParen ∧ ¬ t.kind.IsAnd ∧ ¬ t.kind.IsOr := by
  simp [Token.endsOperand, ← Token.isAnd_iff, ← Token.isOr_iff, and_assoc]

theorem mayFollow_of_endsOperand {used : List Token}
    (h : (peek (used ++ rest)).endsOperand = false) : MayFollow (kinds used) := by
  cases used with
  | nil => simp [MayFollow]
  | cons t used =>
    obtain ⟨-, -, hand, hor⟩ := endsOperand_eq_false_iff.mp h
    simp only [MayFollow, kinds_cons, List.head?_cons, Option.mem_some_iff, forall_eq']
    rintro (h | h)
    · exact hand (.inr h)
    · exact hor (.inr h)

mutual

theorem disjunction_sound {ts rest : List Token} {f : Filter} (faithful : Faithful ts)
    (h : Reads (disjunction ts) f rest) : Consumes IsDisjunction ts f rest := by
  obtain ⟨g, gs, mid, hg, hgs, rfl⟩ := reads_disjunction_iff.mp h
  obtain ⟨used, rfl, first⟩ := conjunction_sound faithful hg
  have := hg.left
  obtain ⟨used', rfl, more⟩ := disjunctionTail_sound faithful.of_append hgs
  refine ⟨used ++ used', (List.append_assoc ..).symm, ?_⟩
  rw [kinds_append]
  exact .joined first more
termination_by (ts.length, 3)

theorem disjunctionTail_sound {ts rest : List Token} {fs : List Filter} (faithful : Faithful ts)
    (h : Reads (disjunctionTail ts) fs rest) : Consumes AreAlternatives ts fs rest := by
  cases hop : (peek ts).isOr with
  | false =>
    obtain ⟨rfl, rfl⟩ := (reads_disjunctionTail_of_not_isOr hop).mp h
    exact ⟨[], rfl, .nil⟩
  | true =>
    match ts with
    | [] => cases hop
    | op :: ts =>
      obtain ⟨free, g, gs, mid, hg, hgs, rfl⟩ := (reads_disjunctionTail_of_isOr hop).mp h
      obtain ⟨used, rfl, term⟩ := conjunction_sound faithful.of_cons hg
      have := hg.left
      obtain ⟨used', rfl, more⟩ := disjunctionTail_sound faithful.of_cons.of_append hgs
      refine ⟨op :: (used ++ used'), by simp, ?_⟩
      rw [kinds_cons, kinds_append]
      exact .cons (Token.isOr_iff.mp hop) (mayFollow_of_endsOperand free) term more
termination_by (ts.length, 0)

theorem conjunction_sound {ts rest : List Token} {f : Filter} (faithful : Faithful ts)
    (h : Reads (conjunction ts) f rest) : Consumes IsConjunction ts f rest := by
  obtain ⟨g, gs, mid, hg, hgs, rfl⟩ := reads_conjunction_iff.mp h
  obtain ⟨used, rfl, first⟩ := operand_sound faithful hg
  have := hg.left
  obtain ⟨used', rfl, more⟩ := conjunctionTail_sound faithful.of_append hgs
  refine ⟨used ++ used', (List.append_assoc ..).symm, ?_⟩
  rw [kinds_append]
  exact .joined first more
termination_by (ts.length, 2)

theorem conjunctionTail_sound {ts rest : List Token} {fs : List Filter} (faithful : Faithful ts)
    (h : Reads (conjunctionTail ts) fs rest) : Consumes AreFactors ts fs rest := by
  cases hop : (peek ts).isAnd with
  | false =>
    obtain ⟨rfl, rfl⟩ := (reads_conjunctionTail_of_not_isAnd hop).mp h
    exact ⟨[], rfl, .nil⟩
  | true =>
    match ts with
    | [] => cases hop
    | op :: ts =>
      obtain ⟨free, g, gs, mid, hg, hgs, rfl⟩ := (reads_conjunctionTail_of_isAnd hop).mp h
      obtain ⟨used, rfl, term⟩ := operand_sound faithful.of_cons hg
      have := hg.left
      obtain ⟨used', rfl, more⟩ := conjunctionTail_sound faithful.of_cons.of_append hgs
      refine ⟨op :: (used ++ used'), by simp, ?_⟩
      rw [kinds_cons, kinds_append]
      exact .cons (Token.isAnd_iff.mp hop) (mayFollow_of_endsOperand free) term more
termination_by (ts.length, 0)

theorem operand_sound {ts rest : List Token} {f : Filter} (faithful : Faithful ts)
    (h : Reads (operand ts) f rest) : Consumes IsOperand ts f rest := by
  match ts with
  | [] => rw [operand] at h; exact (Reads.not_error h).elim
  | t :: ts =>
    rcases kind_of_reads_operand h with hk | hk | ⟨word, hk⟩
    · obtain ⟨free, g, hg, rfl⟩ := (reads_operand_of_bang hk).mp h
      obtain ⟨used, rfl, term⟩ := operand_sound faithful.of_cons hg
      refine ⟨t :: used, rfl, ?_⟩
      rw [kinds_cons, hk]
      exact .negation (mayFollow_of_endsOperand free) term
    · obtain ⟨-, close, hg, hclose⟩ := (reads_operand_of_openParen hk).mp h
      obtain ⟨used, rfl, inner⟩ := disjunction_sound faithful.of_cons hg
      refine ⟨t :: (used ++ [close]), by simp, ?_⟩
      rw [kinds_cons, kinds_append, kinds_cons, hk, hclose]
      exact .parentheses inner
    · obtain ⟨op, value, comparison, text, rfl, hop, hvalue, denotes⟩ :=
        reads_comparisonAfter_iff.mp ((reads_operand_of_word hk).mp h)
      refine ⟨[t, op, value], rfl, ?_⟩
      rw [faithful t List.mem_cons_self word hk] at denotes
      simp only [kinds_cons, kinds_nil, hk, hop]
      exact .predicate hvalue denotes
termination_by (ts.length, 1)

end

/-! ## What the grammar derives is read -/

theorem kind_peek_of_head? {k : Token.Kind} (h : k ∈ (kinds ts).head?) :
    (peek (ts ++ rest)).kind = k := by
  cases ts with
  | nil => cases h
  | cons t ts => simpa using h

theorem endsOperand_eq_false_of_begins {used : List Token} {ks : List Token.Kind}
    (hks : kinds used = ks) (free : MayFollow ks) (begins : ∃ k ∈ ks.head?, k.Begins) :
    (peek (used ++ rest)).endsOperand = false := by
  obtain ⟨k, hk, begins⟩ := begins
  subst hks
  have free := free k hk
  rw [endsOperand_eq_false_iff, kind_peek_of_head? hk]
  rcases begins with rfl | rfl | ⟨word, rfl⟩
  · refine ⟨by simp, by simp, ?_, ?_⟩ <;> rintro (h | ⟨_, h, _⟩) <;> cases h
  · refine ⟨by simp, by simp, ?_, ?_⟩ <;> rintro (h | ⟨_, h, _⟩) <;> cases h
  · refine ⟨by simp, by simp, ?_, ?_⟩ <;> rintro (h | h)
    · cases h
    · exact free (.inl h)
    · cases h
    · exact free (.inr h)

theorem kinds_eq_append_iff {ks ls : List Token.Kind} :
    kinds ts = ks ++ ls ↔ ∃ us vs, ts = us ++ vs ∧ kinds us = ks ∧ kinds vs = ls :=
  List.map_eq_append_iff

theorem kinds_eq_cons_iff {k : Token.Kind} {ks : List Token.Kind} :
    kinds ts = k :: ks ↔ ∃ t us, ts = t :: us ∧ t.kind = k ∧ kinds us = ks :=
  List.map_eq_cons_iff

/-- What follows a conjunction is no further factor of it: the end, a parenthesis or an
alternative. -/
theorem AreAlternatives.peek_isAnd {ls : List Token.Kind} {used : List Token}
    (h : AreAlternatives ls fs) (hls : kinds used = ls) (hrest : (peek rest).isAnd = false) :
    (peek (used ++ rest)).isAnd = false := by
  cases h with
  | nil =>
    rw [List.map_eq_nil_iff.mp hls]
    exact hrest
  | cons operator =>
    obtain ⟨op, us, rfl, rfl, -⟩ := kinds_eq_cons_iff.mp hls
    rw [List.cons_append, peek_cons, Bool.eq_false_iff]
    exact fun h => operator.not_isAnd (Token.isAnd_iff.mp h)

mutual

theorem disjunction_complete {ks : List Token.Kind} {f : Filter} (h : IsDisjunction ks f)
    {used rest : List Token} (hks : kinds used = ks) (faithful : Faithful used)
    (noAnd : (peek rest).isAnd = false) (noOr : (peek rest).isOr = false) :
    Reads (disjunction (used ++ rest)) f rest := by
  rw [reads_disjunction_iff]
  match h with
  | .single term =>
    exact ⟨f, [], rest, conjunction_complete term hks faithful noAnd,
      (reads_disjunctionTail_of_not_isOr noOr).mpr ⟨rfl, rfl⟩, rfl⟩
  | .chain first more =>
    obtain ⟨us, vs, rfl, hus, hvs⟩ := kinds_eq_append_iff.mp hks
    have first := conjunction_complete first hus faithful.before (more.peek_isAnd hvs noAnd)
    have more := disjunctionTail_complete more hvs faithful.of_append noAnd noOr
    rw [List.append_assoc]
    exact ⟨_, _, vs ++ rest, first, more, rfl⟩

theorem disjunctionTail_complete {ls : List Token.Kind} {fs : List Filter}
    (h : AreAlternatives ls fs) {used rest : List Token} (hls : kinds used = ls)
    (faithful : Faithful used) (noAnd : (peek rest).isAnd = false)
    (noOr : (peek rest).isOr = false) : Reads (disjunctionTail (used ++ rest)) fs rest := by
  match h with
  | .nil =>
    rw [List.map_eq_nil_iff.mp hls]
    exact (reads_disjunctionTail_of_not_isOr noOr).mpr ⟨rfl, rfl⟩
  | .cons operator free term more =>
    obtain ⟨op, ts, rfl, hop, hts⟩ := kinds_eq_cons_iff.mp hls
    obtain ⟨us, vs, rfl, hus, hvs⟩ := kinds_eq_append_iff.mp hts
    have faithful := faithful.of_cons
    rw [List.cons_append, List.append_assoc,
      reads_disjunctionTail_of_isOr (Token.isOr_iff.mpr (hop ▸ operator))]
    have next := conjunction_complete term hus faithful.before (more.peek_isAnd hvs noAnd)
    have more := disjunctionTail_complete more hvs faithful.of_append noAnd noOr
    exact ⟨endsOperand_eq_false_of_begins hus free term.begins, _, _, vs ++ rest, next, more, rfl⟩

theorem conjunction_complete {ks : List Token.Kind} {f : Filter} (h : IsConjunction ks f)
    {used rest : List Token} (hks : kinds used = ks) (faithful : Faithful used)
    (noAnd : (peek rest).isAnd = false) : Reads (conjunction (used ++ rest)) f rest := by
  rw [reads_conjunction_iff]
  match h with
  | .single term =>
    exact ⟨f, [], rest, operand_complete term hks faithful,
      (reads_conjunctionTail_of_not_isAnd noAnd).mpr ⟨rfl, rfl⟩, rfl⟩
  | .chain first more =>
    obtain ⟨us, vs, rfl, hus, hvs⟩ := kinds_eq_append_iff.mp hks
    have more := conjunctionTail_complete more hvs faithful.of_append noAnd
    rw [List.append_assoc]
    exact ⟨_, _, vs ++ rest, operand_complete first hus faithful.before, more, rfl⟩

theorem conjunctionTail_complete {ls : List Token.Kind} {fs : List Filter} (h : AreFactors ls fs)
    {used rest : List Token} (hls : kinds used = ls) (faithful : Faithful used)
    (noAnd : (peek rest).isAnd = false) : Reads (conjunctionTail (used ++ rest)) fs rest := by
  match h with
  | .nil =>
    rw [List.map_eq_nil_iff.mp hls]
    exact (reads_conjunctionTail_of_not_isAnd noAnd).mpr ⟨rfl, rfl⟩
  | .cons operator free term more =>
    obtain ⟨op, ts, rfl, hop, hts⟩ := kinds_eq_cons_iff.mp hls
    obtain ⟨us, vs, rfl, hus, hvs⟩ := kinds_eq_append_iff.mp hts
    have faithful := faithful.of_cons
    rw [List.cons_append, List.append_assoc,
      reads_conjunctionTail_of_isAnd (Token.isAnd_iff.mpr (hop ▸ operator))]
    have more := conjunctionTail_complete more hvs faithful.of_append noAnd
    exact ⟨endsOperand_eq_false_of_begins hus free term.begins, _, _, vs ++ rest,
      operand_complete term hus faithful.before, more, rfl⟩

theorem operand_complete {ks : List Token.Kind} {f : Filter} (h : IsOperand ks f)
    {used rest : List Token} (hks : kinds used = ks) (faithful : Faithful used) :
    Reads (operand (used ++ rest)) f rest := by
  match h with
  | .negation free term =>
    obtain ⟨t, us, rfl, ht, hus⟩ := kinds_eq_cons_iff.mp hks
    rw [List.cons_append, reads_operand_of_bang ht]
    exact ⟨endsOperand_eq_false_of_begins hus free term.begins, _,
      operand_complete term hus faithful.of_cons, rfl⟩
  | .parentheses inner =>
    obtain ⟨t, ts, rfl, ht, hts⟩ := kinds_eq_cons_iff.mp hks
    obtain ⟨us, vs, rfl, hus, hvs⟩ := kinds_eq_append_iff.mp hts
    obtain ⟨close, ws, rfl, hclose, hws⟩ := kinds_eq_cons_iff.mp hvs
    obtain rfl := List.map_eq_nil_iff.mp hws
    rw [List.cons_append, List.append_assoc, reads_operand_of_openParen ht]
    refine ⟨?_, close, ?_, hclose⟩
    · obtain ⟨k, hk, begins⟩ := inner.begins
      rw [kind_peek_of_head? (hus ▸ hk)]
      rcases begins with rfl | rfl | ⟨_, rfl⟩ <;> simp
    · refine disjunction_complete inner hus faithful.of_cons.before ?_ ?_
      · simp [Token.isAnd, Token.isKeyword, hclose]
      · simp [Token.isOr, Token.isKeyword, hclose]
  | .predicate isValue denotes =>
    obtain ⟨t, us, rfl, ht, hus⟩ := kinds_eq_cons_iff.mp hks
    obtain ⟨op, vs, rfl, hop, hvs⟩ := kinds_eq_cons_iff.mp hus
    obtain ⟨value, ws, rfl, hvalue, hws⟩ := kinds_eq_cons_iff.mp hvs
    obtain rfl := List.map_eq_nil_iff.mp hws
    rw [← faithful t List.mem_cons_self _ ht] at denotes
    rw [List.cons_append, reads_operand_of_word ht, reads_comparisonAfter_iff]
    exact ⟨op, value, _, _, rfl, hop, hvalue ▸ isValue, denotes⟩

end

end TestScheduler.Query
