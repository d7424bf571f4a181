import TestScheduler.Pattern.Common
import TestScheduler.Proofs.Query.Lexing
import TestScheduler.Proofs.Query.Parsing

/-! # Compiling queries

A text that is not blank compiles exactly to what the grammar derives from its tokens.
-/

namespace TestScheduler.Query

variable {Expression : Type} [Pattern.Dialect Expression] {text : String} {body : List Token}
  {stop : Nat} {f : Filter}

theorem proper_of_tokenize (h : tokenize text = .ok (body ++ [Token.endAt stop])) :
    ∀ t ∈ body, t.Proper := by
  obtain ⟨body', stop', hbody, proper⟩ := proper_of_tokensFrom h
  obtain ⟨rfl, -⟩ := List.append_inj' hbody rfl
  exact proper

theorem Faithful.ofProper (stop : Nat) (proper : ∀ t ∈ body, t.Proper) :
    Faithful (body ++ [Token.endAt stop]) := by
  intro t ht word hword
  rcases List.mem_append.mp ht with ht | ht
  · exact ((proper t ht).ofWord word hword).1
  · rw [List.mem_singleton.mp ht] at hword
    cases hword

/-- The tokens of a query are read to the end exactly when the grammar derives them. -/
theorem reads_to_end_iff (stop : Nat) (f : Filter) (proper : ∀ t ∈ body, t.Proper) :
    (∃ rest, Reads (disjunction (body ++ [Token.endAt stop])) f rest ∧
      (peek rest).kind = .endOfQuery) ↔ IsDisjunction (kinds body) f := by
  have faithful := Faithful.ofProper stop proper
  constructor
  · rintro ⟨rest, h, hend⟩
    obtain ⟨used, hused, derives⟩ := disjunction_sound faithful h
    cases rest with
    | nil =>
      -- The mark of the end would be a token that the grammar derives.
      rw [List.append_nil] at hused
      have := derives.placed.ends .endOfQuery (by simp [← hused, Token.endAt])
      exact absurd rfl this.2
    | cons t rest =>
      obtain ⟨rfl, -⟩ : body = used ∧ [Token.endAt stop] = t :: rest := by
        rcases List.append_eq_append_iff.mp hused with ⟨us, rfl, hus⟩ | ⟨us, rfl, hus⟩
        · cases us with
          | nil => exact ⟨by simp, by simpa using hus⟩
          | cons u us => simp at hus
        · cases us with
          | nil => exact ⟨by simp, by simpa using hus.symm⟩
          | cons u us =>
            obtain ⟨rfl, -⟩ := List.cons.inj hus
            exact absurd hend (proper t (by simp)).notEnd
      exact derives
  · intro derives
    refine ⟨[Token.endAt stop], ?_, rfl⟩
    exact disjunction_complete derives rfl faithful.before rfl rfl

theorem compile_eq_ok_iff_reads (hblank : Text.isBlankText text = false) :
    compile text = .ok f ↔ ∃ ts, tokenize text = .ok ts ∧ ∃ g,
      (∃ rest, Reads (disjunction ts) g rest ∧ (peek rest).kind = .endOfQuery) ∧
        f = g.markTop := by
  unfold compile
  rw [hblank, if_neg Bool.false_ne_true, bind_eq_ok_iff]
  constructor
  · rintro ⟨ts, hts, h⟩
    obtain ⟨⟨g, rest, hrest⟩, hread, h⟩ := bind_eq_ok_iff.mp h
    dsimp only at h
    split at h
    · next hend =>
      cases h
      exact ⟨ts, hts, g, ⟨rest, ⟨hrest, hread⟩, hend⟩, rfl⟩
    · cases h
    · cases h
  · rintro ⟨ts, hts, g, ⟨rest, ⟨hrest, hread⟩, hend⟩, rfl⟩
    exact ⟨ts, hts, bind_eq_ok_iff.mpr ⟨_, hread, by simp [hend]⟩⟩

/-- A text with tokens before its end compiles to what the grammar derives from them. -/
theorem compile_eq_ok_iff (hblank : Text.isBlankText text = false)
    (htext : tokenize text = .ok (body ++ [Token.endAt stop])) :
    compile text = .ok f ↔ ∃ g, IsDisjunction (kinds body) g ∧ f = g.markTop := by
  have toEnd {g : Filter} := reads_to_end_iff stop g (proper_of_tokenize htext)
  rw [compile_eq_ok_iff_reads hblank]
  constructor
  · rintro ⟨ts, hts, g, h, rfl⟩
    cases htext.symm.trans hts
    exact ⟨g, toEnd.mp h, rfl⟩
  · rintro ⟨g, h, rfl⟩
    exact ⟨_, htext, g, toEnd.mpr h, rfl⟩

/-- A text that is split into tokens compiles exactly to what the grammar derives from the tokens
before its end, with a negation of the whole query marked as the top of a run. -/
theorem compile_iff_derives {ts : List Token} (htext : tokenize text = .ok ts)
    (hblank : Text.isBlankText text = false) :
    ∃ body stop, ts = body ++ [Token.endAt stop] ∧
      ∀ f, compile text = .ok f ↔ ∃ g, IsDisjunction (kinds body) g ∧ f = g.markTop := by
  obtain ⟨body, stop, rfl, -⟩ := proper_of_tokensFrom htext
  exact ⟨body, stop, rfl, fun f => compile_eq_ok_iff hblank htext⟩

end TestScheduler.Query

namespace TestScheduler.Query

theorem compile_iff_derives_sample :
    compile "!(and=a OR cat!=b)" = .ok (.not (.or [.predicate (.property "and") (.literal "a"),
      .not (.predicate .category (.literal "b")) false]) true) := by
  have htext : tokenize "!(and=a OR cat!=b)" = .ok [⟨.bang, "!", 0⟩, ⟨.openParen, "(", 1⟩,
      ⟨.word "and", "and", 2⟩, ⟨.comparison .equal, "=", 5⟩, ⟨.word "a", "a", 6⟩,
      ⟨.word "OR", "OR", 8⟩, ⟨.word "cat", "cat", 11⟩, ⟨.comparison .notEqual, "!=", 14⟩,
      ⟨.word "b", "b", 16⟩, ⟨.closeParen, ")", 17⟩, Token.endAt 18] := by decide +kernel
  obtain ⟨body, stop, hbody, h⟩ := compile_iff_derives htext (by decide)
  have hkinds := congrArg (kinds ·.dropLast) hbody
  rw [List.dropLast_concat] at hkinds
  have first : IsOperand [.word "and", .comparison .equal, .word "a"]
      (.predicate (.property "and") (.literal "a")) := .predicate (.word "a") .equal
  have second : IsOperand [.word "cat", .comparison .notEqual, .word "b"]
      (.not (.predicate .category (.literal "b")) false) := .predicate (.word "b") .notEqual
  have more := AreAlternatives.cons (k := .word "OR") (.inr ⟨"OR", rfl, by decide⟩)
    (by simp [MayFollow, Token.Kind.IsReserved]) (.single second) .nil
  have inner := IsOperand.parentheses (.chain (.single first) more)
  have whole := IsOperand.negation
    (by simp [MayFollow, Token.Kind.IsReserved, Token.Kind.IsKeyword]) inner
  exact (h _).mpr ⟨.not (.or _) false, hkinds ▸ whole.conjunction, rfl⟩

end TestScheduler.Query
