import TestScheduler.Pattern.Common
import TestScheduler.Proofs.Query.Compiling

/-! # Locating errors

A query that does not compile is answered with a piece of its text and the byte offset at which the
piece stands. Tokens stand where they say they do, and the readers look ahead before each operand, so
that they never blame the mark of the end.
-/

namespace TestScheduler.Query

variable {Expression : Type} [Pattern.Dialect Expression]

/-- Whether a lexeme stands at a byte offset of a text that itself begins at an offset. -/
structure Locates (start : Nat) (cs : List Char) (piece : String) (position : Nat) : Prop where
  lexeme : IsLexeme piece
  stands : ∃ before after : String,
    cs = (before ++ piece ++ after).toList ∧ position = start + before.utf8ByteSize

namespace Locates

variable {start position : Nat} {cs : List Char} {piece : String}

theorem here (lexeme : IsLexeme piece) (rest : List Char) :
    Locates start (piece.toList ++ rest) piece start :=
  ⟨lexeme, "", String.ofList rest, by simp, by simp⟩

theorem after (skipped : String) (h : Locates (start + skipped.utf8ByteSize) cs piece position) :
    Locates start (skipped.toList ++ cs) piece position := by
  obtain ⟨lexeme, before, rest, rfl, rfl⟩ := h
  refine ⟨lexeme, skipped ++ before, rest, by simp, ?_⟩
  rw [String.utf8ByteSize_append, Nat.add_assoc]

theorem skip {c : Char} (h : Locates (start + c.utf8Size) cs piece position) :
    Locates start (c :: cs) piece position := by
  rw [← String.utf8ByteSize_singleton] at h
  simpa using h.after (String.singleton c)

end Locates

/-! ## Tokens -/

section Tokens

variable {position : Nat} {c : Char} {cs rest : List Char} {t : Token} {ts : List Token}
  {e : QueryError}

/-- Every token before the end stands where it says it does. -/
theorem locates_of_tokensFrom (h : tokensFrom position cs = .ok ts) :
    ∀ t ∈ ts, t.kind ≠ .endOfQuery → Locates position cs t.text t.position := by
  fun_induction tokensFrom position cs generalizing ts with
  | case1 position =>
    cases h
    intro t ht notEnd
    rw [List.mem_singleton.mp ht] at notEnd
    exact absurd rfl notEnd
  | case2 position c cs hc ih =>
    exact fun t ht notEnd => (ih h t ht notEnd).skip
  | case3 => cases h
  | case4 position c cs hc t rest ht ih =>
    obtain ⟨more, hmore, h⟩ := bind_eq_ok_iff.mp h
    cases h
    obtain ⟨place, text, lexeme⟩ := of_nextToken_ok ht (Bool.eq_false_iff.mpr hc)
    rw [text]
    intro u hu notEnd
    rcases List.mem_cons.mp hu with rfl | hu
    · rw [place]
      exact .here lexeme rest
    · exact (ih hmore u hu notEnd).after t.text

/-- A text that is not split into tokens is answered with a piece of it. -/
theorem locates_of_tokensFrom_error (h : tokensFrom position cs = .error e) :
    Locates position cs e.token e.position := by
  fun_induction tokensFrom position cs with
  | case1 => cases h
  | case2 position c cs hc ih => exact (ih h).skip
  | case3 position c cs hc e' ht =>
    cases h
    obtain ⟨place, ⟨rest, text⟩, lexeme⟩ := of_nextToken_error ht
    rw [place, ← text]
    exact .here lexeme rest
  | case4 position c cs hc t rest ht ih =>
    obtain ⟨-, text, -⟩ := of_nextToken_ok ht (Bool.eq_false_iff.mpr hc)
    rw [text]
    rcases bind_eq_error_iff.mp h with h | ⟨_, _, h⟩
    · exact (ih h).after t.text
    · cases h

end Tokens

/-! ## Readers -/

/-- Whether an error is about one of some tokens that is not the mark of the end. -/
def Blames (ts : List Token) (e : QueryError) : Prop :=
  ∃ t ∈ ts, t.kind ≠ .endOfQuery ∧ e.token = t.text ∧ e.position = t.position

variable {ts us : List Token} {t op : Token} {e : QueryError}

theorem blames_error {problem : QueryError.Problem} (ht : t ∈ ts) (notEnd : t.kind ≠ .endOfQuery) :
    Blames ts (t.error problem) :=
  ⟨t, ht, notEnd, if_neg notEnd, rfl⟩

/-- A reader that stops at one of its tokens blames that one. -/
theorem blames_of_error {α : Type} {problem : QueryError.Problem} (ht : t ∈ ts)
    (notEnd : t.kind ≠ .endOfQuery)
    (h : (.error (t.error problem) : Except QueryError α) = .error e) : Blames ts e := by
  cases h
  exact blames_error ht notEnd

theorem Blames.mono (h : Blames ts e) (more : ts ⊆ us) : Blames us e := by
  obtain ⟨t, ht, rest⟩ := h
  exact ⟨t, more ht, rest⟩

theorem expectOperand_eq_error_iff :
    expectOperand op ts = .error e ↔
      (peek ts).endsOperand = true ∧ e = op.error .danglingOperator := by
  unfold expectOperand
  split
  · next ends => simp [ends, @eq_comm _ e]
  · next ends => simp [ends]

theorem begun_of_endsOperand (h : (peek ts).endsOperand = false) : (peek ts).kind ≠ .endOfQuery :=
  (endsOperand_eq_false_iff.mp h).1

theorem notEnd_of_isAnd (h : op.isAnd = true) : op.kind ≠ .endOfQuery := by
  rcases Token.isAnd_iff.mp h with h | ⟨_, h, _⟩ <;> simp [h]

theorem notEnd_of_isOr (h : op.isOr = true) : op.kind ≠ .endOfQuery := by
  rcases Token.isOr_iff.mp h with h | ⟨_, h, _⟩ <;> simp [h]

section Chain

variable {first : Except QueryError (Filter × Shorter ts)}
  {tail : (mid : List Token) → Except QueryError (List Filter × NoLonger mid)}
  {join : List Filter → Filter}

theorem error_of_joined (h : (do
      let (f, ⟨mid, hmid⟩) ← first
      let (fs, ⟨rest, hrest⟩) ← tail mid
      .ok (joined join f fs, ⟨rest, Nat.lt_of_le_of_lt hrest hmid⟩) :
        Except QueryError (Filter × Shorter ts)) = .error e) :
    first = .error e ∨ ∃ g mid, Reads first g mid ∧ tail mid = .error e := by
  rcases bind_eq_error_iff.mp h with h | ⟨⟨g, mid, hmid⟩, hg, h⟩
  · exact .inl h
  · rcases bind_eq_error_iff.mp h with h | ⟨_, _, h⟩
    · exact .inr ⟨g, mid, ⟨hmid, hg⟩, h⟩
    · cases h

theorem error_of_cons (h : (do
      expectOperand op ts
      let (f, ⟨mid, hmid⟩) ← first
      let (fs, ⟨rest, hrest⟩) ← tail mid
      .ok (f :: fs, ⟨rest, Nat.le_succ_of_le (Nat.le_of_lt (Nat.lt_of_le_of_lt hrest hmid))⟩) :
        Except QueryError (List Filter × NoLonger (op :: ts))) = .error e) :
    e = op.error .danglingOperator ∨ (peek ts).endsOperand = false ∧
      (first = .error e ∨ ∃ g mid, Reads first g mid ∧ tail mid = .error e) := by
  rcases bind_eq_error_iff.mp h with h | ⟨_, begins, h⟩
  · exact .inl (expectOperand_eq_error_iff.mp h).2
  · refine .inr ⟨expectOperand_eq_ok_iff.mp begins, ?_⟩
    rcases bind_eq_error_iff.mp h with h | ⟨⟨g, mid, hmid⟩, hg, h⟩
    · exact .inl h
    · rcases bind_eq_error_iff.mp h with h | ⟨_, _, h⟩
      · exact .inr ⟨g, mid, ⟨hmid, hg⟩, h⟩
      · cases h

end Chain

theorem Consumes.subset {α : Type} {derives : List Token.Kind → α → Prop} {a : α}
    (h : Consumes derives ts a us) : us ⊆ ts := by
  obtain ⟨used, rfl, -⟩ := h
  exact List.subset_append_right _ _

theorem blames_of_matcherFor {comparison : Comparison} {text : String} (ht : t ∈ ts)
    (notEnd : t.kind ≠ .endOfQuery) (h : matcherFor comparison t text = .error e) :
    Blames ts e := by
  unfold matcherFor at h
  split at h
  · cases h
  · exact blames_of_error ht notEnd h

theorem comparisonAfter_blames (notEnd : t.kind ≠ .endOfQuery)
    (h : comparisonAfter t ts = .error e) : Blames (t :: ts) e := by
  unfold comparisonAfter at h
  split at h
  · next op value rest =>
    split at h
    · next comparison hop =>
      have operand_blames {text : String} {g : Matcher → Filter × NoLonger (op :: value :: rest)}
          (hvalue : value.kind ≠ .endOfQuery)
          (h : (do let m ← matcherFor comparison value text; .ok (g m)) = .error e) :
          Blames (t :: op :: value :: rest) e := by
        rcases bind_eq_error_iff.mp h with h | ⟨_, _, h⟩
        · exact blames_of_matcherFor (by simp) hvalue h
        · cases h
      dsimp only at h
      split at h
      · next hvalue => exact operand_blames (by simp [hvalue]) h
      · next hvalue => exact operand_blames (by simp [hvalue]) h
      · exact blames_of_error (by simp) (by simp [hop]) h
    · next hop => exact blames_of_error (by simp) (by simp [hop]) h
    · exact blames_of_error List.mem_cons_self notEnd h
  · split at h
    · next hop => exact blames_of_error (by simp) (by simp [hop]) h
    · next hop => exact blames_of_error (by simp) (by simp [hop]) h
    · exact blames_of_error List.mem_cons_self notEnd h
  · exact blames_of_error List.mem_cons_self notEnd h

mutual

theorem disjunction_blames {ts : List Token} (faithful : Faithful ts)
    (begun : (peek ts).kind ≠ .endOfQuery) (h : disjunction ts = .error e) : Blames ts e := by
  rw [disjunction] at h
  rcases error_of_joined h with h | ⟨g, mid, hg, failed⟩
  · exact conjunction_blames faithful begun h
  · have := hg.left
    obtain ⟨used, rfl, -⟩ := conjunction_sound faithful hg
    exact (disjunctionTail_blames faithful.of_append failed).mono (List.subset_append_right _ _)
termination_by (ts.length, 3)

theorem disjunctionTail_blames {ts : List Token} (faithful : Faithful ts)
    (h : disjunctionTail ts = .error e) : Blames ts e := by
  match ts with
  | [] => rw [disjunctionTail] at h; cases h
  | op :: ts =>
    cases hop : op.isOr with
    | false =>
      rw [disjunctionTail, if_neg (Bool.eq_false_iff.mp hop)] at h
      cases h
    | true =>
      rw [disjunctionTail, if_pos hop] at h
      rcases error_of_cons h with rfl | ⟨begins, h | ⟨g, mid, hg, failed⟩⟩
      · exact blames_error List.mem_cons_self (notEnd_of_isOr hop)
      · exact (conjunction_blames faithful.of_cons (begun_of_endsOperand begins) h).mono
          (List.subset_cons_self _ _)
      · have := hg.left
        obtain ⟨used, rfl, -⟩ := conjunction_sound faithful.of_cons hg
        refine (disjunctionTail_blames faithful.of_cons.of_append failed).mono ?_
        exact List.subset_cons_of_subset _ (List.subset_append_right _ _)
termination_by (ts.length, 0)

theorem conjunction_blames {ts : List Token} (faithful : Faithful ts)
    (begun : (peek ts).kind ≠ .endOfQuery) (h : conjunction ts = .error e) : Blames ts e := by
  rw [conjunction] at h
  rcases error_of_joined h with h | ⟨g, mid, hg, failed⟩
  · exact operand_blames faithful begun h
  · have := hg.left
    obtain ⟨used, rfl, -⟩ := operand_sound faithful hg
    exact (conjunctionTail_blames faithful.of_append failed).mono (List.subset_append_right _ _)
termination_by (ts.length, 2)

theorem conjunctionTail_blames {ts : List Token} (faithful : Faithful ts)
    (h : conjunctionTail ts = .error e) : Blames ts e := by
  match ts with
  | [] => rw [conjunctionTail] at h; cases h
  | op :: ts =>
    cases hop : op.isAnd with
    | false =>
      rw [conjunctionTail, if_neg (Bool.eq_false_iff.mp hop)] at h
      cases h
    | true =>
      rw [conjunctionTail, if_pos hop] at h
      rcases error_of_cons h with rfl | ⟨begins, h | ⟨g, mid, hg, failed⟩⟩
      · exact blames_error List.mem_cons_self (notEnd_of_isAnd hop)
      · exact (operand_blames faithful.of_cons (begun_of_endsOperand begins) h).mono
          (List.subset_cons_self _ _)
      · have := hg.left
        obtain ⟨used, rfl, -⟩ := operand_sound faithful.of_cons hg
        refine (conjunctionTail_blames faithful.of_cons.of_append failed).mono ?_
        exact List.subset_cons_of_subset _ (List.subset_append_right _ _)
termination_by (ts.length, 0)

theorem operand_blames {ts : List Token} (faithful : Faithful ts)
    (begun : (peek ts).kind ≠ .endOfQuery) (h : operand ts = .error e) : Blames ts e := by
  match ts with
  | [] => exact absurd rfl begun
  | t :: ts =>
    rw [peek_cons] at begun
    have blamed {α : Type} {problem : QueryError.Problem}
        (h : (.error (t.error problem) : Except QueryError α) = .error e) : Blames (t :: ts) e :=
      blames_of_error List.mem_cons_self begun h
    rw [operand] at h
    split at h
    · rcases bind_eq_error_iff.mp h with h | ⟨_, begins, h⟩
      · rw [(expectOperand_eq_error_iff.mp h).2]
        exact blames_error List.mem_cons_self begun
      · rcases bind_eq_error_iff.mp h with h | ⟨_, _, h⟩
        · have begun := begun_of_endsOperand (expectOperand_eq_ok_iff.mp begins)
          exact (operand_blames faithful.of_cons begun h).mono (List.subset_cons_self _ _)
        · cases h
    · split at h
      · exact blamed h
      · next begun =>
        rcases bind_eq_error_iff.mp h with h | ⟨⟨inner, after⟩, _, h⟩
        · exact (disjunction_blames faithful.of_cons begun h).mono (List.subset_cons_self _ _)
        -- What is not closed is the parenthesis that was opened here.
        · dsimp only at h
          split at h
          · exact blamed h
          · split at h
            · cases h
            · exact blamed h
    · exact blamed h
    · exact blamed h
    · exact blamed h
    · rcases bind_eq_error_iff.mp h with h | ⟨_, _, h⟩
      · exact comparisonAfter_blames begun h
      · cases h
    · exact blamed h
termination_by (ts.length, 1)

end

/-! ## Queries -/

variable {text : String} {cs : List Char} {position : Nat}

theorem begun_of_tokensFrom (h : tokensFrom position cs = .ok ts)
    (some : ∃ c ∈ cs, Text.isBlank c = false) : (peek ts).kind ≠ .endOfQuery := by
  fun_induction tokensFrom position cs generalizing ts with
  | case1 =>
    obtain ⟨c, hc, -⟩ := some
    cases hc
  | case2 position c cs hc ih =>
    obtain ⟨d, hd, visible⟩ := some
    rcases List.mem_cons.mp hd with rfl | hd
    · simp [hc] at visible
    · exact ih h ⟨d, hd, visible⟩
  | case3 => cases h
  | case4 position c cs hc t rest ht ih =>
    obtain ⟨more, -, h⟩ := bind_eq_ok_iff.mp h
    cases h
    exact (proper_of_nextToken ht (Bool.eq_false_iff.mpr hc)).notEnd

theorem mem_of_peek (h : (peek ts).kind ≠ .endOfQuery) : peek ts ∈ ts := by
  cases ts with
  | nil => exact absurd rfl h
  | cons t ts => exact List.mem_cons_self

theorem locates_of_compile_error (h : compile text = .error e) :
    Locates 0 text.toList e.token e.position := by
  unfold compile at h
  split at h
  · cases h
  · next hblank =>
    rcases bind_eq_error_iff.mp h with h | ⟨ts, htext, h⟩
    · exact locates_of_tokensFrom_error h
    · obtain ⟨body, stop, rfl, proper⟩ := proper_of_tokensFrom htext
      have faithful := Faithful.ofProper stop proper
      suffices blamed : Blames (body ++ [Token.endAt stop]) e by
        obtain ⟨t, ht, notEnd, token, place⟩ := blamed
        rw [token, place]
        exact locates_of_tokensFrom htext t ht notEnd
      rcases bind_eq_error_iff.mp h with h | ⟨⟨f, rest, hrest⟩, hf, h⟩
      · refine disjunction_blames faithful (begun_of_tokensFrom htext ?_) h
        simpa [Text.isBlankText] using hblank
      · have left := (disjunction_sound faithful ⟨hrest, hf⟩).subset
        have left (notEnd : (peek rest).kind ≠ .endOfQuery) :
            peek rest ∈ body ++ [Token.endAt stop] := left (mem_of_peek notEnd)
        dsimp only at h
        split at h
        · cases h
        · next hnext =>
          have notEnd : (peek rest).kind ≠ .endOfQuery := by simp [hnext]
          exact blames_of_error (left notEnd) notEnd h
        · next hnext _ => exact blames_of_error (left hnext) hnext h

/-- The error of a query that does not compile names a piece of the query, never the mark of its
end: the piece is not empty, it stands between two boundaries of characters, the first of which is at
the offset in the error, and its bytes are those in between. -/
theorem compile_error_located (h : compile text = .error e) :
    e.token ≠ "" ∧ e.token ≠ "end of query" ∧
      String.Pos.Raw.IsValid text ⟨e.position⟩ ∧
      String.Pos.Raw.IsValid text ⟨e.position + e.token.utf8ByteSize⟩ ∧
      text.toByteArray.extract e.position (e.position + e.token.utf8ByteSize) =
        e.token.toByteArray := by
  obtain ⟨lexeme, before, after, htext, place⟩ := locates_of_compile_error h
  obtain rfl := String.toList_injective htext
  rw [Nat.zero_add] at place
  refine ⟨lexeme.ne_empty, lexeme.ne_endOfQuery, ?_, ?_, ?_⟩
  · refine String.Pos.Raw.isValid_iff_exists_append.mpr ⟨before, e.token ++ after, ?_, ?_⟩
    · rw [String.append_assoc]
    · rw [place]
      rfl
  · refine String.Pos.Raw.isValid_iff_exists_append.mpr ⟨before ++ e.token, after, rfl, ?_⟩
    rw [place, String.rawEndPos, String.utf8ByteSize_append]
  · rw [String.append_assoc, String.toByteArray_append, String.toByteArray_append, place]
    have skipped := ByteArray.extract_append_size_add (a := before.toByteArray)
      (b := e.token.toByteArray ++ after.toByteArray) (i := 0) (j := e.token.utf8ByteSize)
    exact skipped.trans (ByteArray.extract_append_eq_left rfl)

end TestScheduler.Query

namespace TestScheduler.Query

theorem compile_error_located_sample :
    compile "!é && x" = .error ⟨.missingOperator, "é", 1⟩ ∧
      String.Pos.Raw.IsValid "!é && x" ⟨1⟩ ∧ String.Pos.Raw.IsValid "!é && x" ⟨1 + 2⟩ ∧
      "!é && x".toByteArray.extract 1 (1 + 2) = "é".toByteArray := by
  have htext : tokenize "!é && x" = .ok [⟨.bang, "!", 0⟩, ⟨.word "é", "é", 1⟩, ⟨.and, "&&", 4⟩,
      ⟨.word "x", "x", 7⟩, Token.endAt 8] := by decide +kernel
  have hblank : Text.isBlankText "!é && x" = false := by decide
  have h : compile "!é && x" = .error ⟨.missingOperator, "é", 1⟩ := by
    rw [compile, hblank, htext, if_neg Bool.false_ne_true]
    change disjunction _ >>= _ = _
    rw [disjunction, conjunction, operand]
    dsimp only
    rw [operand]
    rfl
  obtain ⟨-, -, begins, ends, bytes⟩ := compile_error_located h
  exact ⟨h, begins, ends, bytes⟩

end TestScheduler.Query
