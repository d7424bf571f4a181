import TestScheduler.Proofs.Prelude
import TestScheduler.Query.Token

/-! # Splitting queries into tokens

What the tokens of a text are like: only the last one marks the end, and the text of a word is the
word, which no delimiter interrupts. A token takes its own text off the start of what is left, and an
error names a piece of it that is not empty.
-/

namespace TestScheduler.Query

/-- Whether a text is read as a single word. -/
structure IsWord (text : String) : Prop where
  nonempty : text.toList ≠ []
  free : ∀ c ∈ text.toList, isDelimiter c = false

/-- Whether a token may stand before the end of a text. -/
structure Token.Proper (t : Token) : Prop where
  notEnd : t.kind ≠ .endOfQuery
  ofWord : ∀ word, t.kind = .word word → t.text = word ∧ IsWord word

/-- Whether a text may be that of a token: it is a word or begins with a delimiter. -/
inductive IsLexeme (text : String) : Prop
  | word (isWord : IsWord text)
  | delimited (begins : text.toList.head?.any isDelimiter = true)

theorem isWord_of_all {text : String} (some : text.toList ≠ [])
    (free : text.toList.all (!isDelimiter ·) = true) : IsWord text :=
  ⟨some, by simpa using free⟩

theorem isWord_takeWhile {c : Char} {cs : List Char} (h : isDelimiter c = false) :
    IsWord (String.ofList (c :: cs.takeWhile (!isDelimiter ·))) := by
  constructor
  · simp
  · intro d hd
    rw [String.toList_ofList] at hd
    rcases List.mem_cons.mp hd with rfl | hd
    · exact h
    · simpa using List.all_eq_true.mp List.all_takeWhile d hd

theorem IsLexeme.ne_empty {text : String} (h : IsLexeme text) : text ≠ "" := by
  rintro rfl
  cases h with
  | word isWord => exact isWord.nonempty rfl
  | delimited begins => exact absurd begins (by decide)

theorem IsLexeme.ne_endOfQuery {text : String} (h : IsLexeme text) : text ≠ "end of query" := by
  rintro rfl
  cases h with
  | word isWord => exact absurd (isWord.free ' ' (by decide)) (by decide)
  | delimited begins => exact absurd begins (by decide)

variable {position : Nat} {c : Char} {cs rest : List Char} {t : Token} {ts : List Token}
  {e : QueryError}

/-- The operators and parentheses, each with the kind of its token. -/
def signs : List (Token.Kind × String) :=
  [(.openParen, "("), (.closeParen, ")"), (.and, "&&"), (.or, "||"), (.comparison .equal, "=="),
    (.comparison .found, "=~"), (.comparison .equal, "="), (.comparison .notEqual, "!="),
    (.comparison .notFound, "!~"), (.bang, "!")]

theorem notEnd_of_mem_signs {s : Token.Kind × String} (h : s ∈ signs) :
    s.1 ≠ .endOfQuery := by
  revert s
  decide

theorem notWord_of_mem_signs {s : Token.Kind × String} (h : s ∈ signs) (word : String) :
    s.1 ≠ .word word := by
  simp only [signs, List.mem_cons, List.not_mem_nil, or_false] at h
  rcases h with rfl | rfl | rfl | rfl | rfl | rfl | rfl | rfl | rfl | rfl <;> exact nofun

theorem delimited_of_mem_signs {s : Token.Kind × String} (h : s ∈ signs) :
    s.2.toList.head?.any isDelimiter = true := by
  revert s
  decide

/-- How a token is cut off a text that begins with a character. -/
inductive Heads (position : Nat) (c : Char) (cs : List Char) : Token → List Char → Prop
  | sign {kind : Token.Kind} {text : String} {rest : List Char} (listed : (kind, text) ∈ signs)
      (begins : c :: cs = text.toList ++ rest) : Heads position c cs ⟨kind, text, position⟩ rest
  | literal {value text rest : List Char} (isQuote : c = '\'' ∨ c = '"')
      (read : quoted c cs = some (value, text, rest)) :
      Heads position c cs ⟨.quoted (String.ofList value), String.ofList (c :: text), position⟩ rest
  | word (free : isDelimiter c = false) :
      Heads position c cs
        ⟨.word (String.ofList (c :: cs.takeWhile (!isDelimiter ·))),
          String.ofList (c :: cs.takeWhile (!isDelimiter ·)), position⟩
        (cs.dropWhile (!isDelimiter ·))

theorem heads_of_nextToken (h : nextToken position c cs = .ok (t, rest))
    (hc : Text.isBlank c = false) : Heads position c cs t rest := by
  unfold nextToken at h
  split at h
  case h_13 =>
    split at h
    · next quote =>
      split at h
      · next hq =>
        cases h
        exact .literal quote hq
      · cases h
    · next quote =>
      cases h
      exact .word (by simp_all [isDelimiter])
  all_goals cases h <;> exact .sign (by decide) rfl

theorem proper_of_nextToken (h : nextToken position c cs = .ok (t, rest))
    (hc : Text.isBlank c = false) : t.Proper := by
  cases heads_of_nextToken h hc with
  | sign listed _ =>
    exact ⟨notEnd_of_mem_signs listed, fun word hword =>
      absurd hword (notWord_of_mem_signs listed word)⟩
  | literal _ _ => exact ⟨nofun, nofun⟩
  | word free =>
    refine ⟨nofun, fun word hword => ?_⟩
    cases hword
    exact ⟨rfl, isWord_takeWhile free⟩

theorem isLexeme_cons {c : Char} (cs : List Char) (h : isDelimiter c = true) :
    IsLexeme (String.ofList (c :: cs)) :=
  .delimited (by simpa using h)

theorem isDelimiter_of_quote (h : c = '\'' ∨ c = '"') : isDelimiter c = true := by
  rcases h with rfl | rfl <;> decide

theorem of_nextToken_ok (h : nextToken position c cs = .ok (t, rest))
    (hc : Text.isBlank c = false) :
    t.position = position ∧ c :: cs = t.text.toList ++ rest ∧ IsLexeme t.text := by
  cases heads_of_nextToken h hc with
  | sign listed begins => exact ⟨rfl, begins, .delimited (delimited_of_mem_signs listed)⟩
  | literal quote read =>
    refine ⟨rfl, ?_, isLexeme_cons _ (isDelimiter_of_quote quote)⟩
    simp [text_append_rest_of_quoted read]
  | word free => exact ⟨rfl, by simp, .word (isWord_takeWhile free)⟩

theorem of_nextToken_error (h : nextToken position c cs = .error e) :
    e.position = position ∧ e.token.toList <+: c :: cs ∧ IsLexeme e.token := by
  unfold nextToken at h
  split at h
  case h_13 =>
    split at h
    · next quote =>
      split at h
      · cases h
      · cases h
        exact ⟨rfl, by simp, isLexeme_cons _ (isDelimiter_of_quote quote)⟩
    · cases h
  all_goals
    cases h <;> exact ⟨rfl, by simp, .delimited (by dsimp only; decide)⟩

theorem tokensFrom_cons_blank (hc : Text.isBlank c = true) :
    tokensFrom position (c :: cs) = tokensFrom (position + c.utf8Size) cs := by
  rw [tokensFrom, if_pos hc]

theorem tokensFrom_cons_token (hc : Text.isBlank c = false)
    (h : nextToken position c cs = .ok (t, rest)) :
    tokensFrom position (c :: cs) =
      (t :: ·) <$> tokensFrom (position + t.text.utf8ByteSize) rest := by
  rw [tokensFrom, if_neg (Bool.eq_false_iff.mp hc)]
  split
  · next hnext => cases h.symm.trans hnext
  · next hnext =>
    cases h.symm.trans hnext
    cases tokensFrom (position + t.text.utf8ByteSize) rest <;> rfl

theorem tokensFrom_cons_error (hc : Text.isBlank c = false)
    (h : nextToken position c cs = .error e) : tokensFrom position (c :: cs) = .error e := by
  rw [tokensFrom, if_neg (Bool.eq_false_iff.mp hc)]
  split
  · next hnext => exact congrArg _ (Except.error.inj (hnext.symm.trans h))
  · next hnext => cases h.symm.trans hnext

theorem proper_of_tokensFrom (h : tokensFrom position cs = .ok ts) :
    ∃ body stop, ts = body ++ [Token.endAt stop] ∧ ∀ t ∈ body, t.Proper := by
  fun_induction tokensFrom position cs generalizing ts with
  | case1 position =>
    cases h
    exact ⟨[], position, rfl, nofun⟩
  | case2 position c cs hc ih => exact ih h
  | case3 => cases h
  | case4 position c cs hc t rest ht ih =>
    obtain ⟨more, hmore, h⟩ := bind_eq_ok_iff.mp h
    cases h
    obtain ⟨body, stop, rfl, proper⟩ := ih hmore
    refine ⟨t :: body, stop, rfl, List.forall_mem_cons.mpr ⟨?_, proper⟩⟩
    exact proper_of_nextToken ht (Bool.eq_false_iff.mpr hc)

theorem tokensFrom_of_blank (position : Nat) (h : ∀ c ∈ cs, Text.isBlank c = true) :
    ∃ stop, tokensFrom position cs = .ok [Token.endAt stop] := by
  induction cs generalizing position with
  | nil => exact ⟨position, by rw [tokensFrom]⟩
  | cons c cs ih =>
    rw [List.forall_mem_cons] at h
    rw [tokensFrom_cons_blank h.1]
    exact ih _ h.2

end TestScheduler.Query
