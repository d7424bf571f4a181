import TestScheduler.Pattern.Common
import TestScheduler.Proofs.Query.Recompiling

/-! # Composing queries

Queries between parentheses can be joined. No token of a text becomes another one before a closing
parenthesis, so that a text between parentheses spells the kinds of its own tokens, and what the
grammar derives from these stands for one term of the whole.
-/

namespace TestScheduler.Query

variable {Expression : Type} [Pattern.Dialect Expression] {position : Nat} {c : Char}
  {cs rest : List Char} {t : Token}

/-! ## Texts before a parenthesis -/

theorem quoted_append {quote : Char} {value text : List Char} (plain : quote ≠ '\\')
    (h : quoted quote cs = some (value, text, rest)) (more : List Char) :
    quoted quote (cs ++ more) = some (value, text, rest ++ more) := by
  fun_induction quoted quote cs generalizing value text rest with
  | case1 => cases h
  | case2 c cs hc ih =>
    obtain ⟨⟨v, t, r⟩, hq, he⟩ := Option.map_eq_some_iff.mp h
    cases he
    rw [List.cons_append, List.cons_append, quoted, if_pos hc, ih hq]
    rfl
  | case3 c cs hc ih =>
    obtain ⟨⟨v, t, r⟩, hq, he⟩ := Option.map_eq_some_iff.mp h
    cases he
    rw [List.cons_append, List.cons_append, quoted, if_neg hc, ← List.cons_append, ih hq]
    rfl
  | case4 cs _ =>
    cases h
    rw [List.cons_append, quoted, if_pos rfl]
    rintro d ds rfl
    exact absurd rfl plain
  | case5 c cs single hc ih =>
    obtain ⟨⟨v, t, r⟩, hq, he⟩ := Option.map_eq_some_iff.mp h
    cases he
    rw [List.cons_append, quoted, if_neg hc, ih hq]
    · rfl
    -- A backslash that is the last character has no closing quote after it.
    · rintro d ds rfl hds
      cases cs with
      | nil =>
        rw [quoted] at hq
        cases hq
      | cons d ds => exact single d ds rfl rfl

theorem append_paren_ne_cons {d : Char} (hd : d ≠ ')') (h : ∀ ds, cs = d :: ds → False)
    (more ds : List Char) : cs ++ ')' :: more ≠ d :: ds := by
  cases cs with
  | nil =>
    rintro ⟨⟩
    exact hd rfl
  | cons c cs =>
    rintro ⟨⟩
    exact h cs rfl

theorem nextToken_word_before_paren (position : Nat) (hc : isDelimiter c = false)
    (more : List Char) :
    nextToken position c (cs ++ ')' :: more) =
      .ok (⟨.word (String.ofList (c :: cs.takeWhile (!isDelimiter ·))),
          String.ofList (c :: cs.takeWhile (!isDelimiter ·)), position⟩,
        cs.dropWhile (!isDelimiter ·) ++ ')' :: more) := by
  have free : ∀ d ∈ cs.takeWhile (!isDelimiter ·), isDelimiter d = false := fun d hd => by
    simpa using List.all_eq_true.mp List.all_takeWhile d hd
  obtain ⟨d, ds, hd, ends⟩ : ∃ d ds, isDelimiter d = true ∧
      cs.dropWhile (!isDelimiter ·) ++ ')' :: more = d :: ds := by
    cases hrest : cs.dropWhile (!isDelimiter ·) with
    | nil => exact ⟨_, _, by decide, rfl⟩
    | cons d ds =>
      have stopped := List.head?_dropWhile_not (!isDelimiter ·) cs
      rw [hrest] at stopped
      exact ⟨d, _, by simpa using stopped, rfl⟩
  conv_lhs => rw [← List.takeWhile_append_dropWhile (p := (!isDelimiter ·)) (l := cs)]
  rw [List.append_assoc, ends]
  exact nextToken_word hc free hd

/-- No token of a text becomes another one before a parenthesis. -/
theorem nextToken_before_paren (h : nextToken position c cs = .ok (t, rest))
    (hc : Text.isBlank c = false) (position' : Nat) (more : List Char) :
    ∃ t', nextToken position' c (cs ++ ')' :: more) = .ok (t', rest ++ ')' :: more) ∧
      t'.kind = t.kind := by
  unfold nextToken at h
  split at h
  -- A lone character is not joined with the parenthesis to an operator of two characters.
  case h_9 | h_12 =>
    cases h
    rw [nextToken]
    · exact ⟨_, rfl, rfl⟩
    · exact append_paren_ne_cons (by decide) ‹_› more
    · exact append_paren_ne_cons (by decide) ‹_› more
  case h_13 =>
    split at h
    · next quote =>
      split at h
      · next hq =>
        cases h
        rcases quote with rfl | rfl
        · simp [nextToken, quoted_append (by decide) hq]
        · simp [nextToken, quoted_append (by decide) hq]
      · cases h
    · next quote =>
      cases h
      refine ⟨_, nextToken_word_before_paren position' ?_ more, rfl⟩
      simp_all [isDelimiter]
  all_goals cases h <;> exact ⟨_, rfl, rfl⟩

theorem spells_before_paren {body : List Token} {stop : Nat}
    (h : tokensFrom position cs = .ok (body ++ [Token.endAt stop])) :
    Spells (cs ++ [')']) (kinds body ++ [.closeParen]) := by
  fun_induction tokensFrom position cs generalizing body with
  | case1 position =>
    obtain ⟨rfl, -⟩ := List.append_inj' (show [] ++ [_] = body ++ [_] from Except.ok.inj h) rfl
    exact Spells.closeParen
  | case2 position c cs hc ih => exact (Spells.gap hc).append (ih h)
  | case3 => cases h
  | case4 position c cs hc t rest ht ih =>
    have visible := Bool.eq_false_iff.mpr hc
    obtain ⟨-, text, lexeme⟩ := of_nextToken_ok ht visible
    obtain ⟨more, hmore, h⟩ := bind_eq_ok_iff.mp h
    obtain ⟨us, stop', rfl, -⟩ := proper_of_tokensFrom hmore
    obtain ⟨rfl, last⟩ :=
      List.append_inj' (show (t :: us) ++ [_] = body ++ [_] from Except.ok.inj h) rfl
    rw [last] at hmore
    obtain ⟨d, consumed, htext⟩ := List.exists_cons_of_ne_nil
      (show t.text.toList ≠ [] from fun h => lexeme.ne_empty (String.toList_injective h))
    rw [htext, List.cons_append] at text
    obtain ⟨rfl, rfl⟩ := List.cons.inj text
    rw [List.cons_append, List.append_assoc]
    refine Spells.cons visible (ih hmore) fun position' more => ?_
    simpa using nextToken_before_paren ht visible position' more

/-! ## Joined queries -/

theorem compile_of_spells {text : String} {ks : List Token.Kind} {f : Filter}
    (h : Spells text.toList ks) (derives : IsDisjunction ks f) :
    compile text = .ok f.markTop := by
  refine (compile_eq_ok_iff_of_spells h ?_).mpr ⟨f, derives, rfl⟩
  rintro rfl
  obtain ⟨k, hk, -⟩ := derives.begins
  cases hk

/-- Whether a text that is not blank compiles to a filter. -/
def Compiles (query : String) (f : Filter) : Prop :=
  Text.isBlankText query = false ∧ compile query = .ok f

/-- A query between parentheses. -/
def enclosed (query : String) : String := "(" ++ query ++ ")"

theorem toList_enclosed (query : String) :
    (enclosed query).toList = '(' :: (query.toList ++ [')']) := by
  simp [enclosed]

/-- A query between parentheses stands for one term, which is no negation of a whole query. -/
theorem Compiles.enclosed {query : String} {f : Filter} (h : Compiles query f) :
    ∃ ks, Spells (enclosed query).toList ks ∧ MayFollow ks ∧ IsOperand ks f.clearTop ∧
      f.clearTop.markTop = f := by
  obtain ⟨body, stop, g, htext, derives, queried, rfl⟩ := exists_derives_of_compile h.1 h.2
  have cleared : g.markTop.clearTop = g := by cases queried <;> rfl
  rw [cleared]
  refine ⟨_, ?_, ?_, .parentheses derives, rfl⟩
  · rw [toList_enclosed]
    exact Spells.openParen.append (spells_before_paren htext)
  · simp [MayFollow, Token.Kind.IsReserved, Token.Kind.IsKeyword]

section Terms

variable {qs : List String} {fs : List Filter} {operator : Token.Kind}
  {terms : List Token.Kind → List Filter → Prop}

theorem spells_terms (separator : String) (hseparator : Spells separator.toList [operator])
    (h : List.Forall₂ Compiles qs fs) (nil : terms [] [])
    (cons : ∀ {ks ls f fs}, MayFollow ks → IsOperand ks f → terms ls fs →
      terms (operator :: (ks ++ ls)) (f :: fs)) :
    ∃ ks, Spells (qs.flatMap fun q => separator.toList ++ (enclosed q).toList) ks ∧
      terms ks (fs.map Filter.clearTop) := by
  induction h with
  | nil => exact ⟨[], .nil, nil⟩
  | cons first _ ih =>
    obtain ⟨ks, spelt, free, term, -⟩ := first.enclosed
    obtain ⟨ls, speltMore, more⟩ := ih
    exact ⟨_, (hseparator.append spelt).append speltMore, cons free term more⟩

theorem spells_joined {q : String} {f : Filter} (separator : String)
    (hseparator : Spells separator.toList [operator]) (first : Compiles q f)
    (h : List.Forall₂ Compiles qs fs) (nil : terms [] [])
    (cons : ∀ {ks ls f fs}, MayFollow ks → IsOperand ks f → terms ls fs →
      terms (operator :: (ks ++ ls)) (f :: fs)) :
    ∃ ks ls, Spells (separator.intercalate ((q :: qs).map enclosed)).toList (ks ++ ls) ∧
      IsOperand ks f.clearTop ∧ terms ls (fs.map Filter.clearTop) := by
  obtain ⟨ks, spelt, -, term, -⟩ := first.enclosed
  obtain ⟨ls, speltMore, more⟩ := spells_terms separator hseparator h nil cons
  refine ⟨ks, ls, ?_, term, more⟩
  rw [String.toList_intercalate, List.map_cons, List.map_cons, intercalate_cons, List.map_map,
    List.flatMap_map]
  exact spelt.append speltMore

end Terms

/-- Queries that are joined between parentheses stand for the conjunction or the disjunction of
their filters, whatever these are, and a single one between parentheses stands for its filter. A
negation that is the whole of a query is marked as the top of a run in no other place. -/
theorem compile_composes :
    (∀ qs fs, List.Forall₂ Compiles qs fs → 2 ≤ qs.length →
      compile (" && ".intercalate (qs.map enclosed)) = .ok (.and (fs.map Filter.clearTop)) ∧
      compile (" || ".intercalate (qs.map enclosed)) = .ok (.or (fs.map Filter.clearTop))) ∧
    ∀ q f, Compiles q f → compile (enclosed q) = .ok f ∧
      compile ("!" ++ enclosed q) = .ok (.not f.clearTop true) := by
  constructor
  · intro qs fs h two
    obtain _ | ⟨first, _ | ⟨second, rest⟩⟩ := h
    · simp at two
    · simp at two
    · have h := List.Forall₂.cons second rest
      constructor
      · obtain ⟨ks, ls, spelt, term, more⟩ := spells_joined " && " Spells.and.spaced first h
          AreFactors.nil fun free term more => .cons (.inl rfl) free term more
        exact compile_of_spells spelt (.single (.chain term more))
      · obtain ⟨ks, ls, spelt, term, more⟩ := spells_joined " || " Spells.or.spaced first h
          AreAlternatives.nil fun free term more => .cons (.inl rfl) free (.single term) more
        exact compile_of_spells spelt (.chain (.single term) more)
  · intro q f h
    obtain ⟨ks, spelt, free, term, marked⟩ := h.enclosed
    have whole := compile_of_spells spelt term.conjunction
    rw [marked] at whole
    rw [toList_enclosed] at spelt
    refine ⟨whole, compile_of_spells ?_ (IsOperand.negation free term).conjunction⟩
    rw [String.toList_append, toList_enclosed]
    exact spelt.negation

end TestScheduler.Query

namespace TestScheduler.Query

theorem compile_composes_sample :
    List.Forall₂ Compiles ["cat=a", "!cat=b"]
        [.predicate .category (.literal "a"), .not (.predicate .category (.literal "b")) true] ∧
      compile "(cat=a) && (!cat=b)" = .ok (.and [.predicate .category (.literal "a"),
        .not (.predicate .category (.literal "b")) false]) ∧
      compile "(cat=a) || (!cat=b)" = .ok (.or [.predicate .category (.literal "a"),
        .not (.predicate .category (.literal "b")) false]) ∧
      compile "(!cat=b)" = .ok (.not (.predicate .category (.literal "b")) true) ∧
      compile "!(!cat=b)" =
        .ok (.not (.not (.predicate .category (.literal "b")) false) true) := by
  have ha : tokenize "cat=a" = .ok ([⟨.word "cat", "cat", 0⟩, ⟨.comparison .equal, "=", 3⟩,
      ⟨.word "a", "a", 4⟩] ++ [Token.endAt 5]) := by decide +kernel
  have hb : tokenize "!cat=b" = .ok ([⟨.bang, "!", 0⟩, ⟨.word "cat", "cat", 1⟩,
      ⟨.comparison .equal, "=", 4⟩, ⟨.word "b", "b", 5⟩] ++ [Token.endAt 6]) := by decide +kernel
  have a : IsOperand [.word "cat", .comparison .equal, .word "a"]
      (.predicate .category (.literal "a")) := .predicate (.word "a") .equal
  have b : IsOperand [.bang, .word "cat", .comparison .equal, .word "b"]
      (.not (.predicate .category (.literal "b")) false) :=
    .negation (by simp [MayFollow, Token.Kind.IsReserved]) (.predicate (.word "b") .equal)
  have first : Compiles "cat=a" _ :=
    ⟨by decide, (compile_eq_ok_iff (by decide) ha).mpr ⟨_, a.conjunction, rfl⟩⟩
  have second : Compiles "!cat=b" _ :=
    ⟨by decide, (compile_eq_ok_iff (by decide) hb).mpr ⟨_, b.conjunction, rfl⟩⟩
  have both := List.Forall₂.cons first (.cons second .nil)
  obtain ⟨joined, alone⟩ := compile_composes
  exact ⟨both, (joined _ _ both (by decide)).1, (joined _ _ both (by decide)).2,
    (alone _ _ second).1, (alone _ _ second).2⟩

end TestScheduler.Query
