import TestScheduler.Proofs.Query.Grammar
import TestScheduler.Proofs.Query.Parsing
import TestScheduler.Proofs.Query.Lexing
import TestScheduler.Query.Printer

/-! # The tokens of printed queries

A text spells some kinds of tokens if it is split into tokens of these kinds wherever it stands. The
pieces of a printed query spell the kinds that they are meant to, whatever a value contains.
-/

namespace TestScheduler.Query

/-- Whether a text is split into tokens of given kinds, whatever comes after it. -/
def Spells (cs : List Char) (ks : List Token.Kind) : Prop :=
  ∀ position rest, ∃ ts stop, kinds ts = ks ∧
    tokensFrom position (cs ++ rest) = (ts ++ ·) <$> tokensFrom stop rest

namespace Spells

variable {cs ds : List Char} {ks ls : List Token.Kind}

theorem nil : Spells [] [] := fun position _ => ⟨[], position, rfl, by simp⟩

theorem append (h : Spells cs ks) (h' : Spells ds ls) : Spells (cs ++ ds) (ks ++ ls) := by
  intro position rest
  obtain ⟨ts, middle, hts, h⟩ := h position (ds ++ rest)
  obtain ⟨us, stop, hus, h'⟩ := h' middle rest
  refine ⟨ts ++ us, stop, by rw [kinds_append, hts, hus], ?_⟩
  rw [List.append_assoc, h, h', Functor.map_map]
  simp only [List.append_assoc]

theorem flatMap {α : Type} {as : List α} {text : α → List Char} {spelt : α → List Token.Kind}
    (h : ∀ a ∈ as, Spells (text a) (spelt a)) : Spells (as.flatMap text) (as.flatMap spelt) := by
  induction as with
  | nil => exact nil
  | cons a as ih =>
    rw [List.forall_mem_cons] at h
    exact h.1.append (ih h.2)

theorem gap {c : Char} (hc : Text.isBlank c = true) : Spells [c] [] := by
  intro position rest
  refine ⟨[], position + c.utf8Size, rfl, ?_⟩
  rw [List.singleton_append, tokensFrom_cons_blank hc]
  simp

theorem blank : Spells [' '] [] := gap (by decide)

/-- A token that ends where the text after it begins. -/
theorem cons {c : Char} {k : Token.Kind} (hc : Text.isBlank c = false) (h' : Spells ds ls)
    (h : ∀ position rest, ∃ t,
      nextToken position c (cs ++ (ds ++ rest)) = .ok (t, ds ++ rest) ∧ t.kind = k) :
    Spells (c :: (cs ++ ds)) (k :: ls) := by
  intro position rest
  obtain ⟨t, ht, rfl⟩ := h position rest
  obtain ⟨us, stop, rfl, hus⟩ := h' (position + t.text.utf8ByteSize) rest
  refine ⟨t :: us, stop, rfl, ?_⟩
  rw [List.cons_append, List.append_assoc, tokensFrom_cons_token hc ht, hus, Functor.map_map]
  rfl

/-- A token that ends wherever its text does. -/
theorem token {c : Char} {k : Token.Kind} (hc : Text.isBlank c = false)
    (h : ∀ position rest, ∃ t, nextToken position c (cs ++ rest) = .ok (t, rest) ∧ t.kind = k) :
    Spells (c :: cs) [k] := by
  simpa using cons hc nil h

theorem openParen : Spells ['('] [.openParen] :=
  token (by decide) fun _ _ => ⟨_, rfl, rfl⟩

theorem closeParen : Spells [')'] [.closeParen] :=
  token (by decide) fun _ _ => ⟨_, rfl, rfl⟩

theorem and : Spells ['&', '&'] [.and] := token (by decide) fun _ _ => ⟨_, rfl, rfl⟩

theorem or : Spells ['|', '|'] [.or] := token (by decide) fun _ _ => ⟨_, rfl, rfl⟩

theorem equal : Spells ['=', '='] [.comparison .equal] :=
  token (by decide) fun _ _ => ⟨_, rfl, rfl⟩

theorem found : Spells ['=', '~'] [.comparison .found] :=
  token (by decide) fun _ _ => ⟨_, rfl, rfl⟩

theorem negation (h : Spells ('(' :: ds) ls) : Spells ('!' :: '(' :: ds) (.bang :: ls) :=
  show Spells ('!' :: ([] ++ '(' :: ds)) _ from cons (by decide) h fun _ _ => ⟨_, rfl, rfl⟩

end Spells

theorem nextToken_word {position : Nat} {c d : Char} {cs rest : List Char}
    (hc : isDelimiter c = false) (hcs : ∀ c ∈ cs, isDelimiter c = false)
    (hd : isDelimiter d = true) :
    nextToken position c (cs ++ d :: rest) =
      .ok (⟨.word (String.ofList (c :: cs)), String.ofList (c :: cs), position⟩, d :: rest) := by
  have hword : ∀ c ∈ cs, (!isDelimiter c) = true := by simpa using hcs
  have hquote : ¬ (c = '\'' ∨ c = '"') := by
    rintro (rfl | rfl) <;> exact absurd hc (by decide)
  unfold nextToken
  split
  case h_13 =>
    rw [if_neg hquote, List.takeWhile_append_of_pos hword, List.dropWhile_append_of_pos hword]
    simp [hd]
  all_goals exact absurd hc (by decide)

theorem exists_nextToken_of_isWord {text : String} (h : IsWord text) :
    ∃ c cs, text.toList = c :: cs ∧ Text.isBlank c = false ∧
      ∀ position d rest, isDelimiter d = true →
        nextToken position c (cs ++ d :: rest) = .ok (⟨.word text, text, position⟩, d :: rest) := by
  obtain ⟨c, cs, htext⟩ := List.exists_cons_of_ne_nil h.nonempty
  have free := h.free
  rw [htext, List.forall_mem_cons] at free
  have visible : Text.isBlank c = false := by
    have := free.1
    simp only [isDelimiter, Bool.or_eq_false_iff] at this
    exact this.1
  refine ⟨c, cs, htext, visible, fun position d rest hd => ?_⟩
  rw [nextToken_word free.1 free.2 hd, ← htext, String.ofList_toList]

theorem Spells.word {text : String} (h : IsWord text) :
    Spells (text.toList ++ [' ']) [.word text] := by
  obtain ⟨c, cs, htext, visible, next⟩ := exists_nextToken_of_isWord h
  rw [htext]
  exact Spells.cons visible blank fun position rest =>
    ⟨_, next position ' ' rest (by decide), rfl⟩

/-! ## Values between quotes -/

/-- Puts a backslash before backslashes and before the quotes that a value is to stand between. -/
def escapeFor (quote : Char) (value : String) : String :=
  String.ofList <| value.toList.flatMap fun c =>
    if c = '\\' ∨ c = quote then ['\\', c] else [c]

theorem escapeFor_single (value : String) : escapeFor '\'' value = escape value := rfl

/-- A value between quotes of one kind. -/
def enquote (quote : Char) (value : String) : String :=
  String.singleton quote ++ escapeFor quote value ++ String.singleton quote

theorem toList_enquote (quote : Char) (value : String) :
    (enquote quote value).toList = quote :: ((escapeFor quote value).toList ++ [quote]) := by
  simp [enquote]

theorem enquote_single (value : String) : enquote '\'' value = "'" ++ escape value ++ "'" := rfl

theorem enquote_double (value : String) :
    enquote '"' value = "\"" ++ escapeFor '"' value ++ "\"" := rfl

/-- An escaped value is read back up to the quote after it. -/
theorem quoted_escapeFor {quote : Char} (plain : quote ≠ '\\') (value : String)
    (rest : List Char) :
    quoted quote ((escapeFor quote value).toList ++ quote :: rest) =
      some (value.toList, (escapeFor quote value).toList ++ [quote], rest) := by
  unfold escapeFor
  rw [String.toList_ofList]
  induction value.toList with
  | nil => simp [quoted, plain]
  | cons c cs ih =>
    by_cases hc : c = '\\' ∨ c = quote
    · rw [List.flatMap_cons, if_pos hc, List.append_assoc, List.cons_append, List.cons_append,
        quoted, if_pos hc.symm, List.nil_append, ih]
      rfl
    · rw [List.flatMap_cons, if_neg hc, List.append_assoc, List.cons_append, List.nil_append,
        quoted, if_neg (fun h => hc (.inr h)), ih]
      · rfl
      · rintro d ds rfl
        exact absurd (.inl rfl) hc

theorem nextToken_enquote {quote : Char} (isQuote : quote = '\'' ∨ quote = '"') (position : Nat)
    (value : String) (rest : List Char) :
    nextToken position quote ((escapeFor quote value).toList ++ quote :: rest) =
      .ok (⟨.quoted value, enquote quote value, position⟩, rest) := by
  have plain : quote ≠ '\\' := by
    rintro rfl
    exact absurd isQuote (by decide)
  have text : String.ofList (quote :: ((escapeFor quote value).toList ++ [quote])) =
      enquote quote value := by
    rw [← toList_enquote, String.ofList_toList]
  rcases isQuote with rfl | rfl
  · simp [nextToken, quoted_escapeFor plain, text]
  · simp [nextToken, quoted_escapeFor plain, text]

theorem Spells.quoted (value : String) :
    Spells ('\'' :: ((escape value).toList ++ ['\''])) [.quoted value] := by
  refine token (by decide) fun position rest =>
    ⟨⟨.quoted value, enquote '\'' value, position⟩, ?_, rfl⟩
  rw [List.append_assoc, ← escapeFor_single]
  exact nextToken_enquote (.inl rfl) position value rest

/-! ## Printed filters -/

namespace Spells

theorem spaced {cs : List Char} {ks : List Token.Kind} (h : Spells cs ks) :
    Spells (' ' :: (cs ++ [' '])) ks := by
  simpa using blank.append (h.append blank)

theorem intercalate {α : Type} {as : List α} {text : α → List Char}
    {spelt : α → List Token.Kind} {cs : List Char} {ks : List Token.Kind} (separator : Spells cs ks)
    (h : ∀ a ∈ as, Spells (text a) (spelt a)) :
    Spells (cs.intercalate (as.map text)) (ks.intercalate (as.map spelt)) := by
  cases as with
  | nil => exact nil
  | cons a as =>
    rw [List.forall_mem_cons] at h
    rw [List.map_cons, List.map_cons, intercalate_cons, intercalate_cons, List.flatMap_map,
      List.flatMap_map]
    exact h.1.append (flatMap fun b hb => separator.append (h.2 b hb))

end Spells

end TestScheduler.Query

namespace TestScheduler

@[simp] theorem Field.word_ofWord (word : String) : (Field.ofWord word).word = word := by
  unfold ofWord
  cases h : builtIn.find? (·.word = word) with
  | none => rfl
  | some field => simpa using List.find?_some h

namespace Filter

variable {Expression : Type} [Pattern.Dialect Expression]

open Query

mutual

/-- The kinds of the tokens of a filter's query. -/
def kinds : Filter → List Token.Kind
  | empty => []
  | predicate field m =>
    [.word field.word, .comparison (if m.isPattern then .found else .equal), .quoted m.value]
  | and terms => .openParen :: ([.and].intercalate (kindsEach terms) ++ [.closeParen])
  | or terms => .openParen :: ([.or].intercalate (kindsEach terms) ++ [.closeParen])
  | not term _ => .bang :: .openParen :: (kinds term ++ [.closeParen])

def kindsEach : List Filter → List (List Token.Kind)
  | [] => []
  | f :: fs => kinds f :: kindsEach fs

end

theorem kindsEach_eq_map (fs : List Filter) : kindsEach fs = fs.map kinds := by
  induction fs with
  | nil => rfl
  | cons f fs ih => simp [kindsEach, ih]

/-- The filters that queries stand for, before a negation of the whole query is marked. -/
inductive Queried : Filter → Prop
  | predicate {word : String} {m : Matcher} (isWord : IsWord word) :
      Queried (.predicate (Field.ofWord word) m)
  | and {f g : Filter} {fs : List Filter} (terms : ∀ t ∈ f :: g :: fs, Queried t) :
      Queried (.and (f :: g :: fs))
  | or {f g : Filter} {fs : List Filter} (terms : ∀ t ∈ f :: g :: fs, Queried t) :
      Queried (.or (f :: g :: fs))
  | not {f : Filter} (term : Queried f) : Queried (.not f false)

theorem spells_predicateQuery {field : Field} (m : Matcher) (h : IsWord field.word) :
    Spells (predicateQuery field m).toList (kinds (.predicate field m)) := by
  have spaced {cs : List Char} {comparison : Comparison}
      (hcs : Spells cs [.comparison comparison]) :=
    (Spells.word h).append (hcs.append (Spells.blank.append (Spells.quoted m.value)))
  cases hm : m.isPattern with
  | false => simpa [predicateQuery, kinds, hm] using spaced .equal
  | true => simpa [predicateQuery, kinds, hm] using spaced .found

theorem spells_group {fs : List Filter} {separator : String} {operator : Token.Kind}
    (hseparator : Spells separator.toList [operator])
    (h : ∀ f ∈ fs, Spells f.toQuery.toList f.kinds) :
    Spells ("(" ++ separator.intercalate (toQueries fs) ++ ")").toList
      (.openParen :: ([operator].intercalate (kindsEach fs) ++ [.closeParen])) := by
  have terms := hseparator.intercalate h
  rw [toQueries_eq_map, kindsEach_eq_map]
  simpa [String.toList_intercalate, Function.comp_def] using
    Spells.openParen.append (terms.append Spells.closeParen)

theorem Queried.spells {f : Filter} (h : Queried f) : Spells f.toQuery.toList f.kinds := by
  induction h with
  | predicate isWord => exact spells_predicateQuery _ (by rwa [Field.word_ofWord])
  | and _ ih => exact spells_group Spells.and.spaced ih
  | or _ ih => exact spells_group Spells.or.spaced ih
  | not _ ih =>
    have enclosed := Spells.openParen.append (ih.append Spells.closeParen)
    simpa [toQuery, kinds] using enclosed.negation

end Filter

end TestScheduler
