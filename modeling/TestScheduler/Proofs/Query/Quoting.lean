import TestScheduler.Proofs.Query.Spelling

/-! # Quoted values within a query

A comparison with a quoted value can stand before any text. The value is read back whatever it
contains, the literal ends at its own closing quote, and the text behind it is split as it would be
alone, at byte offsets that count what stands before it.
-/

namespace TestScheduler

/-- An error in a text before which some bytes are put. -/
def QueryError.moved (bytes : Nat) (e : QueryError) : QueryError :=
  { e with position := bytes + e.position }

namespace Query

/-- A token of a text before which some bytes are put. -/
def Token.moved (bytes : Nat) (t : Token) : Token :=
  { t with position := bytes + t.position }

/-! ## Texts behind other texts -/

section Moving

variable (bytes position : Nat) (c : Char) (cs : List Char)

theorem nextToken_moved :
    nextToken (bytes + position) c cs =
      ((nextToken position c cs).mapError (·.moved bytes)).map (Prod.map (·.moved bytes) id) := by
  unfold nextToken
  split
  case h_13 =>
    split
    · split <;> rfl
    · rfl
  all_goals rfl

/-- What a text is split into does not depend on where it begins but for the byte offsets. -/
theorem tokensFrom_moved :
    tokensFrom (bytes + position) cs =
      ((tokensFrom position cs).mapError (·.moved bytes)).map (List.map (·.moved bytes)) := by
  fun_induction tokensFrom position cs with
  | case1 position =>
    rw [tokensFrom]
    rfl
  | case2 position c cs hc ih => rw [tokensFrom_cons_blank hc, Nat.add_assoc, ih]
  | case3 position c cs hc e he =>
    have moved : nextToken (bytes + position) c cs = .error (e.moved bytes) := by
      rw [nextToken_moved, he]
      rfl
    rw [tokensFrom_cons_error (Bool.eq_false_iff.mpr hc) moved]
    rfl
  | case4 position c cs hc t rest ht ih =>
    have moved : nextToken (bytes + position) c cs = .ok (t.moved bytes, rest) := by
      rw [nextToken_moved, ht]
      rfl
    have text : (t.moved bytes).text = t.text := rfl
    rw [tokensFrom_cons_token (Bool.eq_false_iff.mpr hc) moved, text, Nat.add_assoc, ih]
    cases tokensFrom (position + t.text.utf8ByteSize) rest <;> rfl

theorem tokensFrom_of_tokenize {text : String} {ts : List Token} (h : tokenize text = .ok ts) :
    tokensFrom bytes text.toList = .ok (ts.map (·.moved bytes)) := by
  have moved := tokensFrom_moved bytes 0 text.toList
  rw [← tokenize, h] at moved
  exact moved

end Moving

/-! ## Comparisons before other texts -/

/-- An operator as it is written between a word and a value. -/
def Comparison.sign : Comparison → String
  | equal => "=="
  | notEqual => "!="
  | found => "=~"
  | notFound => "!~"

/-- A comparison of a word with a literal. -/
def comparing (word : String) (op : Comparison) (literal : String) : String :=
  word ++ " " ++ op.sign ++ " " ++ literal

variable {word : String} {quote : Char}

theorem tokensFrom_word (isWord : IsWord word) (position : Nat) {d : Char}
    (hd : isDelimiter d = true) (rest : List Char) :
    tokensFrom position (word.toList ++ d :: rest) =
      (⟨.word word, word, position⟩ :: ·) <$>
        tokensFrom (position + word.utf8ByteSize) (d :: rest) := by
  obtain ⟨c, cs, text, visible, next⟩ := exists_nextToken_of_isWord isWord
  rw [text]
  exact tokensFrom_cons_token visible (next position d rest hd)

theorem tokensFrom_sign (op : Comparison) (position : Nat) (rest : List Char) :
    tokensFrom position (op.sign.toList ++ rest) =
      (⟨.comparison op, op.sign, position⟩ :: ·) <$> tokensFrom (position + 2) rest := by
  cases op <;> exact tokensFrom_cons_token (by decide) rfl

theorem tokensFrom_enquote (isQuote : quote = '\'' ∨ quote = '"') (value : String)
    (position : Nat) (rest : List Char) :
    tokensFrom position ((enquote quote value).toList ++ rest) =
      (⟨.quoted value, enquote quote value, position⟩ :: ·) <$>
        tokensFrom (position + (enquote quote value).utf8ByteSize) rest := by
  have visible : Text.isBlank quote = false := by
    rcases isQuote with rfl | rfl <;> decide
  rw [toList_enquote, List.cons_append, List.append_assoc]
  exact tokensFrom_cons_token visible (nextToken_enquote isQuote position value rest)

theorem tokenize_comparing_append (isWord : IsWord word) (op : Comparison)
    (isQuote : quote = '\'' ∨ quote = '"') (value rest : String) :
    tokenize (comparing word op (enquote quote value) ++ rest) =
      ([⟨.word word, word, 0⟩, ⟨.comparison op, op.sign, word.utf8ByteSize + 1⟩,
          ⟨.quoted value, enquote quote value, word.utf8ByteSize + 4⟩] ++ ·) <$>
        tokensFrom (comparing word op (enquote quote value)).utf8ByteSize rest.toList := by
  have text : (comparing word op (enquote quote value) ++ rest).toList =
      word.toList ++ ' ' :: (op.sign.toList ++ ' ' ::
        ((enquote quote value).toList ++ rest.toList)) := by
    simp [comparing]
  have size : (comparing word op (enquote quote value)).utf8ByteSize =
      word.utf8ByteSize + 4 + (enquote quote value).utf8ByteSize := by
    have blank : " ".utf8ByteSize = 1 := rfl
    have sign : op.sign.utf8ByteSize = 2 := by cases op <;> rfl
    simp only [comparing, String.utf8ByteSize_append, blank, sign]
  rw [tokenize, text, tokensFrom_word isWord 0 (by decide), tokensFrom_cons_blank (by decide),
    tokensFrom_sign, tokensFrom_cons_blank (by decide), tokensFrom_enquote isQuote, size,
    Functor.map_map, Functor.map_map, Nat.zero_add]
  rfl

/-- A comparison of a word with a quoted value stands before any text that can be split into tokens.
The value is read back as it was before it was escaped, and the tokens of the text stay the same but
for the bytes before them. -/
theorem tokenize_comparing {rest : String} {ts : List Token} (isWord : IsWord word)
    (op : Comparison) (value : String) (h : tokenize rest = .ok ts) :
    ∀ literal ∈ ["'" ++ escape value ++ "'", "\"" ++ escapeFor '"' value ++ "\""],
      tokenize (comparing word op literal ++ rest) =
        .ok (⟨.word word, word, 0⟩ :: ⟨.comparison op, op.sign, word.utf8ByteSize + 1⟩ ::
          ⟨.quoted value, literal, word.utf8ByteSize + 4⟩ ::
          ts.map (·.moved (comparing word op literal).utf8ByteSize)) := by
  rw [List.forall_mem_cons, List.forall_mem_singleton, ← enquote_single, ← enquote_double]
  constructor
  · rw [tokenize_comparing_append isWord op (.inl rfl), tokensFrom_of_tokenize _ h]
    rfl
  · rw [tokenize_comparing_append isWord op (.inr rfl), tokensFrom_of_tokenize _ h]
    rfl

/-- A value that holds both kinds of characters to escape, before a text that begins with a quote. -/
theorem tokenize_comparing_sample :
    IsWord "né" ∧ tokenize "'y'" = .ok [⟨.quoted "y", "'y'", 0⟩, Token.endAt 3] ∧
      tokenize "né =~ 'it\\'s \\\\''y'" = .ok [⟨.word "né", "né", 0⟩, ⟨.comparison .found, "=~", 4⟩,
        ⟨.quoted "it's \\", "'it\\'s \\\\'", 7⟩, ⟨.quoted "y", "'y'", 17⟩, Token.endAt 20] ∧
      tokenize "né =~ \"it's \\\\\"'y'" = .ok [⟨.word "né", "né", 0⟩,
        ⟨.comparison .found, "=~", 4⟩, ⟨.quoted "it's \\", "\"it's \\\\\"", 7⟩,
        ⟨.quoted "y", "'y'", 16⟩, Token.endAt 19] := by
  have isWord : IsWord "né" := isWord_of_all (by decide) (by decide)
  have h : tokenize "'y'" = .ok [⟨.quoted "y", "'y'", 0⟩, Token.endAt 3] := by decide +kernel
  have read := tokenize_comparing isWord .found "it's \\" h
  exact ⟨isWord, h, read "'it\\'s \\\\'" (by decide), read "\"it's \\\\\"" (by decide)⟩

end Query

end TestScheduler
