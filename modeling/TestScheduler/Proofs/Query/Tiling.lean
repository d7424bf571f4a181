import TestScheduler.Proofs.Query.Locating

/-! # Tokens and the text between them

The tokens of a text stand in it one after another, with nothing but blanks before, between and
after them. A word goes on until a delimiter or the end of the text. It begins after a delimiter too,
unless it stands directly behind an operator that asks for a pattern, whose tilde is no delimiter.
-/

namespace TestScheduler.Query

/-- Whether a token asks for a pattern. -/
def Token.IsSearch (t : Token) : Prop :=
  t.kind = .comparison .found ∨ t.kind = .comparison .notFound

/-- Whether a token that is followed by some text was cut off where it has to end. -/
structure Token.Cut (t : Token) (rest : List Char) : Prop where
  notEnd : t.kind ≠ .endOfQuery
  nonempty : t.text ≠ ""
  ofWord : ∀ word, t.kind = .word word →
    t.text = word ∧ IsWord word ∧ rest.head?.all isDelimiter = true
  ofOther : (∀ word, t.kind ≠ .word word) →
    t.text.toList.getLast?.all isDelimiter = true ∨ t.IsSearch

/-- Whether tokens make up a text that begins at a byte offset, with blanks before each of them. -/
inductive Tiles : Nat → List Char → List Token → Prop
  | stop (start : Nat) : Tiles start [] [Token.endAt start]
  | blank {start : Nat} {c : Char} {cs : List Char} {ts : List Token}
      (isBlank : Text.isBlank c = true) (after : Tiles (start + c.utf8Size) cs ts) :
      Tiles start (c :: cs) ts
  | token {t : Token} {rest : List Char} {ts : List Token} (cut : t.Cut rest)
      (after : Tiles (t.position + t.text.utf8ByteSize) rest ts) :
      Tiles t.position (t.text.toList ++ rest) (t :: ts)

section Cutting

variable {position : Nat} {c quote : Char} {cs rest value text : List Char} {t : Token}

theorem getLast?_of_quoted (h : quoted quote cs = some (value, text, rest)) :
    text.getLast? = some quote := by
  fun_induction quoted quote cs generalizing value text rest with
  | case1 => cases h
  | case2 c cs _ ih | case3 c cs _ ih | case5 c cs _ _ ih =>
    obtain ⟨⟨v, u, r⟩, hq, he⟩ := Option.map_eq_some_iff.mp h
    cases he
    simp [List.getLast?_cons, ih hq]
  | case4 =>
    cases h
    rfl

theorem delimited_dropWhile (cs : List Char) :
    (cs.dropWhile (!isDelimiter ·)).head?.all isDelimiter = true := by
  have first := List.head?_dropWhile_not (!isDelimiter ·) cs
  split at first
  · next c hc => simpa [hc] using first
  · next none => simp [none]

/-- The tilde is the only end of an operator that is no delimiter. -/
theorem ends_of_mem_signs {s : Token.Kind × String} (h : s ∈ signs) :
    s.2.toList.getLast?.all isDelimiter = true ∨
      s.1 = .comparison .found ∨ s.1 = .comparison .notFound := by
  revert s
  decide

theorem cut_of_nextToken (h : nextToken position c cs = .ok (t, rest))
    (hc : Text.isBlank c = false) : t.Cut rest := by
  have proper := proper_of_nextToken h hc
  have nonempty := (of_nextToken_ok h hc).2.2.ne_empty
  cases heads_of_nextToken h hc with
  | sign listed _ =>
    refine ⟨proper.notEnd, nonempty, fun word hword => ?_, fun _ => ends_of_mem_signs listed⟩
    exact absurd hword (notWord_of_mem_signs listed word)
  | literal quote read =>
    refine ⟨proper.notEnd, nonempty, nofun, fun _ => .inl ?_⟩
    rw [String.toList_ofList, List.getLast?_cons, getLast?_of_quoted read]
    exact isDelimiter_of_quote quote
  | word free =>
    refine ⟨proper.notEnd, nonempty, fun word hword => ?_, fun other => absurd rfl (other _)⟩
    obtain ⟨text, isWord⟩ := proper.ofWord word hword
    exact ⟨text, isWord, delimited_dropWhile cs⟩

end Cutting

variable {start : Nat} {cs : List Char} {ts all : List Token} {text : String}

theorem tiles_of_tokensFrom (h : tokensFrom start cs = .ok ts) : Tiles start cs ts := by
  fun_induction tokensFrom start cs generalizing ts with
  | case1 start =>
    cases h
    exact .stop start
  | case2 start c cs hc ih => exact .blank hc (ih h)
  | case3 => cases h
  | case4 start c cs hc t rest ht ih =>
    obtain ⟨more, hmore, h⟩ := bind_eq_ok_iff.mp h
    cases h
    have hc := Bool.eq_false_iff.mpr hc
    obtain ⟨rfl, text, -⟩ := of_nextToken_ok ht hc
    rw [text]
    exact .token (cut_of_nextToken ht hc) (ih hmore)

namespace Tiles

theorem exists_body (h : Tiles start cs ts) :
    ∃ body, ts = body ++ [Token.endAt (start + (String.ofList cs).utf8ByteSize)] ∧
      ∀ t ∈ body, t.kind ≠ .endOfQuery := by
  induction h with
  | stop start => exact ⟨[], by simp, nofun⟩
  | @blank start c cs ts _ _ ih =>
    obtain ⟨body, rfl, notEnd⟩ := ih
    refine ⟨body, ?_, notEnd⟩
    rw [String.ofList_cons, String.utf8ByteSize_append, String.utf8ByteSize_singleton, Nat.add_assoc]
  | @token t rest ts cut _ ih =>
    obtain ⟨body, rfl, notEnd⟩ := ih
    refine ⟨t :: body, ?_, List.forall_mem_cons.mpr ⟨cut.notEnd, notEnd⟩⟩
    rw [String.ofList_append, String.ofList_toList, String.utf8ByteSize_append, Nat.add_assoc]
    rfl

theorem ordered (h : Tiles start cs ts) :
    (∀ t ∈ ts, start ≤ t.position) ∧ ts.Pairwise fun a b =>
      a.position < b.position ∧ a.position + a.text.utf8ByteSize ≤ b.position := by
  induction h with
  | stop start => simp [Token.endAt]
  | @blank start c cs ts _ _ ih =>
    obtain ⟨later, ordered⟩ := ih
    exact ⟨fun t ht => Nat.le_trans (Nat.le_add_right _ _) (later t ht), ordered⟩
  | @token t rest ts cut _ ih =>
    obtain ⟨later, ordered⟩ := ih
    have long : 0 < t.text.utf8ByteSize := by
      apply Nat.pos_of_ne_zero
      simpa using cut.nonempty
    constructor
    · rintro u (_ | ⟨_, hu⟩)
      · exact Nat.le_refl _
      · exact Nat.le_trans (Nat.le_add_right _ _) (later u hu)
    · refine List.pairwise_cons.mpr ⟨fun u hu => ?_, ordered⟩
      have := later u hu
      omega

theorem covered (h : Tiles start cs ts) {left right : List Char} {c : Char}
    (split : cs = left ++ c :: right) :
    Text.isBlank c = true ∨ ∃ t ∈ ts, t.position ≤ start + (String.ofList left).utf8ByteSize ∧
      start + (String.ofList left).utf8ByteSize < t.position + t.text.utf8ByteSize := by
  induction h generalizing left with
  | stop start => simp at split
  | @blank start d cs ts isBlank _ ih =>
    cases left with
    | nil =>
      obtain ⟨rfl, -⟩ := List.cons.inj split
      exact .inl isBlank
    | cons e left =>
      obtain ⟨rfl, rest⟩ := List.cons.inj split
      have := ih rest
      rwa [Nat.add_assoc, ← String.utf8ByteSize_singleton, ← String.utf8ByteSize_append,
        ← String.ofList_cons] at this
  | @token t rest ts cut _ ih =>
    have later {more : List Char} (beyond : rest = more ++ c :: right)
        (hleft : left = t.text.toList ++ more) :
        Text.isBlank c = true ∨ ∃ u ∈ t :: ts,
          u.position ≤ t.position + (String.ofList left).utf8ByteSize ∧
          t.position + (String.ofList left).utf8ByteSize < u.position + u.text.utf8ByteSize := by
      have size : (String.ofList left).utf8ByteSize =
          t.text.utf8ByteSize + (String.ofList more).utf8ByteSize := by
        rw [hleft, String.ofList_append, String.ofList_toList, String.utf8ByteSize_append]
      rcases ih beyond with isBlank | ⟨u, hu, begins, ends⟩
      · exact .inl isBlank
      · exact .inr ⟨u, List.mem_cons_of_mem _ hu, by omega, by omega⟩
    rcases List.append_eq_append_iff.mp split with ⟨more, hleft, beyond⟩ | ⟨more, text, within⟩
    · exact later beyond hleft
    · cases more with
      | nil =>
        have beyond : rest = [] ++ c :: right := within.symm
        exact later beyond (by simpa using text.symm)
      | cons d more =>
        obtain ⟨rfl, -⟩ := List.cons.inj within
        have size := congrArg (fun cs => (String.ofList cs).utf8ByteSize) text
        simp only [String.ofList_toList, String.ofList_append, String.ofList_cons,
          String.utf8ByteSize_append, String.utf8ByteSize_singleton] at size
        have := c.utf8Size_pos
        exact .inr ⟨t, List.mem_cons_self, by omega, by omega⟩

end Tiles

theorem IsWord.not_delimited {word : String} (h : IsWord word) (rest : List Char) :
    ¬ (word.toList ++ rest).head?.all isDelimiter = true := by
  obtain ⟨c, cs, hword⟩ := List.exists_cons_of_ne_nil h.nonempty
  have free := h.free c (by simp [hword])
  simp [hword, free]

/-- Whether no word reaches across a place behind some text: it stands behind a delimiter or behind a
token that asks for a pattern. -/
def Parted (ts : List Token) (left : String) : Prop :=
  left.toList.getLast?.all isDelimiter = true ∨
    ∃ op ∈ ts, op.IsSearch ∧ op.position + op.text.utf8ByteSize = left.utf8ByteSize

/-- Whether a token stands in a text between two others. -/
structure Token.Stands (t : Token) (ts : List Token) (left right : String) : Prop where
  place : t.position = left.utf8ByteSize
  cut : t.Cut right.toList
  parted : ∀ word, t.kind = .word word → Parted ts left

theorem Tiles.stands {left : String} (h : Tiles start cs ts) (here : start = left.utf8ByteSize)
    (known : ts ⊆ all)
    (parted : Parted all left ∨ cs.head?.all isDelimiter = true) :
    ∀ t ∈ ts, t.kind ≠ .endOfQuery →
      ∃ before after, (left ++ String.ofList cs) = before ++ t.text ++ after ∧
        t.Stands all before after := by
  induction h generalizing left with
  | stop start => simp [Token.endAt]
  | @blank start c cs ts isBlank _ ih =>
    have further := @ih (left ++ String.singleton c) (by simp [here]) known (.inl (.inl ?_))
    · rw [String.ofList_cons, ← String.append_assoc]
      exact further
    · simp [isDelimiter, isBlank]
  | @token t rest ts cut _ ih =>
    obtain ⟨ht, known⟩ := List.cons_subset.mp known
    intro u hu notEnd
    rcases List.mem_cons.mp hu with rfl | hu
    · refine ⟨left, String.ofList rest, by simp [String.append_assoc], here, by simpa using cut, ?_⟩
      intro word hword
      rcases parted with parted | delimited
      · exact parted
      · obtain ⟨text, isWord, -⟩ := cut.ofWord word hword
        rw [text] at delimited
        exact absurd delimited (isWord.not_delimited rest)
    · have further := @ih (left ++ t.text) (by simp [here]) known ?_ u hu notEnd
      · rw [String.ofList_append, String.ofList_toList, ← String.append_assoc]
        exact further
      · by_cases isWord : ∃ word, t.kind = .word word
        · obtain ⟨word, hword⟩ := isWord
          exact .inr (cut.ofWord word hword).2.2
        · left
          rcases cut.ofOther (not_exists.mp isWord) with delimited | search
          · left
            have nonempty : t.text.toList ≠ [] := by simpa using cut.nonempty
            rwa [String.toList_append, List.getLast?_append_of_ne_nil _ nonempty]
          · exact .inr ⟨t, ht, search, by simp [here]⟩

theorem extract_between (left piece right : String) :
    (left ++ piece ++ right).toByteArray.extract left.utf8ByteSize
      (left.utf8ByteSize + piece.utf8ByteSize) = piece.toByteArray := by
  rw [String.append_assoc, String.toByteArray_append, String.toByteArray_append]
  have skipped := ByteArray.extract_append_size_add (a := left.toByteArray)
    (b := piece.toByteArray ++ right.toByteArray) (i := 0) (j := piece.utf8ByteSize)
  exact skipped.trans (ByteArray.extract_append_eq_left rfl)

/-- Whether a piece at a byte offset of a text is a run of characters that are no delimiters, and is
part of no longer one. -/
def IsMaximalRun (text piece : String) (position : Nat) : Prop :=
  ∃ left right, text = left ++ piece ++ right ∧ position = left.utf8ByteSize ∧ IsWord piece ∧
    left.toList.getLast?.all isDelimiter = true ∧ right.toList.head?.all isDelimiter = true

/-- The tokens of a text stand where they say they do, in order and without overlap, and what they
do not cover is blank. The last of them marks the end of the text. A word is a run of characters that
are no delimiters. It goes on as far as there are any, and it could begin earlier only if it stands
directly behind a token that asks for a pattern. -/
theorem tokenize_tiles (h : tokenize text = .ok ts) :
    (∃ body, ts = body ++ [Token.endAt text.utf8ByteSize] ∧
      ∀ t ∈ body, t.kind ≠ .endOfQuery ∧ t.text ≠ "" ∧
        text.toByteArray.extract t.position (t.position + t.text.utf8ByteSize) =
          t.text.toByteArray) ∧
    ts.Pairwise (fun a b =>
      a.position < b.position ∧ a.position + a.text.utf8ByteSize ≤ b.position) ∧
    (∀ left c right, text = left ++ String.singleton c ++ right →
      Text.isBlank c = true ∨ ∃ t ∈ ts, t.position ≤ left.utf8ByteSize ∧
        left.utf8ByteSize < t.position + t.text.utf8ByteSize) ∧
    ∀ t ∈ ts, ∀ word, t.kind = .word word → ∃ left right, text = left ++ word ++ right ∧
      t.position = left.utf8ByteSize ∧ t.text = word ∧ IsWord word ∧
      right.toList.head?.all isDelimiter = true ∧ Parted ts left := by
  have tiles := tiles_of_tokensFrom h
  have start : 0 = "".utf8ByteSize := rfl
  have stands := tiles.stands start (List.Subset.refl ts) (.inl (.inl rfl))
  rw [String.empty_append, String.ofList_toList] at stands
  obtain ⟨body, rfl, notEnd⟩ := tiles.exists_body
  refine ⟨⟨body, by simp, fun t ht => ?_⟩, tiles.ordered.2, fun left c right split => ?_,
    fun t ht word hword => ?_⟩
  · obtain ⟨left, right, split, stands⟩ :=
      stands t (List.mem_append_left _ ht) (notEnd t ht)
    refine ⟨notEnd t ht, stands.cut.nonempty, ?_⟩
    rw [split, stands.place]
    exact extract_between left t.text right
  · have whole : text.toList = left.toList ++ c :: right.toList := by simp [split]
    have covered := tiles.covered whole
    simpa using covered
  · obtain ⟨left, right, split, stands⟩ := stands t ht (by simp [hword])
    obtain ⟨rfl, isWord, ends⟩ := stands.cut.ofWord word hword
    exact ⟨left, right, split, stands.place, rfl, isWord, ends, stands.parted _ hword⟩

theorem tokenize_tiles_sample :
    tokenize "é =~ 'a b'|| x" = .ok [⟨.word "é", "é", 0⟩, ⟨.comparison .found, "=~", 3⟩,
        ⟨.quoted "a b", "'a b'", 6⟩, ⟨.or, "||", 11⟩, ⟨.word "x", "x", 14⟩, Token.endAt 15] ∧
      "é =~ 'a b'|| x".toByteArray.extract 6 (6 + 5) = "'a b'".toByteArray ∧
      ∃ left right, "é =~ 'a b'|| x" = left ++ "x" ++ right ∧ left.utf8ByteSize = 14 ∧
        right.toList.head?.all isDelimiter = true := by
  have h : tokenize "é =~ 'a b'|| x" = .ok [⟨.word "é", "é", 0⟩, ⟨.comparison .found, "=~", 3⟩,
      ⟨.quoted "a b", "'a b'", 6⟩, ⟨.or, "||", 11⟩, ⟨.word "x", "x", 14⟩, Token.endAt 15] := by
    decide +kernel
  obtain ⟨⟨body, same, slices⟩, -, -, words⟩ := tokenize_tiles h
  have literal : ⟨.quoted "a b", "'a b'", 6⟩ ∈ body := by
    have among : ⟨.quoted "a b", "'a b'", 6⟩ ∈ body ++ [Token.endAt 15] := by
      rw [← show _ = body ++ [Token.endAt 15] from same]
      simp
    simpa [Token.endAt] using among
  obtain ⟨left, right, split, place, -, -, ends, -⟩ := words ⟨.word "x", "x", 14⟩ (by simp) "x" rfl
  exact ⟨h, (slices _ literal).2.2, left, right, split, place.symm, ends⟩

/-- What stands before a byte offset of a text is determined by the offset. -/
theorem eq_of_append_eq_append {left left' rest rest' : String}
    (same : left ++ rest = left' ++ rest') (size : left.utf8ByteSize = left'.utf8ByteSize) :
    left = left' := by
  apply String.toByteArray_inj.mp
  have first := extract_between "" left rest
  have second := extract_between "" left' rest'
  rw [String.empty_append, size, same] at first
  rw [String.empty_append] at second
  exact first.symm.trans second

/-- The tilde of an operator that asks for a pattern is no delimiter, so the word behind it is part
of a longer run. -/
theorem not_isMaximalRun_behind_search :
    tokenize "name=~*" = .ok [⟨.word "name", "name", 0⟩, ⟨.comparison .found, "=~", 4⟩,
        ⟨.word "*", "*", 6⟩, Token.endAt 7] ∧
      ¬ IsMaximalRun "name=~*" "*" 6 := by
  constructor
  · decide +kernel
  · rintro ⟨left, right, split, place, -, delimited, -⟩
    have split : "name=~" ++ "*" = left ++ ("*" ++ right) := by
      rw [← String.append_assoc]
      exact split
    obtain rfl := eq_of_append_eq_append split place
    exact absurd delimited (by decide)

end TestScheduler.Query
