import TestScheduler.Pattern.Common
import TestScheduler.Proofs.Query.Compiling
import TestScheduler.Proofs.Query.Spelling

/-! # Compiling printed queries

The query that is printed for a compiled filter compiles to the filter again, unless a property is
named like an operator and stands where an operator has just been read.
-/

namespace TestScheduler

open Query

variable {Expression : Type} [Pattern.Dialect Expression]

namespace Filter

/-- Whether a filter compares a property that is named like an operator. -/
def IsReserved : Filter → Prop
  | predicate field _ => (Token.Kind.word field.word).IsReserved
  | _ => False

/-- Whether the query of a filter can be read: no term of a group but the first one begins with the
name of a property that is also an operator. -/
inductive Rereadable : Filter → Prop
  | empty : Rereadable .empty
  | predicate {field : Field} {m : Matcher} : Rereadable (.predicate field m)
  | and {fs : List Filter} (terms : ∀ f ∈ fs, Rereadable f)
      (later : ∀ f ∈ fs.tail, ¬ f.IsReserved) : Rereadable (.and fs)
  | or {fs : List Filter} (terms : ∀ f ∈ fs, Rereadable f)
      (later : ∀ f ∈ fs.tail, ¬ f.IsReserved) : Rereadable (.or fs)
  | not {f : Filter} {atTop : Bool} (term : Rereadable f) : Rereadable (.not f atTop)

theorem mayFollow_kinds_iff {f : Filter} : MayFollow f.kinds ↔ ¬ f.IsReserved := by
  cases f <;> simp [MayFollow, kinds, IsReserved, Token.Kind.IsReserved, Token.Kind.IsKeyword]

/-! ## Compiled filters -/

end Filter

mutual

theorem Query.IsDisjunction.queried {ks : List Token.Kind} {f : Filter} (h : IsDisjunction ks f)
    (words : ∀ word, .word word ∈ ks → IsWord word) : f.Queried := by
  match h with
  | .single term => exact term.queried words
  | .chain first more =>
    simp only [List.mem_append, or_imp, forall_and] at words
    exact .or (List.forall_mem_cons.mpr ⟨first.queried words.1, more.queried words.2⟩)

theorem Query.AreAlternatives.queried {ks : List Token.Kind} {fs : List Filter}
    (h : AreAlternatives ks fs) (words : ∀ word, .word word ∈ ks → IsWord word) :
    ∀ f ∈ fs, f.Queried := by
  match h with
  | .nil => exact nofun
  | .cons _ _ term more =>
    simp only [List.mem_cons, List.mem_append, or_imp, forall_and] at words
    exact List.forall_mem_cons.mpr ⟨term.queried words.2.1, more.queried words.2.2⟩

theorem Query.IsConjunction.queried {ks : List Token.Kind} {f : Filter} (h : IsConjunction ks f)
    (words : ∀ word, .word word ∈ ks → IsWord word) : f.Queried := by
  match h with
  | .single term => exact term.queried words
  | .chain first more =>
    simp only [List.mem_append, or_imp, forall_and] at words
    exact .and (List.forall_mem_cons.mpr ⟨first.queried words.1, more.queried words.2⟩)

theorem Query.AreFactors.queried {ks : List Token.Kind} {fs : List Filter} (h : AreFactors ks fs)
    (words : ∀ word, .word word ∈ ks → IsWord word) : ∀ f ∈ fs, f.Queried := by
  match h with
  | .nil => exact nofun
  | .cons _ _ term more =>
    simp only [List.mem_cons, List.mem_append, or_imp, forall_and] at words
    exact List.forall_mem_cons.mpr ⟨term.queried words.2.1, more.queried words.2.2⟩

theorem Query.IsOperand.queried {ks : List Token.Kind} {f : Filter} (h : IsOperand ks f)
    (words : ∀ word, .word word ∈ ks → IsWord word) : f.Queried := by
  match h with
  | .negation _ term => exact .not (term.queried fun word hword => words word (by simp [hword]))
  | .parentheses inner => exact inner.queried fun word hword => words word (by simp [hword])
  | .predicate _ denotes =>
    have isWord := words _ List.mem_cons_self
    cases denotes with
    | equal | found => exact .predicate isWord
    | notEqual | notFound => exact .not (.predicate isWord)

end

namespace Filter

/-! ## Readable queries are derived -/

theorem areFactors_kinds {fs : List Filter} (terms : ∀ f ∈ fs, IsOperand f.kinds f)
    (later : ∀ f ∈ fs, ¬ f.IsReserved) :
    AreFactors ((fs.map kinds).flatMap ([.and] ++ ·)) fs := by
  induction fs with
  | nil => exact .nil
  | cons f fs ih =>
    rw [List.forall_mem_cons] at terms later
    exact .cons (.inl rfl) (mayFollow_kinds_iff.mpr later.1) terms.1 (ih terms.2 later.2)

theorem areAlternatives_kinds {fs : List Filter} (terms : ∀ f ∈ fs, IsOperand f.kinds f)
    (later : ∀ f ∈ fs, ¬ f.IsReserved) :
    AreAlternatives ((fs.map kinds).flatMap ([.or] ++ ·)) fs := by
  induction fs with
  | nil => exact .nil
  | cons f fs ih =>
    rw [List.forall_mem_cons] at terms later
    exact .cons (.inl rfl) (mayFollow_kinds_iff.mpr later.1) (.single terms.1)
      (ih terms.2 later.2)

theorem Queried.isOperand_kinds {f : Filter} (h : f.Queried) (readable : f.Rereadable) :
    IsOperand f.kinds f := by
  induction h with
  | @predicate word m _ =>
    refine .predicate (.quoted m.value) ?_
    rw [Field.word_ofWord]
    cases m with
    | literal => exact .equal
    | pattern => exact .found rfl
  | and _ ih =>
    cases readable with
    | and terms later =>
      have operands := fun f hf => ih f hf (terms f hf)
      rw [List.forall_mem_cons] at operands
      rw [kinds, kindsEach_eq_map, List.map_cons, intercalate_cons]
      exact .parentheses (.single (.chain operands.1 (areFactors_kinds operands.2 later)))
  | or _ ih =>
    cases readable with
    | or terms later =>
      have operands := fun f hf => ih f hf (terms f hf)
      rw [List.forall_mem_cons] at operands
      rw [kinds, kindsEach_eq_map, List.map_cons, intercalate_cons]
      exact .parentheses (.chain (.single operands.1) (areAlternatives_kinds operands.2 later))
  | not _ ih =>
    cases readable with
    | not term =>
      refine .negation ?_ (.parentheses (ih term).conjunction)
      simp [MayFollow, Token.Kind.IsReserved, Token.Kind.IsKeyword]

/-! ## Derived queries are readable -/

theorem follows_group {fs : List Filter} {operator : Token.Kind} (symbol : operator.IsSymbol)
    (h : (Token.Kind.openParen :: ([operator].intercalate (kindsEach fs) ++ [.closeParen])).IsChain
      Follows) :
    (∀ f ∈ fs, f.kinds.IsChain Follows) ∧ ∀ f ∈ fs.tail, ¬ f.IsReserved := by
  have h := (List.IsChain.tail h).left_of_append
  cases fs with
  | nil => simp
  | cons f fs =>
    rw [kindsEach_eq_map, List.map_cons, intercalate_cons] at h
    have later : ∀ g ∈ fs, (operator :: g.kinds).IsChain Follows := fun g hg => by
      refine h.right_of_append.infix ?_
      rw [List.flatMap_def]
      exact List.infix_of_mem_flatten (by simpa using ⟨g, hg, rfl⟩)
    constructor
    · refine List.forall_mem_cons.mpr ⟨h.left_of_append, fun g hg => ?_⟩
      exact (List.isChain_cons.mp (later g hg)).2
    · intro g hg
      refine mayFollow_kinds_iff.mp fun k hk => ?_
      exact (List.isChain_cons.mp (later g hg)).1 k hk symbol

theorem rereadable_of_follows {f : Filter} (h : f.kinds.IsChain Follows) : f.Rereadable := by
  induction f with
  | empty => exact .empty
  | predicate field m => exact .predicate
  | and fs ih =>
    obtain ⟨terms, later⟩ := follows_group (.inl rfl) h
    exact .and (fun f hf => ih f hf (terms f hf)) later
  | or fs ih =>
    obtain ⟨terms, later⟩ := follows_group (.inr (.inl rfl)) h
    exact .or (fun f hf => ih f hf (terms f hf)) later
  | not f atTop ih => exact .not (ih h.tail.tail.left_of_append)

/-! ## Recompiling -/

@[simp] theorem toQuery_markTop (f : Filter) : f.markTop.toQuery = f.toQuery := by
  cases f <;> rfl

theorem rereadable_markTop {f : Filter} : f.markTop.Rereadable ↔ f.Rereadable := by
  cases f with
  | not f atTop =>
    constructor
    · rintro (_ | _ | _ | _ | ⟨term⟩)
      exact .not term
    · rintro (_ | _ | _ | _ | ⟨term⟩)
      exact .not term
  | _ => exact .rfl

end Filter

namespace Query

/-- A text that spells some kinds compiles exactly to what the grammar derives from them. -/
theorem compile_eq_ok_iff_of_spells {text : String} {ks : List Token.Kind} {f : Filter}
    (h : Spells text.toList ks) (some : ks ≠ []) :
    compile text = .ok f ↔ ∃ g, IsDisjunction ks g ∧ f = g.markTop := by
  obtain ⟨ts, stop, rfl, htext⟩ := h 0 []
  rw [List.append_nil, tokensFrom] at htext
  replace htext : tokenize text = .ok (ts ++ [Token.endAt stop]) := htext
  refine compile_eq_ok_iff (Bool.eq_false_iff.mpr fun hblank => ?_) htext
  obtain ⟨stop', hstop⟩ := tokensFrom_of_blank 0 (List.all_eq_true.mp hblank)
  rw [tokenize, hstop] at htext
  obtain ⟨rfl, -⟩ := List.append_inj' (show [] ++ [_] = ts ++ [_] from Except.ok.inj htext) rfl
  exact some rfl

theorem exists_derives_of_compile {text : String} {f : Filter}
    (hblank : Text.isBlankText text = false) (h : compile text = .ok f) :
    ∃ body stop g, tokenize text = .ok (body ++ [Token.endAt stop]) ∧
      IsDisjunction (kinds body) g ∧ g.Queried ∧ f = g.markTop := by
  obtain ⟨ts, htext, -⟩ := (compile_eq_ok_iff_reads hblank).mp h
  obtain ⟨body, stop, rfl, proper⟩ := proper_of_tokensFrom htext
  obtain ⟨g, derives, rfl⟩ := (compile_eq_ok_iff hblank htext).mp h
  refine ⟨body, stop, g, htext, derives, derives.queried fun word hword => ?_, rfl⟩
  obtain ⟨t, ht, hkind⟩ := List.mem_map.mp hword
  exact ((proper t ht).ofWord word hkind).2

theorem queried_of_compile {text : String} {f : Filter} (h : compile text = .ok f) :
    f = .empty ∨ ∃ g : Filter, g.Queried ∧ f = g.markTop := by
  cases hblank : Text.isBlankText text with
  | true =>
    rw [compile, if_pos hblank] at h
    cases h
    exact .inl rfl
  | false =>
    obtain ⟨_, _, g, -, -, queried, hf⟩ := exists_derives_of_compile hblank h
    exact .inr ⟨g, queried, hf⟩

/-- A printed query compiles to its filter if it can be read, and not at all otherwise. -/
theorem compile_toQuery_iff {f g : Filter} (h : f.Queried) :
    compile f.toQuery = .ok g ↔ g = f.markTop ∧ f.Rereadable := by
  have some : f.kinds ≠ [] := by
    intro none
    cases h <;> cases none
  have hcompile {g : Filter} : compile f.toQuery = .ok g ↔
      ∃ g', IsDisjunction f.kinds g' ∧ g = g'.markTop :=
    compile_eq_ok_iff_of_spells h.spells some
  have derived (readable : f.Rereadable) : compile f.toQuery = .ok f.markTop :=
    hcompile.mpr ⟨f, (h.isOperand_kinds readable).conjunction, rfl⟩
  constructor
  · intro hg
    obtain ⟨g', derives, rfl⟩ := hcompile.mp hg
    have readable := Filter.rereadable_of_follows derives.placed.follows
    rw [derived readable] at hg
    exact ⟨(Except.ok.inj hg).symm, readable⟩
  · rintro ⟨rfl, readable⟩
    exact derived readable

/-- The printed query of a compiled filter compiles to the filter again exactly if it can be read,
and else to nothing. -/
theorem compile_toQuery {text : String} {f : Filter} (h : compile text = .ok f) (g : Filter) :
    compile f.toQuery = .ok g ↔ g = f ∧ f.Rereadable := by
  rcases queried_of_compile h with rfl | ⟨f, queried, rfl⟩
  · have hempty : compile Filter.empty.toQuery = .ok .empty := rfl
    rw [hempty, Except.ok.injEq, @eq_comm _ Filter.empty]
    exact ⟨fun h => ⟨h, .empty⟩, And.left⟩
  · rw [Filter.toQuery_markTop, compile_toQuery_iff queried, Filter.rereadable_markTop]

end Query

end TestScheduler

namespace TestScheduler.Query

theorem compile_toQuery_sample :
    compile "cat=a" = .ok (.predicate .category (.literal "a")) ∧
      compile (Filter.predicate .category (.literal "a")).toQuery =
        .ok (.predicate .category (.literal "a")) := by
  have htext : tokenize "cat=a" = .ok ([⟨.word "cat", "cat", 0⟩, ⟨.comparison .equal, "=", 3⟩,
      ⟨.word "a", "a", 4⟩] ++ [Token.endAt 5]) := by decide +kernel
  have derives : IsOperand [.word "cat", .comparison .equal, .word "a"]
      (.predicate .category (.literal "a")) := .predicate (.word "a") .equal
  have h := (compile_eq_ok_iff (by decide) htext).mpr ⟨_, derives.conjunction, rfl⟩
  exact ⟨h, (compile_toQuery h _).mpr ⟨rfl, .predicate⟩⟩

/-- A parenthesis may begin with a property that is named like an operator. Its query is printed
without the parenthesis and cannot be read. -/
theorem not_compile_toQuery_of_reserved :
    compile "cat==A && (and==x)" = .ok (.and [.predicate .category (.literal "A"),
      .predicate (.property "and") (.literal "x")]) ∧
    ∀ g, compile (Filter.and [.predicate .category (.literal "A"),
      .predicate (.property "and") (.literal "x")]).toQuery ≠ .ok g := by
  have htext : tokenize "cat==A && (and==x)" = .ok ([⟨.word "cat", "cat", 0⟩,
      ⟨.comparison .equal, "==", 3⟩, ⟨.word "A", "A", 5⟩, ⟨.and, "&&", 7⟩, ⟨.openParen, "(", 10⟩,
      ⟨.word "and", "and", 11⟩, ⟨.comparison .equal, "==", 14⟩, ⟨.word "x", "x", 16⟩,
      ⟨.closeParen, ")", 17⟩] ++ [Token.endAt 18]) := by decide +kernel
  have first : IsOperand [.word "cat", .comparison .equal, .word "A"]
      (.predicate .category (.literal "A")) := .predicate (.word "A") .equal
  have inner : IsOperand [.word "and", .comparison .equal, .word "x"]
      (.predicate (.property "and") (.literal "x")) := .predicate (.word "x") .equal
  have more := AreFactors.cons (.inl rfl)
    (by simp [MayFollow, Token.Kind.IsReserved, Token.Kind.IsKeyword])
    (.parentheses inner.conjunction) .nil
  have h : compile "cat==A && (and==x)" = .ok (.and [_, _]) :=
    (compile_eq_ok_iff (by decide) htext).mpr ⟨_, .single (.chain first more), rfl⟩
  refine ⟨h, fun g hg => ?_⟩
  rcases queried_of_compile h with hempty | ⟨f, queried, hf⟩
  · cases hempty
  · rw [hf, Filter.toQuery_markTop, compile_toQuery_iff queried, ← Filter.rereadable_markTop,
      ← hf] at hg
    obtain ⟨-, _ | _ | ⟨_, later⟩⟩ := hg
    exact later _ List.mem_cons_self (.inl ⟨"and", rfl, by decide⟩)

end TestScheduler.Query
