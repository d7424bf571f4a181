import Mathlib.Data.List.TakeWhile
import TestScheduler.Proofs.Tree.Depths
import TestScheduler.Proofs.Tree.Subtree
import TestScheduler.Report.Outline
import TestScheduler.Text.Split

/-! # Reading outlines

An outline has one line for each result, as no part of a line holds a line break but the name of the
result. A line begins with two blanks per level and goes on with something else, so its depth can be
read off, and the depths of all lines determine how the results are nested.
-/

namespace TestScheduler

/-! ## Lines -/

namespace Text

theorem splitOn_append {separator : Char} {part : List Char} (h : separator ∉ part)
    (rest : List Char) :
    splitOn separator (part ++ separator :: rest) = part :: splitOn separator rest := by
  induction part with
  | nil => simp [splitOn]
  | cons c part ih =>
    obtain ⟨other, h⟩ := List.ne_and_not_mem_of_not_mem_cons h
    rw [List.cons_append, splitOn, if_neg (Ne.symm other), ih h]

theorem splitOn_lines {separator : Char} {lines : List (List Char)}
    (h : ∀ line ∈ lines, separator ∉ line) :
    splitOn separator (lines.flatMap (· ++ [separator])) = lines ++ [[]] := by
  induction lines with
  | nil => rfl
  | cons line lines ih =>
    obtain ⟨first, h⟩ := List.forall_mem_cons.mp h
    rw [List.flatMap_cons, List.append_assoc, List.singleton_append, splitOn_append first, ih h,
      List.cons_append]

theorem toList_indentation (depth : Nat) :
    (indentation depth).toList = List.replicate (2 * depth) ' ' := by
  rw [indentation, String.toList_join, List.flatMap_replicate, Nat.mul_comm]
  exact List.flatten_replicate_replicate (n := depth) (m := 2)

theorem break_not_mem_firstLine (s : String) : '\n' ∉ (firstLine s).toList := by
  have line : '\n' ∉ s.toList.takeWhile (· ≠ '\n') := by
    intro h
    simpa using List.mem_takeWhile_imp h
  unfold firstLine
  dsimp only
  split
  · next before hline =>
    split
    · rw [String.toList_ofList, List.mem_reverse]
      intro h
      apply line
      rw [← List.mem_reverse, hline]
      exact List.mem_cons_of_mem _ h
    · next whole =>
      have whole := (List.takeWhile_prefix (· ≠ '\n')).eq_of_length_le (Nat.le_of_not_lt whole)
      rwa [whole] at line
  · rwa [String.toList_ofList]

theorem break_not_mem_toDigits (n : Nat) : '\n' ∉ Nat.toDigits 10 n := by
  intro h
  exact absurd (Nat.isDigit_of_mem_toDigits (by decide) (by decide) h) (by decide)

end Text

/-! ## Entries -/

theorem Status.break_not_mem (s : Status) :
    '\n' ∉ s.symbol.toList ∧ '\n' ∉ s.title.toList ∧ '\n' ∉ s.colour.toList := by
  cases s <;> decide

theorem Status.exists_symbol (s : Status) : ∃ first, s.symbol.toList = [first] ∧ first ≠ ' ' := by
  cases s <;> exact ⟨_, rfl, by decide⟩

theorem Label.break_not_mem_title (l : Label) : '\n' ∉ l.title.toList := by
  cases l <;> decide

namespace Verdict

variable (v : Verdict) (isColoured : Bool)

theorem break_not_mem_badge : '\n' ∉ (v.badge isColoured).toList := by
  obtain ⟨symbol, title, colour⟩ := v.status.break_not_mem
  have shown : '\n' ∉ v.title.toList := by
    unfold Verdict.title
    split
    · next label _ => simp [title, label.break_not_mem_title]
    · exact title
  unfold badge
  split
  · simp [Text.painted, symbol, shown, colour]
  · simp [symbol, shown]

theorem head?_badge : ∃ first, (v.badge isColoured).toList.head? = some first ∧ first ≠ ' ' := by
  unfold badge
  split
  · exact ⟨'\x1b', by simp [Text.painted], by decide⟩
  · obtain ⟨first, symbol, shown⟩ := v.status.exists_symbol
    exact ⟨first, by simp [symbol], shown⟩

end Verdict

namespace Outline

/-- What a line shows of a result behind the blanks that it begins with. -/
def entry (isColoured : Bool) (r : Result) : String :=
  r.verdict.badge isColoured ++ " " ++ r.name ++ " [" ++ toString r.durationMs ++ "ms]" ++
    match r.message with
    | some message => " - " ++ Text.firstLine message
    | none => ""

variable {isColoured : Bool} {r : Result} {t : ResultTree} {depth : Nat}

theorem outlineLine_eq (isColoured : Bool) (depth : Nat) (r : Result) :
    ResultTree.outlineLine isColoured depth r =
      Text.indentation depth ++ entry isColoured r ++ "\n" := by
  unfold ResultTree.outlineLine entry
  cases r.message with
  | none => simp only [String.append_assoc]
  | some message => simp only [String.append_assoc]

theorem exists_entry_eq_cons (isColoured : Bool) (r : Result) :
    ∃ first rest, (entry isColoured r).toList = first :: rest ∧ first ≠ ' ' := by
  obtain ⟨first, badge, shown⟩ := r.verdict.head?_badge isColoured
  have begins : (entry isColoured r).toList.head? = some first := by
    simp [entry, badge]
  obtain ⟨rest, hentry⟩ := List.head?_eq_some_iff.mp begins
  exact ⟨first, rest, hentry, shown⟩

theorem break_not_mem_entry (h : '\n' ∉ r.name.toList) :
    '\n' ∉ (entry isColoured r).toList := by
  have badge := r.verdict.break_not_mem_badge isColoured
  have duration := Text.break_not_mem_toDigits r.durationMs
  unfold entry
  split
  · next message _ =>
    simp [badge, h, duration, Text.break_not_mem_firstLine message]
  · simp [badge, h, duration]

/-- A line without its line break: two blanks per level and the entry of the result. -/
def line (isColoured : Bool) (depth : Nat) (r : Result) : List Char :=
  List.replicate (2 * depth) ' ' ++ (entry isColoured r).toList

/-- The depth of a line and what stands behind its blanks. -/
def placed (line : List Char) : Nat × String :=
  ((line.takeWhile (· = ' ')).length / 2, String.ofList (line.dropWhile (· = ' ')))

/-- Reads the entries of an outline, nested as its indentation says. -/
def read? (text : String) : Option (Tree String) :=
  match Tree.ofDepths ((Text.splitOn '\n' text.toList).dropLast.map placed) with
  | [(0, t)] => some t
  | _ => none

theorem placed_line (isColoured : Bool) (depth : Nat) (r : Result) :
    placed (line isColoured depth r) = (depth, entry isColoured r) := by
  obtain ⟨first, rest, hentry, shown⟩ := exists_entry_eq_cons isColoured r
  have blanks : ∀ c ∈ List.replicate (2 * depth) ' ', decide (c = ' ') = true := by
    simp
  have other : ∀ c ∈ (entry isColoured r).toList.head?, decide (c = ' ') = false := by
    rw [hentry]
    rintro c ⟨⟩
    simpa using shown
  rw [placed, line, List.takeWhile_append_of_pos blanks, List.dropWhile_append_of_pos blanks,
    takeWhile_of_head? other, dropWhile_of_head? other]
  simp

theorem splitOn_outline (named : ∀ r ∈ t.preorder, '\n' ∉ r.name.toList) :
    Text.splitOn '\n' (t.outline isColoured).toList =
      (t.preorderWithDepth.map fun (depth, r) => line isColoured depth r) ++ [[]] := by
  have unbroken : ∀ l ∈ t.preorderWithDepth.map fun (depth, r) => line isColoured depth r,
      '\n' ∉ l := by
    rw [List.forall_mem_map]
    rintro ⟨depth, r⟩ h
    have hr : r ∈ t.preorder := by
      rw [← Tree.map_snd_preorderWithDepth]
      exact List.mem_map_of_mem (f := Prod.snd) h
    simp [line, break_not_mem_entry (named r hr)]
  rw [← Text.splitOn_lines unbroken, ResultTree.outline, String.toList_join, List.flatMap_map,
    List.flatMap_map]
  refine congrArg _ (List.flatMap_congr fun e _ => ?_)
  simp [outlineLine_eq, Text.toList_indentation, line]

theorem read?_outline (named : ∀ r ∈ t.preorder, '\n' ∉ r.name.toList) :
    read? (t.outline isColoured) = some (t.map (entry isColoured)) := by
  have entries : (t.preorderWithDepth.map fun (depth, r) => line isColoured depth r).map placed =
      (t.map (entry isColoured)).preorderWithDepth := by
    rw [Tree.preorderWithDepth_map, List.map_map]
    exact List.map_congr_left fun e _ => placed_line isColoured e.1 e.2
  rw [read?, splitOn_outline named, List.dropLast_concat, entries, Tree.ofDepths_preorderWithDepth]
  rfl

/-- An outline has as many lines as there are results, each ended by a line break. The lines stand in
pre-order, and each begins with exactly two blanks for every level that its result lies below the
root. So the nesting of the results can be read off the text, which no other nesting has. -/
theorem outline_tells_nesting (isColoured : Bool)
    (named : ∀ r ∈ t.preorder, '\n' ∉ r.name.toList) :
    Text.splitOn '\n' (t.outline isColoured).toList =
      (t.preorderWithDepth.map fun (depth, r) =>
        List.replicate (2 * depth) ' ' ++ (entry isColoured r).toList) ++ [[]] ∧
    t.preorderWithDepth.length = t.size ∧
    t.preorderWithDepth.map Prod.snd = t.preorder ∧
    (∀ r, ∃ first rest, (entry isColoured r).toList = first :: rest ∧ first ≠ ' ') ∧
    read? (t.outline isColoured) = some (t.map (entry isColoured)) ∧
    ∀ (other : ResultTree) (isColoured' : Bool), (∀ r ∈ other.preorder, '\n' ∉ r.name.toList) →
      other.outline isColoured' = t.outline isColoured →
        other.map (fun _ => ()) = t.map fun _ => () := by
  have walk := Tree.map_snd_preorderWithDepth t
  refine ⟨splitOn_outline named, ?_, walk, exists_entry_eq_cons isColoured, read?_outline named, ?_⟩
  · rw [← Tree.length_preorder, ← walk, List.length_map]
  · intro other isColoured' named' same
    have first : read? (other.outline isColoured') = some (other.map (entry isColoured')) :=
      read?_outline named'
    rw [same, read?_outline named] at first
    have shape := congrArg (Tree.map fun _ => ()) (Option.some.inj first)
    rw [Tree.map_map, Tree.map_map] at shape
    exact shape.symm

theorem outline_tells_nesting_sample :
    let leaf (name : String) (verdict : Verdict) (message : String) : ResultTree :=
      .node { id := 0, name, fullName := name, kind := .leaf, verdict, message := some message } []
    let t : ResultTree :=
      .node { id := 0, name := "Calc", fullName := "Calc", kind := .suite, verdict := .childFailure }
        [leaf "Adds" .success "", leaf "Divides" .error "first\r\n  ✓ Passed Last [0ms]"]
    (∀ r ∈ t.preorder, '\n' ∉ r.name.toList) ∧
      read? (t.outline false) = some (.node "✗ Failed Calc [0ms]"
        [.node "✓ Passed Adds [0ms] - " [], .node "✗ Failed:Error Divides [0ms] - first" []]) := by
  intro leaf t
  have named : ∀ r ∈ t.preorder, '\n' ∉ r.name.toList := by
    decide
  obtain ⟨-, -, -, -, nesting, -⟩ := outline_tells_nesting false named
  refine ⟨named, nesting.trans ?_⟩
  decide +kernel

end Outline

end TestScheduler
