import TestScheduler.Filter.Basic

/-! # Printing queries

The canonical query of a filter: every value is quoted, every group is parenthesised and every
negation is written with `!`.
-/

namespace TestScheduler

/-- Puts a backslash before backslashes and single quotes. -/
def Query.escape (value : String) : String :=
  String.ofList <| value.toList.flatMap fun c =>
    if c = '\\' ∨ c = '\'' then ['\\', c] else [c]

namespace Filter

variable {Expression : Type} [Pattern.Dialect Expression]

def predicateQuery (field : Field) (m : Matcher) : String :=
  field.word ++ (if m.isPattern then " =~ '" else " == '") ++ Query.escape m.value ++ "'"

mutual

def toQuery : Filter → String
  | empty => ""
  | predicate field m => predicateQuery field m
  | and terms => "(" ++ String.intercalate " && " (toQueries terms) ++ ")"
  | or terms => "(" ++ String.intercalate " || " (toQueries terms) ++ ")"
  | not term _ => "!(" ++ toQuery term ++ ")"

def toQueries : List Filter → List String
  | [] => []
  | f :: fs => toQuery f :: toQueries fs

end

theorem toQueries_eq_map (fs : List Filter) : toQueries fs = fs.map toQuery := by
  induction fs with
  | nil => rfl
  | cons f fs ih => simp [toQueries, ih]

end Filter

end TestScheduler
