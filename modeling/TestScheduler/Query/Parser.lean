import TestScheduler.Filter.Basic
import TestScheduler.Query.Token

/-! # Compiling queries

The grammar, loosest binding first, where `and` and `or` may be written in any case:

    expr      := or
    or        := and (("||" | "or") and)*
    and       := unary (("&&" | "and") unary)*
    unary     := "!" unary | "(" expr ")" | predicate
    predicate := word ("=" | "==" | "!=" | "=~" | "!~") (word | quoted)

Each reader returns the tokens it leaves, with a proof that it consumed some.
-/

namespace TestScheduler.Query

variable {Expression : Type} [Pattern.Dialect Expression]

/-- The tokens left by a reader that consumed at least one. -/
abbrev Shorter (ts : List Token) := { rest : List Token // rest.length < ts.length }

/-- The tokens left by a reader that may consume none. -/
abbrev NoLonger (ts : List Token) := { rest : List Token // rest.length ≤ ts.length }

def peek : List Token → Token
  | [] => .endAt 0
  | t :: _ => t

/-- Whether a token cannot begin an operand. -/
def Token.endsOperand (t : Token) : Bool :=
  t.kind = .endOfQuery || t.kind = .closeParen || t.isAnd || t.isOr

/-- Fails if the operator `op` is not followed by the beginning of an operand. -/
def expectOperand (op : Token) (rest : List Token) : Except QueryError Unit :=
  if (peek rest).endsOperand then .error (op.error .danglingOperator) else .ok ()

/-- Joins the terms of a chain; a single term stands for itself. -/
def joined (join : List Filter → Filter) (first : Filter) (more : List Filter) : Filter :=
  if more.isEmpty then first else join (first :: more)

def matcherFor (comparison : Comparison) (value : Token) (text : String) :
    Except QueryError Matcher :=
  match Matcher.ofValue? text (comparison = .found || comparison = .notFound) with
  | some m => .ok m
  | none => .error (value.error .invalidPattern)

def predicateFor (field : Field) (comparison : Comparison) (m : Matcher) : Filter :=
  match comparison with
  | .equal => .predicate field m
  | .found => .predicate field m
  | .notEqual => .not (.predicate field m) false
  | .notFound => .not (.predicate field m) false

/-- Reads what follows the field of a predicate. -/
def comparisonAfter (field : Token) :
    (ts : List Token) → Except QueryError (Filter × NoLonger ts)
  | op :: value :: rest =>
    match op.kind with
    | .comparison comparison =>
      let operand (text : String) := do
        let m ← matcherFor comparison value text
        .ok (predicateFor (Field.ofWord field.text) comparison m, ⟨rest, by grind⟩)
      match value.kind with
      | .word text => operand text
      | .quoted text => operand text
      | _ => .error (op.error .danglingOperator)
    | .word _ => .error (op.error .unknownOperator)
    | _ => .error (field.error .missingOperator)
  | [op] =>
    match op.kind with
    | .comparison _ => .error (op.error .danglingOperator)
    | .word _ => .error (op.error .unknownOperator)
    | _ => .error (field.error .missingOperator)
  | [] => .error (field.error .missingOperator)

mutual

def disjunction (ts : List Token) : Except QueryError (Filter × Shorter ts) := do
  let (first, ⟨rest, _⟩) ← conjunction ts
  let (more, ⟨rest, _⟩) ← disjunctionTail rest
  .ok (joined .or first more, ⟨rest, by omega⟩)
termination_by (ts.length, 3)

def disjunctionTail (ts : List Token) : Except QueryError (List Filter × NoLonger ts) :=
  match ts with
  | [] => .ok ([], ⟨[], by simp⟩)
  | op :: rest =>
    if op.isOr then do
      expectOperand op rest
      let (term, ⟨after, _⟩) ← conjunction rest
      let (more, ⟨after, _⟩) ← disjunctionTail after
      .ok (term :: more, ⟨after, by grind⟩)
    else .ok ([], ⟨op :: rest, by simp⟩)
termination_by (ts.length, 0)

def conjunction (ts : List Token) : Except QueryError (Filter × Shorter ts) := do
  let (first, ⟨rest, _⟩) ← operand ts
  let (more, ⟨rest, _⟩) ← conjunctionTail rest
  .ok (joined .and first more, ⟨rest, by omega⟩)
termination_by (ts.length, 2)

def conjunctionTail (ts : List Token) : Except QueryError (List Filter × NoLonger ts) :=
  match ts with
  | [] => .ok ([], ⟨[], by simp⟩)
  | op :: rest =>
    if op.isAnd then do
      expectOperand op rest
      let (term, ⟨after, _⟩) ← operand rest
      let (more, ⟨after, _⟩) ← conjunctionTail after
      .ok (term :: more, ⟨after, by grind⟩)
    else .ok ([], ⟨op :: rest, by simp⟩)
termination_by (ts.length, 0)

/-- A negation, a parenthesised expression or a predicate. -/
def operand (ts : List Token) : Except QueryError (Filter × Shorter ts) :=
  match ts with
  | [] => .error ((Token.endAt 0).error .unexpectedToken)
  | t :: rest =>
    match t.kind with
    | .bang => do
      expectOperand t rest
      let (term, ⟨rest, _⟩) ← operand rest
      .ok (.not term false, ⟨rest, by grind⟩)
    | .openParen =>
      if (peek rest).kind = .endOfQuery then .error (t.error .unbalancedParenthesis)
      else do
        let (inner, after) ← disjunction rest
        match _h : after.val with
        | [] => .error (t.error .unbalancedParenthesis)
        | close :: rest =>
          if close.kind = .closeParen then .ok (inner, ⟨rest, by have := after.property; grind⟩)
          else .error (t.error .unbalancedParenthesis)
    | .closeParen => .error (t.error .unbalancedParenthesis)
    | .and => .error (t.error .danglingOperator)
    | .or => .error (t.error .danglingOperator)
    | .word _ => do
      let (predicate, ⟨rest, _⟩) ← comparisonAfter t rest
      .ok (predicate, ⟨rest, by grind⟩)
    | _ => .error (t.error .unexpectedToken)
termination_by (ts.length, 1)

end

/-- Compiles a query. Blank text selects everything, and a negation of the whole query is marked
as the top of a run. -/
def compile (text : String) : Except QueryError Filter :=
  if Text.isBlankText text then .ok .empty
  else do
    let ts ← tokenize text
    let (f, ⟨rest, _⟩) ← disjunction ts
    let next := peek rest
    match next.kind with
    | .endOfQuery => .ok f.markTop
    | .closeParen => .error (next.error .unbalancedParenthesis)
    | _ => .error (next.error .unexpectedToken)

end TestScheduler.Query
