import TestScheduler.Query.Error
import TestScheduler.Text.CharTable

/-! # Query tokens

The tokens of a query carry their text as written and its byte offset, so that the text of a
query is its tokens with blanks between them. The last token marks the end.
-/

namespace TestScheduler.Query

inductive Comparison where
  | equal | notEqual | found | notFound
  deriving DecidableEq, Repr

inductive Token.Kind where
  | word (text : String)
  | quoted (value : String)
  | comparison (comparison : Comparison)
  | and
  | or
  | bang
  | openParen
  | closeParen
  | endOfQuery
  deriving DecidableEq, Repr

structure Token where
  kind : Token.Kind
  text : String
  position : Nat
  deriving DecidableEq, Repr

namespace Token

def endAt (position : Nat) : Token := ⟨.endOfQuery, "", position⟩

def error (t : Token) (problem : QueryError.Problem) : QueryError :=
  ⟨problem, if t.kind = .endOfQuery then "end of query" else t.text, t.position⟩

/-- Whether the token is a given word in any mix of ASCII cases. -/
def isKeyword (t : Token) (keyword : String) : Bool :=
  match t.kind with
  | .word text => text.toList.map Char.toLower = keyword.toList
  | _ => false

def isAnd (t : Token) : Bool := t.kind = .and || t.isKeyword "and"

def isOr (t : Token) : Bool := t.kind = .or || t.isKeyword "or"

end Token

/-! ## Splitting a text -/

/-- The characters that end a word. -/
def isDelimiter (c : Char) : Bool :=
  Text.isBlank c || ['(', ')', '=', '!', '&', '|', '\'', '"'].contains c

/-- A quoted literal after its opening quote: its value, its text up to the closing quote, and
what follows. A backslash escapes the quote and itself, and is kept before anything else. -/
def quoted (quote : Char) : List Char → Option (List Char × List Char × List Char)
  | [] => none
  | '\\' :: c :: cs =>
    if c = quote ∨ c = '\\' then
      (quoted quote cs).map fun (value, text, rest) => (c :: value, '\\' :: c :: text, rest)
    else
      (quoted quote (c :: cs)).map fun (value, text, rest) => ('\\' :: value, '\\' :: text, rest)
  | c :: cs =>
    if c = quote then some ([], [c], cs)
    else (quoted quote cs).map fun (value, text, rest) => (c :: value, c :: text, rest)

theorem text_append_rest_of_quoted {quote : Char} {cs value text rest : List Char}
    (h : quoted quote cs = some (value, text, rest)) : text ++ rest = cs := by
  fun_induction quoted quote cs generalizing value text rest with
  | case1 => cases h
  | case2 c cs _ ih | case3 c cs _ ih =>
    obtain ⟨⟨v, t, r⟩, hq, he⟩ := Option.map_eq_some_iff.1 h
    cases he
    simp [ih hq]
  | case4 => cases h; rfl
  | case5 c cs _ _ ih =>
    obtain ⟨⟨v, t, r⟩, hq, he⟩ := Option.map_eq_some_iff.1 h
    cases he
    simp [ih hq]

/-- The token that begins with the character `c`, which is not blank, and what follows it. -/
def nextToken (position : Nat) (c : Char) (cs : List Char) :
    Except QueryError (Token × List Char) :=
  match c, cs with
  | '(', cs => .ok (⟨.openParen, "(", position⟩, cs)
  | ')', cs => .ok (⟨.closeParen, ")", position⟩, cs)
  | '&', '&' :: cs => .ok (⟨.and, "&&", position⟩, cs)
  | '&', _ => .error ⟨.unknownOperator, "&", position⟩
  | '|', '|' :: cs => .ok (⟨.or, "||", position⟩, cs)
  | '|', _ => .error ⟨.unknownOperator, "|", position⟩
  | '=', '=' :: cs => .ok (⟨.comparison .equal, "==", position⟩, cs)
  | '=', '~' :: cs => .ok (⟨.comparison .found, "=~", position⟩, cs)
  | '=', cs => .ok (⟨.comparison .equal, "=", position⟩, cs)
  | '!', '=' :: cs => .ok (⟨.comparison .notEqual, "!=", position⟩, cs)
  | '!', '~' :: cs => .ok (⟨.comparison .notFound, "!~", position⟩, cs)
  | '!', cs => .ok (⟨.bang, "!", position⟩, cs)
  | c, cs =>
    if c = '\'' ∨ c = '"' then
      match quoted c cs with
      | some (value, text, rest) =>
        .ok (⟨.quoted (String.ofList value), String.ofList (c :: text), position⟩, rest)
      | none => .error ⟨.unterminatedLiteral, String.ofList (c :: cs), position⟩
    else
      let text := String.ofList (c :: cs.takeWhile (!isDelimiter ·))
      .ok (⟨.word text, text, position⟩, cs.dropWhile (!isDelimiter ·))

theorem length_of_nextToken {position : Nat} {c : Char} {cs rest : List Char} {t : Token}
    (h : nextToken position c cs = .ok (t, rest)) : rest.length ≤ cs.length := by
  unfold nextToken at h
  split at h
  case h_13 =>
    split at h
    · split at h
      · next hq =>
        cases h
        have := congrArg List.length (text_append_rest_of_quoted hq)
        simp only [List.length_append] at this
        omega
      · cases h
    · cases h
      exact (List.dropWhile_sublist _).length_le
  all_goals cases h <;> simp

/-- Splits a text that begins at a byte offset into tokens. -/
def tokensFrom (position : Nat) (cs : List Char) : Except QueryError (List Token) :=
  match cs with
  | [] => .ok [Token.endAt position]
  | c :: cs =>
    if Text.isBlank c then tokensFrom (position + c.utf8Size) cs
    else
      match _h : nextToken position c cs with
      | .error e => .error e
      | .ok (t, rest) => do
        let more ← tokensFrom (position + t.text.utf8ByteSize) rest
        .ok (t :: more)
termination_by cs.length
decreasing_by
  · simp
  · have := length_of_nextToken _h
    simp only [List.length_cons]
    omega

def tokenize (text : String) : Except QueryError (List Token) := tokensFrom 0 text.toList

end TestScheduler.Query
