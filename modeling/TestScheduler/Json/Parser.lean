import TestScheduler.Json.Value
import TestScheduler.Text.Numeral

/-! # Reading JSON

A document is one value with blanks around it. Values may be nested 127 deep.
-/

namespace TestScheduler.Json

namespace Reader

def isSpace (c : Char) : Bool := c = ' ' || c = '\t' || c = '\n' || c = '\r'

def skipSpace (cs : List Char) : List Char := cs.dropWhile isSpace

/-- A unit of four hexadecimal digits. -/
def unit? (a b c d : Char) : Option Nat := Text.number? 16 [a, b, c, d]

/-- The character of a pair of units. -/
def pair? (high low : Nat) : Option Char :=
  if 0xD800 ≤ high ∧ high < 0xDC00 ∧ 0xDC00 ≤ low ∧ low < 0xE000 then
    Text.charOf? (0x10000 + (high - 0xD800) * 1024 + (low - 0xDC00))
  else none

def simpleEscape? (c : Char) : Option Char :=
  match c with
  | '"' => some '"'
  | '\\' => some '\\'
  | '/' => some '/'
  | 'b' => some '\x08'
  | 'f' => some '\x0c'
  | 'n' => some '\n'
  | 'r' => some '\r'
  | 't' => some '\t'
  | _ => none

/-- The rest of a string after its opening quote, collected in reverse. -/
def string? (read : List Char) : List Char → Option (String × List Char)
  | '"' :: cs => some (String.ofList read.reverse, cs)
  | '\\' :: 'u' :: a :: b :: c :: d :: '\\' :: 'u' :: e :: f :: g :: h :: cs => do
    let unit ← unit? a b c d
    match Text.charOf? unit with
    | some char => string? (char :: read) ('\\' :: 'u' :: e :: f :: g :: h :: cs)
    | none => string? ((← pair? unit (← unit? e f g h)) :: read) cs
  | '\\' :: 'u' :: a :: b :: c :: d :: cs => do
    string? ((← Text.charOf? (← unit? a b c d)) :: read) cs
  | '\\' :: c :: cs => do string? ((← simpleEscape? c) :: read) cs
  | c :: cs => if c.toNat < 32 || c = '\\' then none else string? (c :: read) cs
  | [] => none

/-- Digits that may follow a number: after a point, or after an exponent mark. -/
def tailDigits? (cs : List Char) : Option (List Char × List Char) :=
  let digits := cs.takeWhile Char.isDigit
  if digits.isEmpty then none else some (digits, cs.dropWhile Char.isDigit)

def fractionPart? (cs : List Char) : Option (List Char × List Char) :=
  match cs with
  | '.' :: rest => (tailDigits? rest).map fun (digits, rest) => ('.' :: digits, rest)
  | cs => some ([], cs)

def exponentPart? (cs : List Char) : Option (List Char × List Char) :=
  match cs with
  | e :: rest =>
    if e = 'e' ∨ e = 'E' then
      match rest with
      | sign :: rest =>
        if sign = '+' ∨ sign = '-' then
          (tailDigits? rest).map fun (digits, rest) => (e :: sign :: digits, rest)
        else (tailDigits? (sign :: rest)).map fun (digits, rest) => (e :: digits, rest)
      | [] => none
    else some ([], cs)
  | [] => some ([], [])

/-- A number; minus zero counts as a fraction. -/
def number? (cs : List Char) : Option (Json × List Char) := do
  let (negative, cs) := match cs with
    | '-' :: cs => (true, cs)
    | cs => (false, cs)
  let (digits, rest) ← tailDigits? cs
  guard (digits.length = 1 || digits.head? != some '0')
  let (point, rest) ← fractionPart? rest
  let (exponent, rest) ← exponentPart? rest
  let n ← Text.number? 10 digits
  if point.isEmpty && exponent.isEmpty && !(negative && n = 0) then
    some (.integer (if negative then -n else n), rest)
  else
    some (.fraction (String.ofList ((if negative then ['-'] else []) ++ digits ++ point ++
      exponent)), rest)

def keyword? (word : String) (value : Json) (cs : List Char) : Option (Json × List Char) :=
  let letters := word.toList
  if letters.isPrefixOf cs then some (value, cs.drop letters.length) else none

mutual

/-- A value with at most `depth` levels of nesting inside it. -/
def value? : Nat → Nat → List Char → Option (Json × List Char)
  | 0, _, _ => none
  | fuel + 1, depth, cs =>
    match skipSpace cs with
    | '[' :: rest =>
      match depth with
      | 0 => none
      | depth + 1 =>
        match skipSpace rest with
        | ']' :: rest => some (.array [], rest)
        | rest => items? fuel depth [] rest
    | '\x7b' :: rest =>
      match depth with
      | 0 => none
      | depth + 1 =>
        match skipSpace rest with
        | '\x7d' :: rest => some (.object [], rest)
        | rest => members? fuel depth [] rest
    | '"' :: rest => (string? [] rest).map fun (s, rest) => (.text s, rest)
    | 'n' :: rest => keyword? "null" .null ('n' :: rest)
    | 't' :: rest => keyword? "true" (.boolean true) ('t' :: rest)
    | 'f' :: rest => keyword? "false" (.boolean false) ('f' :: rest)
    | rest => number? rest

def items? : Nat → Nat → List Json → List Char → Option (Json × List Char)
  | 0, _, _, _ => none
  | fuel + 1, depth, read, cs => do
    let (item, rest) ← value? fuel depth cs
    match skipSpace rest with
    | ',' :: rest => items? fuel depth (item :: read) rest
    | ']' :: rest => some (.array (item :: read).reverse, rest)
    | _ => none

def members? : Nat → Nat → List (String × Json) → List Char → Option (Json × List Char)
  | 0, _, _, _ => none
  | fuel + 1, depth, read, cs =>
    match skipSpace cs with
    | '"' :: rest => do
      let (name, rest) ← string? [] rest
      match skipSpace rest with
      | ':' :: rest =>
        let (value, rest) ← value? fuel depth rest
        match skipSpace rest with
        | ',' :: rest => members? fuel depth ((name, value) :: read) rest
        | '\x7d' :: rest => some (.object ((name, value) :: read).reverse, rest)
        | _ => none
      | _ => none
    | _ => none

end

end Reader

def nestingLimit : Nat := 127

def parse? (text : String) : Option Json := do
  let chars := text.toList
  let (value, rest) ← Reader.value? (2 * chars.length + 2) nestingLimit chars
  guard (Reader.skipSpace rest).isEmpty
  some value

end TestScheduler.Json
