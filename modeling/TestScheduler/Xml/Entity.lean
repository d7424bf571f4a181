import TestScheduler.Text.Numeral

/-! # Character entities

Escaped text writes the five special characters as named entities. Unescaping also knows
character references; nothing else may stand between an ampersand and a semicolon.
-/

namespace TestScheduler.Xml

def escapeChar (c : Char) : List Char :=
  match c with
  | '<' => "&lt;".toList
  | '>' => "&gt;".toList
  | '&' => "&amp;".toList
  | '\'' => "&apos;".toList
  | '"' => "&quot;".toList
  | c => [c]

def escape (text : String) : String := String.ofList (text.toList.flatMap escapeChar)

/-- The character of a reference such as `#65` or `#x41`, less its number sign. -/
def reference? (digits : List Char) : Option Char := do
  let n ← match digits with
    | 'x' :: digits => Text.number? 16 digits
    | digits => Text.number? 10 digits
  if n = 0 then none else Text.charOf? n

/-- What stands between an ampersand and its semicolon. -/
def entity? (name : List Char) : Option Char :=
  match name with
  | '#' :: digits => reference? digits
  | name =>
    match String.ofList name with
    | "lt" => some '<'
    | "gt" => some '>'
    | "amp" => some '&'
    | "apos" => some '\''
    | "quot" => some '"'
    | _ => none

/-- Reads escaped text; `entity` holds the reversed name of an entity being read. -/
def unescapeFrom (entity : Option (List Char)) : List Char → Option (List Char)
  | [] => if entity.isNone then some [] else none
  | c :: cs =>
    match entity with
    | none =>
      if c = '&' then unescapeFrom (some []) cs
      else (unescapeFrom none cs).map (c :: ·)
    | some name =>
      if c = '&' then none
      else if c = ';' then do
        let e ← entity? name.reverse
        let more ← unescapeFrom none cs
        some (e :: more)
      else unescapeFrom (some (c :: name)) cs

def unescape? (text : String) : Option String :=
  (unescapeFrom none text.toList).map String.ofList

end TestScheduler.Xml
