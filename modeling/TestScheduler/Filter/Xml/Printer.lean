import TestScheduler.Filter.Basic
import TestScheduler.Xml.Entity

/-! # Writing filter XML

Each predicate and combinator is one element. Properties carry their key in a `name` attribute,
patterns are marked `re="1"`, and the empty filter is an empty `filter` element.
-/

namespace TestScheduler

namespace Field

/-- The element that stands for a field. -/
def element : Field → String
  | property _ => "prop"
  | field => field.word

end Field

namespace Filter

variable {Expression : Type} [Pattern.Dialect Expression]

def predicateXml (field : Field) (m : Matcher) : String :=
  let key := match field with
    | .property key => " name=\"" ++ Xml.escape key ++ "\""
    | _ => ""
  let mark := if m.isPattern then " re=\"1\"" else ""
  "<" ++ field.element ++ key ++ mark ++ ">" ++ Xml.escape m.value ++ "</" ++ field.element ++ ">"

mutual

def toXml : Filter → String
  | empty => "<filter/>"
  | predicate field m => predicateXml field m
  | and terms => "<and>" ++ toXmlEach terms ++ "</and>"
  | or terms => "<or>" ++ toXmlEach terms ++ "</or>"
  | not term _ => "<not>" ++ toXml term ++ "</not>"

def toXmlEach : List Filter → String
  | [] => ""
  | f :: fs => toXml f ++ toXmlEach fs

end

end Filter

end TestScheduler
