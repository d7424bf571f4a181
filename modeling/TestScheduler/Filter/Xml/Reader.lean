import TestScheduler.Filter.Basic
import TestScheduler.Text.CharTable
import TestScheduler.Xml.Entity
import TestScheduler.Xml.Event

/-! # Reading filter XML

The events of a document are read with a stack of open elements. The text of a predicate is its
value and is kept verbatim; text between the elements of a combinator is layout.
-/

namespace TestScheduler

variable {Expression : Type} [Pattern.Dialect Expression]

inductive FilterXmlError where
  | malformed
  | malformedAttribute
  | unknownElement (element : String)
  | missingAttribute (element name : String)
  | childCount (element expected : String) (found : Nat)
  | unexpectedChild (element : String)
  | rootCount (count : Nat)
  | unclosed (element : String)
  | invalidPattern (element : String)
  deriving DecidableEq, Repr

def FilterXmlError.message : FilterXmlError → String
  | malformed => "malformed filter XML"
  | malformedAttribute => "malformed attribute in filter XML"
  | unknownElement element => "unknown filter element <" ++ element ++ ">"
  | missingAttribute element name =>
    "<" ++ element ++ "> is missing required attribute '" ++ name ++ "'"
  | childCount element expected found =>
    "<" ++ element ++ "> expects " ++ expected ++ " child filter(s), found " ++ toString found
  | unexpectedChild element => "<" ++ element ++ "> cannot contain child elements"
  | rootCount count => "filter XML has " ++ toString count ++ " root elements, expected one"
  | unclosed element => "unclosed element <" ++ element ++ ">"
  | invalidPattern element => "invalid regular expression in <" ++ element ++ ">"

namespace FilterXml

/-- An open element with what has been collected inside it. -/
structure Frame where
  element : String
  key : Option String
  isPattern : Bool
  children : List Filter
  text : String

namespace Frame

/-- Takes an attribute. Those with other names are ignored. -/
def setAttribute (frame : Frame) (name value : String) : Frame :=
  if name = "name" then { frame with key := some value }
  else if name = "re" then
    { frame with isPattern := value = "1" || value.toList.map Char.toLower = "true".toList }
  else frame

/-- Reads the attributes of an element one by one. No name may occur twice. -/
def withAttributes (frame : Frame) (seen : List String) (attributeText : List Char) :
    Except FilterXmlError Frame :=
  match _h : Xml.nextAttribute attributeText with
  | none => .error .malformedAttribute
  | some none => .ok frame
  | some (some (name, raw, rest)) =>
    if seen.contains name then .error .malformedAttribute
    else
      match Xml.unescape? raw with
      | none => .error .malformed
      | some value => (frame.setAttribute name value).withAttributes (name :: seen) rest
termination_by attributeText.length
decreasing_by exact Xml.length_of_nextAttribute _h

def open? (tag : Xml.Tag) : Except FilterXmlError Frame :=
  withAttributes ⟨tag.name, none, false, [], ""⟩ [] tag.attributeText.toList

/-- Whether text inside the element is layout. -/
def isGroup (frame : Frame) : Bool := ["filter", "and", "or", "not"].contains frame.element

def matcher (frame : Frame) : Except FilterXmlError Matcher :=
  if !frame.children.isEmpty then .error (.unexpectedChild frame.element)
  else
    match Matcher.ofValue? frame.text frame.isPattern with
    | some m => .ok m
    | none => .error (.invalidPattern frame.element)

def closePredicate (frame : Frame) (field : Field) : Except FilterXmlError Filter := do
  .ok (.predicate field (← frame.matcher))

/-- The filter of a finished element. -/
def close (frame : Frame) : Except FilterXmlError Filter :=
  match frame.element with
  | "filter" =>
    match frame.children with
    | [] => .ok .empty
    | [f] => .ok f
    | fs => .ok (.and fs)
  | "and" =>
    if frame.children.isEmpty then .error (.childCount frame.element "at least one" 0)
    else .ok (.and frame.children)
  | "or" =>
    if frame.children.isEmpty then .error (.childCount frame.element "at least one" 0)
    else .ok (.or frame.children)
  | "not" =>
    match frame.children with
    | [f] => .ok (.not f false)
    | fs => .error (.childCount frame.element "exactly one" fs.length)
  | "prop" => do
    let m ← frame.matcher
    match frame.key with
    | some key => .ok (.predicate (.property key) m)
    | none => .error (.missingAttribute frame.element "name")
  | element =>
    match Field.builtIn.find? (·.word = element) with
    | some field => frame.closePredicate field
    | none => .error (.unknownElement element)

end Frame

/-- What has been read: the open elements, innermost first, and the finished root elements. -/
structure Progress where
  opened : List Frame
  roots : List Filter

namespace Progress

/-- Adds a finished element to the innermost open one. -/
def attach (p : Progress) (f : Filter) : Progress :=
  match p.opened with
  | [] => { p with roots := p.roots ++ [f] }
  | frame :: opened =>
    { p with opened := { frame with children := frame.children ++ [f] } :: opened }

def appendText (p : Progress) (text : String) : Progress :=
  match p.opened with
  | [] => p
  | frame :: opened => { p with opened := { frame with text := frame.text ++ text } :: opened }

def step (p : Progress) : Xml.Event → Except FilterXmlError Progress
  | .start tag => do .ok { p with opened := (← Frame.open? tag) :: p.opened }
  | .empty tag => do
    let frame ← Frame.open? tag
    .ok (p.attach (← frame.close))
  | .finish _ =>
    match p.opened with
    | [] => .ok p
    | frame :: opened => do .ok ({ p with opened }.attach (← frame.close))
  | .text raw =>
    match p.opened with
    | [] => .ok p
    | frame :: _ =>
      if frame.isGroup then .ok p
      else
        match Xml.unescape? raw with
        | some text => .ok (p.appendText text)
        | none => .error .malformed
  | .literalText text => .ok (p.appendText text)
  | .skipped => .ok p

/-- The filter of a whole document: it has one root, and a negation there is marked. -/
def finish (p : Progress) : Except FilterXmlError Filter :=
  match p.opened, p.roots with
  | frame :: _, _ => .error (.unclosed frame.element)
  | [], [f] => .ok f.markTop
  | [], roots => .error (.rootCount roots.length)

end Progress

def readEvents (events : List Xml.Event) : Except FilterXmlError Progress :=
  events.foldlM Progress.step ⟨[], []⟩

end FilterXml

/-- Reads a filter from XML. Blank text selects everything. -/
def Filter.ofXml (text : String) : Except FilterXmlError Filter :=
  if Text.isBlankText text then .ok .empty
  else do
    let document := Xml.Document.ofText text
    let progress ← FilterXml.readEvents document.events
    if document.isComplete then progress.finish else .error .malformed

end TestScheduler
