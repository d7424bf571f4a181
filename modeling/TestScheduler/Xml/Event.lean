/-! # Markup events

A document is read as a sequence of events up to its end or its first piece of malformed markup.
End tags must match the latest open start tag. Comments, instructions, declarations and document
types are passed over.
-/

namespace TestScheduler.Xml

/-- The inside of a start tag: the element name and the text after it. -/
structure Tag where
  name : String
  attributeText : String
  deriving DecidableEq, Repr

inductive Event where
  | start (tag : Tag)
  /-- An element that ends where it starts. -/
  | empty (tag : Tag)
  | finish (name : String)
  /-- Text as written, with its entities. -/
  | text (raw : String)
  | literalText (text : String)
  | skipped
  deriving DecidableEq, Repr

/-- The events of a document, and whether it is well-formed to its end. -/
structure Document where
  events : List Event
  isComplete : Bool
  deriving DecidableEq, Repr

def isSpace (c : Char) : Bool := c = ' ' || c = '\t' || c = '\n' || c = '\r'

/-- Splits after the `>` that ends a tag; inside quotes it does not end the tag. -/
def splitTag (quote : Option Char) : List Char → Option (List Char × List Char)
  | [] => none
  | c :: cs =>
    let more (quote : Option Char) :=
      (splitTag quote cs).map fun (inside, rest) => (c :: inside, rest)
    match quote with
    | some q => more (if c = q then none else some q)
    | none =>
      if c = '>' then some ([], cs)
      else more (if c = '\'' ∨ c = '"' then some c else none)

/-- Splits after the first `>` whose preceding characters, latest first, satisfy a test. -/
def splitWhere (test : List Char → Bool) (before : List Char) :
    List Char → Option (List Char × List Char)
  | [] => none
  | c :: cs =>
    if c = '>' && test before then some (before.reverse, cs)
    else splitWhere test (c :: before) cs

theorem length_of_splitTag {quote : Option Char} {cs inside rest : List Char}
    (h : splitTag quote cs = some (inside, rest)) : rest.length < cs.length := by
  induction cs generalizing quote inside with
  | nil => cases h
  | cons c cs ih =>
    have more {q : Option Char}
        (h : (splitTag q cs).map (fun (inside, rest) => (c :: inside, rest)) =
          some (inside, rest)) : rest.length < (c :: cs).length := by
      obtain ⟨⟨i, r⟩, hs, he⟩ := Option.map_eq_some_iff.1 h
      cases he
      exact Nat.lt_succ_of_lt (ih hs)
    unfold splitTag at h
    split at h
    · exact more h
    · split at h
      · cases h; simp
      · exact more h

theorem length_of_splitWhere {test : List Char → Bool} {before cs inside rest : List Char}
    (h : splitWhere test before cs = some (inside, rest)) : rest.length < cs.length := by
  induction cs generalizing before with
  | nil => cases h
  | cons c cs ih =>
    unfold splitWhere at h
    split at h
    · cases h; simp
    · exact Nat.lt_succ_of_lt (ih h)

/-- Whether a text has as many opening as closing angle brackets. -/
def isBalanced (cs : List Char) : Bool := cs.count '<' = cs.count '>'

/-- How a kind of `<!...>` or `<?...?>` ends and what it gives. -/
structure Declaration where
  /-- Whether a `>` after these characters, latest first, ends it. -/
  closes : List Char → Bool
  /-- What the characters inside give, or nothing if they are malformed. -/
  event? : List Char → Option Event

/-- Literal text, written `<![CDATA[...]]>`. -/
def Declaration.literal : Declaration where
  closes before := [']', ']'].isPrefixOf before
  event? inside :=
    if "![CDATA[".toList.isPrefixOf inside then
      some (.literalText (String.ofList ((inside.drop 8).dropLast.dropLast)))
    else none

def Declaration.comment : Declaration where
  closes before := ['-', '-'].isPrefixOf before && 4 < before.length
  event? inside := if "!--".toList.isPrefixOf inside then some .skipped else none

def Declaration.documentType : Declaration where
  closes := isBalanced
  event? inside :=
    if (inside.take 8).map Char.toUpper = "!DOCTYPE".toList &&
        (inside.drop 8).any (!isSpace ·) then some .skipped
    else none

def Declaration.instruction : Declaration where
  closes before := ['?'].isPrefixOf before
  event? inside := if 1 < inside.length then some .skipped else none

/-- The kind of declaration that begins with given characters. -/
def Declaration.of? : List Char → Option Declaration
  | '?' :: _ => some instruction
  | '!' :: '[' :: _ => some literal
  | '!' :: '-' :: _ => some comment
  | '!' :: 'D' :: _ => some documentType
  | '!' :: 'd' :: _ => some documentType
  | _ => none

def declaration? (cs : List Char) : Option (Event × List Char) := do
  let d ← Declaration.of? cs
  let (inside, rest) ← splitWhere d.closes [] cs
  let e ← d.event? inside
  some (e, rest)

theorem length_of_declaration? {cs rest : List Char} {e : Event}
    (h : declaration? cs = some (e, rest)) : rest.length < cs.length := by
  simp only [declaration?, bind, Option.bind_eq_some_iff] at h
  obtain ⟨_, _, ⟨_, _⟩, hs, _, _, he⟩ := h
  cases he
  exact length_of_splitWhere hs

def dropSpaceAtEnd (cs : List Char) : List Char :=
  if cs.all isSpace then cs else (cs.reverse.dropWhile isSpace).reverse

def tagOf (inside : List Char) : Tag :=
  ⟨String.ofList (inside.takeWhile (!isSpace ·)), String.ofList (inside.dropWhile (!isSpace ·))⟩

/-- The event of a tag, given from after its `<`, and the elements then open, latest first. -/
def tagEvent? (opened : List String) (inside : List Char) : Option (Event × List String) :=
  match inside with
  | '/' :: inside =>
    match opened with
    | name :: opened =>
      if String.ofList (dropSpaceAtEnd inside) = name then some (.finish name, opened) else none
    | [] => none
  | inside =>
    if inside.getLast? = some '/' then some (.empty (tagOf inside.dropLast), opened)
    else
      let tag := tagOf inside
      some (.start tag, tag.name :: opened)

/-- The event of the markup after a `<`, the elements then open, latest first, and what
follows. -/
def markup? (opened : List String) (cs : List Char) :
    Option (Event × List String × List Char) :=
  if cs.head?.any (fun c => c = '!' || c = '?') then
    (declaration? cs).map fun (e, rest) => (e, opened, rest)
  else do
    let (inside, rest) ← splitTag none cs
    let (e, opened) ← tagEvent? opened inside
    some (e, opened, rest)

theorem length_of_markup? {opened opened' : List String} {cs rest : List Char} {e : Event}
    (h : markup? opened cs = some (e, opened', rest)) : rest.length < cs.length := by
  unfold markup? at h
  split at h
  · obtain ⟨⟨_, _⟩, hd, he⟩ := Option.map_eq_some_iff.1 h
    cases he
    exact length_of_declaration? hd
  · simp only [bind, Option.bind_eq_some_iff] at h
    obtain ⟨⟨_, _⟩, hs, ⟨_, _⟩, _, he⟩ := h
    cases he
    exact length_of_splitTag hs

/-- Reads a document from outside any tag. -/
def eventsFrom (opened : List String) (cs : List Char) : Document :=
  match cs with
  | [] => ⟨[], true⟩
  | '<' :: cs =>
    match _h : markup? opened cs with
    | none => ⟨[], false⟩
    | some (e, opened, rest) =>
      let more := eventsFrom opened rest
      ⟨e :: more.events, more.isComplete⟩
  | c :: cs =>
    let more := eventsFrom opened (cs.dropWhile (· ≠ '<'))
    ⟨.text (String.ofList (c :: cs.takeWhile (· ≠ '<'))) :: more.events, more.isComplete⟩
termination_by cs.length
decreasing_by
  · have := length_of_markup? _h
    simp only [List.length_cons]
    omega
  · have := (List.dropWhile_sublist (· ≠ '<') (l := cs)).length_le
    simp only [List.length_cons]
    omega

/-- Reads a document, whose leading byte order mark is not part of it. -/
def Document.ofText (text : String) : Document :=
  match text.toList with
  | '\ufeff' :: cs => eventsFrom [] cs
  | cs => eventsFrom [] cs

/-! ## Attributes -/

/-- The next attribute of a tag: its name, its value as written and what follows. The outer
option is `none` for a malformed attribute, the inner one at the end. -/
def nextAttribute (cs : List Char) : Option (Option (String × String × List Char)) :=
  match cs.dropWhile isSpace with
  | [] => some none
  | c :: cs =>
    let isNameEnd (c : Char) : Bool := c = '=' || isSpace c
    let name := String.ofList (c :: cs.takeWhile (!isNameEnd ·))
    match (cs.dropWhile (!isNameEnd ·)).dropWhile isSpace with
    | '=' :: cs =>
      match cs.dropWhile isSpace with
      | quote :: cs =>
        if quote = '\'' ∨ quote = '"' then
          match cs.dropWhile (· ≠ quote) with
          | _ :: rest => some (some (name, String.ofList (cs.takeWhile (· ≠ quote)), rest))
          | [] => none
        else none
      | [] => none
    | _ => none

theorem length_of_nextAttribute {cs rest : List Char} {name value : String}
    (h : nextAttribute cs = some (some (name, value, rest))) : rest.length < cs.length := by
  have drop (p : Char → Bool) (l : List Char) : (l.dropWhile p).length ≤ l.length :=
    (List.dropWhile_sublist p).length_le
  unfold nextAttribute at h
  split at h
  · cases h
  next c cs₁ h₁ =>
    dsimp only at h
    split at h
    · next cs₂ h₂ =>
      split at h
      · next quote cs₃ h₃ =>
        split at h
        · split at h
          · next h₄ =>
            cases h
            have d₁ := drop isSpace cs
            have d₂ := drop isSpace (cs₁.dropWhile fun c => !(decide (c = '=') || isSpace c))
            have d₃ := drop (fun c => !(decide (c = '=') || isSpace c)) cs₁
            have d₄ := drop isSpace cs₂
            have d₅ := drop (fun c => decide (c ≠ quote)) cs₃
            rw [h₁] at d₁
            rw [h₂] at d₂
            rw [h₃] at d₄
            rw [h₄] at d₅
            simp only [List.length_cons] at *
            omega
          · cases h
        · cases h
      · cases h
    · cases h

end TestScheduler.Xml
