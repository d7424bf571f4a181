import Mathlib.Data.Option.Basic
import TestScheduler.Json.Parser
import TestScheduler.Json.Printer
import TestScheduler.Proofs.Prelude

/-! # Reading JSON that was written

A value in compact form is read as that value, unless it is nested too deep or holds a number that is
not whole. The text tells by its first character what is to be read, and by the character behind it
where a number ends.
-/

namespace TestScheduler

/-! ## Numerals -/

namespace Text

theorem digit?_digitChar {d : Nat} (h : d < 10) : digit? 10 d.digitChar = some d := by
  revert d
  decide

theorem number?_append {base n : Nat} {digits : List Char} (h : number? base digits = some n)
    (last : Char) :
    number? base (digits ++ [last]) = (digit? base last).map (n * base + ·) := by
  unfold number? at h ⊢
  split at h
  · cases h
  · rw [if_neg (by simp), List.foldlM_append, h]
    simp

theorem number?_toDigits (n : Nat) : number? 10 (Nat.toDigits 10 n) = some n := by
  induction n using Nat.strongRecOn with
  | ind n ih =>
    rw [Nat.toDigits_eq_if (by decide)]
    split
    · next small => simp [number?, digit?_digitChar small]
    · next large =>
      rw [number?_append (ih (n / 10) (by omega)), digit?_digitChar (by omega), Option.map_some]
      congr 1
      omega

theorem charOf?_toNat (c : Char) : charOf? c.toNat = some c := by
  have valid : c.toNat.isValidChar := c.valid
  rw [charOf?, dif_pos valid]
  rfl

theorem head?_toDigits {n : Nat} (h : n ≠ 0) : (Nat.toDigits 10 n).head? ≠ some '0' := by
  induction n using Nat.strongRecOn with
  | ind n ih =>
    rw [Nat.toDigits_eq_if (by decide)]
    split
    · next small =>
      have digit : ∀ d < 10, d ≠ 0 → [d.digitChar].head? ≠ some '0' := by
        decide
      exact digit n small h
    · next large =>
      rw [List.head?_append_of_ne_nil _ Nat.toDigits_ne_nil]
      exact ih (n / 10) (by omega) (by omega)

end Text

namespace Json

/-! ## Strings -/

theorem toList_quote (s : String) :
    (quote s).toList = '"' :: (s.toList.flatMap (fun c => (escapeChar c).toList) ++ ['"']) := by
  have folded (cs : List Char) (out : String) :
      (cs.foldl (fun out c => out ++ escapeChar c) out).toList =
        out.toList ++ cs.flatMap fun c => (escapeChar c).toList := by
    induction cs generalizing out with
    | nil => simp
    | cons c cs ih =>
      rw [List.foldl_cons, ih, String.toList_append, List.flatMap_cons, List.append_assoc]
  rw [quote, String.foldl_eq_foldl_toList, String.toList_append, folded]
  rfl

namespace Reader

theorem unit?_hexDigit {n : Nat} (h : n < 32) :
    unit? '0' '0' (hexDigit (n / 16)) (hexDigit (n % 16)) = some n := by
  revert n
  decide

theorem string?_unit {a b c d char : Char} {unit : Nat} (read cs : List Char)
    (h : unit? a b c d = some unit) (isChar : Text.charOf? unit = some char) :
    string? read ('\\' :: 'u' :: a :: b :: c :: d :: cs) = string? (char :: read) cs := by
  -- If another unit follows, the reader sees both, but the first one is a character alone.
  rw [string?.eq_def]
  split
  · next heq => cases heq
  · next heq =>
    cases heq
    rw [h]
    simp only [Option.bind_eq_bind, Option.bind_some, isChar]
  · next heq =>
    cases heq
    rw [h]
    simp only [Option.bind_eq_bind, Option.bind_some, isChar]
  · next other heq =>
    cases heq
    exact (other _ _ _ _ _ rfl rfl).elim
  · next other heq =>
    cases heq
    exact (other _ _ rfl rfl).elim
  · next heq => cases heq

theorem string?_simple {c letter : Char} (read cs : List Char) (h : simpleEscape? letter = some c)
    (notUnit : letter ≠ 'u') :
    string? read ('\\' :: letter :: cs) = string? (c :: read) cs := by
  rw [string?.eq_def]
  split
  · next heq => cases heq
  · next heq =>
    cases heq
    exact absurd rfl notUnit
  · next heq =>
    cases heq
    exact absurd rfl notUnit
  · next heq =>
    cases heq
    rw [h]
    rfl
  · next other heq =>
    cases heq
    exact (other _ _ rfl rfl).elim
  · next heq => cases heq

theorem string?_plain {c : Char} (read cs : List Char) (quote : c ≠ '"') (backslash : c ≠ '\\')
    (printed : ¬ c.toNat < 32) : string? read (c :: cs) = string? (c :: read) cs := by
  simp [string?, backslash, printed]

theorem string?_escapeChar (read : List Char) (c : Char) (cs : List Char) :
    string? read ((escapeChar c).toList ++ cs) = string? (c :: read) cs := by
  unfold escapeChar
  split
  · exact string?_simple read cs rfl (by decide)
  · exact string?_simple read cs rfl (by decide)
  · exact string?_simple read cs rfl (by decide)
  · exact string?_simple read cs rfl (by decide)
  · exact string?_simple read cs rfl (by decide)
  · exact string?_simple read cs rfl (by decide)
  · exact string?_simple read cs rfl (by decide)
  · next quote backslash _ _ _ _ _ =>
    split
    · next control =>
      rw [String.toList_ofList]
      exact string?_unit read cs (unit?_hexDigit control) (Text.charOf?_toNat c)
    · next printed =>
      simpa using string?_plain read cs quote backslash printed

theorem string?_quote (read cs rest : List Char) :
    string? read (cs.flatMap (fun c => (escapeChar c).toList) ++ '"' :: rest) =
      some (String.ofList (read.reverse ++ cs), rest) := by
  induction cs generalizing read with
  | nil => simp [string?]
  | cons c cs ih =>
    rw [List.flatMap_cons, List.append_assoc, string?_escapeChar, ih]
    simp

/-! ## Numbers -/

/-- What may follow a value inside another one, or at the end. -/
def Closes (rest : List Char) : Prop := ∀ c ∈ rest.head?, c = ',' ∨ c = ']' ∨ c = '\x7d'

theorem closes_cons {c : Char} (rest : List Char) (h : c = ',' ∨ c = ']' ∨ c = '\x7d') :
    Closes (c :: rest) := by
  rintro d ⟨⟩
  exact h

theorem Closes.not_isDigit {rest : List Char} (h : Closes rest) :
    ∀ c ∈ rest.head?, c.isDigit = false := by
  intro c hc
  rcases h c hc with rfl | rfl | rfl <;> rfl

theorem fractionPart?_of_closes {rest : List Char} (h : Closes rest) :
    fractionPart? rest = some ([], rest) := by
  unfold fractionPart?
  split
  · exact absurd (h '.' rfl) (by decide)
  · rfl

theorem exponentPart?_of_closes {rest : List Char} (h : Closes rest) :
    exponentPart? rest = some ([], rest) := by
  unfold exponentPart?
  split
  · next c rest =>
    rw [if_neg]
    rintro (rfl | rfl)
    · exact absurd (h 'e' rfl) (by decide)
    · exact absurd (h 'E' rfl) (by decide)
  · rfl

theorem tailDigits?_toDigits {rest : List Char} (n : Nat) (h : Closes rest) :
    tailDigits? (Nat.toDigits 10 n ++ rest) = some (Nat.toDigits 10 n, rest) := by
  have digits : ∀ c ∈ Nat.toDigits 10 n, c.isDigit = true :=
    fun c hc => Nat.isDigit_of_mem_toDigits (by decide) (by decide) hc
  have other := h.not_isDigit
  rw [tailDigits?, List.takeWhile_append_of_pos digits, List.dropWhile_append_of_pos digits,
    takeWhile_of_head? other, dropWhile_of_head? other, List.append_nil]
  simp

theorem leading_toDigits (n : Nat) :
    ((Nat.toDigits 10 n).length = 1 || (Nat.toDigits 10 n).head? != some '0') = true := by
  rw [Bool.or_eq_true]
  by_cases h : n = 0
  · subst h
    exact .inl rfl
  · exact .inr (bne_iff_ne.mpr (Text.head?_toDigits h))

theorem toList_negSucc (n : Nat) :
    (toString (Int.negSucc n)).toList = '-' :: Nat.toDigits 10 (n + 1) := by
  have text : toString (Int.negSucc n) = "-" ++ toString (n + 1) := rfl
  rw [text, String.toList_append]
  exact congrArg ('-' :: ·) Nat.toList_repr

theorem number?_integer {rest : List Char} (n : Int) (h : Closes rest) :
    number? ((toString n).toList ++ rest) = some (.integer n, rest) := by
  cases n with
  | ofNat n =>
    have digits : (toString (Int.ofNat n)).toList = Nat.toDigits 10 n := Nat.toList_repr
    have unsigned (cs : List Char) : Nat.toDigits 10 n ++ rest ≠ '-' :: cs := by
      intro sign
      have first := congrArg List.head? sign
      rw [List.head?_append_of_ne_nil _ Nat.toDigits_ne_nil] at first
      exact absurd (Nat.isDigit_of_mem_toDigits (by decide) (by decide) (List.mem_of_head? first))
        (by decide)
    rw [digits, number?]
    · refine bind_eq_some_of (tailDigits?_toDigits n h) ?_
      refine bind_eq_some_of (if_pos (leading_toDigits n)) ?_
      refine bind_eq_some_of (fractionPart?_of_closes h) ?_
      refine bind_eq_some_of (exponentPart?_of_closes h) ?_
      exact bind_eq_some_of (Text.number?_toDigits n) rfl
    · exact unsigned
  | negSucc n =>
    rw [toList_negSucc, List.cons_append, number?]
    refine bind_eq_some_of (tailDigits?_toDigits (n + 1) h) ?_
    refine bind_eq_some_of (if_pos (leading_toDigits (n + 1))) ?_
    refine bind_eq_some_of (fractionPart?_of_closes h) ?_
    refine bind_eq_some_of (exponentPart?_of_closes h) ?_
    exact bind_eq_some_of (Text.number?_toDigits (n + 1)) rfl

end Reader

/-! ## Values -/

mutual

/-- How deep arrays and objects are nested in a value. -/
def depth : Json → Nat
  | array items => depthEach items + 1
  | object members => depthMembers members + 1
  | _ => 0

def depthEach : List Json → Nat
  | [] => 0
  | j :: js => max (depth j) (depthEach js)

def depthMembers : List (String × Json) → Nat
  | [] => 0
  | (_, j) :: members => max (depth j) (depthMembers members)

end

/-- Whether all numbers in a value are whole. -/
inductive IsExact : Json → Prop
  | null : IsExact null
  | boolean (b : Bool) : IsExact (boolean b)
  | integer (n : Int) : IsExact (integer n)
  | text (s : String) : IsExact (text s)
  | array {items : List Json} (each : ∀ j ∈ items, IsExact j) : IsExact (array items)
  | object {members : List (String × Json)} (each : ∀ m ∈ members, IsExact m.2) :
      IsExact (object members)

theorem depth_le_depthEach {j : Json} {js : List Json} (h : j ∈ js) : j.depth ≤ depthEach js := by
  induction js with
  | nil => cases h
  | cons first js ih =>
    rw [depthEach]
    rcases List.mem_cons.mp h with rfl | h
    · exact Nat.le_max_left _ _
    · exact Nat.le_trans (ih h) (Nat.le_max_right _ _)

theorem depth_le_depthMembers {m : String × Json} {members : List (String × Json)}
    (h : m ∈ members) : m.2.depth ≤ depthMembers members := by
  induction members with
  | nil => cases h
  | cons first members ih =>
    rw [depthMembers]
    rcases List.mem_cons.mp h with rfl | h
    · exact Nat.le_max_left _ _
    · exact Nat.le_trans (ih h) (Nat.le_max_right _ _)

def memberText (m : String × Json) : List Char :=
  (quote m.1).toList ++ ':' :: m.2.compact.toList

theorem memberText_append (name : String) (j : Json) (rest : List Char) :
    memberText (name, j) ++ rest =
      '"' :: (name.toList.flatMap (fun c => (escapeChar c).toList) ++
        '"' :: ':' :: (j.compact.toList ++ rest)) := by
  simp [memberText, toList_quote]

theorem toList_compact_array (items : List Json) :
    (array items).compact.toList =
      '[' :: ([','].intercalate (items.map (·.compact.toList)) ++ [']']) := by
  have each : (compactEach items).map String.toList = items.map (·.compact.toList) := by
    induction items with
    | nil => rfl
    | cons j js ih => rw [compactEach, List.map_cons, ih, List.map_cons]
  rw [compact, String.toList_append, String.toList_append, String.toList_intercalate, each]
  rfl

theorem toList_compact_object (members : List (String × Json)) :
    (object members).compact.toList =
      '\x7b' :: ([','].intercalate (members.map memberText) ++ ['\x7d']) := by
  have each : (compactMembers members).map String.toList = members.map memberText := by
    induction members with
    | nil => rfl
    | cons m members ih =>
      rw [compactMembers, List.map_cons, ih, List.map_cons, String.toList_append,
        String.toList_append, List.append_assoc]
      rfl
  rw [compact, String.toList_append, String.toList_append, String.toList_intercalate, each]
  rfl

namespace Reader

/-- Whether the text of a value is read as that value, with some levels of nesting allowed. Two units
of fuel per character are enough: a value takes one of them, and so does the list that it stands in. -/
def Reads (depth : Nat) (j : Json) : Prop :=
  ∀ fuel rest, 2 * j.compact.toList.length ≤ fuel → Closes rest →
    value? fuel depth (j.compact.toList ++ rest) = some (j, rest)

variable {depth fuel : Nat}

theorem skipSpace_cons {c : Char} (cs : List Char) (h : isSpace c = false) :
    skipSpace (c :: cs) = c :: cs :=
  List.dropWhile_cons_of_neg (by simp [h])

section Steps

variable {j : Json} {name : String} (reads : Reads depth j)
  (enough : 2 * j.compact.toList.length ≤ fuel) (rest : List Char)

include reads enough

theorem items?_comma (read : List Json) :
    items? (fuel + 1) depth read (j.compact.toList ++ ',' :: rest) =
      items? fuel depth (j :: read) rest := by
  rw [items?, reads fuel _ enough (closes_cons rest (.inl rfl))]
  rfl

theorem items?_bracket (read : List Json) :
    items? (fuel + 1) depth read (j.compact.toList ++ ']' :: rest) =
      some (.array (read.reverse ++ [j]), rest) := by
  rw [items?, reads fuel _ enough (closes_cons rest (.inr (.inl rfl))), ← List.reverse_cons]
  rfl

theorem members?_comma (read : List (String × Json)) :
    members? (fuel + 1) depth read (memberText (name, j) ++ ',' :: rest) =
      members? fuel depth ((name, j) :: read) rest := by
  rw [memberText_append, members?, skipSpace_cons _ rfl]
  simp only [string?_quote, Option.bind_eq_bind, Option.bind_some]
  rw [skipSpace_cons _ rfl]
  simp only [reads fuel _ enough (closes_cons rest (.inl rfl)), Option.bind_some, List.reverse_nil,
    List.nil_append, String.ofList_toList]
  rfl

theorem members?_brace (read : List (String × Json)) :
    members? (fuel + 1) depth read (memberText (name, j) ++ '\x7d' :: rest) =
      some (.object (read.reverse ++ [(name, j)]), rest) := by
  rw [memberText_append, members?, skipSpace_cons _ rfl]
  simp only [string?_quote, Option.bind_eq_bind, Option.bind_some]
  rw [skipSpace_cons _ rfl]
  simp only [reads fuel _ enough (closes_cons rest (.inr (.inr rfl))), Option.bind_some,
    List.reverse_nil, List.nil_append, String.ofList_toList]
  rw [← List.reverse_cons]
  rfl

end Steps

theorem items?_of_reads {j : Json} {js : List Json} (each : ∀ i ∈ j :: js, Reads depth i)
    (read : List Json) (rest : List Char)
    (enough : 2 * ([','].intercalate ((j :: js).map (·.compact.toList))).length < fuel) :
    items? fuel depth read
        ([','].intercalate ((j :: js).map (·.compact.toList)) ++ ']' :: rest) =
      some (.array (read.reverse ++ j :: js), rest) := by
  induction js generalizing j read fuel with
  | nil =>
    obtain ⟨fuel, rfl⟩ := Nat.exists_eq_succ_of_ne_zero (Nat.ne_zero_of_lt enough)
    simp only [List.map_cons, List.map_nil, List.intercalate_singleton] at enough ⊢
    exact items?_bracket (each j List.mem_cons_self) (by omega) rest read
  | cons next js ih =>
    obtain ⟨fuel, rfl⟩ := Nat.exists_eq_succ_of_ne_zero (Nat.ne_zero_of_lt enough)
    obtain ⟨first, others⟩ := List.forall_mem_cons.mp each
    simp only [List.map_cons, List.intercalate_cons_cons, List.length_append, List.append_assoc,
      List.length_cons, List.cons_append] at enough ⊢
    rw [items?_comma first (by omega)]
    refine (ih others (j :: read) (by rw [List.map_cons]; omega)).trans ?_
    simp

theorem members?_of_reads {m : String × Json} {ms : List (String × Json)}
    (each : ∀ i ∈ m :: ms, Reads depth i.2) (read : List (String × Json)) (rest : List Char)
    (enough : 2 * ([','].intercalate ((m :: ms).map memberText)).length < fuel) :
    members? fuel depth read ([','].intercalate ((m :: ms).map memberText) ++ '\x7d' :: rest) =
      some (.object (read.reverse ++ m :: ms), rest) := by
  have shorter (m : String × Json) : m.2.compact.toList.length < (memberText m).length := by
    rw [memberText, List.length_append, List.length_cons]
    omega
  induction ms generalizing m read fuel with
  | nil =>
    obtain ⟨fuel, rfl⟩ := Nat.exists_eq_succ_of_ne_zero (Nat.ne_zero_of_lt enough)
    simp only [List.map_cons, List.map_nil, List.intercalate_singleton] at enough ⊢
    have := shorter m
    exact members?_brace (each m List.mem_cons_self) (by omega) rest read
  | cons next ms ih =>
    obtain ⟨fuel, rfl⟩ := Nat.exists_eq_succ_of_ne_zero (Nat.ne_zero_of_lt enough)
    obtain ⟨first, others⟩ := List.forall_mem_cons.mp each
    simp only [List.map_cons, List.intercalate_cons_cons, List.length_append, List.append_assoc,
      List.length_cons, List.cons_append] at enough ⊢
    have := shorter m
    rw [members?_comma first (by omega)]
    refine (ih others (m :: read) (by rw [List.map_cons]; omega)).trans ?_
    simp

/-- Whether a number may begin with a character. -/
def isSign (c : Char) : Bool := c = '-' || c.isDigit

theorem ne_of_isSign {c other : Char} (h : isSign c = true) (h' : isSign other = false) :
    c ≠ other := by
  rintro rfl
  rw [h] at h'
  cases h'

theorem isSpace_of_isSign {c : Char} (h : isSign c = true) : isSpace c = false := by
  have nonblank : c ≠ ' ' ∧ c ≠ '\t' ∧ c ≠ '\n' ∧ c ≠ '\r' :=
    ⟨ne_of_isSign h rfl, ne_of_isSign h rfl, ne_of_isSign h rfl, ne_of_isSign h rfl⟩
  simpa [isSpace, and_assoc] using nonblank

theorem exists_toString_eq_cons (n : Int) :
    ∃ c cs, (toString n).toList = c :: cs ∧ isSpace c = false ∧ isSign c = true := by
  cases n with
  | ofNat n =>
    obtain ⟨c, cs, digits⟩ := List.exists_cons_of_ne_nil (Nat.toDigits_ne_nil (n := n) (b := 10))
    have digit : c.isDigit = true :=
      Nat.isDigit_of_mem_toDigits (by decide) (by decide) (digits ▸ List.mem_cons_self)
    have sign : isSign c = true := by simp [isSign, digit]
    exact ⟨c, cs, Nat.toList_repr.trans digits, isSpace_of_isSign sign, sign⟩
  | negSucc n => exact ⟨'-', _, toList_negSucc n, rfl, rfl⟩

theorem exists_compact_eq_cons {j : Json} (exact : j.IsExact) :
    ∃ c cs, j.compact.toList = c :: cs ∧ isSpace c = false ∧ c ≠ ']' := by
  cases exact with
  | null => exact ⟨_, _, rfl, by decide⟩
  | boolean b => cases b <;> exact ⟨_, _, rfl, by decide⟩
  | integer n =>
    obtain ⟨c, cs, begins, nonblank, sign⟩ := exists_toString_eq_cons n
    exact ⟨c, cs, begins, nonblank, ne_of_isSign sign rfl⟩
  | text s => exact ⟨_, _, toList_quote s, by decide⟩
  | array => exact ⟨_, _, toList_compact_array _, by decide⟩
  | object => exact ⟨_, _, toList_compact_object _, by decide⟩

theorem value?_of_isSign {c : Char} (cs : List Char) (nonblank : isSpace c = false)
    (sign : isSign c = true) : value? (fuel + 1) depth (c :: cs) = number? (c :: cs) := by
  rw [value?, skipSpace_cons cs nonblank]
  split
  case h_7 => rfl
  all_goals
    rename_i h
    cases h
    cases sign

theorem value?_bracket {c : Char} (cs : List Char) (nonblank : isSpace c = false)
    (other : c ≠ ']') :
    value? (fuel + 1) (depth + 1) ('[' :: c :: cs) = items? fuel depth [] (c :: cs) := by
  have bracket : isSpace '[' = false := rfl
  simp [value?, skipSpace_cons, bracket, nonblank, other]

theorem value?_brace {c : Char} (cs : List Char) (nonblank : isSpace c = false)
    (other : c ≠ '\x7d') :
    value? (fuel + 1) (depth + 1) ('\x7b' :: c :: cs) = members? fuel depth [] (c :: cs) := by
  have brace : isSpace '\x7b' = false := rfl
  simp [value?, skipSpace_cons, brace, nonblank, other]

theorem exists_fuel {j : Json} (exact : j.IsExact) (enough : 2 * j.compact.toList.length ≤ fuel) :
    ∃ n, fuel = n + 1 := by
  obtain ⟨c, cs, begins, -⟩ := exists_compact_eq_cons exact
  rw [begins, List.length_cons] at enough
  exact ⟨fuel - 1, by omega⟩

theorem reads_array {items : List Json} (each : ∀ j ∈ items, IsExact j)
    (reads : ∀ j ∈ items, Reads depth j) : Reads (depth + 1) (.array items) := by
  intro fuel rest enough _
  obtain ⟨fuel, rfl⟩ := exists_fuel (.array each) enough
  rw [toList_compact_array] at enough ⊢
  rw [List.cons_append, List.append_assoc, List.singleton_append]
  cases items with
  | nil => rfl
  | cons j js =>
    have inner : 2 * ([','].intercalate ((j :: js).map (·.compact.toList))).length < fuel := by
      rw [List.length_cons, List.length_append] at enough
      omega
    have inside := items?_of_reads reads [] rest inner
    obtain ⟨c, cs, begins, nonblank, other⟩ := exists_compact_eq_cons (each j List.mem_cons_self)
    rw [List.map_cons, intercalate_cons, begins, List.append_assoc, List.cons_append] at inside ⊢
    rw [value?_bracket _ nonblank other]
    exact inside

theorem reads_object {members : List (String × Json)} (each : ∀ m ∈ members, IsExact m.2)
    (reads : ∀ m ∈ members, Reads depth m.2) : Reads (depth + 1) (.object members) := by
  intro fuel rest enough _
  obtain ⟨fuel, rfl⟩ := exists_fuel (.object each) enough
  rw [toList_compact_object] at enough ⊢
  rw [List.cons_append, List.append_assoc, List.singleton_append]
  cases members with
  | nil => rfl
  | cons m ms =>
    have inner : 2 * ([','].intercalate ((m :: ms).map memberText)).length < fuel := by
      rw [List.length_cons, List.length_append] at enough
      omega
    have inside := members?_of_reads reads [] rest inner
    have begins : memberText m = '"' :: (memberText m).tail := by
      rw [memberText, toList_quote]
      rfl
    rw [List.map_cons, intercalate_cons, begins, List.append_assoc, List.cons_append] at inside ⊢
    rw [value?_brace _ rfl (by decide)]
    exact inside

theorem reads_of_exact {j : Json} (exact : j.IsExact) (fits : j.depth ≤ depth) :
    Reads depth j := by
  induction exact generalizing depth with
  | null =>
    intro fuel rest enough _
    obtain ⟨fuel, rfl⟩ := exists_fuel .null enough
    rfl
  | boolean b =>
    intro fuel rest enough _
    obtain ⟨fuel, rfl⟩ := exists_fuel (.boolean b) enough
    cases b <;> rfl
  | integer n =>
    intro fuel rest enough closes
    obtain ⟨fuel, rfl⟩ := exists_fuel (.integer n) enough
    obtain ⟨c, cs, begins, nonblank, sign⟩ := exists_toString_eq_cons n
    have number := number?_integer n closes
    rw [compact, begins, List.cons_append] at *
    rw [value?_of_isSign _ nonblank sign]
    exact number
  | text s =>
    intro fuel rest enough _
    obtain ⟨fuel, rfl⟩ := exists_fuel (.text s) enough
    rw [compact, toList_quote, List.cons_append, List.append_assoc, value?, skipSpace_cons _ rfl]
    simp [string?_quote]
  | array each ih =>
    rw [Json.depth] at fits
    obtain ⟨depth, rfl⟩ := Nat.exists_eq_succ_of_ne_zero (n := depth) (by omega)
    exact reads_array each fun j hj =>
      ih j hj (Nat.le_trans (depth_le_depthEach hj) (Nat.le_of_succ_le_succ fits))
  | object each ih =>
    rw [Json.depth] at fits
    obtain ⟨depth, rfl⟩ := Nat.exists_eq_succ_of_ne_zero (n := depth) (by omega)
    exact reads_object each fun m hm =>
      ih m hm (Nat.le_trans (depth_le_depthMembers hm) (Nat.le_of_succ_le_succ fits))

end Reader

/-- A value without fractions is read from its text, unless it is nested deeper than the reader
goes. -/
theorem parse?_compact {j : Json} (exact : j.IsExact) (fits : j.depth ≤ nestingLimit) :
    parse? j.compact = some j := by
  have ends : Reader.Closes [] := by simp [Reader.Closes]
  have reads :=
    Reader.reads_of_exact exact fits (2 * j.compact.toList.length + 2) [] (by omega) ends
  rw [List.append_nil] at reads
  exact bind_eq_some_of reads rfl

end Json

end TestScheduler
