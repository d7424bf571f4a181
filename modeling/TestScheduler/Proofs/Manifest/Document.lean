import TestScheduler.Manifest.Load
import TestScheduler.Proofs.Data.Fields
import TestScheduler.Proofs.Json.Reading
import TestScheduler.Proofs.Manifest.Validity
import TestScheduler.Proofs.Text.Dictionary

/-! # Reading manifests that were written

Every field of a manifest is left out exactly if it has the value that its absence is read as. So a
manifest is read from its own document as it was, however deep its nodes are nested.
-/

namespace TestScheduler

/-! ## Words and parts -/

theorem Kind.ofKeyword?_keyword (k : Kind) : ofKeyword? k.keyword = some k := by
  cases k <;> rfl

theorem ScriptedOutcome.ofKeyword?_keyword (o : ScriptedOutcome) :
    ofKeyword? o.keyword = some o := by
  cases o <;> rfl

theorem Setting.ofDatum?_toJson (s : Setting) : ofDatum? (Datum.ofJson s.toJson) = some s := by
  cases s with
  | culture name => rfl
  | uiCulture name => rfl
  | randomSeed seed =>
    exact congrArg (Option.bind · fun seed => some (randomSeed seed)) (Datum.word64?_ofJson seed)
  | property key value => rfl

theorem Dictionary.ofDatum?_toJson (d : Dictionary String) :
    ofDatum? (Datum.ofJson d.toJson) = some d := by
  rw [toJson, Datum.ofJson, Datum.ofJsonMembers_eq_map, ofDatum?]
  refine bind_eq_some_of rfl (bind_eq_some_of (a := d.entries) ?_ ?_)
  · rw [List.map_map, List.mapM_map]
    exact (mapM_eq_some_map (g := id) fun _ _ => rfl).trans (congrArg some (List.map_id _))
  · exact congrArg some (ext (entries_ofList d.ascending))

namespace ManifestTree

/-- The fields of a node, those without a value as well. -/
def slots (n : ManifestNode) (children : List Json) : List (String × Option Json) :=
  [("name", some (.text n.name)),
    ("kind", n.statedKind.map fun kind => .text kind.keyword),
    ("class", n.className.map .text),
    ("method", n.methodName.map .text),
    ("categories", if !n.categories.isEmpty then some (.array (n.categories.map .text)) else none),
    ("properties", if !n.properties.isEmpty then some n.properties.toJson else none),
    ("description", n.description.map .text),
    ("ignore", n.ignored.map .text),
    ("explicit", if n.isExplicit then some (.boolean true) else none),
    ("skip", n.skipped.map .text),
    ("not_runnable", n.notRunnable.map .text),
    ("settings",
      if !n.settings.isEmpty then some (.array (n.settings.map Setting.toJson)) else none),
    ("outcome", n.outcome.map fun outcome => .text outcome.keyword),
    ("message", n.message.map .text),
    ("asserts", if n.asserts != 0 then some (.integer n.asserts.toNat) else none),
    ("delay_ms", if n.delayMs != 0 then some (.integer n.delayMs.toNat) else none),
    ("setup", n.setUp.map fun outcome => .text outcome.keyword),
    ("teardown", n.tearDown.map fun outcome => .text outcome.keyword),
    ("children", if !children.isEmpty then some (.array children) else none)]

theorem nodeJson_eq (n : ManifestNode) (children : List Json) :
    nodeJson n children = .object (Json.present (slots n children)) := by
  simp only [nodeJson, Json.present, slots, List.flatMap_cons, List.flatMap_nil, Json.memberOf_map,
    Json.memberOf_ite, List.append_assoc, List.append_nil]
  rfl

theorem toJson_node (n : ManifestNode) (ts : List ManifestTree) :
    toJson (.node n ts) = .object (Json.present (slots n (ts.map toJson))) := by
  rw [toJson, Tree.fold_node, nodeJson_eq]

theorem nodup_fieldNames : fieldNames.Nodup := by
  decide

section Reading

variable {whole : Datum} {f : Fields whole} {n : ManifestNode} {ts : List ManifestTree}
  (holds : f.Holds (slots n (ts.map toJson)))

include holds

theorem categories_of_holds :
    f.withDefault? "categories" [] (Datum.list? Datum.text?) = some n.categories := by
  refine Fields.withDefault?_of_holds (fun names => .array (names.map .text))
    (!n.categories.isEmpty) holds ?_ ?_ ?_
  · simp [slots]
  · exact Datum.list?_ofJson fun _ _ => rfl
  · simp

theorem properties_of_holds {absent : Dictionary String} (none : absent.entries = []) :
    f.withDefault? "properties" absent Dictionary.ofDatum? = some n.properties := by
  refine Fields.withDefault?_of_holds Dictionary.toJson (!n.properties.isEmpty) holds ?_
    n.properties.ofDatum?_toJson ?_
  · simp [slots]
  · intro empty
    have bare : n.properties.entries = [] := by simpa [Dictionary.isEmpty] using empty
    exact Dictionary.ext (bare.trans none.symm)

theorem explicit_of_holds : f.withDefault? "explicit" false Datum.truth? = some n.isExplicit := by
  refine Fields.withDefault?_of_holds .boolean n.isExplicit holds ?_ rfl id
  cases h : n.isExplicit <;> simp [slots, h]

theorem settings_of_holds :
    f.withDefault? "settings" [] (Datum.list? Setting.ofDatum?) = some n.settings := by
  refine Fields.withDefault?_of_holds (fun settings => .array (settings.map Setting.toJson))
    (!n.settings.isEmpty) holds ?_ ?_ ?_
  · simp [slots]
  · exact Datum.list?_ofJson fun s _ => s.ofDatum?_toJson
  · simp

theorem asserts_of_holds : f.withDefault? "asserts" 0 Datum.word32? = some n.asserts := by
  refine Fields.withDefault?_of_holds (fun n => .integer n.toNat) (n.asserts != 0) holds ?_
    (Datum.word32?_ofJson n.asserts) ?_
  · simp [slots]
  · simp

theorem delayMs_of_holds : f.withDefault? "delay_ms" 0 Datum.word64? = some n.delayMs := by
  refine Fields.withDefault?_of_holds (fun n => .integer n.toNat) (n.delayMs != 0) holds ?_
    (Datum.word64?_ofJson n.delayMs) ?_
  · simp [slots]
  · simp

theorem children_of_holds (each : ∀ t ∈ ts, ofDatum? (Datum.ofJson t.toJson) = some t) :
    f.part? "children" = none ∧ ts = [] ∨
      ∃ part parts, f.part? "children" = some part ∧ part.1.parts? = some parts ∧
        parts.mapM (fun child => ofDatum? child.1) = some ts := by
  have children := holds "children" (if !ts.isEmpty then some (.array (ts.map toJson)) else none)
    (by simp [slots])
  rw [Fields.get?] at children
  cases ts with
  | nil => exact .inl ⟨Option.map_eq_none_iff.mp children, rfl⟩
  | cons t ts =>
    obtain ⟨⟨d, smaller⟩, hpart, whole⟩ := Option.map_eq_some_iff.mp children
    have items : (Datum.ofJsonEach ((t :: ts).map toJson)).mapM ofDatum? = some (t :: ts) := by
      rw [Datum.ofJsonEach_eq_map, List.map_map, List.mapM_map]
      exact (mapM_eq_some_map (g := id) each).trans (congrArg some (List.map_id _))
    obtain ⟨parts, hparts, read⟩ := Datum.mapM_parts? true items
    have whole : d = .list (Datum.ofJsonEach ((t :: ts).map toJson)) true := whole
    subst whole
    exact .inr ⟨_, parts, hpart, hparts, read⟩

end Reading

theorem ofDatum?_toJson (t : ManifestTree) : ofDatum? (Datum.ofJson t.toJson) = some t := by
  induction t using Tree.induction with
  | node n ts ih =>
    obtain ⟨f, fields, holds⟩ := Fields.exists_holds (slots n (ts.map toJson)) fieldNames
      nodup_fieldNames (fun _ h => h) true
    have text (name : String) (value : Option String)
        (slot : (name, value.map .text) ∈ slots n (ts.map toJson)) :
        f.optional? name Datum.text? = some value := Fields.optional?_text holds slot
    have outcome (name : String) (value : Option ScriptedOutcome)
        (slot : (name, value.map fun o => .text o.keyword) ∈ slots n (ts.map toJson)) :
        f.optional? name (Datum.variant? ScriptedOutcome.ofKeyword?) = some value :=
      Fields.optional?_variant holds slot ScriptedOutcome.ofKeyword?_keyword
    have name : f.required? "name" Datum.text? = some n.name :=
      Fields.required?_of_holds .text holds (by simp [slots]) rfl
    have kind : f.optional? "kind" (Datum.variant? Kind.ofKeyword?) = some n.statedKind :=
      Fields.optional?_variant holds (by simp [slots]) Kind.ofKeyword?_keyword
    rw [toJson_node, ofDatum?]
    refine bind_eq_some_of fields ?_
    refine bind_eq_some_of name (bind_eq_some_of kind ?_)
    refine bind_eq_some_of (text "class" n.className (by simp [slots])) ?_
    refine bind_eq_some_of (text "method" n.methodName (by simp [slots])) ?_
    refine bind_eq_some_of (categories_of_holds holds) ?_
    refine bind_eq_some_of (properties_of_holds holds rfl) ?_
    refine bind_eq_some_of (text "description" n.description (by simp [slots])) ?_
    refine bind_eq_some_of (text "ignore" n.ignored (by simp [slots])) ?_
    refine bind_eq_some_of (explicit_of_holds holds) ?_
    refine bind_eq_some_of (text "skip" n.skipped (by simp [slots])) ?_
    refine bind_eq_some_of (text "not_runnable" n.notRunnable (by simp [slots])) ?_
    refine bind_eq_some_of (settings_of_holds holds) ?_
    refine bind_eq_some_of (outcome "outcome" n.outcome (by simp [slots])) ?_
    refine bind_eq_some_of (text "message" n.message (by simp [slots])) ?_
    refine bind_eq_some_of (asserts_of_holds holds) ?_
    refine bind_eq_some_of (delayMs_of_holds holds) ?_
    refine bind_eq_some_of (outcome "setup" n.setUp (by simp [slots])) ?_
    refine bind_eq_some_of (outcome "teardown" n.tearDown (by simp [slots])) ?_
    rcases children_of_holds holds ih with ⟨absent, rfl⟩ | ⟨part, parts, there, hparts, read⟩
    · rw [absent]
    · rw [there]
      exact bind_eq_some_of hparts (bind_eq_some_of read rfl)

end ManifestTree

namespace Manifest

def slots (m : Manifest) : List (String × Option Json) :=
  [("version", some (.text m.version)), ("seed", m.seed.map fun seed => .integer seed.toNat),
    ("root", some m.root.toJson)]

theorem toJson_eq (m : Manifest) : m.toJson = .object (Json.present m.slots) := by
  simp only [toJson, Json.present, slots, List.flatMap_cons, List.flatMap_nil, Json.memberOf_map,
    List.append_nil, List.append_assoc]
  rfl

theorem ofDatum?_toJson (m : Manifest) : ofDatum? (Datum.ofJson m.toJson) = some m := by
  obtain ⟨f, fields, holds⟩ := Fields.exists_holds m.slots ["version", "seed", "root"]
    (by simp [slots]) (by simp [slots]) false
  have version : f.withDefault? "version" currentVersion Datum.text? = some m.version :=
    Fields.withDefault?_of_holds .text true holds (by simp [slots]) rfl nofun
  have seed : f.optional? "seed" Datum.word64? = some m.seed :=
    Fields.optional?_of_holds (fun seed => .integer seed.toNat) holds (by simp [slots])
      Datum.word64?_ofJson fun _ => rfl
  have root : f.required? "root" ManifestTree.ofDatum? = some m.root :=
    Fields.required?_of_holds ManifestTree.toJson holds (by simp [slots]) m.root.ofDatum?_toJson
  rw [toJson_eq, ofDatum?]
  exact bind_eq_some_of fields
    (bind_eq_some_of version (bind_eq_some_of seed (bind_eq_some_of root rfl)))

end Manifest

/-! ## The text -/

namespace Json

theorem exact_present {slots : List (String × Option Json)}
    (h : ∀ slot ∈ slots, ∀ j, slot.2 = some j → IsExact j) : IsExact (.object (present slots)) := by
  refine .object fun m hm => ?_
  obtain ⟨slot, hslot, hm⟩ := List.mem_flatMap.mp hm
  obtain ⟨j, hj, rfl⟩ := List.mem_map.mp hm
  exact h slot hslot j (Option.mem_toList.mp hj)

theorem exact_array {α : Type} {as : List α} {write : α → Json} (h : ∀ a ∈ as, IsExact (write a)) :
    IsExact (.array (as.map write)) :=
  .array (List.forall_mem_map.mpr h)

end Json

theorem Setting.exact_toJson (s : Setting) : s.toJson.IsExact := by
  cases s with
  | culture name => exact .object (by simp [Json.IsExact.text])
  | uiCulture name => exact .object (by simp [Json.IsExact.text])
  | randomSeed seed => exact .object (by simp [Json.IsExact.integer])
  | property key value =>
    have pair : Json.IsExact (.array [.text key, .text value]) :=
      .array (by simp [Json.IsExact.text])
    exact .object (by simp [pair])

theorem Dictionary.exact_toJson (d : Dictionary String) : d.toJson.IsExact :=
  .object (List.forall_mem_map.mpr fun _ _ => .text _)

theorem ManifestTree.exact_toJson (t : ManifestTree) : t.toJson.IsExact := by
  induction t using Tree.induction with
  | node n ts ih =>
    have categories : (Json.array (n.categories.map .text)).IsExact :=
      Json.exact_array fun _ _ => .text _
    have settings : (Json.array (n.settings.map Setting.toJson)).IsExact :=
      Json.exact_array fun s _ => s.exact_toJson
    have children : (Json.array (ts.map toJson)).IsExact := Json.exact_array ih
    rw [toJson_node]
    apply Json.exact_present
    simp [slots, categories, n.properties.exact_toJson, settings, children, Json.IsExact.text,
      Json.IsExact.boolean, Json.IsExact.integer]

theorem Manifest.exact_toJson (m : Manifest) : m.toJson.IsExact := by
  rw [toJson_eq]
  apply Json.exact_present
  simp [slots, m.root.exact_toJson, Json.IsExact.text, Json.IsExact.integer]

/-- A valid manifest is read as it was from any text that is read as the JSON value written for it,
whatever fields it has and however deep its nodes are nested. The compact text of that value is such
a text, up to the nesting that the reader of texts allows. -/
theorem Manifest.read_written {m : Manifest} (valid : m.validate = .ok ()) :
    (∀ (parse? : String → Option Json) (text : String), parse? text = some m.toJson →
      ofDatum ((parse? text).map Datum.ofJson) .malformedJson = .ok m) ∧
    (m.toJson.depth ≤ Json.nestingLimit →
      Json.parse? m.toJson.compact = some m.toJson ∧ ofJsonText m.toJson.compact = .ok m) := by
  have read (parse? : String → Option Json) (text : String) (parsed : parse? text = some m.toJson) :
      ofDatum ((parse? text).map Datum.ofJson) .malformedJson = .ok m := by
    rw [parsed]
    simp only [ofDatum, Option.map_some, Option.bind_some, ofDatum?_toJson, valid]
  refine ⟨read, fun fits => ?_⟩
  have parsed := Json.parse?_compact m.exact_toJson fits
  exact ⟨parsed, read _ _ parsed⟩

theorem Manifest.read_written_sample :
    let leaf : ManifestNode :=
      { ManifestNode.ofName "A \"leaf\"" with
        statedKind := some .leaf, categories := ["", "a, b"], properties := .ofList [("k", "\n")]
        ignored := some "", isExplicit := true, outcome := some .pass, asserts := 3
        settings := [.property "k" "", .randomSeed 18446744073709551615, .culture "fr-FR",
          .uiCulture "\\\x01"] }
    let m : Manifest :=
      { version := "1.0", seed := some 0
        root := .node (.ofName "Root") [.node leaf [], .node (.ofName "Plain") []] }
    m.validate = .ok () ∧ m.toJson.depth = 7 ∧ Manifest.ofJsonText m.toJson.compact = .ok m := by
  intro leaf m
  have valid : m.validate = .ok () := by
    decide +kernel
  have depth : m.toJson.depth = 7 := by
    decide +kernel
  obtain ⟨-, read⟩ := Manifest.read_written valid
  obtain ⟨-, read⟩ := read (by rw [depth]; decide)
  exact ⟨valid, depth, read⟩

end TestScheduler
