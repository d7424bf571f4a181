import TestScheduler.Data.Datum
import TestScheduler.Manifest.Validation

/-! # Manifest documents

A manifest is a record of its version, seed and root. A node is a record that leaves out what is
absent or has its default, and it may have no other fields.
-/

namespace TestScheduler

namespace Setting

def toJson : Setting → Json
  | culture name => .object [("culture", name)]
  | uiCulture name => .object [("ui_culture", name)]
  | randomSeed seed => .object [("random_seed", seed.toNat)]
  | property key value => .object [("property", .array [key, value])]

/-- Reads a setting from a record whose one key names it. -/
def ofDatum? : Datum → Option Setting
  | .record [(key, value)] => do
    match ← key.text? with
    | "culture" => some (.culture (← value.text?))
    | "ui_culture" => some (.uiCulture (← value.text?))
    | "random_seed" => some (.randomSeed (← value.word64?))
    | "property" =>
      match value with
      | .list [key, value] _ => some (.property (← key.text?) (← value.text?))
      | _ => none
    | _ => none
  | _ => none

end Setting

namespace Dictionary

def toJson (d : Dictionary String) : Json :=
  .object (d.entries.map fun (key, value) => (key, .text value))

/-- Reads a record of texts, in which later entries replace earlier ones. -/
def ofDatum? (d : Datum) : Option (Dictionary String) := do
  let entries ← d.entries?
  some (ofList (← entries.mapM fun (key, value) => do some (← key.text?, ← value.text?)))

end Dictionary

namespace ManifestTree

open Json in
def nodeJson (n : ManifestNode) (children : List Json) : Json :=
  .object <|
    [("name", .text n.name)] ++
    memberOf "kind" n.statedKind (·.keyword) ++
    memberOf "class" n.className .text ++
    memberOf "method" n.methodName .text ++
    memberIf (!n.categories.isEmpty) "categories" (.array (n.categories.map .text)) ++
    memberIf (!n.properties.isEmpty) "properties" n.properties.toJson ++
    memberOf "description" n.description .text ++
    memberOf "ignore" n.ignored .text ++
    memberIf n.isExplicit "explicit" true ++
    memberOf "skip" n.skipped .text ++
    memberOf "not_runnable" n.notRunnable .text ++
    memberIf (!n.settings.isEmpty) "settings" (.array (n.settings.map Setting.toJson)) ++
    memberOf "outcome" n.outcome (·.keyword) ++
    memberOf "message" n.message .text ++
    memberIf (n.asserts != 0) "asserts" n.asserts.toNat ++
    memberIf (n.delayMs != 0) "delay_ms" n.delayMs.toNat ++
    memberOf "setup" n.setUp (·.keyword) ++
    memberOf "teardown" n.tearDown (·.keyword) ++
    memberIf (!children.isEmpty) "children" (.array children)

def toJson : ManifestTree → Json := Tree.fold nodeJson

def fieldNames : List String :=
  ["name", "kind", "class", "method", "categories", "properties", "description", "ignore",
    "explicit", "skip", "not_runnable", "settings", "outcome", "message", "asserts", "delay_ms",
    "setup", "teardown", "children"]

def ofDatum? (d : Datum) : Option ManifestTree := do
  let f ← Fields.ofDatum? fieldNames true d
  let scripted? := Datum.variant? ScriptedOutcome.ofKeyword?
  let n : ManifestNode := {
    name := ← f.required? "name" Datum.text?
    statedKind := ← f.optional? "kind" (Datum.variant? Kind.ofKeyword?)
    className := ← f.optional? "class" Datum.text?
    methodName := ← f.optional? "method" Datum.text?
    categories := ← f.withDefault? "categories" [] (Datum.list? Datum.text?)
    properties := ← f.withDefault? "properties" {} Dictionary.ofDatum?
    description := ← f.optional? "description" Datum.text?
    ignored := ← f.optional? "ignore" Datum.text?
    isExplicit := ← f.withDefault? "explicit" false Datum.truth?
    skipped := ← f.optional? "skip" Datum.text?
    notRunnable := ← f.optional? "not_runnable" Datum.text?
    settings := ← f.withDefault? "settings" [] (Datum.list? Setting.ofDatum?)
    outcome := ← f.optional? "outcome" scripted?
    message := ← f.optional? "message" Datum.text?
    asserts := ← f.withDefault? "asserts" 0 Datum.word32?
    delayMs := ← f.withDefault? "delay_ms" 0 Datum.word64?
    setUp := ← f.optional? "setup" scripted?
    tearDown := ← f.optional? "teardown" scripted? }
  match f.part? "children" with
  | none => some (.node n [])
  | some ⟨children, _⟩ => do
    some (.node n (← (← children.parts?).mapM fun ⟨child, _⟩ => ofDatum? child))
termination_by sizeOf d

end ManifestTree

namespace Manifest

def toJson (m : Manifest) : Json :=
  .object <| [("version", .text m.version)] ++
    Json.memberOf "seed" m.seed (fun seed => (seed.toNat : Json)) ++
    [("root", m.root.toJson)]

def ofDatum? (d : Datum) : Option Manifest := do
  let f ← Fields.ofDatum? ["version", "seed", "root"] false d
  some {
    version := ← f.withDefault? "version" currentVersion Datum.text?
    seed := ← f.optional? "seed" Datum.word64?
    root := ← f.required? "root" ManifestTree.ofDatum? }

end Manifest

end TestScheduler
