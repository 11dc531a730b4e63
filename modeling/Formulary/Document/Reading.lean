/-
  Reading documents and configurations.

  The text of a document is a mapping with a list of fields:

      fields:
        - id: age
          type: number
          value: 20
        - id: adult
          formula: "{age} >= 18"

  That of a configuration is a mapping, of which every entry may be missing and unknown ones do
  not count:

      max_depth: 64
      max_reference_depth: 128
      recompute: lazy

  * `Document.ofText`: the document that a text denotes;
  * `Config.ofText`: the configuration that a text denotes.
-/
import Formulary.Document
import Formulary.Yaml.Decode

namespace Formulary

/-! ## Documents -/

/-- A column; its title may be missing. -/
def Column.decode (node : Yaml.Node) : Decode Column := do
  let entries ← Decode.record node
  return {
    id := ← Decode.entry entries "id" Decode.text
    title := ← Decode.entryOr entries "title" "" Decode.text }

/-- A list of columns. -/
def Column.decodeAll (node : Yaml.Node) : Decode (List Column) := do
  (← Decode.items node).mapM Column.decode

/-- The nesting that is left for the value of a field: it stands in a mapping of a
list of a mapping. -/
def FieldSpec.valueDepth : Nat := Decode.maxDepth - 3

/-- A field; all but its id may be missing. -/
def FieldSpec.decode (node : Yaml.Node) : Decode FieldSpec := do
  let entries ← Decode.record node
  return {
    id := ← Decode.entry entries "id" Decode.text
    kind := ← Decode.entryOr entries "type" .text (Decode.word FieldKind.byName)
    value? := ← Decode.entryOr entries "value" none
      (Decode.optional (Decode.value valueDepth))
    formula? := ← Decode.entryOr entries "formula" none (Decode.optional Decode.text)
    columns := ← Decode.entryOr entries "columns" [] Column.decodeAll }

namespace Document

/-- The fields of a document as they are written. -/
def decodeSpecs (node : Yaml.Node) : Decode (List FieldSpec) := do
  let entries ← Decode.record node
  match ← Decode.entry? entries "fields" with
  | none => return []
  | some fields => (← Decode.items fields).mapM FieldSpec.decode

/-- The document that a text denotes. -/
def ofText (text : String) : Except DocumentFault Document :=
  match Yaml.decode? decodeSpecs [] text with
  | none => .error .yaml
  | some specs => (ofSpecs specs).mapError .invalid

end Document

/-! ## Configurations -/

namespace Config

/-- The configuration of a mapping. -/
def decode (node : Yaml.Node) : Decode Config := do
  let entries ← Decode.record node
  return {
    maxDepth := ← Decode.entryOr entries "max_depth" standard.maxDepth Decode.natural
    maxReferenceDepth := ← Decode.entryOr entries "max_reference_depth"
      standard.maxReferenceDepth Decode.natural
    policy := ← Decode.entryOr entries "recompute" standard.policy (Decode.word Policy.byName) }

/-- The configuration that a text denotes. -/
def ofText (text : String) : Except DocumentFault Config :=
  match Yaml.decode? decode standard text with
  | some config => .ok config
  | none => .error .yaml

end Config
end Formulary
