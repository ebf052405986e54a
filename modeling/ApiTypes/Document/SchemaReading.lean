import ApiTypes.Document.Schema
import ApiTypes.Reading.RecordForm

/-! Reading schemas from the tree of a text. -/

namespace ApiTypes

namespace TypeKeyword

/-- Reads one type or a list of types. -/
def read (source : Source) : Reading TypeKeyword :=
  let one (source : Source) : Reading SchemaType := source.readChoice .whole SchemaType.named
  source.tryAll "TypeSet" [(one source).map .single, (source.readList .whole one).map .several]

end TypeKeyword

/-- Reads a flag or a number. -/
def ExclusiveBound.read (source : Source) : Reading ExclusiveBound :=
  source.tryAll "ExclusiveBound"
    [(source.readBool .whole).map .flag, (source.readReal .whole).map .value]

namespace Discriminator

/-- The fields of a discriminator. -/
def form : RecordForm := ⟨"Discriminator", [("propertyName", .required), ("mapping", .defaulted)]⟩

/-- Sets one field. -/
def set (stance : Stance) (name : String) (source : Source) (discriminator : Discriminator) :
    Reading Discriminator := do
  -- Every keyword is read on its own; what no keyword claims is left aside.
  match name with
  | "propertyName" => return { discriminator with propertyName := ← source.readText stance }
  | _ => return { discriminator with mapping := ← source.readTable stance (·.readText stance) }

/-- Reads a discriminator. -/
def read (stance : Stance) (source : Source) : Reading Discriminator :=
  form.read stance ⟨"", {}⟩ (set stance) source

end Discriminator

/-- The fields of a value that is only a reference. -/
def referenceForm (name : String) : RecordForm := ⟨name, [("$ref", .required)]⟩

/-- Reads the path of a reference; whatever else stands beside it is passed over. -/
def readReference (name : String) (source : Source) : Reading String :=
  match source with
  | .record members =>
    (referenceForm name).readMembers .whole id (fun _ part _ => part.readText .whole) members [] ""
  | _ => .error (source.mismatch name)

namespace Keywords

/-- The keywords in the order in which a list of their values would hold them. -/
def form : RecordForm where
  name := "Schema"
  fields :=
    [("type", .optional), ("format", .optional), ("title", .optional), ("description", .optional),
      ("default", .optional), ("nullable", .optional), ("deprecated", .optional),
      ("properties", .defaulted), ("required", .defaulted), ("additionalProperties", .optional),
      ("items", .optional), ("allOf", .defaulted), ("oneOf", .defaulted), ("anyOf", .defaulted),
      ("discriminator", .optional), ("enum", .defaulted), ("minimum", .optional),
      ("maximum", .optional), ("exclusiveMinimum", .optional), ("exclusiveMaximum", .optional),
      ("multipleOf", .optional), ("minLength", .optional), ("maxLength", .optional),
      ("pattern", .optional), ("minItems", .optional), ("maxItems", .optional),
      ("uniqueItems", .optional), ("readOnly", .optional), ("writeOnly", .optional),
      ("const", .optional), ("example", .optional)]

end Keywords

namespace PlainKeywords

/-- Sets a keyword that holds no schemas. -/
def set (stance : Stance) (name : String) (source : Source) (plain : PlainKeywords) :
    Reading PlainKeywords := do
  let text := source.readOption stance (·.readText stance)
  let bool := source.readOption stance (·.readBool stance)
  let real := source.readOption stance (·.readReal stance)
  let count := source.readOption stance (·.readNat stance "u64")
  let data := source.readOption stance (·.readData stance)
  match name with
  | "type" => return { plain with type := ← source.readOption stance TypeKeyword.read }
  | "format" => return { plain with format := ← text }
  | "title" => return { plain with title := ← text }
  | "description" => return { plain with description := ← text }
  | "default" => return { plain with default := ← data }
  | "nullable" => return { plain with nullable := ← bool }
  | "deprecated" => return { plain with deprecated := ← bool }
  | "required" => return { plain with required := ← source.readList stance (·.readText stance) }
  | "discriminator" =>
    return { plain with discriminator := ← source.readOption stance (Discriminator.read stance) }
  | "enum" => return { plain with values := ← source.readList stance (·.readData stance) }
  | "minimum" => return { plain with minimum := ← real }
  | "maximum" => return { plain with maximum := ← real }
  | "exclusiveMinimum" =>
    return { plain with exclusiveMinimum := ← source.readOption stance ExclusiveBound.read }
  | "exclusiveMaximum" =>
    return { plain with exclusiveMaximum := ← source.readOption stance ExclusiveBound.read }
  | "multipleOf" => return { plain with multipleOf := ← real }
  | "minLength" => return { plain with minLength := ← count }
  | "maxLength" => return { plain with maxLength := ← count }
  | "pattern" => return { plain with pattern := ← text }
  | "minItems" => return { plain with minItems := ← count }
  | "maxItems" => return { plain with maxItems := ← count }
  | "uniqueItems" => return { plain with uniqueItems := ← bool }
  | "readOnly" => return { plain with readOnly := ← bool }
  | "writeOnly" => return { plain with writeOnly := ← bool }
  | "const" => return { plain with constant := ← data }
  | "example" => return { plain with sample := ← data }
  | _ => return plain

end PlainKeywords

/--
What a part of a text gives when it is read as a schema object, as a table or as a list. The parts
inside the three are taken in whole.
-/
structure SchemaReadings where
  keywords : Stance → Reading (Keywords Schema)
  table : Stance → Reading (Table Schema)
  list : Stance → Reading (List Schema)

/-- A part of a text with what it gives as a schema. -/
abbrev SchemaPart := Source × SchemaReadings

namespace SchemaPart

/-- Reads a reference or else a schema object. -/
def schema (part : SchemaPart) : Reading Schema :=
  part.1.tryAll "SchemaOrRef"
    [(readReference "SchemaOrRef" part.1).map .ref, (part.2.keywords .whole).map .inline]

/-- Reads whether further properties are allowed, or the schema that they have. -/
def additional (part : SchemaPart) : Reading (Additional Schema) :=
  part.1.tryAll "AdditionalProperties"
    [(part.1.readBool .whole).map .allowed, part.schema.map .schema]

end SchemaPart

namespace Schema

/-- Sets one keyword. -/
def setKeyword (stance : Stance) (name : String) (part : SchemaPart)
    (keywords : Keywords Schema) : Reading (Keywords Schema) := do
  let present {α : Type} (reading : Reading α) : Reading (Option α) :=
    part.1.readOption stance fun _ => reading
  match name with
  | "properties" => return { keywords with properties := ← part.2.table stance }
  | "additionalProperties" => return { keywords with additional := ← present part.additional }
  | "items" => return { keywords with items := ← present part.schema }
  | "allOf" => return { keywords with allOf := ← part.2.list stance }
  | "oneOf" => return { keywords with oneOf := ← part.2.list stance }
  | "anyOf" => return { keywords with anyOf := ← part.2.list stance }
  | _ =>
    return { keywords with toPlainKeywords := ← keywords.toPlainKeywords.set stance name part.1 }

/-- A leaf is none of the three, unless it is an empty word that is read straight. -/
def leafReadings (leaf : Source) : SchemaReadings where
  keywords stance :=
    if leaf.isEmptyWord stance then .ok {} else .error (leaf.mismatch Keywords.form.expected)
  table stance := leaf.readTable stance fun part => .error (part.mismatch "a schema")
  list stance := leaf.readList stance fun part => .error (part.mismatch "a schema")

/-- A list is a list of schemas, or the keywords of one schema in their order. -/
def listReadings (items : List SchemaPart) : SchemaReadings where
  keywords stance :=
    Keywords.form.readItems Prod.fst (setKeyword stance) Keywords.form.fields items 0 {}
  table _ := .error (.wrongType .list "a map")
  list _ := items.mapM SchemaPart.schema

/-- A record is a table of schemas, or the keywords of one schema under their names. -/
def recordReadings (members : List (Source × SchemaPart)) : SchemaReadings where
  keywords stance := Keywords.form.readMembers stance Prod.fst (setKeyword stance) members [] {}
  table stance := Source.readEntries stance SchemaPart.schema members {}
  list _ := .error (.wrongType .record "a sequence")

/-- All that a part of a text gives. -/
def readings (source : Source) : SchemaReadings :=
  source.recurse leafReadings listReadings recordReadings

/-- Reads a schema or a reference to one. -/
def read (source : Source) : Reading Schema := SchemaPart.schema (source, readings source)

/-- Reads a schema object, which may not be a reference. -/
def readKeywords (stance : Stance) (source : Source) : Reading (Keywords Schema) :=
  (readings source).keywords stance

end Schema

end ApiTypes
