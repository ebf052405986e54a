import ApiTypes.Document.Schema

/-! Writing schemas out again: the keywords in a fixed order, without those that are absent. -/

namespace ApiTypes

/-- A type by its name. -/
def SchemaType.toData (type : SchemaType) : Data := .text type.name

/-- One type, or a list of types. -/
def TypeKeyword.toData : TypeKeyword → Data
  | .single type => type.toData
  | .several types => .list (types.map SchemaType.toData)

/-- A flag or a number. -/
def ExclusiveBound.toData : ExclusiveBound → Data
  | .flag exclusive => .bool exclusive
  | .value bound => .real bound

/-- A discriminator; a mapping without entries is left out. -/
def Discriminator.toData (discriminator : Discriminator) : Data :=
  .record <|
    Data.field "propertyName" (.text discriminator.propertyName)
      ++ (if discriminator.mapping.isEmpty then []
        else Data.field "mapping" (Data.ofTable .text discriminator.mapping))

/-- Whether further properties are allowed, or the schema that they have. -/
def Additional.toData : Additional Data → Data
  | .allowed isAllowed => .bool isAllowed
  | .schema written => written

namespace Schema

/-- A reference. -/
def referenceData (path : String) : Data := .record [("$ref", .text path)]

/-- A schema object, given what the schemas inside it are written as. -/
def keywordsData (keywords : Keywords Data) : Data :=
  .record <|
    -- Absent keywords and empty lists are not written.
    Data.optional "type" TypeKeyword.toData keywords.type
      ++ Data.optional "format" .text keywords.format
      ++ Data.optional "title" .text keywords.title
      ++ Data.optional "description" .text keywords.description
      ++ Data.optional "default" id keywords.default
      ++ Data.optional "nullable" .bool keywords.nullable
      ++ Data.optional "deprecated" .bool keywords.deprecated
      ++ (if keywords.properties.isEmpty then []
        else Data.field "properties" (Data.ofTable id keywords.properties))
      ++ Data.nonempty "required" .text keywords.required
      ++ Data.optional "additionalProperties" Additional.toData keywords.additional
      ++ Data.optional "items" id keywords.items
      ++ Data.nonempty "allOf" id keywords.allOf
      ++ Data.nonempty "oneOf" id keywords.oneOf
      ++ Data.nonempty "anyOf" id keywords.anyOf
      ++ Data.optional "discriminator" Discriminator.toData keywords.discriminator
      ++ Data.nonempty "enum" id keywords.values
      ++ Data.optional "minimum" .real keywords.minimum
      ++ Data.optional "maximum" .real keywords.maximum
      ++ Data.optional "exclusiveMinimum" ExclusiveBound.toData keywords.exclusiveMinimum
      ++ Data.optional "exclusiveMaximum" ExclusiveBound.toData keywords.exclusiveMaximum
      ++ Data.optional "multipleOf" .real keywords.multipleOf
      ++ Data.optional "minLength" Data.natural keywords.minLength
      ++ Data.optional "maxLength" Data.natural keywords.maxLength
      ++ Data.optional "pattern" .text keywords.pattern
      ++ Data.optional "minItems" Data.natural keywords.minItems
      ++ Data.optional "maxItems" Data.natural keywords.maxItems
      ++ Data.optional "uniqueItems" .bool keywords.uniqueItems
      ++ Data.optional "readOnly" .bool keywords.readOnly
      ++ Data.optional "writeOnly" .bool keywords.writeOnly
      ++ Data.optional "const" id keywords.constant
      ++ Data.optional "example" id keywords.sample

/-- A schema or a reference to one. -/
def toData : Schema → Data := fold referenceData keywordsData

end Schema

end ApiTypes
