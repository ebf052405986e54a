import ApiTypes.Document.SchemaReading
import ApiTypes.Document.SchemaWriting
import ApiTypes.Proofs.RecordForms
import ApiTypes.Proofs.Schema

/-!
The keywords of schema objects, one by one. Each has a value of one of a few kinds, which says how the value
is read and written. Setting one keyword leaves all others alone.
-/

namespace ApiTypes

/-- The kinds of values that keywords have. -/
inductive KeywordKind where
  | types
  | text
  | data
  | flag
  | texts
  | discriminator
  | values
  | real
  | bound
  | count
  | table
  | additional
  | schema
  | schemas

/-- The keywords of schema objects. -/
inductive Keyword where
  | type
  | format
  | title
  | description
  | default
  | nullable
  | deprecated
  | properties
  | required
  | additional
  | items
  | allOf
  | oneOf
  | anyOf
  | discriminator
  | values
  | minimum
  | maximum
  | exclusiveMinimum
  | exclusiveMaximum
  | multipleOf
  | minLength
  | maxLength
  | pattern
  | minItems
  | maxItems
  | uniqueItems
  | readOnly
  | writeOnly
  | constant
  | sample
deriving DecidableEq

namespace KeywordKind

/-- The values of a kind, with `σ` in the places of the schemas. -/
def Value (σ : Type) : KeywordKind → Type
  | types => Option TypeKeyword
  | text => Option String
  | data => Option Data
  | flag => Option Bool
  | texts => List String
  | discriminator => Option Discriminator
  | values => List Data
  | real => Option Binary64
  | bound => Option ExclusiveBound
  | count => Option Nat
  | table => Table σ
  | additional => Option (Additional σ)
  | schema => Option σ
  | schemas => List σ

/-- The value of a keyword that is not written. -/
def unset {σ : Type} : (kind : KeywordKind) → kind.Value σ
  | types | text | data | flag | discriminator | real | bound | count | additional | schema =>
    (none : Option _)
  | texts | values | schemas => ([] : List _)
  | table => ({} : Table σ)

/-- The same value with the schemas inside transformed. -/
def map {σ τ : Type} (transform : σ → τ) : (kind : KeywordKind) → kind.Value σ → kind.Value τ
  | types | text | data | flag | texts | discriminator | values | real | bound | count => id
  | table => Table.map transform
  | additional => Option.map (Additional.map transform)
  | schema => Option.map transform
  | schemas => List.map transform

/-- Reads a value of a kind. -/
def read (part : SchemaPart) : (kind : KeywordKind) → Reading (kind.Value Schema)
  | types => part.1.readOption .whole TypeKeyword.read
  | text => part.1.readOption .whole (·.readText .whole)
  | data => part.1.readOption .whole (·.readData .whole)
  | flag => part.1.readOption .whole (·.readBool .whole)
  | texts => part.1.readList .whole (·.readText .whole)
  | discriminator => part.1.readOption .whole (Discriminator.read .whole)
  | values => part.1.readList .whole (·.readData .whole)
  | real => part.1.readOption .whole (·.readReal .whole)
  | bound => part.1.readOption .whole ExclusiveBound.read
  | count => part.1.readOption .whole (·.readNat .whole "u64")
  | table => part.2.table .whole
  | additional => part.1.readOption .whole fun _ => part.additional
  | schema => part.1.readOption .whole fun _ => part.schema
  | schemas => part.2.list .whole

/-- A list is written if it has items. -/
def writeList {α : Type} (write : α → Data) (items : List α) : Option Data :=
  if items.isEmpty then none else some (.list (items.map write))

/-- Writes a value of a kind, unless it is left out. -/
def write : (kind : KeywordKind) → kind.Value Data → Option Data
  | types => Option.map TypeKeyword.toData
  | text => Option.map .text
  | data => Option.map id
  | flag => Option.map .bool
  | texts => writeList .text
  | discriminator => Option.map Discriminator.toData
  | values => writeList id
  | real => Option.map .real
  | bound => Option.map ExclusiveBound.toData
  | count => Option.map Data.natural
  | table => fun table => if table.isEmpty then none else some (Data.ofTable id table)
  | additional => Option.map Additional.toData
  | schema => Option.map id
  | schemas => writeList id

end KeywordKind

namespace Keyword

/-- All keywords in the order in which they are written. -/
def all : List Keyword :=
  [type, format, title, description, default, nullable, deprecated, properties, required, additional,
    items, allOf, oneOf, anyOf, discriminator, values, minimum, maximum, exclusiveMinimum,
    exclusiveMaximum, multipleOf, minLength, maxLength, pattern, minItems, maxItems, uniqueItems,
    readOnly, writeOnly, constant, sample]

/-- The name of a keyword in documents. -/
def name : Keyword → String
  | type => "type"
  | format => "format"
  | title => "title"
  | description => "description"
  | default => "default"
  | nullable => "nullable"
  | deprecated => "deprecated"
  | properties => "properties"
  | required => "required"
  | additional => "additionalProperties"
  | items => "items"
  | allOf => "allOf"
  | oneOf => "oneOf"
  | anyOf => "anyOf"
  | discriminator => "discriminator"
  | values => "enum"
  | minimum => "minimum"
  | maximum => "maximum"
  | exclusiveMinimum => "exclusiveMinimum"
  | exclusiveMaximum => "exclusiveMaximum"
  | multipleOf => "multipleOf"
  | minLength => "minLength"
  | maxLength => "maxLength"
  | pattern => "pattern"
  | minItems => "minItems"
  | maxItems => "maxItems"
  | uniqueItems => "uniqueItems"
  | readOnly => "readOnly"
  | writeOnly => "writeOnly"
  | constant => "const"
  | sample => "example"

/-- The kind of a keyword's values. -/
def kind : Keyword → KeywordKind
  | type => .types
  | format | title | description | pattern => .text
  | default | constant | sample => .data
  | nullable | deprecated | uniqueItems | readOnly | writeOnly => .flag
  | required => .texts
  | discriminator => .discriminator
  | values => .values
  | minimum | maximum | multipleOf => .real
  | exclusiveMinimum | exclusiveMaximum => .bound
  | minLength | maxLength | minItems | maxItems => .count
  | properties => .table
  | additional => .additional
  | items => .schema
  | allOf | oneOf | anyOf => .schemas

variable {σ τ : Type}

/-- The value of a keyword. -/
def get (keywords : Keywords σ) : (keyword : Keyword) → keyword.kind.Value σ
  | type => keywords.type
  | format => keywords.format
  | title => keywords.title
  | description => keywords.description
  | default => keywords.default
  | nullable => keywords.nullable
  | deprecated => keywords.deprecated
  | properties => keywords.properties
  | required => keywords.required
  | additional => keywords.additional
  | items => keywords.items
  | allOf => keywords.allOf
  | oneOf => keywords.oneOf
  | anyOf => keywords.anyOf
  | discriminator => keywords.discriminator
  | values => keywords.values
  | minimum => keywords.minimum
  | maximum => keywords.maximum
  | exclusiveMinimum => keywords.exclusiveMinimum
  | exclusiveMaximum => keywords.exclusiveMaximum
  | multipleOf => keywords.multipleOf
  | minLength => keywords.minLength
  | maxLength => keywords.maxLength
  | pattern => keywords.pattern
  | minItems => keywords.minItems
  | maxItems => keywords.maxItems
  | uniqueItems => keywords.uniqueItems
  | readOnly => keywords.readOnly
  | writeOnly => keywords.writeOnly
  | constant => keywords.constant
  | sample => keywords.sample

/-- The keywords with another value of one of them. -/
def put (keywords : Keywords σ) : (keyword : Keyword) → keyword.kind.Value σ → Keywords σ
  | type, value => { keywords with type := value }
  | format, value => { keywords with format := value }
  | title, value => { keywords with title := value }
  | description, value => { keywords with description := value }
  | default, value => { keywords with default := value }
  | nullable, value => { keywords with nullable := value }
  | deprecated, value => { keywords with deprecated := value }
  | properties, value => { keywords with properties := value }
  | required, value => { keywords with required := value }
  | additional, value => { keywords with additional := value }
  | items, value => { keywords with items := value }
  | allOf, value => { keywords with allOf := value }
  | oneOf, value => { keywords with oneOf := value }
  | anyOf, value => { keywords with anyOf := value }
  | discriminator, value => { keywords with discriminator := value }
  | values, value => { keywords with values := value }
  | minimum, value => { keywords with minimum := value }
  | maximum, value => { keywords with maximum := value }
  | exclusiveMinimum, value => { keywords with exclusiveMinimum := value }
  | exclusiveMaximum, value => { keywords with exclusiveMaximum := value }
  | multipleOf, value => { keywords with multipleOf := value }
  | minLength, value => { keywords with minLength := value }
  | maxLength, value => { keywords with maxLength := value }
  | pattern, value => { keywords with pattern := value }
  | minItems, value => { keywords with minItems := value }
  | maxItems, value => { keywords with maxItems := value }
  | uniqueItems, value => { keywords with uniqueItems := value }
  | readOnly, value => { keywords with readOnly := value }
  | writeOnly, value => { keywords with writeOnly := value }
  | constant, value => { keywords with constant := value }
  | sample, value => { keywords with sample := value }

/-- Every keyword is one of all. -/
theorem mem_all (keyword : Keyword) : keyword ∈ all := by
  cases keyword <;> decide

/-- The fields of a schema object are the keywords. -/
theorem names_form : Keywords.form.names = all.map name := rfl

/-- A keyword that is set has the new value. -/
theorem get_put_self (keywords : Keywords σ) (keyword : Keyword) (value : keyword.kind.Value σ) :
    get (put keywords keyword value) keyword = value := by
  cases keyword <;> rfl

/-- Setting a keyword leaves every other one alone. -/
theorem get_put_of_ne (keywords : Keywords σ) {keyword other : Keyword} (isOther : other ≠ keyword)
    (value : keyword.kind.Value σ) : get (put keywords keyword value) other = get keywords other := by
  cases keyword <;> cases other <;> first | rfl | exact absurd rfl isOther

/-- Without any keyword written, all of them have the value that says so. -/
theorem get_unset (keyword : Keyword) : get ({} : Keywords σ) keyword = keyword.kind.unset := by
  cases keyword <;> rfl

/-- Transforming the schemas inside transforms the value of each keyword. -/
theorem get_map (transform : σ → τ) (keywords : Keywords σ) (keyword : Keyword) :
    get (keywords.map transform) keyword = keyword.kind.map transform (get keywords keyword) := by
  cases keyword <;> rfl

/-- A keyword that holds no schemas is set among the plain ones. -/
theorem setKeyword_plain {name : String} (isPlain : name ∉
    ["properties", "additionalProperties", "items", "allOf", "oneOf", "anyOf"]) (part : SchemaPart)
    (keywords : Keywords Schema) : Schema.setKeyword .whole name part keywords =
      keywords.toPlainKeywords.set .whole name part.1 >>= fun plain =>
        .ok { keywords with toPlainKeywords := plain } := by
  -- Of the branches on the name only the last one is left.
  simp only [List.mem_cons, List.not_mem_nil, or_false, not_or] at isPlain
  rw [Schema.setKeyword]
  · rfl
  all_goals simp [isPlain]

/-- Reading sets a keyword to the value that is read for its kind. -/
theorem setKeyword_name (keyword : Keyword) (part : SchemaPart) (keywords : Keywords Schema) :
    Schema.setKeyword .whole keyword.name part keywords =
      keyword.kind.read part >>= fun value => .ok (put keywords keyword value) := by
  -- Plain keywords are set in a record of their own, which is then put into the keywords.
  cases keyword
  case properties | additional | items | allOf | oneOf | anyOf => rfl
  all_goals
    rw [setKeyword_plain (by decide)]
    exact bind_assoc _ _ _

/-- A schema object is written keyword by keyword. -/
theorem keywordsData_eq (keywords : Keywords Data) :
    Schema.keywordsData keywords = .record (all.filterMap fun keyword =>
      (keyword.kind.write (get keywords keyword)).map fun written => (keyword.name, written)) := by
  -- Each of the three ways to write a keyword gives one member or none.
  have optional {α : Type} (name : String) (write : α → Data) (value : Option α) :
      Data.optional name write value =
        ((value.map write).map fun written => (name, written)).toList := by
    cases value <;> rfl
  have nonempty {α : Type} (name : String) (write : α → Data) (items : List α) :
      Data.nonempty name write items =
        ((KeywordKind.writeList write items).map fun written => (name, written)).toList := by
    unfold Data.nonempty KeywordKind.writeList
    split <;> rfl
  have tabled (name : String) (table : Table Data) :
      (if table.isEmpty then [] else Data.field name (Data.ofTable id table)) =
        ((KeywordKind.write .table table).map fun written => (name, written)).toList := by
    simp only [KeywordKind.write]
    split <;> rfl
  simp only [Schema.keywordsData, optional, nonempty, tabled, List.append_assoc]
  rw [List.filterMap_eq_flatMap_toList]
  simp only [all, List.flatMap_cons, List.flatMap_nil, List.append_nil]
  rfl

end Keyword

end ApiTypes
