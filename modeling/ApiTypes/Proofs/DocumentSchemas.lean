import ApiTypes.Synthesis.Operations

/-! All schemas that are written in a document, and documents with their schemas transformed. -/

namespace ApiTypes

/-- The same part with what is written in place transformed. -/
def Referable.map {α β : Type} (transform : α → β) : Referable α → Referable β
  | reference path => reference path
  | inline value => inline (transform value)

/-- The part if it is written in place. -/
def Referable.inline? {α : Type} : Referable α → Option α
  | reference _ => none
  | inline value => some value

variable (transform : Schema → Schema)

namespace MediaType

/-- The same media type with its schema transformed. -/
def mapSchemas (media : MediaType) : MediaType := { schema := media.schema.map transform }

end MediaType

namespace Content

/-- The same bodies with their schemas transformed. -/
def mapSchemas (content : Content) : Content := content.map (MediaType.mapSchemas transform)

/-- The schemas of bodies. -/
def writtenSchemas (content : Content) : List Schema := content.values.filterMap MediaType.schema

/-- The body to be typed is chosen by the names of media types alone. -/
theorem preferred?_mapSchemas (content : Content) :
    (content.mapSchemas transform).preferred? =
      content.preferred?.map fun entry => (entry.1, entry.2.mapSchemas transform) := by
  simp only [preferred?, mapSchemas, Table.map, List.find?_map, Function.comp_def, List.head?_map,
    Option.map_or]

/-- The schema of the body to be typed is one of the schemas of bodies. -/
theorem mem_writtenSchemas {content : Content} {mediaName : String} {media : MediaType}
    {schema : Schema} (isPreferred : content.preferred? = some (mediaName, media))
    (hasSchema : media.schema = some schema) : schema ∈ content.writtenSchemas := by
  have isEntry : (mediaName, media) ∈ content.entries := by
    rcases Option.or_eq_some_iff.mp isPreferred with found | ⟨_, isPreferred⟩
    · exact List.mem_of_find?_eq_some found
    · rcases Option.or_eq_some_iff.mp isPreferred with found | ⟨_, isFirst⟩
      · exact List.mem_of_find?_eq_some found
      · exact List.mem_of_mem_head? isFirst
  exact List.mem_filterMap.mpr ⟨media, List.mem_map_of_mem isEntry, hasSchema⟩

end Content

namespace Parameter

/-- The same parameter with its schemas transformed. -/
def mapSchemas (parameter : Parameter) : Parameter :=
  { parameter with
    schema := parameter.schema.map transform
    content := parameter.content.mapSchemas transform }

/-- The schemas of a parameter. -/
def writtenSchemas (parameter : Parameter) : List Schema :=
  parameter.schema.toList ++ parameter.content.writtenSchemas

/-- Which schema types a parameter does not depend on what the schemas are. -/
theorem typedSchema?_mapSchemas (parameter : Parameter) :
    (parameter.mapSchemas transform).typedSchema? =
      parameter.typedSchema?.map fun typed => (typed.1, transform typed.2) := by
  unfold typedSchema? mapSchemas
  cases parameter.schema with
  | some schema => rfl
  | none =>
    simp only [Option.map_none, Content.preferred?_mapSchemas]
    rcases parameter.content.preferred? with _ | ⟨mediaName, media⟩
    · rfl
    · cases isSchema : media.schema <;> simp [MediaType.mapSchemas, isSchema]

/-- The schema that types a parameter is one of its schemas. -/
theorem mem_writtenSchemas {parameter : Parameter} {place : String} {schema : Schema}
    (isTyped : parameter.typedSchema? = some (place, schema)) :
    schema ∈ parameter.writtenSchemas := by
  unfold typedSchema? at isTyped
  cases isSchema : parameter.schema with
  | some written =>
    rw [isSchema] at isTyped
    cases isTyped
    simp [writtenSchemas, isSchema]
  | none =>
    rw [isSchema] at isTyped
    obtain ⟨⟨mediaName, media⟩, isPreferred, isMedia⟩ := Option.bind_eq_some_iff.mp isTyped
    obtain ⟨found, hasSchema, isResult⟩ := Option.bind_eq_some_iff.mp isMedia
    cases isResult
    exact List.mem_append_right _ (Content.mem_writtenSchemas isPreferred hasSchema)

end Parameter

namespace RequestBody

/-- The same body with its schemas transformed. -/
def mapSchemas (body : RequestBody) : RequestBody :=
  { body with content := body.content.mapSchemas transform }

/-- The schemas of a body. -/
def writtenSchemas (body : RequestBody) : List Schema := body.content.writtenSchemas

end RequestBody

namespace Response

/-- The same response with its schemas transformed. -/
def mapSchemas (response : Response) : Response :=
  { response with content := response.content.mapSchemas transform }

/-- The schemas of a response. -/
def writtenSchemas (response : Response) : List Schema := response.content.writtenSchemas

end Response

namespace Referable

variable {α : Type}

/-- The schemas of a part that is written in place. -/
def writtenSchemas (schemas : α → List Schema) (part : Referable α) : List Schema :=
  (part.inline?.map schemas).getD []

/-- Something holds of the schemas of a part if it does of those of what is written in place. -/
theorem forall_writtenSchemas_iff {holds : Schema → Prop} {schemas : α → List Schema}
    {part : Referable α} :
    (∀ schema ∈ part.writtenSchemas schemas, holds schema) ↔
      ∀ value ∈ part.inline?, ∀ schema ∈ schemas value, holds schema := by
  cases part <;> simp [writtenSchemas, inline?]

end Referable

namespace Operation

/-- The same operation with its schemas transformed. -/
def mapSchemas (operation : Operation) : Operation :=
  { operation with
    parameters := operation.parameters.map (Referable.map (Parameter.mapSchemas transform))
    requestBody := operation.requestBody.map (Referable.map (RequestBody.mapSchemas transform))
    responses := operation.responses.map (Referable.map (Response.mapSchemas transform)) }

/-- The schemas of an operation. -/
def writtenSchemas (operation : Operation) : List Schema :=
  operation.parameters.flatMap (Referable.writtenSchemas Parameter.writtenSchemas) ++
    operation.requestBody.toList.flatMap (Referable.writtenSchemas RequestBody.writtenSchemas) ++
    operation.responses.values.flatMap (Referable.writtenSchemas Response.writtenSchemas)

/-- Something holds of the schemas of an operation if it does of those of its parts. -/
theorem forall_writtenSchemas_iff {holds : Schema → Prop} {operation : Operation} :
    (∀ schema ∈ operation.writtenSchemas, holds schema) ↔
      (∀ part ∈ operation.parameters, ∀ schema ∈ part.writtenSchemas Parameter.writtenSchemas,
        holds schema) ∧
      (∀ part ∈ operation.requestBody, ∀ schema ∈ part.writtenSchemas RequestBody.writtenSchemas,
        holds schema) ∧
      ∀ part ∈ operation.responses.values,
        ∀ schema ∈ part.writtenSchemas Response.writtenSchemas, holds schema := by
  simp only [writtenSchemas, List.forall_mem_append, List.forall_mem_flatMap, Option.mem_toList,
    Option.mem_def, and_assoc]

end Operation

namespace PathItem

/-- The same path with its schemas transformed. -/
def mapSchemas (item : PathItem) : PathItem where
  parameters := item.parameters.map (Referable.map (Parameter.mapSchemas transform))
  operation method := (item.operation method).map (Operation.mapSchemas transform)

/-- The schemas of a path. -/
def writtenSchemas (item : PathItem) : List Schema :=
  item.parameters.flatMap (Referable.writtenSchemas Parameter.writtenSchemas) ++
    item.operations.flatMap fun entry => entry.2.writtenSchemas

/-- The operations of a path are transformed one by one. -/
theorem operations_mapSchemas (item : PathItem) :
    (item.mapSchemas transform).operations =
      item.operations.map fun entry => (entry.1, entry.2.mapSchemas transform) := by
  simp [operations, mapSchemas, List.map_filterMap, Function.comp_def]

end PathItem

namespace Components

/-- The same components with their schemas transformed. -/
def mapSchemas (components : Components) : Components where
  schemas := components.schemas.map transform
  responses := components.responses.map (Referable.map (Response.mapSchemas transform))
  parameters := components.parameters.map (Referable.map (Parameter.mapSchemas transform))
  requestBodies := components.requestBodies.map (Referable.map (RequestBody.mapSchemas transform))

/-- The schemas of components. -/
def writtenSchemas (components : Components) : List Schema :=
  components.schemas.values ++
    components.responses.values.flatMap (Referable.writtenSchemas Response.writtenSchemas) ++
    components.parameters.values.flatMap (Referable.writtenSchemas Parameter.writtenSchemas) ++
    components.requestBodies.values.flatMap (Referable.writtenSchemas RequestBody.writtenSchemas)

/-- Something holds of the schemas of components if it does in every section. -/
theorem forall_writtenSchemas_iff {holds : Schema → Prop} {components : Components} :
    (∀ schema ∈ components.writtenSchemas, holds schema) ↔
      (∀ schema ∈ components.schemas.values, holds schema) ∧
      (∀ part ∈ components.responses.values, ∀ response ∈ part.inline?,
        ∀ schema ∈ response.writtenSchemas, holds schema) ∧
      (∀ part ∈ components.parameters.values, ∀ parameter ∈ part.inline?,
        ∀ schema ∈ parameter.writtenSchemas, holds schema) ∧
      ∀ part ∈ components.requestBodies.values, ∀ body ∈ part.inline?,
        ∀ schema ∈ body.writtenSchemas, holds schema := by
  simp only [writtenSchemas, List.forall_mem_append, List.forall_mem_flatMap,
    Referable.forall_writtenSchemas_iff, and_assoc]

end Components

namespace Document

/-- The same document with all its schemas transformed. -/
def mapSchemas (document : Document) : Document :=
  { document with
    paths := document.paths.map (PathItem.mapSchemas transform)
    components := document.components.map (Components.mapSchemas transform) }

/-- All schemas that are written in a document, but for those inside others. -/
def writtenSchemas (document : Document) : List Schema :=
  document.paths.values.flatMap PathItem.writtenSchemas ++
    document.components.toList.flatMap Components.writtenSchemas

/-- Something holds of the schemas of the components if it does of all that are written in a document. -/
theorem forall_writtenSchemas_components {document : Document} {holds : Schema → Prop}
    (written : ∀ schema ∈ document.writtenSchemas, holds schema) :
    ∀ schema ∈ (document.components.getD {}).writtenSchemas, holds schema := by
  have ⟨_, inComponents⟩ := List.forall_mem_append.mp written
  cases isGiven : document.components with
  | none => exact fun _ isWritten => absurd isWritten List.not_mem_nil
  | some components =>
    rw [isGiven] at inComponents
    exact List.forall_mem_flatMap.mp inComponents components (List.mem_singleton_self _)

end Document

end ApiTypes
