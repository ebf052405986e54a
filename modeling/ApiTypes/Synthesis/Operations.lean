import ApiTypes.Binding
import ApiTypes.Document
import ApiTypes.Naming.Route
import ApiTypes.Synthesis.Component

/-! Finding the types of operations: their parameters, request bodies and responses. -/

namespace ApiTypes

/-- A part of an operation together with the pointer at which it stands. -/
structure Placed (α : Type) where
  value : α
  path : String

namespace Referable

variable {α : Type}

/-- How many steps it may take to find a part that is written in place. -/
def hopLimit : Nat := 8

/-- Follows references into one section of the components, in a limited number of steps. -/
def followWithin (kind : String) (table : Table (Referable α)) (path : String) :
    Nat → Referable α → Except LocatedFailure α
  | 0, _ => .error ⟨path, .circularAlias path⟩
  | _ + 1, .inline value => .ok value
  | steps + 1, .reference target =>
    match (Pointer.componentName? kind target).bind table.get? with
    | none => .error ⟨path, .undefinedReference target⟩
    | some next => followWithin kind table path steps next

/-- The part that an entry at a path stands for. -/
def follow (kind : String) (table : Table (Referable α)) (path : String) (start : Referable α) :
    Except LocatedFailure α :=
  followWithin kind table path hopLimit start

end Referable

namespace Synthesis

/-- The name of an operation before it is cased. -/
def operationName (naming : NamingConfig) (method : Method) (path : String)
    (operation : Operation) : String :=
  let route := routeName method.name path
  let found := match naming.strategy with
    | .operationId => operation.operationId.getD route
    | .route => route
  (naming.aliases.get? found).getD found

/-- The parts of a list, each with its pointer and followed to where it is written in place. -/
def followParameters (table : Table (Referable Parameter)) (path : String) :
    List (Referable Parameter) → Nat → Except LocatedFailure (List (Placed Parameter))
  | [], _ => .ok []
  | entry :: rest, index => do
    let place := path ++ "/parameters/" ++ toString index
    let value ← entry.follow "parameters" table place
    return ⟨value, place⟩ :: (← followParameters table path rest (index + 1))

/-- Whether two parameters are one: their names and locations agree. -/
def sameParameter (left right : Placed Parameter) : Bool :=
  left.value.name == right.value.name && left.value.location == right.value.location

/-- Adds a parameter at the end, or in the place of the one that it overrides. -/
def overrideParameter (incoming : Placed Parameter) :
    List (Placed Parameter) → List (Placed Parameter)
  | [] => [incoming]
  | existing :: rest =>
    if sameParameter existing incoming then incoming :: rest
    else existing :: overrideParameter incoming rest

variable (context : Context) (components : Components)

/-- The type of a schema of an operation, with a candidate for its name. -/
def schemaType (schema : Schema) (candidate path : String) : Synthesis TypeExpr := do
  let (node, diagnostics) := (schema.lower context.model.version path).collect
  modify fun workspace => { workspace with diagnostics := workspace.diagnostics ++ diagnostics }
  ((surroundings context).walk node).expression ⟨candidate, path⟩ 0

/-- The type of a body at a path; without a schema it is untyped. -/
def mediaType (media : MediaType) (mediaName candidate path : String) : Synthesis TypeExpr := do
  match media.schema with
  | none => return .any
  | some schema =>
    schemaType context schema candidate
      (path ++ "/content/" ++ Pointer.escape mediaName ++ "/schema")

/-- Binds the parameters of an operation, whose types are named after the operation. -/
def bindParameters (base : String) : List (Placed Parameter) → Synthesis (List ParameterBinding)
  | [] => return []
  | ⟨parameter, path⟩ :: rest => do
    let name := CasedName.of parameter.name
    let type ← match parameter.typedSchema? with
      | none => pure .any
      | some (place, schema) =>
        schemaType context schema (base ++ name.pascal ++ "Param") (path ++ "/" ++ place)
    let binding : ParameterBinding :=
      { name, type
        location := parameter.location
        required := parameter.required
        description := parameter.description }
    return binding :: (← bindParameters base rest)

/-- Binds the body of a request; one without any content has none. -/
def bindBody (entry : Referable RequestBody) (base path : String) :
    Synthesis (Option BodyBinding) := do
  let body ← entry.follow "requestBodies" components.requestBodies path
  match body.content.preferred? with
  | none => return none
  | some (contentType, media) =>
    let type ← mediaType context media contentType (base ++ "Body") path
    return some { contentType, type, required := body.required }

/-- Binds the responses in order. The first success is named without its status. -/
def bindResponses (base path : String) :
    List (String × Referable Response) → Bool → Synthesis (List ResponseBinding)
  | [], _ => return []
  | (status, entry) :: rest, successSeen => do
    let place := path ++ "/responses/" ++ Pointer.escape status
    let response ← entry.follow "responses" components.responses place
    let isFirstSuccess := Response.isSuccess status && !successSeen
    let candidate :=
      if isFirstSuccess then base ++ "Response"
      else base ++ (CasedName.of status).pascal ++ "Response"
    let preferred := response.content.preferred?
    let type ← preferred.mapM fun (contentType, media) =>
      mediaType context media contentType candidate place
    let binding : ResponseBinding :=
      { status, type
        contentType := preferred.map Prod.fst
        description := response.description }
    return binding :: (← bindResponses base path rest (successSeen || isFirstSuccess))

/-- Binds an operation. -/
def bindOperation (method : Method) (path : String) (item : PathItem) (operation : Operation) :
    Synthesis OperationBinding := do
  let name := CasedName.of (operationName context.config.naming method path operation)
  let itemPath := "#/paths/" ++ Pointer.escape path
  let place := itemPath ++ "/" ++ method.key
  let shared ← followParameters components.parameters itemPath item.parameters 0
  let own ← followParameters components.parameters place operation.parameters 0
  let effective := (shared ++ own).foldl (fun found entry => overrideParameter entry found) []
  let parameters ← bindParameters context name.pascal effective
  let requestBody ← match operation.requestBody with
    | none => pure none
    | some entry => bindBody context components entry name.pascal (place ++ "/requestBody")
  let responses ←
    bindResponses context components name.pascal place operation.responses.entries false
  return {
    name, method, path, parameters, requestBody, responses
    deprecated := operation.deprecated.getD false }

/-- Binds the operations of one path; one that fails is left out with a diagnostic. -/
def bindItem (path : String) (item : PathItem) :
    List (Method × Operation) → StateM Workspace (List OperationBinding)
  | [] => return []
  | (method, operation) :: rest => do
    match ← (bindOperation context components method path item operation).run with
    | .ok binding => return binding :: (← bindItem path item rest)
    | .error located =>
      modify fun workspace => workspace.reportFailure located
      bindItem path item rest

/-- Binds the operations of all paths. -/
def bindPaths : List (String × PathItem) → StateM Workspace (List OperationBinding)
  | [] => return []
  | (path, item) :: rest => do
    let bindings ← bindItem context components path item item.operations
    return bindings ++ (← bindPaths rest)

end Synthesis

end ApiTypes
