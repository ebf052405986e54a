import ApiTypes.Document.Parameter

/-! The operations of a document, path by path. -/

namespace ApiTypes

/-- The methods of operations. -/
inductive Method where
  | get
  | post
  | put
  | delete
  | patch
  | options
  | head
  | trace
deriving DecidableEq

namespace Method

/-- All methods, in the order in which the operations of a path are taken. -/
def all : List Method := [get, post, put, delete, patch, options, head, trace]

/-- The key of a method in a path item. -/
def key : Method → String
  | get => "get"
  | post => "post"
  | put => "put"
  | delete => "delete"
  | patch => "patch"
  | options => "options"
  | head => "head"
  | trace => "trace"

/-- The name of a method in requests. -/
def name : Method → String
  | get => "GET"
  | post => "POST"
  | put => "PUT"
  | delete => "DELETE"
  | patch => "PATCH"
  | options => "OPTIONS"
  | head => "HEAD"
  | trace => "TRACE"

end Method

/-- An operation, as far as types depend on it. -/
structure Operation where
  operationId : Option String := none
  parameters : List (Referable Parameter) := []
  requestBody : Option (Referable RequestBody) := none
  responses : Table (Referable Response) := {}
  deprecated : Option Bool := none

namespace Operation

/-- The fields of an operation. -/
def form : RecordForm where
  name := "Operation"
  fields :=
    [("operationId", .optional), ("parameters", .defaulted), ("requestBody", .optional),
      ("responses", .defaulted), ("deprecated", .optional)]

/-- Sets one field. -/
def set (stance : Stance) (name : String) (source : Source) (operation : Operation) :
    Reading Operation := do
  match name with
  | "operationId" =>
    return { operation with operationId := ← source.readOption stance (·.readText stance) }
  | "parameters" =>
    return { operation with parameters := ← source.readList stance Parameter.read }
  | "requestBody" =>
    return { operation with requestBody := ← source.readOption stance RequestBody.read }
  | "responses" => return { operation with responses := ← source.readTable stance Response.read }
  | _ => return { operation with deprecated := ← source.readOption stance (·.readBool stance) }

/-- Reads an operation. -/
def read (stance : Stance) (source : Source) : Reading Operation :=
  form.read stance {} (set stance) source

/-- Writes an operation. -/
def toData (operation : Operation) : Data :=
  .record <|
    Data.optional "operationId" .text operation.operationId
      ++ Data.nonempty "parameters" (Referable.toData Parameter.toData) operation.parameters
      ++ Data.optional "requestBody" (Referable.toData RequestBody.toData) operation.requestBody
      ++ (if operation.responses.isEmpty then []
        else
          Data.field "responses"
            (Data.ofTable (Referable.toData Response.toData) operation.responses))
      ++ Data.optional "deprecated" .bool operation.deprecated

end Operation

/-- The operations of one path by their methods, with the parameters that all of them share. -/
structure PathItem where
  parameters : List (Referable Parameter) := []
  operation : Method → Option Operation := fun _ => none

namespace PathItem

/-- The fields of a path item. -/
def form : RecordForm where
  name := "PathItem"
  fields := ("parameters", .defaulted) :: Method.all.map fun method => (method.key, .optional)

/-- Sets one field. -/
def set (stance : Stance) (name : String) (source : Source) (item : PathItem) :
    Reading PathItem := do
  match name with
  | "parameters" => return { item with parameters := ← source.readList stance Parameter.read }
  | key =>
    let read ← source.readOption stance (Operation.read stance)
    return { item with
      operation := fun method => if method.key = key then read else item.operation method }

/-- Reads a path item. -/
def read (stance : Stance) (source : Source) : Reading PathItem :=
  form.read stance {} (set stance) source

/-- The operations with their methods. -/
def operations (item : PathItem) : List (Method × Operation) :=
  Method.all.filterMap fun method =>
    (item.operation method).map fun operation => (method, operation)

/-- Writes a path item. -/
def toData (item : PathItem) : Data :=
  .record <|
    Data.nonempty "parameters" (Referable.toData Parameter.toData) item.parameters
      ++ item.operations.map fun (method, operation) => (method.key, operation.toData)

end PathItem

end ApiTypes
