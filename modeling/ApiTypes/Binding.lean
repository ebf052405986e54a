import ApiTypes.Document.PathItem
import ApiTypes.TypeExpr

/-! Bindings: the types that the operations of a document take and give. -/

namespace ApiTypes

/-- A parameter with its type. -/
structure ParameterBinding where
  name : CasedName
  location : ParameterLocation
  type : TypeExpr
  required : Bool
  description : Option String

/-- The body of a request with its type. -/
structure BodyBinding where
  contentType : String
  type : TypeExpr
  required : Bool

/-- A response; one without a body has no type. -/
structure ResponseBinding where
  status : String
  contentType : Option String
  type : Option TypeExpr
  description : String

/-- An operation with all its types. -/
structure OperationBinding where
  name : CasedName
  method : Method
  path : String
  parameters : List ParameterBinding
  requestBody : Option BodyBinding
  responses : List ResponseBinding
  deprecated : Bool

/-- Writes a parameter. -/
def ParameterBinding.toData (binding : ParameterBinding) : Data :=
  .record <|
    Data.field "name" binding.name.toData
      ++ Data.field "location" (.text binding.location.name)
      ++ Data.field "ty" binding.type.toData
      ++ Data.field "required" (.bool binding.required)
      ++ Data.optional "description" .text binding.description

/-- Writes the body of a request. -/
def BodyBinding.toData (binding : BodyBinding) : Data :=
  .record
    [("content_type", .text binding.contentType), ("ty", binding.type.toData),
      ("required", .bool binding.required)]

/-- Writes a response. -/
def ResponseBinding.toData (binding : ResponseBinding) : Data :=
  .record <|
    Data.field "status" (.text binding.status)
      ++ Data.optional "content_type" .text binding.contentType
      ++ Data.optional "ty" TypeExpr.toData binding.type
      ++ Data.field "description" (.text binding.description)

namespace OperationBinding

/-- The declared types that an operation mentions, in order and as often as it does. -/
def mentions (binding : OperationBinding) : List String :=
  binding.parameters.flatMap (fun parameter => parameter.type.mentions)
    ++ (binding.requestBody.map fun body => body.type.mentions).getD []
    ++ binding.responses.flatMap fun response => (response.type.map TypeExpr.mentions).getD []

/-- The response for a status. -/
def response? (binding : OperationBinding) (status : String) : Option ResponseBinding :=
  binding.responses.find? fun response => response.status == status

/-- Writes an operation. -/
def toData (binding : OperationBinding) : Data :=
  .record <|
    Data.field "name" binding.name.toData
      ++ Data.field "method" (.text binding.method.name)
      ++ Data.field "path" (.text binding.path)
      ++ Data.field "parameters" (.list (binding.parameters.map ParameterBinding.toData))
      ++ Data.optional "request_body" BodyBinding.toData binding.requestBody
      ++ Data.field "responses" (.list (binding.responses.map ResponseBinding.toData))
      ++ Data.flag "deprecated" binding.deprecated

end OperationBinding

end ApiTypes
