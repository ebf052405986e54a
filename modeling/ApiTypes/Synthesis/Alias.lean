import ApiTypes.Lowering
import ApiTypes.Search

/-! Schemas that only lead to other schemas: choices behind references, and aliases. -/

namespace ApiTypes

namespace SchemaModel

/--
Whether a node is a choice, following plain references. References that have been followed already
and references to nothing end the search.
-/
def isUnionAfter (model : SchemaModel) (seen : List String) (node : SchemaNode) : Bool :=
  match node.kind with
  | .composed kind _ _ => kind.isUnion
  | .reference target =>
    if fresh : seen.contains target then false
    else
      match found : model.node? target with
      | none => false
      | some next =>
        have := Search.remaining_cons_lt (model.mem_names found) (by simpa using fresh)
        model.isUnionAfter (target :: seen) next
  | _ => false
termination_by Search.remaining model.names seen

/-- Whether a node is a choice, following plain references. -/
def isUnion (model : SchemaModel) (node : SchemaNode) : Bool := model.isUnionAfter [] node

end SchemaModel

namespace SchemaNode

/-- The members of an intersection that place some restriction. -/
def significant (members : List SchemaNode) : List SchemaNode :=
  members.filter fun member => !member.isUnconstrained

/-- The cases of a choice other than null, each at its first place. -/
def distinctCases (members : List SchemaNode) : List SchemaNode :=
  members.foldl
    (fun cases member =>
      if member.kind.isNull || cases.contains member then cases else cases ++ [member]) []

/-- Whether the declaration of a schema is nothing but another name. -/
def declaresAlias (node : SchemaNode) : Bool :=
  match node.kind with
  | .reference _ => true
  | .composed .allOf members _ =>
    match significant members with
    | [only] => only.kind.referenceTarget?.isSome
    | _ => false
  | .composed _ members none => (distinctCases members).length = 1
  | _ => false

end SchemaNode

end ApiTypes
