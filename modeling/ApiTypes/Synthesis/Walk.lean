import ApiTypes.Synthesis.Alias
import ApiTypes.Synthesis.Workspace

/-!
Walking a schema node: the type it gives where it is used, the shape it gives where it is declared,
and what it contributes to an intersection. Other component schemas are reached only by two
actions that the walk is given.
-/

namespace ApiTypes

/-- What the walk over a node needs of its surroundings. -/
structure Surroundings where
  context : Context
  /-- Whether the walk only expands a schema that reports on itself elsewhere. -/
  muted : Bool
  /-- Synthesizes a component schema unless that has been started. -/
  enter : String → StateM Workspace Unit
  /-- What a component schema contributes to an intersection at a path. -/
  expand : String → String → Synthesis MemberShape

/-- What can be asked of a node. -/
structure NodeWalk where
  /-- The shape of the declaration named by the scope, inside a number of arrays. -/
  declare : Scope → Nat → Synthesis Shape
  /-- The type of a use of the node, inside a number of arrays. -/
  expression : Scope → Nat → Synthesis TypeExpr
  /-- The contribution to an intersection in which the node is written, at a depth of arrays. -/
  contribute : Scope → Nat → Synthesis MemberShape
  /-- The contribution to an intersection that refers to the node. -/
  expand : Scope → Synthesis MemberShape

/-- A node together with its walk. -/
abbrev WalkedNode := SchemaNode × NodeWalk

namespace Surroundings

variable (outside : Surroundings)

/-- Looks a component schema up for a reference at a path. -/
def resolve (target path : String) : Synthesis Lookup := do
  match (← get).resolver.resolve outside.context.model target with
  | .ok lookup => return lookup
  | .error error => Synthesis.fail path error.failure

/-- A use of a component schema, which is synthesized first unless that has been started. -/
def reference (target : String) (scope : Scope) : Synthesis TypeExpr := do
  let lookup ← match ← outside.resolve target scope.path with
    | .unvisited _ => do
      outside.enter target
      outside.resolve target scope.path
    | ready => pure ready
  match lookup, outside.context.model.node? target with
  | .ready name, some node =>
    -- Records and enumerations do not say in their declaration that null is admitted.
    let inheritsNull := node.traits.nullable && (match node.kind with
      | .object .. | .enum .. => true
      | _ => false)
    return (TypeExpr.named name).withNullable inheritsNull
  | _, _ => Synthesis.fail scope.path (.dependencyFailed target)

/-- Reports required names that no property declares. -/
def reportUndeclared (traits : NodeTraits) (scope : Scope) : Synthesis Unit := do
  if !outside.muted then
    for name in traits.required do
      Synthesis.report (scope.path ++ "/required") (.undeclaredRequired name)

/-- Checks an array inside a number of arrays, itself included, against the limits. -/
def checkArray (constraints : Constraints) (scope : Scope) (depth : Nat) : Synthesis Unit := do
  let config := outside.context.config
  if config.maxArrayDepth < depth then
    Synthesis.fail scope.path (.arrayLimit (.depth depth config.maxArrayDepth))
  if let (some limit, some maxItems) := (config.maxItems, constraints.maxItems) then
    if limit < maxItems then Synthesis.fail scope.path (.arrayLimit (.items maxItems limit))

/-- The fields of an object in order. -/
def fields (scope : Scope) : List (Property WalkedNode) → Synthesis (List Field)
  | [] => return []
  | property :: rest => do
    let name := CasedName.of property.name
    let place := scope.child name.pascal ("/properties/" ++ Pointer.escape property.name)
    let (node, walk) := property.schema
    let type ← walk.expression place 0
    let field : Field :=
      { name, type
        required := property.required
        description := node.traits.description
        deprecated := node.traits.deprecated
        readOnly := node.traits.readOnly
        writeOnly := node.traits.writeOnly }
    return field :: (← fields scope rest)

/-- The type of the values of a map, inside a number of arrays. -/
def mapValue (value : WalkedNode) (scope : Scope) (depth : Nat) : Synthesis TypeExpr :=
  value.2.expression (scope.child "Value" "/additionalProperties") depth

/-- The record of an object. -/
def record (properties : List (Property WalkedNode)) (additional : Option WalkedNode)
    (scope : Scope) : Synthesis RecordShape := do
  let fields ← fields scope properties
  let additional ← additional.mapM fun value => mapValue value scope 0
  return { fields, additional }

/-- What the candidate for the name of an array's items begins with, or of a choice's member. -/
def baseName (base : PrimitiveBase) : String := (CasedName.of base.name).pascal

/-- The candidate for the name of a member that has none. -/
def memberCandidate (registry : Registry) (parent : String) (type : TypeExpr) : String :=
  match type.kind with
  | .named name => name
  | .array items =>
    registry.arrayName <| match items.kind with
      | .named name => name
      | .primitive base _ => baseName base
      | _ => parent ++ "Item"
  | .primitive base _ => parent ++ baseName base
  | .map _ => parent ++ "Map"
  | .any | .null => parent ++ "Any"

/-- The name of a member of a choice; a type without a name is declared as an alias. -/
def nameMember (type : TypeExpr) (parent member : Scope) : Synthesis String := do
  match type.name? with
  | some name => return name
  | none =>
    let candidate := memberCandidate (← get).registry parent.name type
    Synthesis.register candidate (.alias (type.withNullable false)) none false
      (.inline member.path)

/-- The names of the members of a choice from a position on, and whether some admit null. -/
def cases (kind : CompositionKind) (scope : Scope) (depth : Nat) :
    List WalkedNode → Nat → Synthesis (List String × Bool)
  | [], _ => return ([], false)
  | (node, walk) :: rest, index => do
    if node.kind.isNull then
      let (names, _) ← cases kind scope depth rest (index + 1)
      return (names, true)
    let place := scope.child ("Variant" ++ toString (index + 1))
      ("/" ++ kind.keyword ++ "/" ++ toString index)
    let type ← walk.expression place depth
    let name ← nameMember type scope place
    let (names, nullable) ← cases kind scope depth rest (index + 1)
    return (name :: names, type.nullable || nullable)

/-- The mapping of a discriminator to the names of types. -/
def mapping (scope : Scope) : List (String × String) → Table String → Synthesis (Table String)
  | [], found => return found
  | (value, target) :: rest, found => do
    let type ← outside.reference target scope
    mapping scope rest (match type.name? with
      | some name => found.insert value name
      | none => found)

/-- The shape of a choice. -/
def union (kind : CompositionKind) (members : List WalkedNode)
    (discriminator : Option Discriminator) (nullable : Bool) (scope : Scope) (depth : Nat) :
    Synthesis Shape := do
  let (names, memberNullable) ← cases kind scope depth members 0
  let discriminator ← discriminator.mapM fun found => do
    let mapping ← outside.mapping (scope.below "/discriminator") found.mapping.entries {}
    return ({ found with mapping } : Discriminator)
  Synthesis.liftComposition scope.path
    (unionOf kind names (nullable || memberNullable) discriminator)

/-- What a member contributes whose own shape is known. -/
def contributionOf (shape : Shape) (scope : Scope) : Synthesis MemberShape := do
  match shape with
  | .record shape => return .record shape
  | .union _ => return .union
  | .enum _ _ => return .scalar .any
  | .alias target =>
    let schema := target.name?.bind (← get).resolver.schemas.get?
    match schema, target.nullable, target.kind with
    | some schema, false, _ => outside.expand schema scope.path
    | _, _, .any => return .unconstrained
    | _, _, _ => return .scalar target

/-- The members of an intersection from a position on. -/
def members (scope : Scope) (depth : Nat) :
    List WalkedNode → Nat → Synthesis (List IntersectionMember)
  | [], _ => return []
  | (node, walk) :: rest, index => do
    let place := scope.below ("/allOf/" ++ toString index)
    let label := toString index
    let member ← match node.kind with
      | .reference target => do
        let type ← outside.reference target place
        let shape ← outside.expand target place.path
        pure { label := target, reference := type.name?, shape : IntersectionMember }
      | _ => do
        let shape ← walk.contribute place depth
        pure { label, shape : IntersectionMember }
    -- An object may require names that only other members declare.
    let required := match node.kind with
      | .object .. => if node.traits.required.isEmpty then [] else
        [{ label, shape := .required node.traits.required : IntersectionMember }]
      | _ => []
    return member :: required ++ (← members scope depth rest (index + 1))

/-- The shape of an intersection. -/
def intersection (nodes : List WalkedNode) (scope : Scope) (depth : Nat) : Synthesis Shape := do
  let significant := SchemaNode.significant (nodes.map Prod.fst)
  let only := match significant with
    | [only] => only.kind.referenceTarget?
    | _ => none
  match only with
  | some target =>
    -- A single reference stands for the schema itself, unless that is a choice.
    let place := scope.below "/allOf/0"
    let model := outside.context.model
    if (model.node? target).any model.isUnion then
      Synthesis.failComposition place.path (.nestedUnion target)
    return .alias (← outside.reference target place)
  | none =>
    let inputs ← outside.members scope depth nodes 0
    let registry := (← get).registry
    let merged ← Synthesis.liftComposition scope.path (mergeAllOf inputs registry.equivalent)
    if !outside.muted then
      for note in merged.notes do
        Synthesis.report scope.path (.merged note)
    return merged.shape

/-- The use of a node that has to be declared; a shape that is only a type is used directly. -/
def promote (traits : NodeTraits) (scope : Scope) (declare : Scope → Synthesis Shape) :
    Synthesis TypeExpr := do
  let candidate := (traits.title.map fun title => (CasedName.of title).pascal).getD scope.name
  match ← declare { scope with name := candidate } with
  | .alias target => return target.withNullable (target.nullable || traits.nullable)
  | shape =>
    let carriesNull := match shape with
      | .union _ => true
      | _ => false
    let name ← Synthesis.register candidate shape traits.description traits.deprecated
      (.inline scope.path)
    return (TypeExpr.named name).withNullable (traits.nullable && !carriesNull)

/-- The walk of a node that is used directly. -/
def plainWalk (traits : NodeTraits) (expression : Scope → Nat → Synthesis TypeExpr) : NodeWalk where
  declare scope depth := do
    outside.reportUndeclared traits scope
    return .alias (← expression scope depth)
  expression := expression
  contribute scope depth := return .scalar (← expression scope depth)
  expand scope := return .scalar (.named scope.name)

/-- The walk of a node that is declared wherever it is used. -/
def declaredWalk (traits : NodeTraits) (shape : Scope → Nat → Synthesis Shape) : NodeWalk :=
  let declare (scope : Scope) (depth : Nat) : Synthesis Shape := do
    outside.reportUndeclared traits scope
    shape scope depth
  let expression (scope : Scope) (depth : Nat) : Synthesis TypeExpr :=
    promote traits scope fun named => declare named depth
  { declare
    expression
    contribute := fun scope depth => return .scalar (← expression scope depth)
    expand := fun scope => return .scalar (.named scope.name) }

/-- The walk of a node that says nothing about a type. -/
def anyWalk (traits : NodeTraits) : NodeWalk :=
  let plain := outside.plainWalk traits fun _ _ => return TypeExpr.any.withNullable traits.nullable
  if !traits.constraints.isEmpty then plain
  else
    let contribution : MemberShape :=
      if traits.required.isEmpty then .unconstrained else .required traits.required
    { plain with
      contribute := fun _ _ => return contribution
      expand := fun _ => return contribution }

/-- The walk of an array. -/
def arrayWalk (items : WalkedNode) (traits : NodeTraits) : NodeWalk :=
  outside.plainWalk traits fun scope depth => do
    outside.checkArray traits.constraints scope (depth + 1)
    let type ← items.2.expression (scope.child "Item" "/items") (depth + 1)
    return { kind := .array type, nullable := traits.nullable, constraints := traits.constraints }

/-- The walk of a map. In an intersection it is a record without fields. -/
def mapWalk (value : WalkedNode) (traits : NodeTraits) : NodeWalk :=
  { outside.plainWalk traits fun scope depth => do
      return { kind := .map (← mapValue value scope depth), nullable := traits.nullable } with
    contribute := fun scope depth => do
      return .record { additional := some (← mapValue value scope depth) } }

/-- The walk of an object. One without any properties is used as a map of untyped values. -/
def objectWalk (properties : List (Property WalkedNode)) (additional : Option WalkedNode)
    (traits : NodeTraits) : NodeWalk :=
  let walk :=
    if properties.isEmpty && additional.isNone then
      outside.plainWalk traits fun _ _ =>
        return { kind := .map .any, nullable := traits.nullable }
    else
      outside.declaredWalk traits fun scope _ =>
        return .record (← record properties additional scope)
  { walk with
    contribute := fun scope _ => return .record (← record properties additional scope)
    expand := fun scope => return .record (← record properties additional scope) }

/-- The walk of a reference. -/
def referenceWalk (target : String) (traits : NodeTraits) : NodeWalk :=
  { outside.plainWalk traits fun scope _ => do
      let type ← outside.reference target scope
      return type.withNullable (type.nullable || traits.nullable) with
    expand := fun scope => do
      let _ ← outside.reference target scope
      outside.expand target scope.path }

/-- The walk of an intersection. An alias admits null if the intersection itself does. -/
def intersectionWalk (members : List WalkedNode) (traits : NodeTraits) : NodeWalk :=
  let contribute (scope : Scope) (depth : Nat) : Synthesis MemberShape := do
    outside.contributionOf (← outside.intersection members scope depth) scope
  { outside.declaredWalk traits fun scope depth => do
      match ← outside.intersection members scope depth with
      | .alias target => return .alias (target.withNullable (target.nullable || traits.nullable))
      | shape => return shape with
    contribute
    expand := fun scope => contribute scope 0 }

/-- The walk of a choice, which no intersection accepts. -/
def unionWalk (kind : CompositionKind) (members : List WalkedNode)
    (discriminator : Option Discriminator) (traits : NodeTraits) : NodeWalk :=
  { outside.declaredWalk traits fun scope depth =>
      outside.union kind members discriminator traits.nullable scope depth with
    contribute := fun _ _ => return .union }

/-- The walk of a node, given the walks of the nodes inside it. -/
def walkKind (kind : NodeKind WalkedNode) (traits : NodeTraits) : NodeWalk :=
  match kind with
  | .primitive base format =>
    outside.plainWalk traits fun _ _ =>
      return ⟨.primitive base format, traits.nullable, traits.constraints⟩
  | .enum base values => outside.declaredWalk traits fun _ _ => return .enum base values
  | .array items => outside.arrayWalk items traits
  | .map value => outside.mapWalk value traits
  | .object properties additional => outside.objectWalk properties additional traits
  | .composed .allOf members _ => outside.intersectionWalk members traits
  | .composed kind members discriminator => outside.unionWalk kind members discriminator traits
  | .reference target => outside.referenceWalk target traits
  | .any => outside.anyWalk traits
  | .null => outside.plainWalk traits fun _ _ => return ⟨.null, false, {}⟩

/-- The walk of a node. -/
def walk (node : SchemaNode) : NodeWalk := node.recurse outside.walkKind

end Surroundings

end ApiTypes
