import ApiTypes.Proofs.AliasCycles
import ApiTypes.Proofs.Invariance

/-!
Nullable component schemas at their uses. Either the use admits null or the declaration does, unless an
intersection is merged into a record: that says nothing of null, and neither do its uses.
-/

namespace ApiTypes

namespace Shape

/-- Whether a shape says itself that null is admitted. -/
def statesNull : Shape → Bool
  | «alias» target => target.nullable || (match target.kind with
    | .any | .null => true
    | _ => false)
  | union shape => shape.nullable
  | record _ | enum _ _ => false

/-- Whether a shape is a record. -/
def isRecord : Shape → Bool
  | record _ => true
  | enum _ _ | union _ | «alias» _ => false

/-- A shape that may admit null does so if that is asked for. -/
theorem statesNull_admitting {shape : Shape} (isAlias : shape.isAlias = true) :
    (shape.admitting true).statesNull = true := by
  cases shape with
  | «alias» target => simp [admitting, statesNull, TypeExpr.withNullable]
  | record | enum | union => cases isAlias

end Shape

namespace SchemaNode

/-- Whether a node is an intersection. -/
def isIntersection (node : SchemaNode) : Bool :=
  match node.kind with
  | .composed .allOf _ _ => true
  | _ => false

/-- The uses of an intersection leave null to its declaration. -/
theorem not_inheritsNull_of_isIntersection {node : SchemaNode}
    (isIntersection : node.isIntersection = true) : node.inheritsNull = false := by
  unfold SchemaNode.isIntersection at isIntersection
  unfold inheritsNull
  split at isIntersection
  · simp_all
  · cases isIntersection

end SchemaNode

/-- What members merge into is a record or another name of a type. -/
theorem isAlias_mergeAllOf {members : List IntersectionMember} {merged : Merged}
    {equivalent : TypeKind TypeExpr → TypeKind TypeExpr → Bool}
    (isMerged : mergeAllOf members equivalent = .ok merged) (notRecord : merged.shape.isRecord = false) :
    merged.shape.isAlias = true := by
  obtain ⟨_, ⟨_, _, isSingle⟩ | ⟨_, _, _, _, isWhole⟩⟩ := Intersection.mergeAllOf_cases isMerged
  · rw [isSingle] at notRecord ⊢
    revert notRecord
    unfold Intersection.single
    split <;> simp [Shape.isRecord, Shape.isAlias]
  · rw [isWhole] at notRecord
    cases notRecord

/-- A choice that admits null says so. -/
theorem statesNull_unionOf {kind : CompositionKind} {names : List String}
    {discriminator : Option Discriminator} {shape : Shape}
    (isUnion : unionOf kind names true discriminator = .ok shape) : shape.statesNull = true := by
  unfold unionOf at isUnion
  split at isUnion <;> cases isUnion <;> rfl

section

variable {context : Context} {expanding : List String} {first last : Workspace}

/-- A nullable node that is used directly has a nullable type, unless that holds null anyway. -/
theorem Yields.statesNull_expression {node : SchemaNode} {depth : Nat} {type : TypeExpr}
    (yields : Yields context expanding first (.expression node depth) (.type type) last)
    (isPlain : node.isDeclared = false) (nullable : node.traits.nullable = true) :
    (Shape.alias type).statesNull = true := by
  cases yields with
  | constant isConstant =>
    unfold SchemaNode.constant? at isConstant
    split at isConstant <;> cases isConstant <;>
      simp [Shape.statesNull, nullable, TypeExpr.withNullable]
  | array | map | use => simp_all [Shape.statesNull, TypeExpr.withNullable]
  | promoteAlias isDeclared | promote isDeclared => simp [isPlain] at isDeclared

/-- The shape of an intersection is a record or another name of a type. -/
theorem Yields.isAlias_intersection {nodes : List SchemaNode} {depth : Nat} {shape : Shape}
    (yields : Yields context expanding first (.intersection nodes depth) (.shape shape) last)
    (notRecord : shape.isRecord = false) : shape.isAlias = true := by
  cases yields with
  | intersectionReference => rfl
  | intersectionMembers _ _ merges => exact isAlias_mergeAllOf merges notRecord

/--
The declaration of a nullable node says that null is admitted, or its uses do, unless it is the record
of an intersection.
-/
theorem Yields.statesNull_declare {node : SchemaNode} {depth : Nat} {shape : Shape}
    (yields : Yields context expanding first (.declare node depth) (.shape shape) last)
    (nullable : node.traits.nullable = true)
    (notMerged : ¬(node.isIntersection = true ∧ shape.isRecord = true)) :
    node.inheritsNull = true ∨ shape.statesNull = true := by
  -- Records and enumerations leave null to their uses; the others state it in their shape.
  cases yields with
  | declarePlain isPlain _ inside => exact .inr (inside.statesNull_expression isPlain nullable)
  | declareEnum | declareRecord => exact .inl (by simpa [SchemaNode.inheritsNull] using nullable)
  | @declareIntersection _ _ _ _ _ _ _ _ inner _ inside =>
    right
    have notRecord : inner.isRecord = false := by
      cases inner with
      | record => exact absurd ⟨rfl, rfl⟩ notMerged
      | enum | union | «alias» => rfl
    rw [nullable]
    exact Shape.statesNull_admitting (inside.isAlias_intersection notRecord)
  | declareChoice _ _ _ unites | declareDiscriminated _ _ _ _ unites =>
    rw [show _ = true from nullable, Bool.true_or] at unites
    exact .inr (statesNull_unionOf unites)

end

namespace Output

/-- The emitted declaration of a name admits null, by itself or by one that it leads to. -/
inductive AdmitsNull (output : Output) : String → Prop
  | direct {declaration : Declaration} (isEmitted : declaration ∈ output.declarations)
    (statesNull : declaration.shape.statesNull = true) : AdmitsNull output declaration.name
  | named {declaration : Declaration} {target : String}
    (isEmitted : declaration ∈ output.declarations)
    (isSynonym : declaration.shape.synonym? = some target) (inside : AdmitsNull output target) :
    AdmitsNull output declaration.name
  | member {declaration : Declaration} {shape : UnionShape} {member : String}
    (isEmitted : declaration ∈ output.declarations) (isUnion : declaration.shape = .union shape)
    (isMember : member ∈ shape.members) (inside : AdmitsNull output member) :
    AdmitsNull output declaration.name

/-- A type admits null where it is used, or it is that of a declaration that does. -/
def Admits (output : Output) (type : TypeExpr) : Prop :=
  type.nullable = true ∨ ∃ name, type.name? = some name ∧ output.AdmitsNull name

end Output

namespace Document

variable (document : Document) (config : Config)

/-- A reference to a component schema yields a type, wherever synthesis may come upon it. -/
def ReferenceYields (schema : String) (type : TypeExpr) : Prop :=
  ∃ muted active expanding scope first last, Consistent (document.context config) first ∧
    (∀ other ∈ active, first.resolver.state other ≠ .pending) ∧
    ((Synthesis.within (document.context config) muted active expanding).reference schema scope).Ends
      first (.ok type) last

/-- A component schema is an intersection that has been merged into a record. -/
def MergesRecord (schema : String) : Prop :=
  ∃ node, (document.context config).model.node? schema = some node ∧ node.isIntersection = true ∧
    ∃ declaration ∈ (document.synthesize config).declarations,
      declaration.origin = .component schema ∧ declaration.shape.isRecord = true

/-- An emitted component schema has the shape that its node has given. -/
theorem yields_of_emitted {schema name : String} {node : SchemaNode}
    (emitted : (document.synthesize config).names.get? schema = some name)
    (found : (document.context config).model.node? schema = some node) :
    ∃ declaration ∈ (document.synthesize config).declarations,
      declaration.name = name ∧ declaration.origin = .component schema ∧
      ∃ expanding first last, Yields (document.context config) expanding first (.declare node 0)
        (.shape declaration.shape) last := by
  -- A name that is emitted is held by a registered schema, whose declaration has come of its node.
  have consistent := document.consistent_unfinished config
  obtain ⟨held, supported⟩ := (document.names_synthesize_get?_iff config schema name).mp emitted
  obtain ⟨declaration, stands, origin, registered⟩ :=
    document.registered_of_supported config held supported
  have sameName := consistent.wellFormed.name_eq stands
  cases document.records_unfinished config registered with
  | walk isNode isName isRecorded _ yields =>
    cases found.symm.trans isNode
    cases held.symm.trans isName
    cases stands.symm.trans isRecorded
    refine ⟨declaration, ?_, sameName, origin, _, _, _, yields⟩
    rw [mem_declarations_synthesize_iff, sameName]
    exact ⟨stands, name, .component stands (by simp [origin, Origin.isComponent]) supported, .refl⟩

/-- An emitted declaration of a component schema has the shape that the node has given. -/
theorem yields_of_component {schema : String} {declaration : Declaration}
    (isEmitted : declaration ∈ (document.synthesize config).declarations)
    (origin : declaration.origin = .component schema) :
    ∃ node expanding first last, (document.context config).model.node? schema = some node ∧
      Consistent (document.context config) first ∧
      Yields (document.context config) expanding first (.declare node 0) (.shape declaration.shape)
        last := by
  obtain ⟨stands, _⟩ := (document.mem_declarations_synthesize_iff config declaration).mp isEmitted
  obtain ⟨held, registered⟩ := (document.consistent_unfinished config).of_component stands origin
  cases document.records_unfinished config registered with
  | walk isNode isName isRecorded consistent yields =>
    cases held.symm.trans isName
    cases stands.symm.trans isRecorded
    exact ⟨_, _, _, _, isNode, consistent, yields⟩

/-- A reference to an emitted component schema is a use of its name. -/
theorem eq_of_referenceYields {schema name : String} {node : SchemaNode} {type : TypeExpr}
    (emitted : (document.synthesize config).names.get? schema = some name)
    (found : (document.context config).model.node? schema = some node)
    (yields : document.ReferenceYields config schema type) :
    type = (TypeExpr.named name).withNullable node.inheritsNull := by
  obtain ⟨muted, active, expanding, scope, first, last, consistent, started, ends⟩ := yields
  have adequate := Synthesis.adequate_within (document.context config) muted active expanding
  have looked := adequate.reference schema scope _ _ _ consistent started ends
  cases looked with
  | reference isNode isHeld =>
    cases found.symm.trans isNode
    cases ((document.names_synthesize_get?_iff config schema name).mp emitted).1.symm.trans isHeld
    rfl

/-- The name of an emitted record admits no null. -/
theorem not_admitsNull_of_isRecord {declaration : Declaration}
    (isEmitted : declaration ∈ (document.synthesize config).declarations)
    (isRecord : declaration.shape.isRecord = true) :
    ¬(document.synthesize config).AdmitsNull declaration.name := by
  generalize isName : declaration.name = name
  -- Whatever is emitted under the name is the record.
  have unique : ∀ other ∈ (document.synthesize config).declarations, other.name = name →
      other.shape.isRecord = true := fun other otherEmitted sameName =>
    document.emitted_unique config isEmitted otherEmitted (isName.trans sameName.symm) ▸ isRecord
  intro admits
  cases admits with
  | @direct other otherEmitted statesNull =>
    have isRecord := unique other otherEmitted rfl
    cases isShape : other.shape <;> simp [isShape, Shape.isRecord, Shape.statesNull] at *
  | @named other _ otherEmitted isSynonym =>
    have isRecord := unique other otherEmitted rfl
    cases isShape : other.shape <;> simp [isShape, Shape.isRecord, Shape.synonym?] at *
  | @member other _ _ otherEmitted isUnion =>
    simpa [isUnion, Shape.isRecord] using unique other otherEmitted rfl

/--
A reference to a nullable component schema that is emitted admits null exactly if the schema is no
intersection that has been merged into a record.
-/
theorem admits_reference_iff (schema name : String) (node : SchemaNode) (type : TypeExpr)
    (emitted : (document.synthesize config).names.get? schema = some name)
    (found : (document.context config).model.node? schema = some node)
    (nullable : node.traits.nullable = true)
    (yields : document.ReferenceYields config schema type) :
    (document.synthesize config).Admits type ↔ ¬document.MergesRecord config schema := by
  -- A reference admits null by itself or by its declaration. Only a merged record does neither: the use
  -- leaves it to the declaration, and a record cannot state it.
  obtain ⟨declaration, isEmitted, rfl, origin, _, _, _, declares⟩ :=
    document.yields_of_emitted config emitted found
  rw [document.eq_of_referenceYields config emitted found yields]
  constructor
  · rintro admits ⟨also, isNode, isIntersection, other, otherEmitted, otherOrigin, isRecord⟩
    cases found.symm.trans isNode
    have sameName : other.name = declaration.name := by
      have ⟨stands, _⟩ := (document.mem_declarations_synthesize_iff config other).mp otherEmitted
      have held := ((document.consistent_unfinished config).of_component stands otherOrigin).1
      have alsoHeld := ((document.names_synthesize_get?_iff config schema _).mp emitted).1
      exact Option.some.inj (held.symm.trans alsoHeld)
    rcases admits with atUse | ⟨_, isName, inside⟩
    · simp [node.not_inheritsNull_of_isIntersection isIntersection, TypeExpr.withNullable] at atUse
    · cases isName
      exact document.not_admitsNull_of_isRecord config otherEmitted isRecord (sameName ▸ inside)
  · intro notMerged
    have notRecord : ¬(node.isIntersection = true ∧ declaration.shape.isRecord = true) :=
      fun ⟨isIntersection, isRecord⟩ =>
        notMerged ⟨node, found, isIntersection, declaration, isEmitted, origin, isRecord⟩
    rcases declares.statesNull_declare nullable notRecord with atUse | statesNull
    · exact .inl atUse
    · exact .inr ⟨declaration.name, rfl, .direct isEmitted statesNull⟩

/-- A nullable intersection of two records, a nullable record, and a record with fields for both. -/
def nullableIntersection : Document :=
  let record (field : String) (nullable : Option Bool) : Schema := .inline {
    nullable
    type := some (.single .object)
    properties := ⟨[(field, .inline { type := some (.single .string) })]⟩ }
  { openapi := "3.0.3"
    info := { title := "Nullable intersection", version := "1" }
    components := some {
      schemas := ⟨[
        ("C", .inline { nullable := some true, allOf := [record "a" none, record "b" none] }),
        ("D", record "a" (some true)),
        ("U", .inline {
          type := some (.single .object)
          properties := ⟨[("c", .ref "#/components/schemas/C"),
            ("d", .ref "#/components/schemas/D")]⟩ })]⟩ } }

/-- Before anything has been synthesized, a reference to one of its schemas yields a use of its name. -/
theorem referenceYields_nullableIntersection (schema : String) (isSchema : schema ∈ ["C", "D"]) :
    ∃ type, nullableIntersection.ReferenceYields {} schema type := by
  -- Synthesis is run for both schemas; what matters is that it gives a type.
  have yields : ∀ schema ∈ ["C", "D"], (((Synthesis.surroundings
      (nullableIntersection.context {})).reference schema ⟨schema, "#"⟩).outcome
        (Workspace.ofContext (nullableIntersection.context {}))).1.isOk = true := by
    decide +kernel
  obtain ⟨result, last, ends⟩ := ((Synthesis.surroundings
    (nullableIntersection.context {})).reference schema ⟨schema, "#"⟩).exists_ends
      (Workspace.ofContext (nullableIntersection.context {}))
  have isOk := yields schema isSchema
  rw [ends] at isOk
  cases result with
  | ok type => exact ⟨type, false, [], [], _, _, last, .ofContext _, by simp, ends⟩
  | error error => cases isOk

/-- The record is no intersection, so its uses admit null. -/
theorem admits_reference_nullableIntersection :
    ∃ type, nullableIntersection.ReferenceYields {} "D" type ∧
      (nullableIntersection.synthesize {}).Admits type := by
  -- The second schema is an object, so its uses admit null.
  obtain ⟨type, yields⟩ := referenceYields_nullableIntersection "D" (by simp)
  have emitted : (nullableIntersection.synthesize {}).names.get? "D" = some "D" := by decide +kernel
  have isSome : (((nullableIntersection.context {}).model.node? "D").filter fun node =>
      node.traits.nullable && !node.isIntersection).isSome = true := by
    decide
  obtain ⟨node, isNode⟩ := Option.isSome_iff_exists.mp isSome
  obtain ⟨found, isNode⟩ := Option.filter_eq_some_iff.mp isNode
  obtain ⟨nullable, notIntersection⟩ := Bool.and_eq_true_iff.mp isNode
  refine ⟨type, yields, (admits_reference_iff nullableIntersection {} "D" "D" node type emitted found
    nullable yields).mpr ?_⟩
  rintro ⟨also, isAlso, isIntersection, _⟩
  cases found.symm.trans isAlso
  simp [isIntersection] at notIntersection

/-- The intersection is merged into a record, and nothing is left of its admitting null. -/
theorem not_admits_nullableIntersection :
    ¬∀ (document : Document) (config : Config) (schema name : String) (node : SchemaNode)
      (type : TypeExpr), (document.synthesize config).names.get? schema = some name →
      (document.context config).model.node? schema = some node → node.traits.nullable = true →
      document.ReferenceYields config schema type → (document.synthesize config).Admits type := by
  -- The first schema is an intersection that is merged into a record.
  intro neverLost
  obtain ⟨type, yields⟩ := referenceYields_nullableIntersection "C" (by simp)
  have emitted : (nullableIntersection.synthesize {}).names.get? "C" = some "C" := by decide +kernel
  have isSome : (((nullableIntersection.context {}).model.node? "C").filter fun node =>
      node.traits.nullable && node.isIntersection).isSome = true := by
    decide
  obtain ⟨node, isNode⟩ := Option.isSome_iff_exists.mp isSome
  obtain ⟨found, isNode⟩ := Option.filter_eq_some_iff.mp isNode
  obtain ⟨nullable, isIntersection⟩ := Bool.and_eq_true_iff.mp isNode
  have admits := neverLost nullableIntersection {} "C" "C" node type emitted found nullable yields
  rw [eq_of_referenceYields _ _ emitted found yields] at admits
  rcases admits with atUse | ⟨_, isName, inside⟩
  · simp [node.not_inheritsNull_of_isIntersection isIntersection, TypeExpr.withNullable] at atUse
  · cases isName
    have isMerged : ∃ declaration ∈ (nullableIntersection.synthesize {}).declarations,
        declaration.name = "C" ∧ declaration.shape.isRecord = true := by
      decide +kernel
    obtain ⟨declaration, isEmitted, isName, isRecord⟩ := isMerged
    exact not_admitsNull_of_isRecord nullableIntersection {} isEmitted isRecord (isName ▸ inside)

end Document

end ApiTypes
