import ApiTypes.Proofs.RequiredFields
import ApiTypes.Proofs.Synthesis.Inlining

/-!
Members of intersections by reference and in place. A reference that is a member of an intersection may be
replaced by the schema to which it leads, unless that is a map: then the intersection gives a record with
fields of the same names, or types conflict, or the reference was the only type and the intersection its
other name.
-/

namespace ApiTypes

namespace Document

variable (document replaced : Document) (config : Config)

/-- What an intersection gives as a component schema, or wherever synthesis comes to merge its members. -/
inductive Combines (schema : Schema) : Except CompositionError Shape → Prop
  | component {name : String} {declaration : Declaration}
    (isDefined : document.schemas.get? name = some schema)
    (isEmitted : declaration ∈ (document.synthesize config).declarations)
    (origin : declaration.origin = .component name) : Combines schema (.ok declaration.shape)
  | gives {muted : Bool} {active expanding : List String} {scope : Scope} {depth : Nat}
    {nodes : List SchemaNode} {first last : Workspace} {shape : Shape}
    (isIntersection : (schema.node document.version).kind = .composed .allOf nodes none)
    (consistent : Consistent (document.context config) first)
    (started : ∀ other ∈ active, first.resolver.state other ≠ .pending)
    (ends : ((Synthesis.within (document.context config) muted active expanding).intersection
      (nodes.map (Synthesis.within (document.context config) muted active expanding).walked) scope
        depth).Ends first (.ok shape) last) : Combines schema (.ok shape)
  | refuses {muted : Bool} {active expanding : List String} {scope : Scope} {depth : Nat}
    {nodes : List SchemaNode} {first last : Workspace} {inputs : List IntersectionMember}
    {error : CompositionError}
    (isIntersection : (schema.node document.version).kind = .composed .allOf nodes none)
    (several : SchemaNode.onlyReference? nodes = none)
    (consistent : Consistent (document.context config) first)
    (started : ∀ other ∈ active, first.resolver.state other ≠ .pending)
    (contributes : ((Synthesis.within (document.context config) muted active expanding).members
      scope depth
      (nodes.map (Synthesis.within (document.context config) muted active expanding).walked) 0).Ends
        first (.ok inputs) last)
    (isRefused : mergeAllOf inputs last.registry.equivalent = .error error) :
    Combines schema (.error error)

/-- A reference among the members of an intersection is replaced by the schema to which it leads. -/
structure Inlining (keywords inlined : Keywords Schema) (path : String) (schema : Schema) : Prop where
  leads : document.referenced? path = some schema
  inPlace : ∃ before after, keywords.allOf = before ++ .ref path :: after ∧
    inlined = { keywords with allOf := before ++ schema :: after }
  sameVersion : replaced.version = document.version
  /-- Schemas stay as they are but for those that refer to all that the intersection does, as its part. -/
  unchanged : ∀ name, replaced.schemas.get? name = document.schemas.get? name ∨
    ∃ whole, document.schemas.get? name = some whole ∧ ∀ target,
      ((Schema.inline keywords).node document.version).Refers target →
        (whole.node document.version).Refers target
  /-- A schema object lists each property once. -/
  distinct : ∀ base, schema = .inline base → base.properties.keys.Nodup

variable {document replaced config} {keywords inlined : Keywords Schema} {path : String}
  {schema : Schema}

/-- What an intersection gives is what its nodes combine to. -/
theorem Combines.nodes {schema : Schema} {result : Except CompositionError Shape}
    (combines : document.Combines config schema result) {nodes : List SchemaNode}
    (isIntersection : (schema.node document.version).kind = .composed .allOf nodes none) :
    (document.context config).Combines nodes result := by
  have adequate := fun muted active expanding =>
    Synthesis.adequate_within (document.context config) muted active expanding
  -- The shape of the intersection is what is merged, and may admit null where it is declared.
  have ofYields {expanding : List String} {first last : Workspace} {depth : Nat} {shape : Shape}
      (nullable : Bool) (consistent : Consistent (document.context config) first)
      (yields : Yields (document.context config) expanding first (.intersection nodes depth)
        (.shape shape) last) :
      (document.context config).Combines nodes (.ok (shape.admitting nullable)) := by
    cases yields with
    | intersectionReference isOnly => exact .only isOnly
    | @intersectionMembers _ _ middle _ _ _ inputs merged several inside merges =>
      have isMerged : Except.ok (merged.shape.admitting nullable) =
          (mergeAllOf inputs middle.registry.equivalent).map
            fun merged => merged.shape.admitting nullable := by
        rw [merges]
        rfl
      exact isMerged ▸ .several several consistent inside
  cases combines with
  | @component name declaration isDefined isEmitted origin =>
    obtain ⟨node, expanding, first, last, found, consistent, yields⟩ :=
      document.yields_of_component config isEmitted origin
    have isNode : some node = (document.schemas.get? name).map (Schema.node document.version) :=
      found.symm.trans (SchemaModel.node?_ofDocument document name)
    rw [isDefined] at isNode
    cases isNode
    generalize schema.node document.version = node at isIntersection yields
    obtain ⟨kind, traits⟩ := node
    cases isIntersection
    generalize declaration.shape = shape at yields
    cases yields with
    | declarePlain isPlain => cases isPlain
    | declareChoice isChoice => exact absurd rfl isChoice
    | declareIntersection notes inside =>
      exact ofYields _ (notes.advances consistent).1 inside
  | @gives muted active expanding scope depth _ _ _ shape isAlso consistent started ends =>
    cases isIntersection.symm.trans isAlso
    have same : shape.admitting false = shape := by
      cases shape with
      | record | enum | union => rfl
      | «alias» target =>
        obtain ⟨kind, nullable, constraints⟩ := target
        cases nullable <;> rfl
    exact same ▸ ofYields false consistent ((adequate muted active expanding).follows_intersection
      (fun node _ => (adequate muted active expanding).walkFollows node) scope depth _ _ _ consistent
        started ends)
  | @refuses muted active expanding scope depth _ first last inputs error isAlso several consistent
      started contributes isRefused =>
    cases isIntersection.symm.trans isAlso
    have isMerged : Except.error error = (mergeAllOf inputs last.registry.equivalent).map
        fun merged => merged.shape.admitting false := by
      rw [isRefused]
      rfl
    exact isMerged ▸ .several several consistent ((adequate muted active expanding).follows_members
      scope depth (fun node _ => (adequate muted active expanding).walkFollows node) 0 _ _ _
        consistent started contributes)

/--
Documents agree on what a node refers to if all schemas are the same in both but for those that refer to
all that the node does.
-/
theorem agreesOn_of_unchanged (acyclic : (document.context config).Acyclic)
    (sameVersion : replaced.version = document.version) {whole : SchemaNode}
    (unchanged : ∀ name, replaced.schemas.get? name = document.schemas.get? name ∨
      ∃ changed, document.schemas.get? name = some changed ∧ ∀ target,
        whole.Refers target → (changed.node document.version).Refers target) :
    (document.context config).AgreesOn (replaced.context config) fun other =>
      ∃ target, whole.Refers target ∧
        Relation.ReflTransGen (document.context config).Refers target other where
  same other isIn := by
    -- A schema that is not as before refers to what leads to it, if the node leads to it.
    obtain ⟨target, refers, leads⟩ := isIn
    have found := SchemaModel.node?_ofDocument document other
    refine (SchemaModel.node?_ofDocument replaced other).trans ((?_ : _ = _).trans found.symm)
    rw [sameVersion]
    rcases unchanged other with same | ⟨changed, isChanged, holds⟩
    · rw [same]
    · have isNode : (document.context config).model.node? other =
          some (changed.node document.version) := by
        refine found.trans ?_
        rw [isChanged]
        rfl
      exact absurd (.head' ⟨_, isNode, holds target refers⟩ leads) (acyclic other)
  closed other further isIn goesOn := by
    obtain ⟨target, refers, leads⟩ := isIn
    exact ⟨target, refers, leads.tail goesOn⟩

/--
The nodes of an intersection of which a member is a reference, and of one that has its schema instead.
-/
theorem Inlining.inlines (inlining : document.Inlining replaced keywords inlined path schema)
    (acyclic : (document.context config).Acyclic) : ∃ before after schemas,
      ((Schema.inline keywords).node document.version).kind = .composed .allOf
        (before ++ ⟨.reference ((Pointer.schemaName? path).getD path), {}⟩ :: after) none ∧
      ((Schema.inline inlined).node replaced.version).kind =
        .composed .allOf (before ++ schema.node document.version :: after) none ∧
      (document.context config).Inlines (replaced.context config) before after
        ((Pointer.schemaName? path).getD path) {} (schema.node document.version) schemas := by
  obtain ⟨before, after, isAllOf, rfl⟩ := inlining.inPlace
  have several : keywords.allOf ≠ [] := by simp [isAllOf]
  have byReference := Schema.kind_node_of_several document.version several
  rw [isAllOf] at byReference
  generalize isWhole : (Schema.inline keywords).node document.version = whole at byReference
  -- The schemas to which the intersection leads are those that the documents have to agree about.
  refine ⟨before.map (Schema.node document.version), after.map (Schema.node document.version) ++
    Schema.besideNodes document.version keywords, fun other => ∃ target, whole.Refers target ∧
      Relation.ReflTransGen (document.context config).Refers target other, ?_, ?_, ?_⟩
  · rw [byReference, List.map_append, List.map_cons, Schema.node_ref, List.append_assoc]
    rfl
  · rw [inlining.sameVersion, Schema.kind_node_of_several document.version (by simp)]
    simp only [List.map_append, List.map_cons, List.append_assoc, List.cons_append]
    rfl
  · refine ⟨agreesOn_of_unchanged acyclic inlining.sameVersion (isWhole ▸ inlining.unchanged),
      fun member isMember further refers => ?_, ?_, ?_⟩
    · obtain ⟨kind, traits⟩ := whole
      cases byReference
      refine ⟨further, .member ?_ refers, .refl⟩
      simpa [Schema.node_ref, SchemaNode.reference] using isMember
    · exact (SchemaModel.node?_ofDocument document _).trans (congrArg _ inlining.leads)
    -- The properties of an object are those of the schema, whose names are distinct by assumption.
    · intro properties additional isObject
      obtain ⟨base, rfl, single⟩ := Schema.exists_of_other document.version
        (by rw [isObject]; rfl) (by simp [isObject])
      rcases Schema.kind_node_of_single document.version single with ⟨_, isListed⟩ | isUnlisted
      · cases isObject.symm.trans isListed
        simpa [Schema.properties, Function.comp_def, Table.keys] using inlining.distinct base rfl
      · simp [isObject, NodeKind.isUnlisted] at isUnlisted

end Document

/-- The record that a shape is. -/
def Shape.record? : Shape → Option RecordShape
  | .record shape => some shape
  | .enum .. | .union _ | .alias _ => none

namespace Document

/-- An object with a field of its own. -/
def ownField : Schema := .inline {
  type := some (.single .object)
  properties := ⟨[("own", .inline { type := some (.single .string) })]⟩ }

/-- An intersection of the given schema and an object. -/
def extending (base : Schema) : Keywords Schema where
  allOf := [base, ownField]

/-- A document with a base and an intersection that extends the base, or what is written in its place. -/
def extended (base member : Schema) : Document where
  openapi := "3.1.0"
  info := { title := "Extended", version := "1" }
  components := some {
    schemas := ⟨[("Extended", .inline (extending member)), ("Shared", base)]⟩ }

/-- A reference to the base. -/
def shared : Schema := .ref "#/components/schemas/Shared"

/-- Documents with different members of the intersection have the same schemas but for that itself. -/
theorem unchanged_extended (base member other : Schema) (name : String) :
    (extended base other).schemas.get? name = (extended base member).schemas.get? name ∨
      ∃ whole, (extended base member).schemas.get? name = some whole ∧ ∀ target,
        ((Schema.inline (extending member)).node (extended base member).version).Refers target →
          (whole.node (extended base member).version).Refers target := by
  by_cases isExtended : name = "Extended"
  · subst isExtended
    exact .inr ⟨_, rfl, fun _ => id⟩
  · refine .inl ?_
    have isOther : ("Extended" == name) = false := by simpa using Ne.symm isExtended
    simp [schemas, extended, Table.get?, List.find?, isOther]

/-- A base that lists no property twice may be written in place of the reference. -/
theorem inlining_extended (base : Schema)
    (distinct : ∀ keywords, base = .inline keywords → keywords.properties.keys.Nodup) :
    (extended base shared).Inlining (extended base base) (extending shared) (extending base)
      "#/components/schemas/Shared" base where
  leads := rfl
  inPlace := ⟨[], [ownField], rfl, rfl⟩
  sameVersion := rfl
  unchanged := unchanged_extended base shared base
  distinct := distinct

/-- A base with a field. -/
def commonField : Keywords Schema where
  type := some (.single .object)
  properties := ⟨[("common", .inline { type := some (.single .string) })]⟩

/-- A map to texts. -/
def labels : Keywords Schema where
  type := some (.single .object)
  additional := some (.schema (.inline { type := some (.single .string) }))

/-- What a document emits as a record is what the schema combines to. -/
theorem combines_of_emitted (document : Document) (name : String) (schema : Schema)
    (holds : RecordShape → Bool) (isDefined : document.schemas.get? name = some schema)
    (isEmitted : ((document.synthesize {}).declarations.any fun declaration =>
      declaration.origin == .component name && declaration.shape.record?.any holds) = true) :
    ∃ shape, document.Combines {} schema (.ok (.record shape)) ∧ holds shape = true := by
  obtain ⟨declaration, isEmitted, origin⟩ := List.any_eq_true.mp isEmitted
  obtain ⟨origin, isRecord⟩ := Bool.and_eq_true_iff.mp origin
  have combines := Combines.component isDefined isEmitted (eq_of_beq origin)
  cases isShape : declaration.shape with
  | record shape =>
    rw [isShape] at isRecord combines
    exact ⟨shape, combines, isRecord⟩
  | enum | union | «alias» => simp [isShape, Shape.record?] at isRecord

/-- The intersection gives a record if it refers to the base with a field. -/
theorem exists_record_commonField : ∃ shape,
    (extended (.inline commonField) shared).Combines {} (.inline (extending shared))
      (.ok (.record shape)) :=
  have ⟨shape, combines, _⟩ := combines_of_emitted (extended (.inline commonField) shared) "Extended" _
    (fun _ => true) rfl (by decide +kernel)
  ⟨shape, combines⟩

/-- The documents are of the newer version. -/
theorem version_extended (base member : Schema) : (extended base member).version = .v31 := by
  change SpecVersion.ofText "3.1.0" = _
  decide

/-- Whether nodes contribute what does not merge, in the workspace in which everything is declared. -/
def refuses (document : Document) (nodes : List SchemaNode) : Bool :=
  let outside := Synthesis.within (document.context {}) true [] []
  let outcome := (outside.members ⟨"", ""⟩ 0 (nodes.map outside.walked) 0).outcome
    (document.unfinished {})
  outcome.1.toOption.any fun inputs =>
    !(mergeAllOf inputs outcome.2.registry.equivalent).toOption.isSome

/-- An intersection of such nodes combines to an error. -/
theorem exists_error_of_refuses (document : Document) {schema : Schema} {nodes : List SchemaNode}
    (isIntersection : (schema.node document.version).kind = .composed .allOf nodes none)
    (several : SchemaNode.onlyReference? nodes = none) (isRefused : document.refuses nodes = true) :
    ∃ error, document.Combines {} schema (.error error) := by
  unfold refuses at isRefused
  extract_lets outside outcome at isRefused
  cases isOutcome : outcome.1 with
  | error error => simp [isOutcome, Except.toOption] at isRefused
  | ok inputs =>
    rw [isOutcome] at isRefused
    cases isMerged : mergeAllOf inputs outcome.2.registry.equivalent with
    | ok merged => simp [isMerged, Except.toOption] at isRefused
    | error error =>
      exact ⟨error, .refuses isIntersection several (document.consistent_unfinished {}) (by simp)
        (Prod.ext isOutcome rfl) isMerged⟩

/-- The nodes of the intersection that extends the base. -/
def extendingNodes : List SchemaNode :=
  (extending shared).allOf.map (Schema.node .v31) ++ Schema.besideNodes .v31 (extending shared)

/-- The intersection has those nodes. -/
theorem kind_extending (base member : Schema) :
    ((Schema.inline (extending shared)).node (extended base member).version).kind =
      .composed .allOf extendingNodes none := by
  rw [version_extended]
  exact Schema.kind_node_of_several .v31 (by simp [extending])

end Document

end ApiTypes
