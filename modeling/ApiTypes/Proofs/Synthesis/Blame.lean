import ApiTypes.Proofs.Synthesis.Demands
import ApiTypes.Proofs.Synthesis.Entries
import ApiTypes.Proofs.Synthesis.Inlining

/-!
What is to blame for a failure. If a task fails, then some task for which it asks fails by itself; and if
that one has yielded a value elsewhere with the same nodes, it is a reference to what has failed before. So
component schemas that can be declared with the help of each other do not fail, unless there is a clash.
-/

namespace ApiTypes

open Relation

variable {context : Context} {expanding : List String} {first last : Workspace}

/-- A task fails by itself, in a workspace, or says that a component schema has failed. -/
inductive Task.Breaks (context : Context) (last : Workspace) : Task → Failure → Prop
  | limit {items traits depth limit}
    (exceeded : context.config.exceeded? traits.constraints (depth + 1) = some limit) :
    Breaks context last (.expression ⟨.array items, traits⟩ depth) (.arrayLimit limit)
  | empty {kind members discriminator traits depth} (isChoice : kind ≠ .allOf)
    (allNull : ∀ member ∈ members, member.kind.isNull = true) :
    Breaks context last (.declare ⟨.composed kind members discriminator, traits⟩ depth)
      (.composition .emptyUnion)
  | undefinedSchema {schema} (undefined : context.model.node? schema = none) :
    Breaks context last (.schema schema) (.undefinedReference schema)
  | undefinedTarget {target} (undefined : context.model.node? target = none) :
    Breaks context last (.reference target) (.undefinedReference target)
  | failed {target} (failed : last.resolver.state target = .failed) :
    Breaks context last (.reference target) (.dependencyFailed target)
  | choice {nodes depth target} (isOnly : SchemaNode.onlyReference? nodes = some target)
    (isChoice : (context.model.node? target).any context.model.isUnion = true) :
    Breaks context last (.intersection nodes depth) (.composition (.nestedUnion target))
  /-- The outlines of the members do not merge, whatever the types of their fields are. -/
  | merge {nodes depth error} (several : SchemaNode.onlyReference? nodes = none)
    (refused : Outline.merge (nodes.flatMap fun node =>
      context.outlineOf node :: node.requiredOutlines) = none) :
    Breaks context last (.intersection nodes depth) (.composition error)

/-- A part of a task is to blame for a failure. -/
def Task.Blames (context : Context) (last : Workspace) (failure : Failure) (task : Task) : Prop :=
  ∃ part, ReflTransGen (Task.Asks context) task part ∧ part.Breaks context last failure

/-- A task that asks for what has a part to blame has one. -/
theorem Task.Asks.blames {task part : Task} {failure : Failure} (asks : task.Asks context part)
    (blames : part.Blames context last failure) : task.Blames context last failure :=
  have ⟨other, needs, breaks⟩ := blames
  ⟨other, needs.head asks, breaks⟩

/-- What an intersection takes is asked for as the component schema that it names. -/
def Task.direct (context : Context) : Task → Task
  | .take (.alias type) =>
    match context.schemaOf? type with
    | some target => .schema target
    | none => .take (.alias type)
  | task => task

/-- Whether a failure says that something does not agree, or that there is a cycle. -/
def Failure.isClash : Failure → Bool
  | .circularAlias _ | .composition (.cyclicIntersection _) => true
  | .composition error => error.isConflict
  | _ => false

/-- Whatever does not agree clashes. -/
theorem Failure.isClash_of_isConflict {error : CompositionError}
    (isConflict : error.isConflict = true) : (Failure.composition error).isClash = true := by
  cases error <;> first | rfl | exact isConflict

/-- What members contribute has the outlines of the members. -/
theorem Yields.map_outline_members {nodes : List SchemaNode} {depth : Nat}
    {inputs : List IntersectionMember}
    (yields : Yields context expanding first (.members nodes depth) (.inputs inputs) last)
    (consistent : Consistent context first) : inputs.map IntersectionMember.outline =
      nodes.flatMap fun node => context.outlineOf node :: node.requiredOutlines := by
  obtain ⟨_, entries_eq, _⟩ := yields.outlined consistent
  rw [← context.map_fst_entriesOf, ← entries_eq, List.map_map]
  rfl

/-- The names of a choice are none if all its cases are null. -/
theorem Yields.names_eq_nil_iff {nodes : List SchemaNode} {depth : Nat} {names : List String}
    {nullable : Bool}
    (yields : Yields context expanding first (.cases nodes depth) (.names names nullable) last) :
    names = [] ↔ ∀ node ∈ nodes, node.kind.isNull = true := by
  induction nodes generalizing first names nullable with
  | nil =>
    cases yields
    simp
  | cons node rest ih =>
    cases yields with
    | casesNull isNull later => simp [ih later, isNull]
    | casesCons notNull => simp [notNull]

/-- Only what is asked for in vain fails to be contributed by its name. -/
theorem Fails.notAtomic_schema {schema : String} {failure : Failure}
    (fails : Fails context expanding first (.schema schema) failure last)
    (noClash : failure.isClash = false) : ¬context.IsAtomic schema := by
  cases fails with
  | schemaCyclic => cases noClash
  | schemaUndefined undefined =>
    rintro ⟨node, found, _⟩
    cases undefined.symm.trans found
  | schema _ found _ _ inside => exact context.not_isAtomic found inside.notAtomic

/-- An intersection asks for all schemas to which its members refer. -/
theorem Task.needs_schema_of_mem {nodes : List SchemaNode} {depth : Nat} {target : String}
    {traits : NodeTraits} (isMember : ⟨.reference target, traits⟩ ∈ nodes) :
    ReflTransGen (Task.Asks context) (.members nodes depth) (.schema target) := by
  induction nodes with
  | nil => cases isMember
  | cons node rest ih =>
    rcases List.mem_cons.mp isMember with rfl | isLater
    · exact .single .memberSchema
    · exact .head .laterMembers (ih isLater)

/-- A schema that an intersection takes by a name is one to which it refers, or an atomic one. -/
theorem Yields.needs_schema_of_alias {nodes : List SchemaNode} {discriminator : Option Discriminator}
    {traits : NodeTraits} {depth : Nat} {type : TypeExpr} {target : String}
    (yields : Yields context expanding first (.intersection nodes depth) (.shape (.alias type)) last)
    (consistent : Consistent context first) (named : context.schemaOf? type = some target)
    (direct : type.nullable = false) (notAtomic : ¬context.IsAtomic target) :
    ReflTransGen (Task.Asks context)
      (.contribute ⟨.composed .allOf nodes discriminator, traits⟩ depth) (.schema target) := by
  generalize isAlias : Shape.alias type = shape at yields
  cases yields with
  | intersectionReference isOnly _ looked =>
    -- The name is that of the schema for which the intersection stands.
    cases isAlias
    cases looked.schemaOf?_reference.symm.trans named
    cases looked with
    | reference found => exact .single (.contributeOnly isOnly found direct)
  | intersectionMembers several inside merges =>
    refine .head .contributeIntersection (.head (.members several) ?_)
    obtain ⟨_, _, ends, _⟩ := inside.outlined consistent
    obtain ⟨name, isName, emitted⟩ := (context.schemaOf?_eq_some_iff type target).mp named
    rcases alias_mergeAllOf merges isAlias.symm with
      rfl | ⟨input, isInput, ⟨other, isReference, rfl⟩ | isScalar⟩
    · cases isName
    · cases isName
      obtain ⟨schema, traits, isNode, held⟩ := inside.exists_reference consistent isInput isReference
      cases Context.emitted?_injective held emitted
      exact Task.needs_schema_of_mem isNode
    · -- A type that is contributed as it is ends the walk, or stands for an atomic schema.
      have isEnd := (ends input isInput).1
      rw [isScalar] at isEnd
      exact absurd (isEnd direct target named) notAtomic

/-- Some part of a task that fails is to blame, unless there is a clash. -/
theorem Fails.blames {task : Task} {failure : Failure}
    (fails : Fails context expanding first task failure last) (consistent : Consistent context first)
    (noClash : failure.isClash = false) : (task.direct context).Blames context last failure := by
  -- The induction is on how the task fails. Either it fails by itself, or something does for which it
  -- asks; only what an intersection takes by a name has to be found among its members first.
  induction fails with
  | limit exceeded => exact ⟨_, .refl, .limit exceeded⟩
  | array _ _ ih => exact Task.Asks.items.blames (ih consistent noClash)
  | map _ ih => exact Task.Asks.value.blames (ih consistent noClash)
  | use _ ih => exact Task.Asks.use.blames (ih consistent noClash)
  | promote isDeclared _ ih => exact (Task.Asks.promote isDeclared).blames (ih consistent noClash)
  | declarePlain isPlain notes _ ih =>
    exact (Task.Asks.declarePlain isPlain).blames (ih (notes.advances consistent).1 noClash)
  | declareRecord isDeclared notes _ ih =>
    exact (Task.Asks.declareRecord isDeclared).blames (ih (notes.advances consistent).1 noClash)
  | declareIntersection notes _ ih =>
    exact Task.Asks.declareIntersection.blames (ih (notes.advances consistent).1 noClash)
  | declareCases isChoice notes _ ih =>
    exact (Task.Asks.declareCases isChoice).blames (ih (notes.advances consistent).1 noClash)
  | declareMapping isChoice notes inside _ ih =>
    have between := (inside.advances (notes.advances consistent).1).1
    exact (Task.Asks.declareMapping isChoice).blames (ih between noClash)
  | declareEmpty isChoice _ inside =>
    exact ⟨_, .refl, .empty isChoice (inside.names_eq_nil_iff.mp rfl)⟩
  | contributeType isType _ ih => exact (Task.Asks.contributeType isType).blames (ih consistent noClash)
  | contributeMap _ ih => exact Task.Asks.contributeMap.blames (ih consistent noClash)
  | contributeRecord _ ih => exact Task.Asks.contributeRecord.blames (ih consistent noClash)
  | contributeIntersection _ ih =>
    exact Task.Asks.contributeIntersection.blames (ih consistent noClash)
  | contributeTake inside takes ih =>
    have between := (inside.advances consistent).1
    cases takes with
    | takeSchema named direct takes =>
      -- What is taken once more has been expanded before, for the members of the intersection.
      have blames := ih between noClash
      simp only [Task.direct, named] at blames
      obtain ⟨part, needs, breaks⟩ := blames
      exact ⟨part, (inside.needs_schema_of_alias consistent named direct
        (takes.notAtomic_schema noClash)).trans needs, breaks⟩
  | expandRecord _ ih => exact Task.Asks.expandRecord.blames (ih consistent noClash)
  | expandReference _ ih => exact Task.Asks.expandReference.blames (ih consistent noClash)
  | expandSchema looked _ ih =>
    exact Task.Asks.expandSchema.blames (ih (looked.advances consistent).1 noClash)
  | expandIntersection _ ih => exact Task.Asks.expandIntersection.blames (ih consistent noClash)
  | schemaCyclic => cases noClash
  | schemaUndefined undefined => exact ⟨_, .refl, .undefinedSchema undefined⟩
  | schema _ found notChoice _ inside ih =>
    exact (Task.Asks.schema found notChoice inside.notAtomic).blames (ih consistent noClash)
  | referenceUndefined undefined => exact ⟨_, .refl, .undefinedTarget undefined⟩
  | referenceFailed _ _ failed => exact ⟨_, .refl, .failed failed⟩
  | fieldsHead _ ih => exact Task.Asks.firstField.blames (ih consistent noClash)
  | fieldsTail inside _ ih =>
    exact Task.Asks.laterFields.blames (ih (inside.advances consistent).1 noClash)
  | recordFields _ ih => exact Task.Asks.fields.blames (ih consistent noClash)
  | recordFurther inside _ ih =>
    exact Task.Asks.further.blames (ih (inside.advances consistent).1 noClash)
  | casesNull _ _ ih => exact Task.Asks.laterCases.blames (ih consistent noClash)
  | casesHead notNull _ ih => exact (Task.Asks.firstCase notNull).blames (ih consistent noClash)
  | casesTail _ inside named _ ih =>
    have between := (named.advances (inside.advances consistent).1).1
    exact Task.Asks.laterCases.blames (ih between noClash)
  | mappingHead _ ih => exact Task.Asks.firstEntry.blames (ih consistent noClash)
  | mappingTail looked _ _ ih =>
    exact Task.Asks.laterEntries.blames (ih (looked.advances consistent).1 noClash)
  | membersReference _ ih => exact Task.Asks.memberReference.blames (ih consistent noClash)
  | membersSchema looked _ ih =>
    exact Task.Asks.memberSchema.blames (ih (looked.advances consistent).1 noClash)
  | membersContribute isOther _ ih =>
    exact (Task.Asks.memberOther isOther).blames (ih consistent noClash)
  | membersReferenceTail looked inside _ ih =>
    have between := (inside.advances (looked.advances consistent).1).1
    exact Task.Asks.laterMembers.blames (ih between noClash)
  | membersOtherTail _ inside _ ih =>
    exact Task.Asks.laterMembers.blames (ih (inside.advances consistent).1 noClash)
  | intersectionChoice isOnly isChoice => exact ⟨_, .refl, .choice isOnly isChoice⟩
  | intersectionReference isOnly _ _ ih =>
    exact (Task.Asks.only isOnly).blames (ih consistent noClash)
  | intersectionMembers several _ ih => exact (Task.Asks.members several).blames (ih consistent noClash)
  | intersectionMerge several inside clashes =>
    -- What does not merge although the outlines do is a conflict, and so a clash.
    refine ⟨_, .refl, .merge several (Option.eq_none_iff_forall_ne_some.mpr fun outline merges => ?_)⟩
    rw [← inside.map_outline_members consistent] at merges
    cases noClash.symm.trans
      (Failure.isClash_of_isConflict (Intersection.isConflict_mergeAllOf merges clashes))
  | takeSchema named _ _ ih =>
    have blames := ih consistent noClash
    simp only [Task.direct, named]
    exact blames

section

variable {other : Context} (same : other.Same context)

include same

/-- Contexts with the same nodes agree on all component schemas. -/
theorem Context.Same.agreesOn : other.AgreesOn context fun _ => True where
  same schema _ := congrFun same.node?_eq schema
  closed _ _ _ _ := trivial

/-- The same limits are exceeded. -/
theorem Context.Same.exceeded?_eq (constraints : Constraints) (depth : Nat) :
    context.config.exceeded? constraints depth = other.config.exceeded? constraints depth := by
  simp only [Config.exceeded?, same.maxArrayDepth_eq, same.maxItems_eq]

/--
What fails by itself, with the nodes and limits with which it has yielded a value elsewhere, is only a
reference to what has failed before.
-/
theorem Task.Breaks.failed_of_yielded {task : Task} {failure : Failure} {now : Workspace}
    (breaks : task.Breaks other now failure) (yielded : task.Yielded context first last) :
    ∃ target, task = .reference target ∧ now.resolver.state target = .failed := by
  obtain ⟨expanding, start, value, done, consistent, _, yields, _⟩ := yielded
  -- All that can be seen from the nodes would have kept the task from yielding a value.
  cases breaks with
  | failed failed => exact ⟨_, rfl, failed⟩
  | limit exceeded =>
    cases yields with
    | constant isConstant => cases isConstant
    | array allowed =>
      rw [same.exceeded?_eq] at allowed
      cases allowed.symm.trans exceeded
    | promoteAlias isDeclared | promote isDeclared => cases isDeclared
  | empty isChoice allNull =>
    have noNames {names : List String} {nullable : Bool} {discriminator : Option Discriminator}
        {kind : CompositionKind} {shape : Shape} (isEmpty : names = [])
        (unites : unionOf kind names nullable discriminator = .ok shape) : False := by
      subst isEmpty
      cases unites
    cases yields with
    | declarePlain isPlain => cases isPlain
    | declareIntersection => exact absurd rfl isChoice
    | declareChoice _ _ inside unites | declareDiscriminated _ _ inside _ unites =>
      exact (noNames (inside.names_eq_nil_iff.mpr allNull) unites).elim
  | undefinedSchema undefined =>
    have undefined := (congrFun same.node?_eq _).trans undefined
    cases yields with
    | schemaChoice _ found | schema _ found => cases undefined.symm.trans found
  | undefinedTarget undefined =>
    cases yields with
    | reference found => cases ((congrFun same.node?_eq _).trans undefined).symm.trans found
  | choice isOnly isChoice =>
    rw [← same.isUnion_eq, ← same.node?_eq] at isChoice
    cases yields with
    | intersectionReference isAlso notChoice =>
      cases isOnly.symm.trans isAlso
      cases notChoice.symm.trans isChoice
    | intersectionMembers several => cases isOnly.symm.trans several
  | @merge nodes _ _ several refused =>
    cases yields with
    | intersectionReference isOnly => cases several.symm.trans isOnly
    | intersectionMembers _ inside merges =>
      -- The nodes have the same outlines here, and those do merge.
      have outlines := (inside.outlined consistent).1
      obtain ⟨outline, isMerged, _⟩ := Intersection.mergesInto_mergeAllOf merges
      rw [inside.map_outline_members consistent] at isMerged
      have same_outlines : (nodes.flatMap fun node => other.outlineOf node :: node.requiredOutlines) =
          nodes.flatMap fun node => context.outlineOf node :: node.requiredOutlines :=
        List.flatMap_congr fun node isNode => by
          rw [(same.agreesOn.symm.outlines (fun _ _ => trivial) (outlines node isNode)).outlineOf_eq]
      cases (same_outlines ▸ refused).symm.trans isMerged

end

variable {other : Context}

/-- It has been reported that something does not agree, or that there is a cycle. -/
def Workspace.Clashes (workspace : Workspace) : Prop :=
  ∃ diagnostic ∈ workspace.diagnostics, ∃ failure, diagnostic.cause.failure? = some failure ∧
    failure.isClash = true

/-- What has been reported stays so. -/
theorem Workspace.Clashes.mono (clashes : first.Clashes)
    (reported : first.diagnostics <+: last.diagnostics) : last.Clashes :=
  have ⟨diagnostic, isReported, isClash⟩ := clashes
  ⟨diagnostic, reported.subset isReported, isClash⟩

/-- Some component schemas do not fail unless something clashes. -/
def Workspace.Spares (schemas : String → Prop) (workspace : Workspace) : Prop :=
  workspace.Clashes ∨ ∀ schema, schemas schema → workspace.resolver.state schema ≠ .failed

/-- Component schemas that are declared in one context with the help of each other. -/
def Context.Founds (context : Context) (schemas : String → Prop) : Prop :=
  ∀ schema, schemas schema → ∃ node start done, context.model.node? schema = some node ∧
    (Task.declare node 0).Yielded context start done ∧
    ∀ target, ReflTransGen (Task.Asks context) (.declare node 0) (.reference target) → schemas target

/-- They do not fail where the nodes are the same, unless something clashes. -/
theorem stepInvariant_spares {schemas : String → Prop} (founds : context.Founds schemas)
    (same : other.Same context) : StepInvariant other (Workspace.Spares schemas) where
  notes notes := Or.imp (·.mono notes.diagnostics) fun spared schema isIn => by
    rw [notes.resolver_eq]
    exact spared schema isIn
  registers _ _ _ _ registers := by
    obtain ⟨_, _, _, _, _, isLast⟩ := registers
    rw [isLast]
    exact id
  begin _ := Or.imp id fun spared schema isIn failed =>
    spared schema isIn (Workspace.state_of_begin failed (by simp))
  conclude {_ first last schema node name result} begun prepared found emitted concludes spares := by
    have reported {path : String} {failure : Failure} (isClash : failure.isClash = true) :
        (last.conclude schema name node (.error ⟨path, failure⟩)).Clashes :=
      ⟨_, List.mem_append_right _ (List.mem_singleton_self _), failure, rfl, isClash⟩
    cases concludes with
    | succeeds =>
      exact spares.imp id fun spared other isIn failed =>
        spared other isIn (Workspace.state_of_conclude failed (by simp))
    | circular => exact .inl (reported rfl)
    | @fails path failure declares =>
      cases isClash : failure.isClash with
      | true => exact .inl (reported isClash)
      | false =>
        refine spares.imp (·.mono (List.prefix_append _ _)) fun spared failing isIn failed => ?_
        by_cases isSame : failing = schema
        · -- What is to blame is a reference to another one of the schemas, which has not failed.
          subst isSame
          obtain ⟨also, start, done, isNode, yielded, needed⟩ := founds failing isIn
          cases ((congrFun same.node?_eq failing).symm.trans isNode).symm.trans found
          obtain ⟨part, needs, breaks⟩ := declares.blames begun isClash
          have needs : ReflTransGen (Task.Asks context) (.declare node 0) part :=
            ReflTransGen.mono (fun _ _ asks => Task.Asks.of_same asks same) _ _ needs
          obtain ⟨target, rfl, isFailed⟩ := breaks.failed_of_yielded same (yielded.needs needs)
          exact spared target (needed target needs) isFailed
        · rw [Workspace.state_conclude, if_neg isSame] at failed
          exact spared failing isIn failed

end ApiTypes
