import Mathlib.Logic.Relation
import ApiTypes.Proofs.Synthesis.Adequacy

/-!
Where the component schemas come from that contributions to intersections name. Whatever is expanded is
included by the node that asks for it, or by a schema that it includes, and has been looked up before;
but enumerations may be reused wherever their values are the same.
-/

namespace ApiTypes

open Relation

namespace Context

variable (context : Context)

/-- A component schema includes another one. -/
def Includes (schema target : String) : Prop :=
  ∃ node, context.model.node? schema = some node ∧ node.Includes target

/-- An intersection takes the type of the component schema as a whole. -/
def IsAtomic (schema : String) : Prop :=
  ∃ node, context.model.node? schema = some node ∧ node.isAtomic = true

/-- What is known of the node of a schema is known of the schema. -/
theorem not_isAtomic {schema : String} {node : SchemaNode}
    (found : context.model.node? schema = some node) (notAtomic : ¬node.isAtomic = true) :
    ¬context.IsAtomic schema := by
  rintro ⟨other, isFound, isAtomic⟩
  cases found.symm.trans isFound
  exact notAtomic isAtomic

/-- A type names a component schema if it has the name held for it. -/
theorem schemaOf?_eq_some_iff (type : TypeExpr) (schema : String) :
    context.schemaOf? type = some schema ↔
      ∃ name, type.name? = some name ∧ context.emitted? schema = some name := by
  simp only [schemaOf?, Option.bind_eq_some_iff]
  exact exists_congr fun name => and_congr_right fun _ =>
    (Workspace.reserves_ofContext context).inverse schema name

/-- Only the component schema for which it is held has a name. -/
theorem schemaOf?_named {schema name : String} (emitted : context.emitted? schema = some name)
    (nullable : Bool) :
    context.schemaOf? ((TypeExpr.named name).withNullable nullable) = some schema :=
  (context.schemaOf?_eq_some_iff _ schema).mpr ⟨name, rfl, emitted⟩

end Context

/-- A component schema has been declared, or is being declared. -/
def Workspace.Ready (workspace : Workspace) (schema : String) : Prop :=
  workspace.resolver.state schema = .resolving ∨ workspace.resolver.state schema = .registered

/-- What is in progress in the end was so before. -/
theorem Grows.was_resolving {first last : Workspace} (grows : Grows first last)
    {schema : String}
    (isResolving : last.resolver.state schema = .resolving) :
    first.resolver.state schema = .resolving := by
  by_cases isPending : first.resolver.state schema = .pending
  · exact absurd isResolving (grows.of_pending isPending)
  · exact (grows.state_eq isPending).symm.trans isResolving

/-- What is ready stays so. -/
theorem Grows.ready {first last : Workspace} (grows : Grows first last) {schema : String}
    (ready : first.Ready schema) : last.Ready schema := by
  have started : first.resolver.state schema ≠ .pending := by
    rcases ready with state | state <;> simp [state]
  rw [Workspace.Ready, grows.state_eq started]
  exact ready

namespace Task

variable (context : Context)

/-- The component schemas that a task includes itself, unless an intersection takes them as a whole. -/
def Includes : Task → String → Prop
  | .contribute node _ | .expand node _ => node.Includes
  | .schema name => fun target => target = name ∧ ¬context.IsAtomic target
  | .members nodes _ | .intersection nodes _ => fun target => ∃ node ∈ nodes, node.Includes target
  | .take shape => fun target => ¬context.IsAtomic target ∧
    ∃ type, shape = .alias type ∧ context.schemaOf? type = some target
  | .declare .. | .expression .. | .reference _ | .fields _ | .record .. | .cases .. | .mapping .. =>
    fun _ => False

/-- A task includes a component schema by a chain of inclusions. -/
def Takes (task : Task) (schema : String) : Prop :=
  ∃ target, task.Includes context target ∧ ReflTransGen context.Includes target schema

variable {context}

/-- A task takes in whatever a part of it does. -/
theorem Takes.mono {part task : Task} {schema : String} (takes : part.Takes context schema)
    (included : ∀ target, part.Includes context target → task.Includes context target) :
    task.Takes context schema := by
  obtain ⟨target, includes, path⟩ := takes
  exact ⟨target, included target includes, path⟩

/-- A task that takes in a schema takes in whatever that includes. -/
theorem Takes.trans {task : Task} {schema target : String} (takes : task.Takes context schema)
    (path : ReflTransGen context.Includes schema target) : task.Takes context target := by
  obtain ⟨first, includes, before⟩ := takes
  exact ⟨first, includes, before.trans path⟩

end Task

/-- The component schema that a type names is one that a task takes in and that is ready, or atomic. -/
def Taken (context : Context) (last : Workspace) (task : Task) (type : TypeExpr) : Prop :=
  ∀ schema, context.schemaOf? type = some schema →
    (task.Takes context schema ∧ last.Ready schema) ∨ context.IsAtomic schema

/-- So are the component schemas that a member of an intersection names. -/
structure TakenInput (context : Context) (last : Workspace) (task : Task)
    (input : IntersectionMember) : Prop where
  reference : ∀ name schema, input.reference = some name → context.emitted? schema = some name →
    task.Takes context schema ∧ last.Ready schema
  scalar : ∀ type, input.shape = .scalar type → Taken context last task type

/-- Which component schemas contributions to intersections name. -/
def TakenValue (context : Context) (last : Workspace) : Task → Value → Prop
  | .contribute node depth, .member (.scalar type) => Taken context last (.contribute node depth) type
  | .expand node name, .member (.scalar type) =>
    (node.isAtomic = true ∧ type = .named name) ∨
      node.isAtomic = false ∧ Taken context last (.expand node name) type
  | .schema schema, .member (.scalar type) => Taken context last (.schema schema) type
  | .intersection nodes depth, .shape (.alias type) =>
    Taken context last (.intersection nodes depth) type
  | .members nodes depth, .inputs inputs => ∀ input ∈ inputs,
    TakenInput context last (.members nodes depth) input
  | .take shape, .member (.scalar type) =>
    shape = .alias type ∨ Taken context last (.take shape) type
  | _, _ => True

variable {context : Context} {expanding : List String} {first last : Workspace}

/-- Only a component schema that is an enumeration has its name reused for one. -/
theorem Workspace.Registers.isEnum {context : Context} {first last : Workspace} {name schema : String}
    {shape : Shape} {node : SchemaNode} (registers : first.Registers shape name last)
    (isEnum : shape.isEnum = true) (consistent : Consistent context first)
    (emitted : context.emitted? schema = some name)
    (found : context.model.node? schema = some node) : node.kind.isEnum = true := by
  obtain ⟨candidate, doc, deprecated, path, isRegistered, _⟩ := registers
  rcases first.registry.register_cases candidate shape doc deprecated (.inline path) with
    ⟨declaration, other, stands, same, isSame⟩ | ⟨other, free, isDeclared⟩
  · -- A name that has been declared before stands for an equal shape.
    obtain rfl : other = name := congrArg Prod.fst (isSame.symm.trans isRegistered)
    have origin := (consistent.registered_of_declared emitted stands).1
    exact consistent.of_enum stands origin found (Shape.isEnum_eq_of_beq same ▸ isEnum)
  · obtain rfl : other = name := congrArg Prod.fst (isDeclared.symm.trans isRegistered)
    exact absurd free (consistent.taken emitted)

/-- A type without a name names no component schema. -/
theorem Context.schemaOf?_ne_of_unnamed {type : TypeExpr} {schema : String}
    (unnamed : type.name? = none) : context.schemaOf? type ≠ some schema := by
  intro named
  obtain ⟨name, isName, _⟩ := (context.schemaOf?_eq_some_iff type schema).mp named
  simp [unnamed] at isName

/-- A type that a node contributes as such names nothing but enumerations. -/
theorem Yields.isAtomic_of_contributesType {node : SchemaNode} {depth : Nat} {type : TypeExpr}
    (yields : Yields context expanding first (.expression node depth) (.type type) last)
    (consistent : Consistent context first) (isType : node.contributesType = true) {schema : String}
    (named : context.schemaOf? type = some schema) : context.IsAtomic schema := by
  -- Of the nodes that contribute their types, only enumerations are declared and so have a name.
  obtain ⟨kind, traits⟩ := node
  cases kind with
  | map | object | composed | reference => cases isType
  | primitive | any | null =>
    cases yields with
    | constant isConstant =>
      cases isConstant
      exact absurd named (Context.schemaOf?_ne_of_unnamed rfl)
    | promoteAlias isDeclared | promote isDeclared => cases isDeclared
  | array =>
    cases yields with
    | constant isConstant => cases isConstant
    | array => exact absurd named (Context.schemaOf?_ne_of_unnamed rfl)
    | promoteAlias isDeclared | promote isDeclared => cases isDeclared
  | enum =>
    cases yields with
    | constant isConstant => cases isConstant
    | promoteAlias _ declares =>
      cases declares with
      | declarePlain isPlain => cases isPlain
    | promote _ declares isPlain registers =>
      cases declares with
      | declarePlain => cases isPlain
      | declareEnum notes =>
        obtain ⟨name, isName, emitted⟩ := (context.schemaOf?_eq_some_iff _ schema).mp named
        cases isName
        obtain ⟨node, found⟩ := Context.exists_node_of_emitted emitted
        have isEnum := registers.isEnum rfl (notes.advances consistent).1 emitted found
        refine ⟨node, found, ?_⟩
        obtain ⟨kind, traits⟩ := node
        cases kind <;> first | rfl | cases isEnum

/-- An intersection that is another name has it from a member. -/
theorem alias_mergeAllOf {members : List IntersectionMember} {merged : Merged}
    {equivalent : TypeKind TypeExpr → TypeKind TypeExpr → Bool} {type : TypeExpr}
    (isMerged : mergeAllOf members equivalent = .ok merged) (isAlias : merged.shape = .alias type) :
    type = .any ∨ ∃ member ∈ members,
      (∃ name, member.reference = some name ∧ type = .named name) ∨ member.shape = .scalar type := by
  -- Only what a single typed member leaves is an alias; several are merged into a record.
  obtain ⟨_, ⟨few, _, isSingle⟩ | ⟨_, _, _, _, isRecord⟩⟩ := Intersection.mergeAllOf_cases isMerged
  · rw [isSingle] at isAlias
    generalize isTyped : members.filter Intersection.isTyped = typed at few isAlias
    match typed, few with
    | [], _ =>
      cases isAlias
      exact .inl rfl
    | [member], _ =>
      have isMember : member ∈ members :=
        (List.mem_filter.mp (isTyped ▸ List.mem_singleton_self member)).1
      obtain ⟨label, reference, contribution⟩ := member
      cases reference with
      | some target =>
        cases isAlias
        exact .inr ⟨_, isMember, .inl ⟨target, rfl, rfl⟩⟩
      | none =>
        cases contribution with
        | record shape => cases isAlias
        | scalar type =>
          cases isAlias
          exact .inr ⟨_, isMember, .inr rfl⟩
        | required _ | unconstrained | union =>
          cases isAlias
          exact .inl rfl
  · cases isRecord.symm.trans isAlias

/-- The names that a node requires come as a member of their own. -/
theorem SchemaNode.required_of_requiredMembers {node : SchemaNode} {label : String}
    {input : IntersectionMember} (isInput : input ∈ Surroundings.requiredMembers node label) :
    ∃ names, input = ⟨label, none, .required names⟩ := by
  obtain ⟨kind, traits⟩ := node
  cases kind <;> simp only [Surroundings.requiredMembers, List.not_mem_nil] at isInput
  split at isInput
  · cases isInput
  · exact ⟨_, List.mem_singleton.mp isInput⟩

/-- The type of a reference names what is referred to. -/
theorem Yields.schemaOf?_reference {target : String} {type : TypeExpr}
    (looked : Yields context expanding first (.reference target) (.type type) last) :
    context.schemaOf? type = some target := by
  cases looked with
  | reference _ emitted => exact context.schemaOf?_named emitted _

namespace Taken

variable {part task : Task} {type : TypeExpr}

/-- A type without a name names nothing that is taken in. -/
theorem unnamed (unnamed : type.name? = none) : Taken context last task type := fun _ named =>
  absurd named (Context.schemaOf?_ne_of_unnamed unnamed)

/-- What a part of a task takes in the task does. -/
theorem mono (taken : Taken context last part type)
    (included : ∀ target, part.Includes context target → task.Includes context target) :
    Taken context last task type := fun schema named =>
  (taken schema named).imp_left fun ⟨takes, ready⟩ => ⟨takes.mono included, ready⟩

/-- What has been taken in stays ready. -/
theorem grow {middle : Workspace} (taken : Taken context middle task type)
    (grows : Grows middle last) : Taken context last task type := fun schema named =>
  (taken schema named).imp_left fun ⟨takes, ready⟩ => ⟨takes, grows.ready ready⟩

end Taken

/-- What the other members of an intersection take in the intersection does. -/
theorem TakenInput.later {node : SchemaNode} {rest : List SchemaNode} {depth : Nat}
    {input : IntersectionMember} (taken : TakenInput context last (.members rest depth) input) :
    TakenInput context last (.members (node :: rest) depth) input := by
  have further : ∀ target, (Task.members rest depth).Includes context target →
      (Task.members (node :: rest) depth).Includes context target :=
    fun _ ⟨member, isMember, includes⟩ => ⟨member, List.mem_cons_of_mem _ isMember, includes⟩
  exact ⟨fun name schema isName emitted => (taken.reference name schema isName emitted).imp_left
    fun takes => takes.mono further, fun type isScalar => (taken.scalar type isScalar).mono further⟩

/-- A reference that yields a type leaves its target ready. -/
theorem Yields.ready_reference {target : String} {type : TypeExpr}
    (looked : Yields context expanding first (.reference target) (.type type) last) :
    last.Ready target := by
  cases looked with
  | reference _ _ _ isReady => exact isReady

/-- What contributions to intersections name is taken in, or atomic. -/
theorem Yields.taken {task : Task} {value : Value}
    (yields : Yields context expanding first task value last) (consistent : Consistent context first) :
    TakenValue context last task value := by
  induction yields with
  | constant | array | map | use | promoteAlias | promote | declarePlain | declareEnum
  | declareRecord | declareIntersection | declareChoice | declareDiscriminated | contributeMap
  | contributeRecord | contributeChoice | expandRecord | schemaChoice | reference | fieldsNil
  | fieldsCons | recordClosed | recordOpen | casesNil | casesNull | casesCons | mappingNil
  | mappingCons => trivial
  | contributeType isType inside =>
    exact fun _ named => .inr (inside.isAtomic_of_contributesType consistent isType named)
  | contributeRestriction | expandRestriction =>
    unfold SchemaNode.restriction
    split <;> trivial
  | @contributeIntersection _ _ _ _ members discriminator traits depth _ taken inside takes ih
      takesIh =>
    cases taken with
    | record | required | unconstrained | union => trivial
    | scalar type =>
      have ⟨between, _⟩ := inside.advances consistent
      have ⟨_, grows⟩ := takes.advances between
      have origin := ih consistent
      have composed : ∀ target, (Task.intersection members depth).Includes context target →
          (Task.contribute ⟨.composed .allOf members discriminator, traits⟩ depth).Includes context
            target := fun _ ⟨_, isMember, includes⟩ => .member isMember includes
      rcases takesIh between with rfl | taken
      · exact (origin.grow grows).mono composed
      · intro schema named
        refine (taken schema named).imp_left ?_
        rintro ⟨⟨target, ⟨notAtomic, type, rfl, isVia⟩, path⟩, ready⟩
        have ⟨takes, _⟩ := (origin target isVia).resolve_right notAtomic
        exact ⟨(takes.trans path).mono composed, ready⟩
  | expandAtomic isAtomic => exact .inl ⟨isAtomic, rfl⟩
  | expandReference looked inside lookedIh ih =>
    rename_i shape
    cases shape with
    | record | required | unconstrained | union => trivial
    | scalar type =>
      refine .inr ⟨rfl, (ih (looked.advances consistent).1).mono ?_⟩
      rintro _ ⟨rfl, _⟩
      exact .reference
  | expandIntersection inside ih =>
    rename_i shape
    cases shape with
    | record | required | unconstrained | union => trivial
    | scalar type => exact .inr ⟨rfl, (ih consistent).mono fun _ => id⟩
  | schema fresh found notChoice emitted inside ih =>
    rename_i shape
    cases shape with
    | record | required | unconstrained | union => trivial
    | scalar type =>
      intro named isNamed
      rcases ih consistent with ⟨isAtomic, rfl⟩ | ⟨notAtomic, taken⟩
      · cases (context.schemaOf?_named emitted false).symm.trans isNamed
        exact .inr ⟨_, found, isAtomic⟩
      · -- What the node takes in is reached from the schema in one more step.
        refine (taken named isNamed).imp_left fun ⟨⟨target, includes, path⟩, ready⟩ =>
          ⟨⟨_, ⟨rfl, ?_⟩, .head ⟨_, found, includes⟩ path⟩, ready⟩
        exact context.not_isAtomic found (by simp [notAtomic])
  | membersNil => exact fun input isInput => absurd isInput List.not_mem_nil
  | @membersReference _ _ _ _ _ target traits rest depth _ _ _ _ looked inside later _ ih laterIh =>
    have ⟨between, _⟩ := looked.advances consistent
    have ⟨after, grows⟩ := inside.advances between
    have ⟨_, laterGrows⟩ := later.advances after
    have isFirst : (Task.members (⟨.reference target, traits⟩ :: rest) depth).Includes context target :=
      ⟨_, List.mem_cons_self, .reference⟩
    intro input isInput
    rcases List.mem_cons.mp isInput with rfl | isLater
    · refine ⟨fun name schema isName emitted => ?_, fun type isScalar => ?_⟩
      · have isTarget := (context.schemaOf?_eq_some_iff _ schema).mpr ⟨name, isName, emitted⟩
        cases looked.schemaOf?_reference.symm.trans isTarget
        exact ⟨⟨target, isFirst, .refl⟩, laterGrows.ready (grows.ready looked.ready_reference)⟩
      · cases isScalar
        refine ((ih between).grow laterGrows).mono ?_
        rintro _ ⟨rfl, _⟩
        exact isFirst
    · exact (laterIh after input isLater).later
  | @membersOther _ _ _ _ node rest depth _ _ _ isOther inside later ih laterIh =>
    have ⟨between, _⟩ := inside.advances consistent
    have ⟨_, laterGrows⟩ := later.advances between
    intro input isInput
    rcases List.mem_cons.mp isInput with isFirst | isRest
    · subst isFirst
      refine ⟨fun _ _ isName => (nomatch isName), fun type isScalar => ?_⟩
      cases isScalar
      exact ((ih consistent).grow laterGrows).mono fun _ includes =>
        ⟨node, List.mem_cons_self, includes⟩
    rcases List.mem_append.mp isRest with isRequired | isLater
    · obtain ⟨names, isRequired⟩ := SchemaNode.required_of_requiredMembers isRequired
      subst isRequired
      exact ⟨fun _ _ isName => (nomatch isName), fun _ isScalar => (nomatch isScalar)⟩
    · exact (laterIh between input isLater).later
  | intersectionReference isOnly _ looked =>
    intro schema named
    cases looked.schemaOf?_reference.symm.trans named
    obtain ⟨_, isMember⟩ := SchemaNode.mem_of_onlyReference? isOnly
    exact .inl ⟨⟨_, ⟨_, isMember, .reference⟩, .refl⟩, looked.ready_reference⟩
  | @intersectionMembers _ _ middle _ _ _ _ merged _ inside merges notes ih =>
    have ⟨between, _⟩ := inside.advances consistent
    have ⟨_, grows⟩ := notes.advances between
    have inputs := ih consistent
    cases isShape : merged.shape with
    | record | enum | union => trivial
    | «alias» type =>
      intro schema named
      obtain rfl | ⟨member, isMember, ⟨name, isReference, rfl⟩ | isScalar⟩ :=
        alias_mergeAllOf merges isShape
      · exact Taken.unnamed rfl schema named
      · obtain ⟨_, isName, emitted⟩ := (context.schemaOf?_eq_some_iff _ schema).mp named
        cases isName
        have ⟨takes, ready⟩ := (inputs member isMember).reference name schema isReference emitted
        exact .inl ⟨takes, grows.ready ready⟩
      · exact ((inputs member isMember).scalar type isScalar).grow grows schema named
  | takeSchema named direct inside ih =>
    rename_i type schema shape
    cases shape with
    | record | required | unconstrained | union => trivial
    | scalar taken =>
      refine .inr ((ih consistent).mono ?_)
      rintro _ ⟨rfl, notAtomic⟩
      exact ⟨notAtomic, type, rfl, named⟩
  | take unnamed =>
    rename_i shape
    cases shape with
    | record | union => trivial
    | enum => exact .inr (.unnamed rfl)
    | «alias» type =>
      obtain ⟨kind, nullable, constraints⟩ := type
      cases kind <;> first | trivial | exact .inl rfl

end ApiTypes
