import ApiTypes.Proofs.Synthesis.Entries
import ApiTypes.Proofs.Synthesis.Exploration

/-!
Reports of schemas that are said to be aliases of themselves. Whatever is reported is composed of a name
that leads back to it.
-/

namespace ApiTypes

open Relation

namespace Context

variable (context : Context)

/-- A component schema is composed of another one. -/
def Composes (schema target : String) : Prop :=
  ∃ node, context.model.node? schema = some node ∧ node.Composes target

/-- What is included is part of what includes it. -/
theorem Includes.composes {context : Context} {schema target : String}
    (includes : context.Includes schema target) : context.Composes schema target :=
  includes.imp fun _ ⟨found, includes⟩ => ⟨found, includes.composes⟩

/-- What is composed of refers to what it is composed of. -/
theorem Composes.refers {context : Context} {schema target : String}
    (composes : context.Composes schema target) : context.Refers schema target :=
  composes.imp fun _ ⟨found, composes⟩ => ⟨found, composes.refers⟩

end Context

namespace Task

variable (context : Context)

/-- The component schemas that a task composes its value of. -/
def Composes : Task → String → Prop
  | .declare node _ | .expression node _ => node.Composes
  | .cases nodes _ => fun target => ∃ node ∈ nodes, node.Composes target
  | _ => fun _ => False

/-- A task composes its value of a component schema, or of what that is composed of. -/
def Heads (task : Task) (schema : String) : Prop :=
  ∃ target, task.Composes target ∧ ReflTransGen context.Composes target schema

variable {context}

/-- A task heads whatever a part of it does. -/
theorem Heads.mono {part task : Task} {schema : String} (heads : part.Heads context schema)
    (included : ∀ target, part.Composes target → task.Composes target) :
    task.Heads context schema := by
  obtain ⟨target, composes, path⟩ := heads
  exact ⟨target, included target composes, path⟩

end Task

/-- A task heads a component schema, or an intersection takes that as a whole, or it is declared. -/
def Named (context : Context) (task : Task) (last : Workspace) (schema : String) : Prop :=
  task.Heads context schema ∨ context.IsAtomic schema ∨
    last.resolver.state schema = .registered

namespace Named

variable {context : Context} {schema : String} {first last : Workspace}

/-- What a part names the whole does, and later still. -/
theorem mono {part task : Task} (named : Named context part first schema)
    (included : ∀ target, part.Composes target → task.Composes target) (grows : Grows first last) :
    Named context task last schema := by
  rcases named with heads | isAtomic | registered
  · exact .inl (heads.mono included)
  · exact .inr (.inl isAtomic)
  · exact .inr (.inr ((grows.state_eq (by simp [registered])).trans registered))

/-- A name that a shape gets inside a schema belongs to a declared schema if to any. -/
theorem of_registers {task : Task} {shape : Shape} {name : String} (consistent : Consistent context first)
    (registers : first.Registers shape name last) (emitted : context.emitted? schema = some name) :
    Named context task last schema := by
  have ⟨after, _⟩ := registers.advances consistent
  obtain ⟨candidate, doc, deprecated, path, isRegistered, isLast⟩ := registers
  rcases first.registry.register_cases candidate shape doc deprecated (.inline path) with
    ⟨declaration, other, stands, _, isSame⟩ | ⟨other, free, isDeclared⟩
  · obtain rfl : other = name := congrArg Prod.fst (isSame.symm.trans isRegistered)
    have state := (consistent.registered_of_declared emitted stands).2
    rw [isLast]
    exact .inr (.inr state)
  · obtain rfl : other = name := congrArg Prod.fst (isDeclared.symm.trans isRegistered)
    exact absurd free (consistent.taken emitted)

end Named

/-- What is said of the names of component schemas that come of a task. -/
def NamedValue (context : Context) (last : Workspace) : Task → Value → Prop
  | .declare node depth, .shape (.alias type) => ∀ schema, context.schemaOf? type = some schema →
    Named context (.declare node depth) last schema
  | .expression node depth, .type type => ∀ schema, context.schemaOf? type = some schema →
    Named context (.expression node depth) last schema
  | .cases nodes depth, .names names _ => ∀ schema, ∀ name ∈ names,
    context.emitted? schema = some name → Named context (.cases nodes depth) last schema
  | _, _ => True

variable {context : Context} {expanding : List String} {first last : Workspace}

/-- A node without nodes inside it names nothing. -/
theorem SchemaNode.name?_of_constant? {node : SchemaNode} {type : TypeExpr}
    (isConstant : node.constant? = some type) : type.name? = none := by
  unfold constant? at isConstant
  split at isConstant <;> cases isConstant <;> rfl

/-- The component schemas that shapes, types and cases name are named by the task. -/
theorem Yields.named {task : Task} {value : Value}
    (yields : Yields context expanding first task value last) (consistent : Consistent context first) :
    NamedValue context last task value := by
  have none_of {type : TypeExpr} {goal : Prop} {schema : String} (unnamed : type.name? = none)
      (named : context.schemaOf? type = some schema) : goal := by
    obtain ⟨name, isName, _⟩ := (context.schemaOf?_eq_some_iff type schema).mp named
    simp [unnamed] at isName
  -- Nothing is asked of members, fields, tables, records and inputs.
  induction yields with
  | contributeType | contributeRestriction | contributeMap | contributeRecord
  | contributeIntersection | contributeChoice | expandAtomic | expandRestriction | expandRecord
  | expandReference | expandIntersection | schemaChoice | schema | reference | fieldsNil
  | fieldsCons | recordClosed | recordOpen | mappingNil | mappingCons | membersNil
  | membersReference | membersOther | intersectionReference | intersectionMembers | takeSchema
  | take | declareEnum | declareRecord => trivial
  | constant isConstant =>
    exact fun schema named => none_of (SchemaNode.name?_of_constant? isConstant) named
  | array | map => exact fun schema named => none_of rfl named
  | use looked =>
    intro schema named
    cases looked.schemaOf?_reference.symm.trans named
    exact .inl ⟨_, .reference, .refl⟩
  | promoteAlias _ _ ih =>
    exact fun schema named => (ih consistent schema named).mono (fun _ => id) (.refl _)
  | promote isDeclared declares isPlain registers =>
    intro schema named
    obtain ⟨name, isName, emitted⟩ := (context.schemaOf?_eq_some_iff _ schema).mp named
    cases isName
    exact .of_registers (declares.advances consistent).1 registers emitted
  | declarePlain _ notes _ ih =>
    exact fun schema named =>
      (ih (notes.advances consistent).1 schema named).mono (fun _ => id) (.refl _)
  | @declareIntersection _ _ _ _ _ _ _ _ shape notes inside =>
    cases shape with
    | record | enum | union => trivial
    | «alias» type =>
      intro schema named
      -- What an intersection takes in it takes in by chains of inclusions.
      rcases inside.taken (notes.advances consistent).1 schema named with ⟨takes, _⟩ | isAtomic
      · obtain ⟨target, ⟨member, isMember, includes⟩, path⟩ := takes
        exact .inl ⟨target, .member isMember includes.composes,
          path.lift id fun _ _ => Context.Includes.composes⟩
      · exact .inr (.inl isAtomic)
  | declareChoice isChoice notes inside unites ih =>
    rename_i shape
    cases shape with
    | record | enum | union => trivial
    | «alias» type =>
      intro schema named
      obtain ⟨name, isName, emitted⟩ := (context.schemaOf?_eq_some_iff _ schema).mp named
      have isCase := (mentions_unionOf unites name).mp
        (by simp [Shape.mentions, TypeExpr.mentions_of_name? isName])
      refine (ih (notes.advances consistent).1 schema name ?_ emitted).mono
        (fun _ inCase => inCase.elim fun _ isCase => .member isCase.1 isCase.2) (.refl _)
      simpa using isCase
  -- A discriminator keeps a single case from being another name for it.
  | declareDiscriminated isChoice notes inside maps unites ih mapsIh =>
    rename_i shape
    cases shape with
    | record | enum | union => trivial
    | «alias» type =>
      unfold unionOf at unites
      split at unites
      · cases unites
      · rename_i isAbsent
        cases isAbsent
      · cases unites
  | casesNil => exact fun _ _ isName => absurd isName List.not_mem_nil
  | casesNull _ _ ih =>
    exact fun schema name isName emitted =>
      (ih consistent schema name isName emitted).mono
        (fun _ inCase => inCase.imp fun _ => And.imp_left (.tail _)) (.refl _)
  | casesCons _ inside named later ih laterIh =>
    obtain ⟨between, _⟩ := inside.advances consistent
    obtain ⟨after, grows⟩ := named.advances between
    obtain ⟨_, last⟩ := later.advances after
    intro schema name isName emitted
    rcases List.mem_cons.mp isName with rfl | isLater
    · cases named with
      | named isTyped =>
        exact (ih consistent schema ((context.schemaOf?_eq_some_iff _ _).mpr
          ⟨_, isTyped, emitted⟩)).mono (fun _ composes => ⟨_, .head _, composes⟩) last
      -- What is registered for a case may be the declaration of a schema that is done.
      | declared _ registers =>
        have isNamed : Named context (.cases [] 0) _ schema :=
          .of_registers between registers emitted
        exact isNamed.mono (fun _ composes => absurd composes.choose_spec.1 List.not_mem_nil) last
    · exact (laterIh after schema name isLater emitted).mono
        (fun _ inCase => inCase.imp fun _ => And.imp_left (.tail _)) (.refl _)

/-- A component schema is composed of one that is recognised as another name and leads back to it. -/
structure Context.NamesItself (context : Context) (schema name : String) : Prop where
  composes : TransGen context.Composes schema name
  recognised : ∃ node, context.model.node? name = some node ∧ node.declaresAlias = true
  leads : TransGen context.Refers name schema

/-- Whatever is reported as another name of itself is composed of one. -/
def Workspace.Justified (context : Context) (workspace : Workspace) : Prop :=
  ∀ diagnostic ∈ workspace.diagnostics, ∀ name,
    diagnostic.cause.failure? = some (.circularAlias name) →
      ∃ schema, diagnostic.path = Pointer.ofSchema schema ∧ context.NamesItself schema name

/-- Notes report nothing of the kind. -/
theorem Workspace.Notes.justified (notes : first.Notes last) (justified : first.Justified context) :
    last.Justified context := by
  intro diagnostic isReported name isFailure
  rcases notes.harmless diagnostic isReported with isOld | isHarmless
  · exact justified diagnostic isOld name isFailure
  · simp [isHarmless] at isFailure

/-- Only the shape of a component schema is checked for being another name of itself. -/
theorem Fails.ne_circularAlias {task : Task} {failure : Failure}
    (fails : Fails context expanding first task failure last) (name : String) :
    failure ≠ .circularAlias name := by
  induction fails <;> first | assumption | nofun

/-- A component schema that is another name of one in progress is on a cycle with it. -/
theorem Prepared.circular {schema other : String} {node : SchemaNode} {shape : Shape}
    (prepared : Prepared context expanding (.reference schema) first)
    (consistent : Consistent context (first.begin schema))
    (found : context.model.node? schema = some node)
    (declares : Yields context expanding (first.begin schema) (.declare node 0) (.shape shape) last)
    (isCircular : Synthesis.circular? context last shape = some other) :
    context.NamesItself schema other := by
  have ⟨after, grows⟩ := declares.advances consistent
  obtain ⟨isName, isVisiting⟩ := Option.filter_eq_some_iff.mp isCircular
  obtain ⟨name, isSynonym, isHeld⟩ := Option.bind_eq_some_iff.mp isName
  rw [after.schemas_get?_iff] at isHeld
  simp only [Bool.and_eq_true, Resolver.isVisiting, decide_eq_true_eq, Option.any_eq_true] at isVisiting
  obtain ⟨isResolving, otherNode, otherFound, recognised⟩ := isVisiting
  -- The shape names the other schema, which is in progress: so this one is composed of it.
  have composes : TransGen context.Composes schema other := by
    cases shape with
    | record | enum | union => cases isSynonym
    | «alias» type =>
      have named := (context.schemaOf?_eq_some_iff type other).mpr ⟨name, isSynonym, isHeld⟩
      rcases declares.named consistent other named with
        ⟨target, composes, path⟩ | ⟨atomic, isFound, isAtomic⟩ | isDone
      · exact .head' ⟨node, found, composes⟩ path
      · cases otherFound.symm.trans isFound
        obtain ⟨kind, traits⟩ := otherNode
        cases kind <;> simp [SchemaNode.isAtomic, SchemaNode.declaresAlias] at isAtomic recognised
      · simp [isResolving] at isDone
  have isLed : TransGen context.Refers schema other :=
    composes.lift id fun _ _ => Context.Composes.refers
  -- It was in progress before, unless it is this one, and so leads here.
  refine ⟨composes, ⟨otherNode, otherFound, recognised⟩, ?_⟩
  by_cases isSame : other = schema
  · exact isSame ▸ isLed
  · have before := grows.was_resolving isResolving
    rw [Workspace.begin, Resolver.state_start, if_neg isSame] at before
    exact prepared.resolving other before schema ⟨schema, rfl, .refl⟩

/-- No step of a prepared task reports another name that is not composed of itself. -/
theorem stepInvariant_justified : StepInvariant context (Workspace.Justified context) where
  notes notes := notes.justified
  registers _ _ _ _ registers justified := by
    obtain ⟨_, _, _, _, _, isLast⟩ := registers
    rw [isLast]
    exact justified
  begin _ := id
  conclude {expanding first last schema node name result} begun prepared found _ concludes justified := by
    have reported {path : String} {failure : Failure} (isJustified : ∀ name,
        failure = .circularAlias name →
          ∃ schema, path = Pointer.ofSchema schema ∧ context.NamesItself schema name) :
        (last.conclude schema name node (.error ⟨path, failure⟩)).Justified context := by
      intro diagnostic isReported other isFailure
      rcases List.mem_append.mp isReported with isOld | isNew
      · exact justified diagnostic isOld other isFailure
      · cases List.mem_singleton.mp isNew
        cases isFailure
        exact isJustified other rfl
    -- Only conclusions report failures, and only those after a check report another name.
    cases concludes with
    | succeeds => exact justified
    | circular declares isCircular =>
      refine reported fun other isOther => ?_
      cases isOther
      exact ⟨schema, rfl, prepared.circular begun found declares isCircular⟩
    | fails declares =>
      exact reported fun other isOther => absurd isOther (declares.ne_circularAlias other)

end ApiTypes
