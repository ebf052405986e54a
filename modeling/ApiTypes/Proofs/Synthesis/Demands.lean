import ApiTypes.Proofs.Synthesis.Agreement
import ApiTypes.Proofs.Synthesis.Reachability

/-!
What tasks ask for. Nodes say which tasks are part of a task, whatever has been done before, and where
the task has yielded a value its parts have.
-/

namespace ApiTypes

open Relation

/-- A task asks for another one. Names of candidates and what has been found before are left open. -/
inductive Task.Asks (context : Context) : Task → Task → Prop
  | items {items traits depth} :
    Asks context (.expression ⟨.array items, traits⟩ depth) (.expression items (depth + 1))
  | value {value traits depth} :
    Asks context (.expression ⟨.map value, traits⟩ depth) (.expression value depth)
  | use {target traits depth} :
    Asks context (.expression ⟨.reference target, traits⟩ depth) (.reference target)
  | promote {node depth} (isDeclared : node.isDeclared = true) :
    Asks context (.expression node depth) (.declare node depth)
  | declarePlain {node depth} (isPlain : node.isDeclared = false) :
    Asks context (.declare node depth) (.expression node depth)
  | declareRecord {properties additional traits depth}
    (isDeclared : SchemaNode.isDeclared ⟨.object properties additional, traits⟩ = true) :
    Asks context (.declare ⟨.object properties additional, traits⟩ depth)
      (.record properties additional)
  | declareIntersection {members discriminator traits depth} :
    Asks context (.declare ⟨.composed .allOf members discriminator, traits⟩ depth)
      (.intersection members depth)
  | declareCases {kind members discriminator traits depth} (isChoice : kind ≠ .allOf) :
    Asks context (.declare ⟨.composed kind members discriminator, traits⟩ depth)
      (.cases members depth)
  | declareMapping {kind members discriminator traits depth} (isChoice : kind ≠ .allOf) :
    Asks context (.declare ⟨.composed kind members (some discriminator), traits⟩ depth)
      (.mapping discriminator.mapping.entries {})
  | contributeType {node depth} (isType : node.contributesType = true) :
    Asks context (.contribute node depth) (.expression node depth)
  | contributeMap {value traits depth} :
    Asks context (.contribute ⟨.map value, traits⟩ depth) (.expression value depth)
  | contributeRecord {properties additional traits depth} :
    Asks context (.contribute ⟨.object properties additional, traits⟩ depth)
      (.record properties additional)
  | contributeIntersection {members discriminator traits depth} :
    Asks context (.contribute ⟨.composed .allOf members discriminator, traits⟩ depth)
      (.intersection members depth)
  /-- An intersection that stands for a schema contributes what that does. -/
  | contributeOnly {members discriminator traits depth target node}
    (isOnly : SchemaNode.onlyReference? members = some target)
    (found : context.model.node? target = some node) (direct : node.inheritsNull = false) :
    Asks context (.contribute ⟨.composed .allOf members discriminator, traits⟩ depth)
      (.schema target)
  | expandRecord {properties additional traits name} :
    Asks context (.expand ⟨.object properties additional, traits⟩ name)
      (.record properties additional)
  | expandReference {target traits name} :
    Asks context (.expand ⟨.reference target, traits⟩ name) (.reference target)
  | expandSchema {target traits name} :
    Asks context (.expand ⟨.reference target, traits⟩ name) (.schema target)
  | expandIntersection {members discriminator traits name} :
    Asks context (.expand ⟨.composed .allOf members discriminator, traits⟩ name)
      (.contribute ⟨.composed .allOf members discriminator, traits⟩ 0)
  | schema {schema node name} (found : context.model.node? schema = some node)
    (notChoice : context.model.isUnion node = false) (notAtomic : ¬node.isAtomic = true) :
    Asks context (.schema schema) (.expand node name)
  | firstField {property : Property SchemaNode} {rest} :
    Asks context (.fields (property :: rest)) (.expression property.schema 0)
  | laterFields {property rest} : Asks context (.fields (property :: rest)) (.fields rest)
  | fields {properties additional} :
    Asks context (.record properties additional) (.fields properties)
  | further {properties value} :
    Asks context (.record properties (some value)) (.expression value 0)
  | firstCase {node rest depth} (notNull : node.kind.isNull = false) :
    Asks context (.cases (node :: rest) depth) (.expression node depth)
  | laterCases {node rest depth} : Asks context (.cases (node :: rest) depth) (.cases rest depth)
  | firstEntry {value target rest found} :
    Asks context (.mapping ((value, target) :: rest) found) (.reference target)
  | laterEntries {entry rest found others} :
    Asks context (.mapping (entry :: rest) found) (.mapping rest others)
  | memberReference {target traits rest depth} :
    Asks context (.members (⟨.reference target, traits⟩ :: rest) depth) (.reference target)
  | memberSchema {target traits rest depth} :
    Asks context (.members (⟨.reference target, traits⟩ :: rest) depth) (.schema target)
  | memberOther {node rest depth} (isOther : node.kind.referenceTarget? = none) :
    Asks context (.members (node :: rest) depth) (.contribute node depth)
  | laterMembers {node rest depth} :
    Asks context (.members (node :: rest) depth) (.members rest depth)
  | only {nodes depth target} (isOnly : SchemaNode.onlyReference? nodes = some target) :
    Asks context (.intersection nodes depth) (.reference target)
  | members {nodes depth} (several : SchemaNode.onlyReference? nodes = none) :
    Asks context (.intersection nodes depth) (.members nodes depth)

/-- A task has yielded a value at some time between two workspaces. -/
def Task.Yielded (context : Context) (task : Task) (first last : Workspace) : Prop :=
  ∃ expanding start value done, Consistent context start ∧ Grows first start ∧
    Yields context expanding start task value done ∧ Grows done last

variable {context : Context} {expanding : List String} {first last : Workspace}

/-- What a node contributes as a type depends on no name. -/
theorem Yields.renamed {node : SchemaNode} {name : String} {shape : MemberShape}
    (yields : Yields context expanding first (.expand node name) (.member shape) last)
    (other : String) :
    ∃ shape, Yields context expanding first (.expand node other) (.member shape) last := by
  cases yields with
  | expandAtomic isAtomic => exact ⟨_, .expandAtomic isAtomic⟩
  | expandRestriction isEmpty => exact ⟨_, .expandRestriction isEmpty⟩
  | expandRecord inside => exact ⟨_, .expandRecord inside⟩
  | expandReference looked inside => exact ⟨_, .expandReference looked inside⟩
  | expandIntersection inside => exact ⟨_, .expandIntersection inside⟩

/-- A mapping is looked up whatever has been found before. -/
theorem Yields.remapped {entries : List (String × String)} {found mapping : Table String}
    (yields : Yields context expanding first (.mapping entries found) (.table mapping) last)
    (others : Table String) :
    ∃ mapping, Yields context expanding first (.mapping entries others) (.table mapping) last := by
  -- What has been found is only handed on from one entry to the next.
  induction entries generalizing first found others with
  | nil =>
    cases yields
    exact ⟨_, .mappingNil⟩
  | cons entry rest ih =>
    cases yields with
    | mappingCons looked isName later =>
      obtain ⟨_, again⟩ := ih later _
      exact ⟨_, .mappingCons looked isName again⟩

/-- The task has been yielded by a part between two workspaces, if nothing is lost before or after. -/
theorem Yields.yielded {task : Task} {value : Value} {origin done : Workspace}
    (yields : Yields context expanding first task value last) (consistent : Consistent context first)
    (before : Grows origin first) (after : Grows last done) : task.Yielded context origin done :=
  ⟨expanding, first, value, last, consistent, before, yields, after⟩

/-- A part has been yielded inside a whole that was yielded. -/
theorem Task.Yielded.mono {part : Task} {origin done : Workspace}
    (yielded : part.Yielded context first last) (before : Grows origin first)
    (after : Grows last done) : part.Yielded context origin done := by
  obtain ⟨expanding, start, value, finish, consistent, earlier, yields, later⟩ := yielded
  exact ⟨expanding, start, value, finish, consistent, before.trans earlier, yields, later.trans after⟩

/-!
For each kind of task, what it asks for has been yielded with it. Of the rules for the whole, only those
apply that ask for the part; the part has been yielded at once, after notes, or before or after other
parts.
-/

namespace Yields

variable {part : Task} {value : Value} {node : SchemaNode} {nodes : List SchemaNode} {depth : Nat}
  {name : String}

/-- Other parts may be yielded after a part. -/
theorem earlier {middle : Workspace} (inside : Yields context expanding first part value middle)
    (consistent : Consistent context first) (grows : Grows middle last) :
    part.Yielded context first last :=
  inside.yielded consistent (.refl _) grows

/-- Other parts may be yielded before a part. -/
theorem later {middle : Workspace} (inside : Yields context expanding middle part value last)
    (between : Consistent context middle) (grows : Grows first middle) :
    part.Yielded context first last :=
  inside.yielded between grows (.refl _)

/-- A part may be all that is yielded. -/
theorem whole (inside : Yields context expanding first part value last)
    (consistent : Consistent context first) : part.Yielded context first last :=
  inside.yielded consistent (.refl _) (.refl _)

/-- A part may be yielded after notes. -/
theorem noted {middle : Workspace} (inside : Yields context expanding middle part value last)
    (notes : first.Notes middle) (consistent : Consistent context first) :
    part.Yielded context first last :=
  have ⟨between, grows⟩ := notes.advances consistent
  inside.later between grows

/-- What the use of a node asks for. -/
theorem asks_expression
    (yields : Yields context expanding first (.expression node depth) value last)
    (consistent : Consistent context first) (asks : Task.Asks context (.expression node depth) part) :
    part.Yielded context first last := by
  -- Each way to use a node has but one task below it.
  cases asks with
  | items =>
    cases yields with
    | constant isConstant => cases isConstant
    | array _ inside => exact inside.whole consistent
    | promoteAlias isDeclared | promote isDeclared => cases isDeclared
  | value =>
    cases yields with
    | constant isConstant => cases isConstant
    | map inside => exact inside.whole consistent
    | promoteAlias isDeclared | promote isDeclared => cases isDeclared
  | use =>
    cases yields with
    | constant isConstant => cases isConstant
    | use looked => exact looked.whole consistent
    | promoteAlias isDeclared | promote isDeclared => cases isDeclared
  | promote isDeclared =>
    cases yields with
    -- The shape is declared first; only if it is no alias it is registered after that.
    | promoteAlias _ declares => exact declares.whole consistent
    | promote _ declares _ registers =>
      exact declares.earlier consistent (registers.advances (declares.advances consistent).1).2
    | array | map | use => cases isDeclared
    | constant isConstant => cases (SchemaNode.isDeclared_of_constant? isConstant).symm.trans isDeclared

/-- What the declaration of a node asks for. -/
theorem asks_declare (yields : Yields context expanding first (.declare node depth) value last)
    (consistent : Consistent context first) (asks : Task.Asks context (.declare node depth) part) :
    part.Yielded context first last := by
  cases asks with
  | declarePlain isPlain =>
    cases yields with
    | declarePlain _ notes inside => exact inside.noted notes consistent
    | declareRecord isDeclared => cases isPlain.symm.trans isDeclared
    | declareEnum | declareIntersection | declareChoice | declareDiscriminated => cases isPlain
  | declareRecord isDeclared =>
    cases yields with
    | declareRecord _ notes inside => exact inside.noted notes consistent
    | declarePlain isPlain => cases isPlain.symm.trans isDeclared
  | declareIntersection =>
    cases yields with
    | declareIntersection notes inside => exact inside.noted notes consistent
    | declarePlain isPlain => cases isPlain
    | declareChoice isChoice | declareDiscriminated isChoice => exact absurd rfl isChoice
  | declareCases isChoice =>
    cases yields with
    | declareChoice _ notes inside => exact inside.noted notes consistent
    | declareDiscriminated _ notes inside maps =>
      -- The cases come after the notes and before the mapping.
      have ⟨between, grows⟩ := notes.advances consistent
      have ⟨_, behind⟩ := maps.advances (inside.advances between).1
      exact inside.yielded between grows behind
    | declarePlain isPlain => cases isPlain
    | declareIntersection => exact absurd rfl isChoice
  | declareMapping isChoice =>
    cases yields with
    | declareDiscriminated _ notes inside maps =>
      have ⟨between, grows⟩ := notes.advances consistent
      have ⟨after, behind⟩ := inside.advances between
      exact maps.later after (grows.trans behind)
    | declarePlain isPlain => cases isPlain
    | declareIntersection => exact absurd rfl isChoice

/-- What the contribution of a node to an intersection asks for. -/
theorem asks_contribute (yields : Yields context expanding first (.contribute node depth) value last)
    (consistent : Consistent context first) (asks : Task.Asks context (.contribute node depth) part) :
    part.Yielded context first last := by
  cases asks with
  | contributeType isType =>
    cases yields with
    | contributeType _ inside => exact inside.whole consistent
    | contributeMap | contributeRecord | contributeIntersection | contributeChoice => cases isType
    | contributeRestriction isEmpty => simp [SchemaNode.contributesType, isEmpty] at isType
  | contributeMap =>
    cases yields with
    | contributeType isType => cases isType
    | contributeMap inside => exact inside.whole consistent
  | contributeRecord =>
    cases yields with
    | contributeType isType => cases isType
    | contributeRecord inside => exact inside.whole consistent
  | contributeIntersection =>
    cases yields with
    | contributeType isType => cases isType
    | contributeIntersection inside takes =>
      exact inside.earlier consistent (takes.advances (inside.advances consistent).1).2
    | contributeChoice isChoice => exact absurd rfl isChoice
  | contributeOnly isOnly found direct =>
    cases yields with
    | contributeType isType => cases isType
    | contributeChoice isChoice => exact absurd rfl isChoice
    | contributeIntersection inside takes =>
      have ⟨between, grows⟩ := inside.advances consistent
      cases inside with
      | intersectionMembers several => cases isOnly.symm.trans several
      | intersectionReference isAlso _ looked =>
        -- A use of the schema that does not admit null is the bare name, so the schema is taken.
        cases isOnly.symm.trans isAlso
        have isTarget := looked.schemaOf?_reference
        cases takes with
        | takeSchema named _ inside =>
          cases isTarget.symm.trans named
          exact inside.later between grows
        | take unnamed =>
          cases looked with
          | reference isFound =>
            cases found.symm.trans isFound
            cases isTarget.symm.trans (unnamed _ rfl direct)

/-- What the expansion of a node asks for. -/
theorem asks_expand (yields : Yields context expanding first (.expand node name) value last)
    (consistent : Consistent context first) (asks : Task.Asks context (.expand node name) part) :
    part.Yielded context first last := by
  cases asks with
  | expandRecord =>
    cases yields with
    | expandAtomic isAtomic => cases isAtomic
    | expandRecord inside => exact inside.whole consistent
  | expandReference =>
    cases yields with
    | expandAtomic isAtomic => cases isAtomic
    | expandReference looked inside =>
      exact looked.earlier consistent (inside.advances (looked.advances consistent).1).2
  | expandSchema =>
    cases yields with
    | expandAtomic isAtomic => cases isAtomic
    | expandReference looked inside =>
      have ⟨between, grows⟩ := looked.advances consistent
      exact inside.later between grows
  | expandIntersection =>
    cases yields with
    | expandAtomic isAtomic => cases isAtomic
    | expandIntersection inside => exact inside.whole consistent

/-- What the contribution of a component schema asks for. -/
theorem asks_schema {schema : String}
    (yields : Yields context expanding first (.schema schema) value last)
    (consistent : Consistent context first) (asks : Task.Asks context (.schema schema) part) :
    part.Yielded context first last := by
  cases asks with
  | schema found notChoice notAtomic =>
    cases yields with
    | schemaChoice _ isFound isChoice =>
      cases found.symm.trans isFound
      cases notChoice.symm.trans isChoice
    | schema _ isFound _ _ inside =>
      -- The name that was given to the schema makes no difference to what is expanded.
      cases found.symm.trans isFound
      obtain ⟨_, again⟩ := inside.renamed _
      exact again.whole consistent

/-- What the declared properties of a record ask for. -/
theorem asks_fields {properties : List (Property SchemaNode)}
    (yields : Yields context expanding first (.fields properties) value last)
    (consistent : Consistent context first) (asks : Task.Asks context (.fields properties) part) :
    part.Yielded context first last := by
  cases asks with
  | firstField =>
    cases yields with
    | fieldsCons inside rest =>
      exact inside.earlier consistent (rest.advances (inside.advances consistent).1).2
  | laterFields =>
    cases yields with
    | fieldsCons inside rest =>
      have ⟨between, grows⟩ := inside.advances consistent
      exact rest.later between grows

/-- What the properties of a record ask for. -/
theorem asks_record {properties : List (Property SchemaNode)} {additional : Option SchemaNode}
    (yields : Yields context expanding first (.record properties additional) value last)
    (consistent : Consistent context first)
    (asks : Task.Asks context (.record properties additional) part) :
    part.Yielded context first last := by
  cases asks with
  | fields =>
    cases yields with
    | recordClosed inside => exact inside.whole consistent
    | recordOpen inside further =>
      exact inside.earlier consistent (further.advances (inside.advances consistent).1).2
  | further =>
    cases yields with
    | recordOpen inside further =>
      have ⟨between, grows⟩ := inside.advances consistent
      exact further.later between grows

/-- What the cases of a choice ask for. -/
theorem asks_cases (yields : Yields context expanding first (.cases nodes depth) value last)
    (consistent : Consistent context first) (asks : Task.Asks context (.cases nodes depth) part) :
    part.Yielded context first last := by
  cases asks with
  | firstCase notNull =>
    cases yields with
    | casesNull isNull => cases notNull.symm.trans isNull
    | casesCons _ inside named rest =>
      have ⟨between, _⟩ := inside.advances consistent
      have ⟨after, grows⟩ := named.advances between
      exact inside.earlier consistent (grows.trans (rest.advances after).2)
  | laterCases =>
    cases yields with
    | casesNull _ rest => exact rest.whole consistent
    | casesCons _ inside named rest =>
      have ⟨between, grows⟩ := inside.advances consistent
      have ⟨after, behind⟩ := named.advances between
      exact rest.later after (grows.trans behind)

/-- What the mapping of a discriminator asks for. -/
theorem asks_mapping {entries : List (String × String)} {found : Table String}
    (yields : Yields context expanding first (.mapping entries found) value last)
    (consistent : Consistent context first) (asks : Task.Asks context (.mapping entries found) part) :
    part.Yielded context first last := by
  cases asks with
  | firstEntry =>
    cases yields with
    | mappingCons looked _ rest =>
      exact looked.earlier consistent (rest.advances (looked.advances consistent).1).2
  | laterEntries =>
    cases yields with
    | mappingCons looked _ rest =>
      have ⟨between, grows⟩ := looked.advances consistent
      obtain ⟨_, again⟩ := rest.remapped _
      exact again.later between grows

/-- What the members of an intersection ask for. -/
theorem asks_members (yields : Yields context expanding first (.members nodes depth) value last)
    (consistent : Consistent context first) (asks : Task.Asks context (.members nodes depth) part) :
    part.Yielded context first last := by
  -- The first member is looked up and expanded if it is a reference, and contributes otherwise.
  cases asks with
  | memberReference =>
    cases yields with
    | membersReference looked inside rest =>
      have ⟨between, _⟩ := looked.advances consistent
      have ⟨after, grows⟩ := inside.advances between
      exact looked.earlier consistent (grows.trans (rest.advances after).2)
    | membersOther isOther => cases isOther
  | memberSchema =>
    cases yields with
    | membersReference looked inside rest =>
      have ⟨between, grows⟩ := looked.advances consistent
      exact inside.yielded between grows (rest.advances (inside.advances between).1).2
    | membersOther isOther => cases isOther
  | memberOther isOther =>
    cases yields with
    | membersReference => cases isOther
    | membersOther _ inside rest =>
      exact inside.earlier consistent (rest.advances (inside.advances consistent).1).2
  -- The others are walked after it, in a workspace that has grown.
  | laterMembers =>
    cases yields with
    | membersReference looked inside rest =>
      have ⟨between, grows⟩ := looked.advances consistent
      have ⟨after, behind⟩ := inside.advances between
      exact rest.later after (grows.trans behind)
    | membersOther _ inside rest =>
      have ⟨between, grows⟩ := inside.advances consistent
      exact rest.later between grows

/-- What an intersection asks for. -/
theorem asks_intersection
    (yields : Yields context expanding first (.intersection nodes depth) value last)
    (consistent : Consistent context first)
    (asks : Task.Asks context (.intersection nodes depth) part) :
    part.Yielded context first last := by
  cases asks with
  | only isOnly =>
    cases yields with
    | intersectionReference isAlso _ looked =>
      cases isOnly.symm.trans isAlso
      exact looked.whole consistent
    | intersectionMembers several => cases isOnly.symm.trans several
  | members several =>
    cases yields with
    | intersectionReference isOnly => cases several.symm.trans isOnly
    | intersectionMembers _ inside _ notes =>
      exact inside.earlier consistent (notes.advances (inside.advances consistent).1).2

end Yields

namespace Task.Yielded

variable {task part : Task}

/-- What a task asks for has been yielded with the task. -/
theorem asks (yielded : task.Yielded context first last) (asks : task.Asks context part) :
    part.Yielded context first last := by
  obtain ⟨expanding, start, value, done, consistent, before, yields, after⟩ := yielded
  have inside : part.Yielded context start done := by
    cases task with
    | expression => exact yields.asks_expression consistent asks
    | declare => exact yields.asks_declare consistent asks
    | contribute => exact yields.asks_contribute consistent asks
    | expand => exact yields.asks_expand consistent asks
    | schema => exact yields.asks_schema consistent asks
    | fields => exact yields.asks_fields consistent asks
    | record => exact yields.asks_record consistent asks
    | cases => exact yields.asks_cases consistent asks
    | mapping => exact yields.asks_mapping consistent asks
    | members => exact yields.asks_members consistent asks
    | intersection => exact yields.asks_intersection consistent asks
    | reference | take => cases asks
  exact inside.mono before after

/-- So has everything that is asked for in turn. -/
theorem needs (yielded : task.Yielded context first last)
    (needs : ReflTransGen (Task.Asks context) task part) : part.Yielded context first last := by
  induction needs with
  | refl => exact yielded
  | tail _ asks ih => exact ih.asks asks

end Task.Yielded

namespace Task.Asks

variable {task part : Task}

/-- A task leads wherever what it asks for does. -/
theorem leads (asks : task.Asks context part) {schema : String}
    (leads : part.Leads context schema) : task.Leads context schema := by
  -- Each rule stands for one or two steps of what is within a task.
  cases asks with
  | items => exact leads.mono fun _ => .items
  | value | contributeMap => exact leads.mono (.value context)
  | use | expandReference => exact leads.mono (.reference context)
  | promote | declarePlain | contributeType | expandIntersection | members =>
    exact leads.mono fun _ => id
  | declareRecord | contributeRecord | expandRecord => exact leads.mono (.record context)
  | declareIntersection | declareCases | contributeIntersection => exact leads.mono (.composed context)
  | declareMapping isChoice => exact leads.mono (.mapping context isChoice)
  | contributeOnly isOnly =>
    -- The schema is the target of the only reference among the members.
    obtain ⟨target, ⟨rfl, _⟩, path⟩ := leads
    have led : (Task.reference target).Leads context schema := ⟨target, rfl, path⟩
    exact led.mono (Task.Within.trans (.only context isOnly) (.composed context))
  | expandSchema => exact leads.mono (.schema context)
  | schema found _ notAtomic =>
    exact ⟨_, ⟨rfl, context.not_isAtomic found notAtomic⟩,
      ((Task.leads_expand found).mp leads).to_reflTransGen⟩
  | firstField => exact leads.mono (.firstField context)
  | laterFields => exact leads.mono (.laterFields context)
  | fields => exact leads.mono (.fields context)
  | further => exact leads.mono (.further context)
  | firstCase | memberOther => exact leads.mono (.firstNode context)
  | laterCases | laterMembers => exact leads.mono (.laterNodes context)
  | firstEntry => exact leads.mono (.firstEntry context)
  | laterEntries => exact leads.mono (.laterEntries context)
  | memberReference => exact leads.mono (Task.Within.trans (.reference context) (.firstNode context))
  | memberSchema => exact leads.mono (Task.Within.trans (.schema context) (.firstNode context))
  | only isOnly => exact leads.mono (.only context isOnly)

/-- What is asked for is the same wherever the nodes are. -/
theorem of_same {other : Context} (asks : task.Asks other part) (same : other.Same context) :
    task.Asks context part := by
  -- Only two rules look at the nodes of other schemas.
  cases asks with
  | contributeOnly isOnly found direct =>
    exact .contributeOnly isOnly ((congrFun same.node?_eq _).trans found) direct
  | schema found notChoice notAtomic =>
    exact .schema ((congrFun same.node?_eq _).trans found) (same.isUnion_eq ▸ notChoice) notAtomic
  | _ => constructor <;> assumption

/-- A task leads wherever something does for which it asks in turn. -/
theorem leads_of_needs {schema : String} (needs : ReflTransGen (Task.Asks context) task part)
    (leads : part.Leads context schema) : task.Leads context schema := by
  induction needs using ReflTransGen.head_induction_on with
  | refl => exact leads
  | head asks _ ih => exact asks.leads ih

end Task.Asks

end ApiTypes
