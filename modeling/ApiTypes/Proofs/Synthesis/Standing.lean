import ApiTypes.Proofs.Synthesis.Demands
import ApiTypes.Proofs.Synthesis.Mentions
import ApiTypes.Proofs.Synthesis.Outlines

/-!
Tasks whose values are kept. Where all names are kept that a value mentions, so are those that the parts of
its task have mentioned: one step for each kind of task. The exception are references that an intersection
takes in. Of those it keeps the name, or what the schema contributes.
-/

namespace ApiTypes

/-- Names are kept with all that their declarations mention, and with equivalent types. -/
structure Workspace.Keeps (workspace : Workspace) (isKept : String → Prop) : Prop where
  mentions : ∀ {name declaration}, workspace.registry.get? name = some declaration → isKept name →
    ∀ mention ∈ declaration.shape.mentions, isKept mention
  agrees : ∀ {earlier : Workspace} {left right : TypeExpr},
    (∀ name declaration, earlier.registry.get? name = some declaration →
      workspace.registry.get? name = some declaration) →
    Intersection.Agrees earlier.registry.equivalent left.kind right.kind →
      (∀ name ∈ left.mentions, isKept name) → ∀ name ∈ right.mentions, isKept name

/-- The names that a registry supports in the end are kept until then. -/
theorem Workspace.keeps_supported {workspace : Workspace} {registry : Registry}
    (kept : ∀ name declaration, workspace.registry.get? name = some declaration →
      registry.get? name = some declaration) : workspace.Keeps (· ∈ registry.supported) where
  mentions stands isSupported :=
    fun _ isMentioned => registry.supported_of_mentions isSupported ⟨_, kept _ _ stands, isMentioned⟩
  agrees earlier agrees :=
    Registry.supported_of_agrees (fun name declaration stands =>
      kept name declaration (earlier name declaration stands)) agrees

/-- All names may be kept. -/
theorem Workspace.keeps_all (workspace : Workspace) : workspace.Keeps fun _ => True :=
  ⟨fun _ _ _ _ => trivial, fun _ _ _ _ _ => trivial⟩

/-- A task has yielded a value at some time between two workspaces. -/
def Task.Gives (context : Context) (first last : Workspace) (task : Task) (value : Value) : Prop :=
  ∃ expanding start done, Consistent context start ∧ Grows first start ∧
    Yields context expanding start task value done ∧ Grows done last

/-- Whether a value is the contribution of a choice, of which nothing is left in it. -/
def Value.isUnion : Value → Bool
  | .member .union => true
  | _ => false

/-- Of a value that is no choice all names are kept. -/
def Value.IsKept (isKept : String → Prop) (value : Value) : Prop :=
  value.isUnion = false ∧ ∀ name ∈ value.mentions, isKept name

/-- So is that of a member if the member is a choice. -/
theorem IntersectionMember.isUnion_shape (member : IntersectionMember) :
    (Value.member member.shape).isUnion = Intersection.isUnion member := by
  obtain ⟨label, reference, shape⟩ := member
  cases shape <;> rfl

/-- A task has yielded a value between two workspaces that is kept. -/
def Task.Stands (context : Context) (isKept : String → Prop) (first last : Workspace) (task : Task) :
    Prop :=
  ∃ value, task.Gives context first last value ∧ value.IsKept isKept

/-- A component schema has been found ready, and its name is kept. -/
def Context.Retains (context : Context) (isKept : String → Prop) (last : Workspace) (schema : String) :
    Prop :=
  last.Ready schema ∧ ∃ name, context.emitted? schema = some name ∧ isKept name

/-- A component schema has been found ready, and what it has contributed is kept. -/
def Context.TakesUp (context : Context) (isKept : String → Prop) (first last : Workspace)
    (schema : String) : Prop :=
  last.Ready schema ∧ (Task.schema schema).Stands context isKept first last

/-- A component schema has been found ready, and its name is kept, or what it has contributed. -/
def Context.Meets (context : Context) (isKept : String → Prop) (first last : Workspace)
    (schema : String) : Prop :=
  context.Retains isKept last schema ∨ context.TakesUp isKept first last schema

variable {context : Context} {expanding : List String} {first middle last start done : Workspace}
  {registry : Registry} {isKept : String → Prop} {task : Task} {value : Value}

/-- What a task yields it gives between workspaces before and after. -/
theorem Yields.gives (yields : Yields context expanding start task value done)
    (consistent : Consistent context start) (before : Grows first start) (after : Grows done last) :
    task.Gives context first last value := ⟨_, _, _, consistent, before, yields, after⟩

/-- A task that gives a value has yielded one. -/
theorem Task.Gives.yielded (gives : task.Gives context first last value) :
    task.Yielded context first last := by
  obtain ⟨expanding, start, done, consistent, before, yields, after⟩ := gives
  exact ⟨expanding, start, value, done, consistent, before, yields, after⟩

/-- What a registered shape mentions is kept if its name is. -/
theorem Workspace.Registers.kept {shape : Shape} {name : String}
    (registers : start.Registers shape name done) (grows : Grows done last) (keeps : last.Keeps isKept)
    (isName : isKept name) : ∀ mention ∈ shape.mentions, isKept mention := by
  obtain ⟨candidate, doc, deprecated, path, isRegistered, _⟩ := registers
  -- The shape is equal to a declared one, or it is declared itself.
  rcases start.registry.register_cases candidate shape doc deprecated (.inline path) with
    ⟨standing, other, stands, same, isSame⟩ | ⟨other, free, isNew⟩
  · obtain ⟨rfl, isLast⟩ := Prod.mk.inj (isSame.symm.trans isRegistered)
    exact fun mention isMentioned => keeps.mentions (grows.get?_eq (isLast ▸ stands)) isName mention
      ((Shape.mem_mentions_of_beq same mention).mp isMentioned)
  · obtain ⟨rfl, isLast⟩ := Prod.mk.inj (isNew.symm.trans isRegistered)
    have stands : done.registry.get? other =
        some { name := other, shape, doc, deprecated, origin := .inline path } := by
      rw [← isLast, Registry.get?_declare, if_pos rfl]
    exact keeps.mentions (grows.get?_eq stands) isName

/-- What comes of the case of a choice is kept if its name is. -/
theorem Workspace.NamesCase.kept {type : TypeExpr} {name : String}
    (named : start.NamesCase type name done) (grows : Grows done last) (keeps : last.Keeps isKept)
    (isName : isKept name) : ∀ mention ∈ type.mentions, isKept mention := by
  cases named with
  | named isSame =>
    rw [TypeExpr.mentions_of_name? isSame]
    simpa using isName
  | declared _ registers =>
    simpa [Shape.mentions] using registers.kept grows keeps isName

namespace Task.Stands

variable {node : SchemaNode} {depth : Nat} {traits : NodeTraits} {target : String}
  {properties : List (Property SchemaNode)} {additional : Option SchemaNode}

/-- A reference that stands retains its schema. -/
theorem retains (stands : (Task.reference target).Stands context isKept first last) :
    context.Retains isKept last target := by
  obtain ⟨value, ⟨_, _, _, _, _, yields, after⟩, _, kept⟩ := stands
  cases yields with
  | reference _ emitted _ isReady =>
    exact ⟨after.ready isReady, _, emitted, kept _ (by simp [Value.mentions])⟩

/-!
What the use of a node leaves of the nodes inside it. Of the rules for the whole, only those apply that yield
the part, and what the whole mentions is what the part does.
-/

/-- The items of an array. -/
theorem items {items : SchemaNode}
    (stands : (Task.expression ⟨.array items, traits⟩ depth).Stands context isKept first last) :
    (Task.expression items (depth + 1)).Stands context isKept first last := by
  obtain ⟨value, ⟨_, _, _, consistent, before, yields, after⟩, _, kept⟩ := stands
  cases yields with
  | constant isConstant => cases isConstant
  | array _ inside =>
    exact ⟨_, inside.gives consistent before after, rfl,
      by simpa [Value.mentions, TypeExpr.mentions] using kept⟩
  | promoteAlias isDeclared | promote isDeclared => cases isDeclared

/-- The values of a map. -/
theorem values (stands : (Task.expression ⟨.map node, traits⟩ depth).Stands context isKept first last) :
    (Task.expression node depth).Stands context isKept first last := by
  obtain ⟨value, ⟨_, _, _, consistent, before, yields, after⟩, _, kept⟩ := stands
  cases yields with
  | constant isConstant => cases isConstant
  | map inside =>
    exact ⟨_, inside.gives consistent before after, rfl,
      by simpa [Value.mentions, TypeExpr.mentions] using kept⟩
  | promoteAlias isDeclared | promote isDeclared => cases isDeclared

/-- A reference. -/
theorem use
    (stands : (Task.expression ⟨.reference target, traits⟩ depth).Stands context isKept first last) :
    context.Retains isKept last target := by
  obtain ⟨value, ⟨_, _, _, consistent, before, yields, after⟩, _, kept⟩ := stands
  cases yields with
  | constant isConstant => cases isConstant
  | use looked =>
    exact retains ⟨_, looked.gives consistent before after, rfl, by simpa [Value.mentions] using kept⟩
  | promoteAlias isDeclared | promote isDeclared => cases isDeclared

/-- The declaration of a node that is declared wherever it is used. -/
theorem promoted (keeps : last.Keeps isKept) (isDeclared : node.isDeclared = true)
    (stands : (Task.expression node depth).Stands context isKept first last) :
    (Task.declare node depth).Stands context isKept first last := by
  obtain ⟨value, ⟨_, _, _, consistent, before, yields, after⟩, _, kept⟩ := stands
  cases yields with
  | constant isConstant =>
    cases (SchemaNode.isDeclared_of_constant? isConstant).symm.trans isDeclared
  | array | map | use => cases isDeclared
  | promoteAlias _ declares =>
    exact ⟨_, declares.gives consistent before after, rfl,
      by simpa [Value.mentions, Shape.mentions] using kept⟩
  | promote _ declares _ registers =>
    have grows := (registers.advances (declares.advances consistent).1).2
    refine ⟨_, declares.gives consistent before (grows.trans after), rfl, ?_⟩
    exact registers.kept after keeps (by simpa [Value.mentions] using kept)

/-- The use of a node that is not declared. -/
theorem plain (isPlain : node.isDeclared = false)
    (stands : (Task.declare node depth).Stands context isKept first last) :
    (Task.expression node depth).Stands context isKept first last := by
  obtain ⟨value, ⟨_, _, _, consistent, before, yields, after⟩, _, kept⟩ := stands
  cases yields with
  | declarePlain _ notes inside =>
    obtain ⟨between, grows⟩ := notes.advances consistent
    exact ⟨_, inside.gives between (before.trans grows) after, rfl,
      by simpa [Value.mentions, Shape.mentions] using kept⟩
  | declareRecord isDeclared => cases isPlain.symm.trans isDeclared
  | declareEnum | declareIntersection | declareChoice | declareDiscriminated => cases isPlain

/-- The properties of a record that are listed. -/
theorem fields (stands : (Task.fields properties).Stands context isKept first last) :
    ∀ property ∈ properties,
      (Task.expression property.schema 0).Stands context isKept first last := by
  obtain ⟨value, ⟨_, begun, _, consistent, before, yields, after⟩, _, kept⟩ := stands
  induction properties generalizing begun value with
  | nil => simp
  | cons property rest ih =>
    cases yields with
    | fieldsCons inside later =>
      obtain ⟨between, grows⟩ := inside.advances consistent
      obtain ⟨_, behind⟩ := later.advances between
      refine List.forall_mem_cons.mpr ⟨⟨_, inside.gives consistent before (behind.trans after), rfl,
        fun name isMentioned => kept name ?_⟩, ?_⟩
      · simp only [Value.mentions, List.flatMap_cons, List.mem_append]
        exact .inl isMentioned
      · refine ih _ _ between (before.trans grows) later rfl fun name isMentioned => kept name ?_
        simp only [Value.mentions, List.flatMap_cons, List.mem_append]
        exact .inr isMentioned

/-- The properties of a record and what else it admits. -/
theorem record (stands : (Task.record properties additional).Stands context isKept first last) :
    (∀ property ∈ properties,
      (Task.expression property.schema 0).Stands context isKept first last) ∧
    ∀ value ∈ additional, (Task.expression value 0).Stands context isKept first last := by
  obtain ⟨value, ⟨_, _, _, consistent, before, yields, after⟩, _, kept⟩ := stands
  cases yields with
  | recordClosed inside =>
    refine ⟨fields ⟨_, inside.gives consistent before after, rfl, ?_⟩, by simp⟩
    simpa [Value.mentions, RecordShape.types, List.flatMap_map] using kept
  | recordOpen inside further =>
    obtain ⟨between, grows⟩ := inside.advances consistent
    obtain ⟨_, behind⟩ := further.advances between
    simp only [Value.mentions, RecordShape.types, List.flatMap_append, List.flatMap_map] at kept
    obtain ⟨keptFields, keptFurther⟩ := List.forall_mem_append.mp kept
    refine ⟨fields ⟨_, inside.gives consistent before (behind.trans after), rfl, keptFields⟩, ?_⟩
    rintro _ ⟨⟩
    exact ⟨_, further.gives between (before.trans grows) after, rfl,
      by simpa [Value.mentions] using keptFurther⟩

/-- The properties of a record that is declared, and what else it admits. -/
theorem declaredRecord
    (stands : (Task.declare ⟨.object properties additional, traits⟩ depth).Stands context isKept
      first last) :
    (∀ property ∈ properties,
      (Task.expression property.schema 0).Stands context isKept first last) ∧
    ∀ value ∈ additional, (Task.expression value 0).Stands context isKept first last := by
  obtain ⟨value, ⟨_, _, _, consistent, before, yields, after⟩, _, kept⟩ := stands
  cases yields with
  | declareRecord _ notes inside =>
    obtain ⟨between, grows⟩ := notes.advances consistent
    exact record ⟨_, inside.gives between (before.trans grows) after, rfl,
      by simpa [Value.mentions, Shape.mentions_record] using kept⟩
  | declarePlain isPlain =>
    -- What is not declared where it is used has neither.
    simp only [SchemaNode.isDeclared, Bool.not_eq_false', Bool.and_eq_true, List.isEmpty_iff,
      Option.isNone_iff_eq_none] at isPlain
    obtain ⟨rfl, rfl⟩ := isPlain
    simp

/-- The properties of a record that is used or declared, and what else it admits. -/
theorem usedRecord (keeps : last.Keeps isKept)
    (stands : (Task.expression ⟨.object properties additional, traits⟩ depth).Stands context isKept
        first last ∨
      (Task.declare ⟨.object properties additional, traits⟩ depth).Stands context isKept first last) :
    (∀ property ∈ properties,
      (Task.expression property.schema 0).Stands context isKept first last) ∧
    ∀ value ∈ additional, (Task.expression value 0).Stands context isKept first last := by
  cases isDeclared : SchemaNode.isDeclared ⟨.object properties additional, traits⟩ with
  | true => exact declaredRecord (stands.elim (promoted keeps isDeclared) id)
  | false =>
    simp only [SchemaNode.isDeclared, Bool.not_eq_false', Bool.and_eq_true, List.isEmpty_iff,
      Option.isNone_iff_eq_none] at isDeclared
    obtain ⟨rfl, rfl⟩ := isDeclared
    simp

/-- The cases of a choice that are not null. -/
theorem cases {nodes : List SchemaNode} (keeps : last.Keeps isKept)
    (stands : (Task.cases nodes depth).Stands context isKept first last) :
    ∀ node ∈ nodes, node.kind.isNull = false →
      (Task.expression node depth).Stands context isKept first last := by
  obtain ⟨value, ⟨_, begun, _, consistent, before, yields, after⟩, _, kept⟩ := stands
  induction nodes generalizing begun value with
  | nil => simp
  | cons node rest ih =>
    cases yields with
    | casesNull isNull later =>
      refine List.forall_mem_cons.mpr ⟨fun notNull => ?_, ih _ _ consistent before later rfl kept⟩
      cases isNull.symm.trans notNull
    | casesCons _ inside named later =>
      obtain ⟨between, grows⟩ := inside.advances consistent
      obtain ⟨afterwards, more⟩ := named.advances between
      obtain ⟨_, behind⟩ := later.advances afterwards
      obtain ⟨keptName, keptNames⟩ := List.forall_mem_cons.mp kept
      refine List.forall_mem_cons.mpr ⟨fun _ => ?_, ?_⟩
      · exact ⟨_, inside.gives consistent before ((more.trans behind).trans after), rfl,
          named.kept (behind.trans after) keeps keptName⟩
      · exact ih _ _ afterwards (before.trans (grows.trans more)) later rfl keptNames

end Task.Stands

/-- The names in a table are those of the component schemas that have been looked up for its values. -/
structure Context.NamesTargets (context : Context) (workspace : Workspace) (names targets : Table String) :
    Prop where
  get?_eq : ∀ value, names.get? value = (targets.get? value).bind context.emitted?
  found : ∀ value target, targets.get? value = some target →
    workspace.Ready target ∧ ∃ name, context.emitted? target = some name
  distinct : names.keys.Nodup

/-- In the beginning nothing is mapped. -/
theorem Context.NamesTargets.empty (context : Context) (workspace : Workspace) :
    context.NamesTargets workspace {} {} :=
  ⟨fun _ => rfl, fun _ _ isMapped => (by cases isMapped), List.nodup_nil⟩

/-- A mapping leads to the names of what its entries lead to, the last one of a value in force. -/
theorem Yields.namesTargets {entries : List (String × String)} {found mapping : Table String}
    (yields : Yields context expanding start (.mapping entries found) (.table mapping) done)
    (consistent : Consistent context start) {targets : Table String}
    (agree : context.NamesTargets start found targets) :
    context.NamesTargets done mapping
      (entries.foldl (fun table entry => table.insert entry.1 entry.2) targets) := by
  induction entries generalizing start found targets with
  | nil =>
    cases yields
    exact agree
  | cons entry rest ih =>
    cases yields with
    | mappingCons looked isName later =>
      obtain ⟨between, grows⟩ := looked.advances consistent
      -- The entry that is looked up now takes the place of earlier ones of the same value.
      refine ih later between ⟨fun value => ?_, fun value target isMapped => ?_, ?_⟩
      · rw [Table.get?_insert, Table.get?_insert]
        split
        · cases looked with
          | reference _ emitted =>
            cases isName
            exact emitted.symm
        · exact agree.get?_eq value
      · rw [Table.get?_insert] at isMapped
        split at isMapped
        · cases isMapped
          cases looked with
          | reference _ emitted _ isReady => exact ⟨isReady, _, emitted⟩
        · exact (agree.found value target isMapped).imp_left grows.ready
      · exact Table.nodup_keys_insert agree.distinct _ _

namespace Task.Stands

variable {node : SchemaNode} {nodes members : List SchemaNode} {depth : Nat} {traits : NodeTraits}
  {target : String} {kind : CompositionKind} {discriminator : Option Discriminator}

/-- The cases of a choice that are not null, and what its discriminator leads to. -/
theorem declaredChoice (keeps : last.Keeps isKept) (isChoice : kind ≠ .allOf)
    (stands : (Task.declare ⟨.composed kind members discriminator, traits⟩ depth).Stands context isKept
      first last) :
    (∀ member ∈ members, member.kind.isNull = false →
      (Task.expression member depth).Stands context isKept first last) ∧
    ∀ found ∈ discriminator, ∀ value target,
      (Table.ofEntries found.mapping.entries).get? value = some target →
        context.Retains isKept last target := by
  obtain ⟨value, ⟨_, _, _, consistent, before, yields, after⟩, _, kept⟩ := stands
  cases yields with
  | declarePlain isPlain => cases isPlain
  | declareIntersection => exact absurd rfl isChoice
  -- Without a discriminator there is no mapping to speak of.
  | declareChoice _ notes inside unites =>
    obtain ⟨between, grows⟩ := notes.advances consistent
    refine ⟨cases keeps ⟨_, inside.gives between (before.trans grows) after, rfl, ?_⟩, by simp⟩
    exact fun name isName => kept name ((mentions_unionOf unites name).mpr (.inl isName))
  | declareDiscriminated _ notes inside maps unites =>
    obtain ⟨between, grows⟩ := notes.advances consistent
    obtain ⟨afterwards, more⟩ := inside.advances between
    obtain ⟨_, behind⟩ := maps.advances afterwards
    refine ⟨cases keeps ⟨_, inside.gives between (before.trans grows) (behind.trans after), rfl,
      fun name isName => kept name ((mentions_unionOf unites name).mpr (.inl isName))⟩, ?_⟩
    rintro _ ⟨⟩ value target isMapped
    -- The last entry of each value counts, in the mapping and among the targets alike.
    have names := maps.namesTargets afterwards (.empty context _)
    obtain ⟨isReady, name, emitted⟩ := names.found value target isMapped
    refine ⟨after.ready isReady, name, emitted, kept name ?_⟩
    refine (mentions_unionOf unites name).mpr (.inr ⟨_, rfl, ?_⟩)
    have isNamed := (names.get?_eq value).trans
      ((congrArg (Option.bind · context.emitted?) isMapped).trans emitted)
    exact List.mem_map_of_mem (Table.mem_entries_of_get? isNamed)

/-- What an intersection comes to stands where it is declared. -/
theorem declaredIntersection
    (stands : (Task.declare ⟨.composed .allOf members discriminator, traits⟩ depth).Stands context
      isKept first last) :
    (Task.intersection members depth).Stands context isKept first last := by
  obtain ⟨value, ⟨_, _, _, consistent, before, yields, after⟩, _, kept⟩ := stands
  cases yields with
  | declarePlain isPlain => cases isPlain
  | declareIntersection notes inside =>
    obtain ⟨between, grows⟩ := notes.advances consistent
    exact ⟨_, inside.gives between (before.trans grows) after, rfl,
      by simpa [Value.mentions] using kept⟩
  | declareChoice isChoice | declareDiscriminated isChoice => exact absurd rfl isChoice

/-- The schema for which an intersection stands is retained with it. -/
theorem only (stands : (Task.intersection nodes depth).Stands context isKept first last)
    (isOnly : SchemaNode.onlyReference? nodes = some target) : context.Retains isKept last target := by
  obtain ⟨value, ⟨_, _, _, consistent, before, yields, after⟩, _, kept⟩ := stands
  cases yields with
  | intersectionReference isAlso _ looked =>
    cases isOnly.symm.trans isAlso
    exact retains ⟨_, looked.gives consistent before after, rfl,
      by simpa [Value.mentions, Shape.mentions] using kept⟩
  | intersectionMembers several => cases isOnly.symm.trans several

end Task.Stands

/-- What an intersection comes to is kept, or it is the name of a schema whose contribution is. -/
inductive Shape.Backed (context : Context) (isKept : String → Prop) (first last : Workspace) :
    Shape → Prop
  | kept {shape : Shape} (kept : ∀ name ∈ shape.mentions, isKept name) :
    Backed context isKept first last shape
  | taken {type : TypeExpr} {schema : String} (named : context.schemaOf? type = some schema)
    (direct : type.nullable = false) (notAtomic : ¬context.IsAtomic schema)
    (stands : (Task.schema schema).Stands context isKept first last) :
    Backed context isKept first last (.alias type)

/-- Unless it is a choice, a shape mentions only what it contributes. -/
theorem Shape.mentions_subset_taken {shape : Shape} (notUnion : shape.taken ≠ .union) :
    shape.mentions ⊆ shape.taken.mentions := by
  cases shape with
  | record shape =>
    rw [mentions_record]
    exact List.Subset.refl _
  | enum => exact List.Subset.refl _
  | union => exact absurd rfl notUnion
  | «alias» type =>
    obtain ⟨kind, nullable, constraints⟩ := type
    cases kind with
    | any => exact List.nil_subset _
    | _ => simp [taken, MemberShape.mentions, MemberShape.types, mentions]

/-- What an atomic schema contributes is its name. -/
theorem Yields.eq_named_of_isAtomic {schema : String} {shape : MemberShape}
    (yields : Yields context expanding start (.schema schema) (.member shape) done)
    (isAtomic : context.IsAtomic schema) :
    ∃ name, context.emitted? schema = some name ∧ shape = .scalar (.named name) := by
  obtain ⟨node, found, isAtomic⟩ := isAtomic
  cases yields with
  | schemaChoice _ isFound isChoice =>
    cases found.symm.trans isFound
    cases (context.model.not_isUnion_of_isAtomic isAtomic).symm.trans isChoice
  | schema _ isFound _ emitted inside =>
    cases found.symm.trans isFound
    cases inside with
    | expandAtomic => exact ⟨_, emitted, rfl⟩
    | expandRestriction isEmpty => simp [SchemaNode.isAtomic, isEmpty] at isAtomic
    | expandRecord | expandReference | expandIntersection => cases isAtomic

/-- An intersection that stands as a contribution comes to a shape that is backed. -/
theorem Task.Stands.backed {members : List SchemaNode} {discriminator : Option Discriminator}
    {traits : NodeTraits} {depth : Nat}
    (stands : (Task.contribute ⟨.composed .allOf members discriminator, traits⟩ depth).Stands context
      isKept first last) :
    ∃ shape, (Task.intersection members depth).Gives context first last (.shape shape) ∧
      shape.Backed context isKept first last := by
  obtain ⟨value, ⟨_, _, _, consistent, before, yields, after⟩, notUnion, kept⟩ := stands
  cases yields with
  | contributeType isType => cases isType
  | contributeChoice isChoice => exact absurd rfl isChoice
  | contributeIntersection inside takes =>
    obtain ⟨between, grows⟩ := inside.advances consistent
    obtain ⟨_, behind⟩ := takes.advances between
    refine ⟨_, inside.gives consistent before (behind.trans after), ?_⟩
    cases takes with
    | take =>
      refine .kept fun name isMentioned =>
        kept name (Shape.mentions_subset_taken (fun isUnion => ?_) isMentioned)
      rw [isUnion] at notUnion
      cases notUnion
    | @takeSchema _ _ _ type schema _ named direct taken =>
      by_cases isAtomic : context.IsAtomic schema
      · -- The schema contributes the name to which the intersection comes.
        obtain ⟨name, emitted, rfl⟩ := taken.eq_named_of_isAtomic isAtomic
        obtain ⟨also, isName, isEmitted⟩ := (context.schemaOf?_eq_some_iff type schema).mp named
        cases emitted.symm.trans isEmitted
        refine .kept fun mention isMentioned => kept mention ?_
        simpa [Shape.mentions, Value.mentions, MemberShape.mentions, MemberShape.types,
          TypeExpr.mentions_of_name? isName] using isMentioned
      · exact .taken named direct isAtomic
          ⟨_, taken.gives between (before.trans grows) after, notUnion, kept⟩

/-- A member has a name that is kept, or the schema of that name still stands. -/
def IntersectionMember.Remains (context : Context) (isKept : String → Prop) (first last : Workspace)
    (member : IntersectionMember) : Prop :=
  ∃ name ∈ member.reference, isKept name ∨ ∃ schema, context.emitted? schema = some name ∧
    (Task.schema schema).Stands context isKept first last

/-- The only typed member of an intersection is kept or remains if what it comes to is backed. -/
theorem Shape.Backed.remains {member : IntersectionMember}
    (backed : (Intersection.single [member]).Backed context isKept first last)
    (isTyped : Intersection.isTyped member = true) (notUnion : Intersection.isUnion member = false)
    (ends : member.shape.EndsAt context) :
    (Value.member member.shape).IsKept isKept ∨ member.Remains context isKept first last := by
  obtain ⟨label, reference, shape⟩ := member
  cases reference with
  | some name =>
    -- A reference remains as the name of its schema.
    right
    cases backed with
    | kept kept => exact ⟨name, rfl, .inl (kept name (by simp [Intersection.single, Shape.mentions]))⟩
    | taken named _ _ stands =>
      obtain ⟨_, isName, emitted⟩ := (context.schemaOf?_eq_some_iff _ _).mp named
      cases isName
      exact ⟨name, rfl, .inr ⟨_, emitted, stands⟩⟩
  | none =>
    -- Any other member is kept as a record or as a scalar.
    left
    cases shape with
    | required | unconstrained => cases isTyped
    | union => cases notUnion
    | record shape =>
      cases backed with
      | kept kept => exact ⟨rfl, by simpa [Intersection.single, Value.mentions, MemberShape.mentions,
          MemberShape.types, Shape.mentions_record] using kept⟩
    | scalar type =>
      cases backed with
      | kept kept =>
        exact ⟨rfl, by simpa [Intersection.single, Value.mentions, MemberShape.mentions,
          MemberShape.types, Shape.mentions] using kept⟩
      | taken named direct notAtomic => exact absurd (ends direct _ named) notAtomic

/--
Every member of an intersection is kept if what they merge into is backed, unless it is the only one with
a type: then it may remain instead.
-/
theorem Shape.Backed.members {inputs : List IntersectionMember} {merged : Merged}
    (backed : merged.shape.Backed context isKept first last) (keeps : last.Keeps isKept)
    (grows : Grows middle last) (isMerged : mergeAllOf inputs middle.registry.equivalent = .ok merged)
    (ends : ∀ input ∈ inputs, input.shape.EndsAt context) :
    ∀ input ∈ inputs, (Value.member input.shape).IsKept isKept ∨
      (Intersection.StandsAlone inputs ∧ Intersection.isTyped input = true) ∧
        input.Remains context isKept first last := by
  intro input isInput
  obtain ⟨noUnion, alone | ⟨_, whole, notes, isWhole, isRecord⟩⟩ :=
    Intersection.mergeAllOf_cases isMerged
  all_goals
    have notUnion := noUnion input isInput
    cases isTyped : Intersection.isTyped input
  case inl.true =>
    obtain ⟨few, unnamed, isSingle⟩ := alone
    -- The member is the only one with a type.
    have isMember := List.mem_filter.mpr ⟨isInput, isTyped⟩
    obtain ⟨only, isOnly⟩ := List.length_eq_one_iff.mp
      (Nat.le_antisymm few (List.length_pos_of_mem isMember))
    have isAlso := isMember
    rw [isOnly] at isAlso isSingle
    cases List.mem_singleton.mp isAlso
    exact ((isSingle ▸ backed).remains isTyped notUnion (ends input isInput)).imp_right
      fun remains => ⟨⟨⟨few, unnamed⟩, rfl⟩, remains⟩
  case inr.true =>
    -- Whatever is merged agrees with a type that comes out.
    rw [isRecord] at backed
    cases backed with
    | kept kept =>
      refine .inl ⟨input.isUnion_shape.trans notUnion, fun name isMentioned => ?_⟩
      obtain ⟨type, isType, isMentioned⟩ := List.mem_flatMap.mp isMentioned
      have isPart : type ∈ (inputs.filter Intersection.isTyped).flatMap
          fun member => member.shape.types :=
        List.mem_flatMap.mpr ⟨input, List.mem_filter.mpr ⟨isInput, isTyped⟩, isType⟩
      obtain ⟨found, isFound, agrees⟩ :=
        (Intersection.merges_mergeRecords isWhole).agrees type isPart
      refine keeps.agrees (fun _ _ => grows.get?_eq) agrees (fun mention isInside => kept mention ?_)
        name isMentioned
      rw [Shape.mentions_record]
      refine List.mem_flatMap.mpr ⟨found, ?_, isInside⟩
      simpa [RecordShape.types, Intersection.types_requireFields] using isFound
  all_goals
    -- A member without a type mentions nothing.
    obtain ⟨label, reference, shape⟩ := input
    cases shape with
    | record | scalar | union => cases isTyped
    | required | unconstrained =>
      exact .inl ⟨rfl, by simp [Value.mentions, MemberShape.mentions, MemberShape.types]⟩

/-- What a member of an intersection contributes, with the name of the schema to which it refers. -/
inductive SchemaNode.Contributed (context : Context) (first last : Workspace) (depth : Nat) :
    SchemaNode → IntersectionMember → Prop
  | reference {target traits label name shape} (isReady : last.Ready target)
    (emitted : context.emitted? target = some name)
    (gives : (Task.schema target).Gives context first last (.member shape)) :
    Contributed context first last depth ⟨.reference target, traits⟩ ⟨label, some name, shape⟩
  | other {node label shape} (isOther : node.kind.referenceTarget? = none)
    (gives : (Task.contribute node depth).Gives context first last (.member shape)) :
    Contributed context first last depth node ⟨label, none, shape⟩

/-- Every node among the members of an intersection has contributed one of what they come to. -/
theorem Yields.contributed {nodes : List SchemaNode} {depth : Nat} {inputs : List IntersectionMember}
    (yields : Yields context expanding start (.members nodes depth) (.inputs inputs) done)
    (consistent : Consistent context start) (before : Grows first start) (after : Grows done last) :
    ∀ node ∈ nodes, ∃ input ∈ inputs, node.Contributed context first last depth input := by
  induction nodes generalizing start inputs with
  | nil => simp
  | cons node rest ih =>
    cases yields with
    | membersReference looked inside later =>
      obtain ⟨between, grows⟩ := looked.advances consistent
      obtain ⟨afterwards, more⟩ := inside.advances between
      obtain ⟨_, behind⟩ := later.advances afterwards
      refine List.forall_mem_cons.mpr ⟨⟨_, List.mem_cons_self, ?_⟩, fun other isLater => ?_⟩
      -- The reference is ready once it has been looked up, and stays so.
      · have gives := inside.gives between (before.trans grows) (behind.trans after)
        cases looked with
        | reference _ emitted _ isReady =>
          exact .reference (((more.trans behind).trans after).ready isReady) emitted gives
      · obtain ⟨input, isInput, contributed⟩ :=
          ih later afterwards (before.trans (grows.trans more)) other isLater
        exact ⟨input, List.mem_cons_of_mem _ isInput, contributed⟩
    | membersOther isOther inside later =>
      obtain ⟨between, grows⟩ := inside.advances consistent
      obtain ⟨_, behind⟩ := later.advances between
      refine List.forall_mem_cons.mpr ⟨⟨_, List.mem_cons_self, ?_⟩, fun other isLater => ?_⟩
      -- What is contributed in place stays while the others are walked.
      · exact .other isOther (inside.gives consistent before (behind.trans after))
      · obtain ⟨input, isInput, contributed⟩ := ih later between (before.trans grows) other isLater
        exact ⟨input, List.mem_cons_of_mem _ (List.mem_append_right _ isInput), contributed⟩

/-- A member of an intersection is a reference that is met, or what it contributes stands. -/
def SchemaNode.Joins (context : Context) (isKept : String → Prop) (first last : Workspace)
    (depth : Nat) (node : SchemaNode) : Prop :=
  (∃ target traits, node = ⟨.reference target, traits⟩ ∧ context.Meets isKept first last target) ∨
    (Task.contribute node depth).Stands context isKept first last

/-- All members of an intersection join in if what it comes to is backed. -/
theorem Task.Gives.joins {nodes : List SchemaNode} {depth : Nat} {shape : Shape}
    (gives : (Task.intersection nodes depth).Gives context first last (.shape shape))
    (backed : shape.Backed context isKept first last) (keeps : last.Keeps isKept) :
    ∀ node ∈ nodes, node.Joins context isKept first last depth := by
  obtain ⟨_, _, _, consistent, before, yields, after⟩ := gives
  intro node isNode
  cases yields with
  | intersectionReference isOnly _ looked =>
    have isTarget := looked.schemaOf?_reference
    have isReady := after.ready looked.ready_reference
    obtain ⟨kind, traits⟩ := node
    rcases SchemaNode.cases_of_onlyReference? isOnly _ isNode with isUnconstrained | rfl
    · -- What restricts nothing may contribute that at any time.
      right
      simp only [SchemaNode.isUnconstrained, Bool.and_eq_true] at isUnconstrained
      obtain ⟨⟨isAny, isEmpty⟩, _⟩ := isUnconstrained
      cases kind <;> cases isAny
      refine ⟨_, (@Yields.contributeRestriction _ [] _ _ _ isEmpty).gives consistent before
        ((looked.advances consistent).2.trans after), ?_⟩
      unfold SchemaNode.restriction
      split <;> exact ⟨rfl, by simp [Value.mentions, MemberShape.mentions, MemberShape.types]⟩
    · refine .inl ⟨_, traits, rfl, ?_⟩
      cases backed with
      | kept kept =>
        exact .inl (Stands.retains ⟨_, looked.gives consistent before after, rfl,
          by simpa [Value.mentions, Shape.mentions] using kept⟩)
      | taken named _ _ stands =>
        cases isTarget.symm.trans named
        exact .inr ⟨isReady, stands⟩
  | intersectionMembers _ inside merges notes =>
    obtain ⟨between, _⟩ := inside.advances consistent
    have grows := (notes.advances between).2.trans after
    obtain ⟨_, _, each, _⟩ := inside.outlined consistent
    obtain ⟨input, isInput, contributed⟩ := inside.contributed consistent before grows node isNode
    have remains := backed.members keeps grows merges (fun input isInput => (each input isInput).1)
      input isInput
    cases contributed with
    | reference isReady emitted gives =>
      refine .inl ⟨_, _, rfl, ?_⟩
      rcases remains with kept | ⟨_, name, isName, kept | ⟨schema, isEmitted, stands⟩⟩
      · exact .inr ⟨isReady, _, gives, kept⟩
      · cases isName
        exact .inl ⟨isReady, _, emitted, kept⟩
      · cases isName
        cases Context.emitted?_injective emitted isEmitted
        exact .inr ⟨isReady, stands⟩
    | other _ gives =>
      rcases remains with kept | ⟨_, _, isName, _⟩
      · exact .inr ⟨_, gives, kept⟩
      · cases isName

namespace Task.Stands

variable {node : SchemaNode} {members : List SchemaNode} {depth : Nat} {traits : NodeTraits}
  {properties : List (Property SchemaNode)} {additional : Option SchemaNode} {target : String}
  {kind : CompositionKind} {discriminator : Option Discriminator}

/-- A node that is used or declared is declared if it is so wherever it is used, or else used. -/
theorem settled (keeps : last.Keeps isKept)
    (stands : (Task.expression node depth).Stands context isKept first last ∨
      (Task.declare node depth).Stands context isKept first last) :
    if node.isDeclared then (Task.declare node depth).Stands context isKept first last
    else (Task.expression node depth).Stands context isKept first last := by
  cases isDeclared : node.isDeclared with
  | true => exact stands.elim (promoted keeps isDeclared) id
  | false => exact stands.elim id (plain isDeclared)

/-- What a node contributes as a type is its use. -/
theorem contributedType (isType : node.contributesType = true)
    (stands : (Task.contribute node depth).Stands context isKept first last) :
    (Task.expression node depth).Stands context isKept first last := by
  obtain ⟨value, ⟨_, _, _, consistent, before, yields, after⟩, _, kept⟩ := stands
  cases yields with
  | contributeType _ inside =>
    exact ⟨_, inside.gives consistent before after, rfl,
      by simpa [Value.mentions, MemberShape.mentions, MemberShape.types] using kept⟩
  | contributeRestriction isEmpty => simp [SchemaNode.contributesType, isEmpty] at isType
  | contributeMap | contributeRecord | contributeIntersection | contributeChoice => cases isType

/-- The values of a map that is contributed. -/
theorem contributedValues
    (stands : (Task.contribute ⟨.map node, traits⟩ depth).Stands context isKept first last) :
    (Task.expression node depth).Stands context isKept first last := by
  obtain ⟨value, ⟨_, _, _, consistent, before, yields, after⟩, _, kept⟩ := stands
  cases yields with
  | contributeType isType => cases isType
  | contributeMap inside =>
    exact ⟨_, inside.gives consistent before after, rfl,
      by simpa [Value.mentions, MemberShape.mentions, MemberShape.types, RecordShape.types] using kept⟩

/-- The properties of a record that is contributed, and what else it admits. -/
theorem contributedRecord
    (stands : (Task.contribute ⟨.object properties additional, traits⟩ depth).Stands context isKept
      first last) :
    (∀ property ∈ properties,
      (Task.expression property.schema 0).Stands context isKept first last) ∧
    ∀ value ∈ additional, (Task.expression value 0).Stands context isKept first last := by
  obtain ⟨value, ⟨_, _, _, consistent, before, yields, after⟩, _, kept⟩ := stands
  cases yields with
  | contributeType isType => cases isType
  | contributeRecord inside =>
    exact record ⟨_, inside.gives consistent before after, rfl, kept⟩

/-- No reference is contributed as a member that is written. -/
theorem not_contributedReference :
    ¬(Task.contribute ⟨.reference target, traits⟩ depth).Stands context isKept first last := by
  rintro ⟨value, ⟨_, _, _, _, _, yields, _⟩, _⟩
  cases yields with
  | contributeType isType => cases isType

/-- No choice is contributed. -/
theorem not_contributedChoice (isChoice : kind ≠ .allOf) :
    ¬(Task.contribute ⟨.composed kind members discriminator, traits⟩ depth).Stands context isKept
      first last := by
  rintro ⟨value, ⟨_, _, _, _, _, yields, _⟩, notUnion, _⟩
  cases yields with
  | contributeType isType => cases isType
  | contributeIntersection => exact absurd rfl isChoice
  | contributeChoice => cases notUnion

/-- An intersection that stands where it is declared comes to a shape that is backed. -/
theorem declaredBacked
    (stands : (Task.declare ⟨.composed .allOf members discriminator, traits⟩ depth).Stands context
      isKept first last) :
    ∃ shape, (Task.intersection members depth).Gives context first last (.shape shape) ∧
      shape.Backed context isKept first last := by
  obtain ⟨value, gives, _, kept⟩ := stands.declaredIntersection
  have yielded := gives
  obtain ⟨_, _, _, _, _, yields, _⟩ := yielded
  cases yields with
  | intersectionReference | intersectionMembers => exact ⟨_, gives, .kept kept⟩

/-- All members of an intersection join in where that is declared or contributed. -/
theorem joins (keeps : last.Keeps isKept)
    (stands : (Task.declare ⟨.composed .allOf members discriminator, traits⟩ depth).Stands context
        isKept first last ∨
      (Task.contribute ⟨.composed .allOf members discriminator, traits⟩ depth).Stands context isKept
        first last) :
    ∀ member ∈ members, member.Joins context isKept first last depth := by
  obtain ⟨_, gives, backed⟩ := stands.elim declaredBacked backed
  exact gives.joins backed keeps

end Task.Stands

end ApiTypes
