import ApiTypes.Proofs.Synthesis.Concurrence
import ApiTypes.Proofs.Synthesis.Inclusion
import ApiTypes.Proofs.Synthesis.Records

/-!
The cases of a choice. Every one of them that is not null gets a name, which stands for its type in any
later registry; and no two cases are united unless they get the same name.
-/

namespace ApiTypes

/-- A type that uses a declared type says nothing else about its values, apart from null. -/
def TypeExpr.UsesAlone (type : TypeExpr) : Prop :=
  ∀ name, type.name? = some name → type.constraints = {}

namespace TypeExpr

/-- A use of a declared type says nothing else. -/
theorem usesAlone_named (name : String) : (named name).UsesAlone := fun _ _ => rfl

/-- A type that is no use of a declared type may say anything. -/
theorem usesAlone_of_name? {type : TypeExpr} (unnamed : type.name? = none) : type.UsesAlone := by
  intro name isName
  simp [unnamed] at isName

/-- Whether null is admitted makes no difference. -/
theorem UsesAlone.withNullable {type : TypeExpr} (alone : type.UsesAlone) (nullable : Bool) :
    (type.withNullable nullable).UsesAlone := alone

/-- Apart from null, a use of a declared type is just its name. -/
theorem UsesAlone.eq_named {type : TypeExpr} (alone : type.UsesAlone) {name : String}
    (isName : type.name? = some name) : type.withNullable false = named name := by
  have none := alone name isName
  obtain ⟨kind, nullable, constraints⟩ := type
  cases kind <;> cases isName
  cases none
  rfl

end TypeExpr

/-- Another name of a type says no more than the type if that uses a declared one. -/
def Shape.UsesAlone : Shape → Prop
  | .alias target => target.UsesAlone
  | .record _ | .enum _ _ | .union _ => True

/-- A contribution of a type says no more than the type if that uses a declared one. -/
def MemberShape.UsesAlone : MemberShape → Prop
  | .scalar type => type.UsesAlone
  | .record _ | .required _ | .unconstrained | .union => True

/-- The types that a value hands on say nothing else where they are uses of declared types. -/
def Value.UsesAlone : Value → Prop
  | .type found => found.UsesAlone
  | .shape found => found.UsesAlone
  | .member found => found.UsesAlone
  | .inputs listed => ∀ input ∈ listed, input.shape.UsesAlone
  | .fields _ | .record _ | .names _ _ | .table _ => True

/-- An intersection stands for a type that one of its members contributes, or for a bare name. -/
theorem usesAlone_of_mergeAllOf {inputs : List IntersectionMember} {merged : Merged}
    {equivalent : TypeKind TypeExpr → TypeKind TypeExpr → Bool}
    (alone : ∀ input ∈ inputs, input.shape.UsesAlone)
    (merges : mergeAllOf inputs equivalent = .ok merged) : merged.shape.UsesAlone := by
  obtain ⟨_, ⟨_, _, isSingle⟩ | ⟨_, _, _, _, isWhole⟩⟩ := Intersection.mergeAllOf_cases merges
  · have included := List.filter_subset_self (p := Intersection.isTyped) (l := inputs)
    rw [isSingle]
    unfold Intersection.single
    split
    · exact TypeExpr.usesAlone_named _
    · trivial
    · rename_i isOnly
      exact alone _ (included (isOnly ▸ List.mem_cons_self))
    · exact TypeExpr.usesAlone_of_name? rfl
  · rw [isWhole]
    trivial

/-- A choice stands for the name of its only case, if it is another name. -/
theorem usesAlone_of_unionOf {kind : CompositionKind} {names : List String} {nullable : Bool}
    {discriminator : Option Discriminator} {shape : Shape}
    (unites : unionOf kind names nullable discriminator = .ok shape) : shape.UsesAlone := by
  unfold unionOf at unites
  split at unites <;> cases unites
  · exact (TypeExpr.usesAlone_named _).withNullable _
  · trivial

/-- What a shape contributes to an intersection says no more than the shape. -/
theorem usesAlone_taken {shape : Shape} (alone : shape.UsesAlone) : shape.taken.UsesAlone := by
  cases shape with
  | record | union => trivial
  | enum => exact TypeExpr.usesAlone_of_name? rfl
  | «alias» type =>
    obtain ⟨kind, _, _⟩ := type
    cases kind with
    | any => trivial
    | primitive | array | map | named | null => exact alone

/-- Admitting null makes no difference. -/
theorem usesAlone_admitting {shape : Shape} (alone : shape.UsesAlone) (nullable : Bool) :
    (shape.admitting nullable).UsesAlone := by
  cases shape with
  | record | enum | union => trivial
  | «alias» type => exact alone

/-- Nor do the names that an object requires beside its fields. -/
theorem usesAlone_requiredMembers (node : SchemaNode) (label : String) :
    ∀ input ∈ Surroundings.requiredMembers node label, input.shape.UsesAlone := by
  intro input isRequired
  obtain ⟨names, rfl⟩ := SchemaNode.required_of_requiredMembers isRequired
  trivial

variable {context : Context} {expanding : List String} {first last : Workspace}

/-- The shape of which a task takes the contribution says nothing else where it uses declared types. -/
def Task.UsesAlone : Task → Prop
  | .take shape => shape.UsesAlone
  | _ => True

/-- Whatever a task yields, uses of declared types in it say nothing else. -/
theorem Yields.usesAlone {task : Task} {value : Value}
    (yields : Yields context expanding first task value last) (alone : task.UsesAlone) :
    value.UsesAlone := by
  -- Constraints are only said beside kinds that are written in place, and an intersection of several
  -- types is a record.
  induction yields with
  | constant isConstant =>
    unfold SchemaNode.constant? at isConstant
    split at isConstant <;> cases isConstant <;> exact TypeExpr.usesAlone_of_name? rfl
  | array | map => exact TypeExpr.usesAlone_of_name? rfl
  | use _ ih | promoteAlias _ _ ih => exact TypeExpr.UsesAlone.withNullable (ih trivial) _
  | promote | reference => exact (TypeExpr.usesAlone_named _).withNullable _
  | declarePlain _ _ _ ih | contributeType _ _ ih | intersectionReference _ _ _ ih
  | expandIntersection _ ih | schema _ _ _ _ _ ih | takeSchema _ _ _ ih => exact ih trivial
  | declareEnum | declareRecord | contributeMap | contributeRecord | contributeChoice
  | expandRecord | schemaChoice | fieldsNil | fieldsCons | recordClosed | recordOpen | casesNil
  | casesNull | casesCons | mappingNil | mappingCons => trivial
  | declareIntersection _ _ ih => exact usesAlone_admitting (ih trivial) _
  | declareChoice _ _ _ unites | declareDiscriminated _ _ _ _ unites =>
    exact usesAlone_of_unionOf unites
  | contributeRestriction | expandRestriction =>
    unfold SchemaNode.restriction
    split <;> trivial
  | contributeIntersection _ _ ih takesIh => exact takesIh (ih trivial)
  | expandReference _ _ _ ih => exact ih trivial
  | expandAtomic => exact TypeExpr.usesAlone_named _
  | membersNil => exact nofun
  | membersReference _ _ _ _ insideIh laterIh =>
    exact List.forall_mem_cons.mpr ⟨insideIh trivial, laterIh trivial⟩
  | membersOther _ _ _ insideIh laterIh =>
    exact List.forall_mem_cons.mpr ⟨insideIh trivial,
      List.forall_mem_append.mpr ⟨usesAlone_requiredMembers _ _, laterIh trivial⟩⟩
  | intersectionMembers _ _ merges _ ih => exact usesAlone_of_mergeAllOf (ih trivial) merges
  | take => exact usesAlone_taken alone

/-- A name stands for a type: it is what the type uses, or it is declared as another name of it. -/
def Registry.StandsFor (registry : Registry) (name : String) (type : TypeExpr) : Prop :=
  type = .named name ∨ ∃ declaration target, registry.get? name = some declaration ∧
    declaration.shape = .alias target ∧ (target = type ∨ (target == type) = true)

/-- Only another name of a type equals another name of a type. -/
theorem Shape.exists_alias_of_beq {shape : Shape} {type : TypeExpr}
    (same : (shape == .alias type) = true) :
    ∃ target, shape = .alias target ∧ (target == type) = true := by
  cases shape with
  | record | enum | union => cases same
  | «alias» target => exact ⟨target, rfl, same⟩

/-- A shape that gets a name is declared under that, or one that equals it is. -/
theorem Workspace.Registers.exists_stands {shape : Shape} {name : String}
    (registers : first.Registers shape name last) : ∃ declaration,
      last.registry.get? name = some declaration ∧ declaration.shape.Stands shape := by
  obtain ⟨candidate, doc, deprecated, path, isRegistered, _⟩ := registers
  obtain ⟨_, declaration, isTried, declared, stands, _⟩ :=
    first.registry.exists_declared_register candidate shape doc deprecated (.inline path)
  rw [← isTried, isRegistered] at declared
  exact ⟨declaration, declared, stands⟩

/-- The name of a case stands for its type, whether null is admitted or not. -/
theorem Workspace.NamesCase.standsFor {type : TypeExpr} {name : String} {registry : Registry}
    (named : first.NamesCase type name last) (alone : type.UsesAlone)
    (kept : last.KeptIn registry) : registry.StandsFor name (type.withNullable false) := by
  cases named with
  | named isName => exact .inl (alone.eq_named isName)
  | declared _ registers =>
    obtain ⟨declaration, declared, isAlias | same⟩ := registers.exists_stands
    · exact .inr ⟨declaration, _, kept _ _ declared, isAlias, .inl rfl⟩
    · obtain ⟨target, isAlias, same⟩ := Shape.exists_alias_of_beq same
      exact .inr ⟨declaration, target, kept _ _ declared, isAlias, .inr same⟩

namespace Surroundings

/-- Where a case of a choice stands. -/
def casePlace (kind : CompositionKind) (scope : Scope) (index : Nat) : Scope :=
  scope.child ("Variant" ++ toString (index + 1)) ("/" ++ kind.keyword ++ "/" ++ toString index)

/--
The cases of a choice from a position on come to their types and names one after the other; there are
none for those that are null.
-/
inductive ResolvesCases (outside : Surroundings) (kind : CompositionKind) (scope : Scope)
    (depth : Nat) :
    List SchemaNode → Nat → Workspace → List (Option (TypeExpr × String)) → Workspace → Prop
  | nil (index : Nat) (workspace : Workspace) :
    ResolvesCases outside kind scope depth [] index workspace [] workspace
  | null {node : SchemaNode} {rest : List SchemaNode} {index : Nat} {first last : Workspace}
    {resolved : List (Option (TypeExpr × String))} (isNull : node.kind.isNull = true)
    (later : ResolvesCases outside kind scope depth rest (index + 1) first resolved last) :
    ResolvesCases outside kind scope depth (node :: rest) index first (none :: resolved) last
  | typed {node : SchemaNode} {rest : List SchemaNode} {index : Nat}
    {first middle after last : Workspace} {type : TypeExpr} {name : String}
    {resolved : List (Option (TypeExpr × String))} (notNull : node.kind.isNull = false)
    (resolves : ((outside.walk node).expression (casePlace kind scope index) depth).Ends first
      (.ok type) middle)
    (names : (nameMember type scope (casePlace kind scope index)).Ends middle (.ok name) after)
    (later : ResolvesCases outside kind scope depth rest (index + 1) after resolved last) :
    ResolvesCases outside kind scope depth (node :: rest) index first
      (some (type, name) :: resolved) last

/-- The names of the cases that have been resolved. -/
def caseNames (resolved : List (Option (TypeExpr × String))) : List String :=
  resolved.filterMap fun case? => case?.map Prod.snd

/-- Whether a case that has been resolved admits null. -/
def admitsNull (resolved : List (Option (TypeExpr × String))) : Bool :=
  resolved.any fun case? => case?.elim true fun found => found.1.nullable

variable {outside : Surroundings} {kind : CompositionKind} {scope : Scope} {depth index : Nat}
  {members : List SchemaNode} {resolved : List (Option (TypeExpr × String))}

/-- The names of the cases, and whether they admit null, come from the types of the cases. -/
theorem exists_resolvesCases {found : List String × Bool}
    (ends : (cases kind scope depth (members.map outside.walked) index).Ends first (.ok found)
      last) :
    ∃ resolved, ResolvesCases outside kind scope depth members index first resolved last ∧
      found = (caseNames resolved, admitsNull resolved) := by
  induction members generalizing index first found with
  | nil =>
    obtain ⟨isFound, rfl⟩ := (Synthesis.ends_pure_iff _).mp ends
    cases isFound
    exact ⟨[], .nil _ _, rfl⟩
  | cons node rest ih =>
    simp only [List.map_cons, walked, cases] at ends
    -- Null is no case of its own, but is admitted; every other member gets a name.
    split at ends
    · rename_i isNull
      obtain ⟨_, _, later, returns⟩ := (Synthesis.ends_bind_ok_iff _ _ _).mp ends
      obtain ⟨isFound, rfl⟩ := (Synthesis.ends_pure_iff _).mp returns
      cases isFound
      obtain ⟨resolved, resolves, rfl⟩ := ih later
      exact ⟨none :: resolved, .null isNull resolves, rfl⟩
    · rename_i notNull
      obtain ⟨type, _, typed, ends⟩ := (Synthesis.ends_bind_ok_iff _ _ _).mp ends
      obtain ⟨name, _, names, ends⟩ := (Synthesis.ends_bind_ok_iff _ _ _).mp ends
      obtain ⟨_, _, later, returns⟩ := (Synthesis.ends_bind_ok_iff _ _ _).mp ends
      obtain ⟨isFound, rfl⟩ := (Synthesis.ends_pure_iff _).mp returns
      cases isFound
      obtain ⟨resolved, resolves, rfl⟩ := ih later
      exact ⟨some (type, name) :: resolved,
        .typed (by simpa using notNull) typed names resolves, rfl⟩

/-- Nothing is resolved for exactly the cases that are null. -/
theorem ResolvesCases.none_mem_iff
    (resolves : ResolvesCases outside kind scope depth members index first resolved last) :
    none ∈ resolved ↔ ∃ member ∈ members, member.kind.isNull = true := by
  induction resolves with
  | nil => simp
  | null isNull => simp [isNull]
  | typed notNull _ _ _ ih => simp [ih, notNull]

/-- Every other case is resolved to a type. -/
theorem ResolvesCases.exists_of_mem
    (resolves : ResolvesCases outside kind scope depth members index first resolved last)
    {member : SchemaNode} (isMember : member ∈ members) (notNull : member.kind.isNull = false) :
    ∃ type name, some (type, name) ∈ resolved ∧ ∃ place before after,
      ((outside.walk member).expression place depth).Ends before (.ok type) after := by
  induction resolves with
  | nil => cases isMember
  | null isNull _ ih =>
    rcases List.mem_cons.mp isMember with rfl | isLater
    · cases isNull.symm.trans notNull
    · obtain ⟨type, name, isResolved, ends⟩ := ih isLater
      exact ⟨type, name, List.mem_cons_of_mem _ isResolved, ends⟩
  | typed _ typed _ _ ih =>
    rcases List.mem_cons.mp isMember with rfl | isLater
    · exact ⟨_, _, List.mem_cons_self, _, _, _, typed⟩
    · obtain ⟨type, name, isResolved, ends⟩ := ih isLater
      exact ⟨type, name, List.mem_cons_of_mem _ isResolved, ends⟩

/-- Resolving cases keeps what was declared before, and their names stand for their types. -/
theorem ResolvesCases.standsFor {active : List String}
    (adequate : outside.Adequate context active expanding)
    (resolves : ResolvesCases outside kind scope depth members index first resolved last)
    (consistent : Consistent context first) (started : Started active first) :
    Consistent context last ∧ Grows first last ∧ ∀ registry, last.KeptIn registry →
      ∀ type name, some (type, name) ∈ resolved →
        registry.StandsFor name (type.withNullable false) := by
  -- The induction is on the cases, and what one of them declares is kept by the later ones.
  induction resolves with
  | nil => exact ⟨consistent, .refl _, fun _ _ _ _ => nofun⟩
  | null _ _ ih =>
    obtain ⟨after, grows, stands⟩ := ih consistent started
    refine ⟨after, grows, fun registry kept type name isResolved => ?_⟩
    exact stands registry kept type name (by simpa using isResolved)
  | typed _ typed names _ ih =>
    have yields := (adequate.walkFollows _).expression _ _ _ _ _ consistent started typed
    obtain ⟨between, grows⟩ := yields.advances consistent
    obtain ⟨_, isName, named⟩ := namesCase_of_ends names
    cases isName
    obtain ⟨consistent, more⟩ := named.advances between
    obtain ⟨after, further, stands⟩ := ih consistent (more.started (grows.started started))
    refine ⟨after, (grows.trans more).trans further, fun registry kept type name isResolved => ?_⟩
    rcases List.mem_cons.mp isResolved with isFirst | isLater
    · cases isFirst
      exact named.standsFor (yields.usesAlone trivial) (further.keptIn kept)
    · exact stands registry kept type name isLater

/-- Cases of which none is resolved have no names. -/
theorem ResolvesCases.caseNames_eq_nil
    (resolves : ResolvesCases outside kind scope depth members index first resolved last)
    (areNull : ∀ member ∈ members, member.kind.isNull = true) : caseNames resolved = [] := by
  induction resolves with
  | nil => rfl
  | null _ _ ih => exact ih (List.forall_mem_cons.mp areNull).2
  | typed notNull => simp [notNull] at areNull

/-- The names of the cases are those of the types to which they are resolved. -/
theorem mem_caseNames_iff {name : String} :
    name ∈ caseNames resolved ↔ ∃ type, some (type, name) ∈ resolved := by
  simp [caseNames]

/-- A case admits null if it is null or its type does. -/
theorem admitsNull_iff : admitsNull resolved = true ↔
    none ∈ resolved ∨ ∃ type name, some (type, name) ∈ resolved ∧ type.nullable = true := by
  rw [admitsNull, List.any_eq_true]
  constructor
  · rintro ⟨_ | ⟨type, name⟩, isResolved, admits⟩
    · exact .inl isResolved
    · exact .inr ⟨type, name, isResolved, admits⟩
  · rintro (isResolved | ⟨type, name, isResolved, admits⟩)
    · exact ⟨none, isResolved, rfl⟩
    · exact ⟨_, isResolved, admits⟩

end Surroundings

/-- A choice is another name of its only case, or offers its cases, each once. -/
theorem unionOf_eq_ok {kind : CompositionKind} {names : List String} {nullable : Bool}
    {discriminator : Option Discriminator} {shape : Shape}
    (unites : unionOf kind names nullable discriminator = .ok shape) :
    names ≠ [] ∧
      ((∃ only, names.eraseDups = [only] ∧
          shape = .alias ((TypeExpr.named only).withNullable nullable)) ∨
        shape = .union { kind, members := names.eraseDups, nullable, discriminator }) := by
  have same := distinctNames_eq_eraseDups names
  unfold unionOf at unites
  split at unites
  · cases unites
  · rename_i only isOnly
    cases unites
    refine ⟨fun isEmpty => ?_, .inl ⟨only, same.symm.trans isOnly, rfl⟩⟩
    simp [isEmpty, distinctNames] at isOnly
  · rename_i several _
    cases unites
    refine ⟨fun isEmpty => several (by simp [isEmpty, distinctNames]), .inr ?_⟩
    rw [same]

namespace Synthesis

open Surroundings

variable {outside : Surroundings} {kind : CompositionKind} {members : List SchemaNode}
  {discriminator : Option Discriminator} {traits : NodeTraits} {scope : Scope} {depth : Nat}
  {shape : Shape}

/-- A choice that is declared has resolved its cases before it unites their names. -/
theorem exists_of_declare_choice (isChoice : kind ≠ .allOf)
    (ends : ((outside.walk ⟨.composed kind members discriminator, traits⟩).declare scope depth).Ends
      first (.ok shape) last) :
    ∃ before resolved after mapped, first.Notes before ∧
      ResolvesCases outside kind scope depth members 0 before resolved after ∧
      (discriminator.mapM (outside.discriminate scope)).Ends after (.ok mapped) last ∧
      unionOf kind (caseNames resolved) (traits.nullable || admitsNull resolved) mapped =
        .ok shape := by
  rw [outside.walk_choice traits isChoice] at ends
  obtain ⟨before, notes, ends⟩ := ends_of_reportUndeclared ends
  have united : (outside.union kind (members.map outside.walked) discriminator traits.nullable scope
    depth).Ends before (.ok shape) last := ends
  rw [union_eq] at united
  obtain ⟨found, after, cases, ends⟩ := (ends_bind_ok_iff _ _ _).mp united
  obtain ⟨mapped, _, maps, ends⟩ := (ends_bind_ok_iff _ _ _).mp ends
  obtain ⟨unites, rfl⟩ := (ends_liftComposition_ok_iff _ _ _).mp ends
  obtain ⟨resolved, resolves, rfl⟩ := exists_resolvesCases cases
  exact ⟨before, resolved, after, mapped, notes, resolves, maps, unites⟩

/-- A choice whose cases are all null is never declared. -/
theorem not_ends_declare_of_areNull (isChoice : kind ≠ .allOf)
    (areNull : ∀ member ∈ members, member.kind.isNull = true) :
    ¬((outside.walk ⟨.composed kind members discriminator, traits⟩).declare scope depth).Ends
      first (.ok shape) last := by
  intro ends
  obtain ⟨_, resolved, _, mapped, _, resolves, _, unites⟩ := exists_of_declare_choice isChoice ends
  exact (unionOf_eq_ok unites).1 (resolves.caseNames_eq_nil areNull)

/-- A choice that is used is declared first, and its type is the one of which that is another name, or
the name of a declaration that stands for it. -/
theorem exists_of_expression_choice (isChoice : kind ≠ .allOf) {type : TypeExpr}
    (ends : ((outside.walk ⟨.composed kind members discriminator, traits⟩).expression scope
      depth).Ends first (.ok type) last) :
    ∃ named shape middle,
      ((outside.walk ⟨.composed kind members discriminator, traits⟩).declare named depth).Ends first
        (.ok shape) middle ∧
      (shape = .alias type ∧ last = middle ∨
        ∃ name declaration, last.registry.get? name = some declaration ∧
          declaration.shape.Stands shape ∧ type = .named name) := by
  have promoted : (promote traits scope fun named =>
      (outside.walk ⟨.composed kind members discriminator, traits⟩).declare named depth).Ends first
        (.ok type) last := by
    rw [outside.walk_choice traits isChoice] at ends ⊢
    exact ends
  unfold promote at promoted
  obtain ⟨shape, middle, declares, uses⟩ := (ends_bind_ok_iff _ _ _).mp promoted
  refine ⟨_, shape, middle, declares, ?_⟩
  obtain ⟨_, resolved, _, _, _, _, _, unites⟩ := exists_of_declare_choice isChoice declares
  -- The null that the choice admits is admitted by its declaration, and nothing is added to that.
  rcases (unionOf_eq_ok unites).2 with ⟨only, _, rfl⟩ | rfl
  · obtain ⟨isType, rfl⟩ := (ends_pure_iff _).mp uses
    refine .inl ⟨?_, rfl⟩
    simp only [Except.ok.injEq] at isType
    rw [isType]
    cases traits.nullable <;> simp [TypeExpr.withNullable, TypeExpr.named]
  · obtain ⟨name, _, registers, returns⟩ := (ends_bind_ok_iff _ _ _).mp uses
    obtain ⟨_, isName, registers⟩ := registers_of_ends registers
    obtain ⟨isType, rfl⟩ := (ends_pure_iff _).mp returns
    cases isName
    obtain ⟨declaration, declared, stands⟩ := registers.exists_stands
    refine .inr ⟨name, declaration, declared, stands, ?_⟩
    simpa [TypeExpr.withNullable, TypeExpr.named] using isType

/-- Nor is it ever used. -/
theorem not_ends_expression_of_areNull (isChoice : kind ≠ .allOf)
    (areNull : ∀ member ∈ members, member.kind.isNull = true) {type : TypeExpr} :
    ¬((outside.walk ⟨.composed kind members discriminator, traits⟩).expression scope depth).Ends
      first (.ok type) last := by
  intro ends
  obtain ⟨_, _, _, declares, _⟩ := exists_of_expression_choice isChoice ends
  exact not_ends_declare_of_areNull isChoice areNull declares

/--
A choice that is declared loses none of its cases. It is another name of its only case or offers them
all, each name once and in the order in which they come first; every case that is not null is resolved
to a type for which one of the names stands, in any registry that keeps what was declared; and null is
admitted if the choice says so, a case is null, or the type of a case admits it. Where a choice is used,
it is declared first, and the type is that of which it is another name, or the name of a declaration
that stands for it. A choice whose cases are all null is neither declared nor used.
-/
theorem choice_keeps_cases (context : Context) (muted : Bool) (active expanding : List String)
    (members : List SchemaNode) (discriminator : Option Discriminator) (traits : NodeTraits)
    {kind : CompositionKind} (isChoice : kind ≠ .allOf) :
    (∀ scope depth first last shape registry, Consistent context first → Started active first →
      (((within context muted active expanding).walk
        ⟨.composed kind members discriminator, traits⟩).declare scope depth).Ends first (.ok shape)
          last → last.KeptIn registry →
      ∃ before resolved after names nullable mapped,
        ResolvesCases (within context muted active expanding) kind scope depth members 0 before
          resolved after ∧
        ((∃ only, names = [only] ∧ shape = .alias ((TypeExpr.named only).withNullable nullable)) ∨
          shape = .union { kind, members := names, nullable, discriminator := mapped }) ∧
        names.Nodup ∧ names = (caseNames resolved).eraseDups ∧
        (∀ member ∈ members, member.kind.isNull = false → ∃ type name,
          some (type, name) ∈ resolved ∧ ∃ place before after,
            (((within context muted active expanding).walk member).expression place depth).Ends
              before (.ok type) after) ∧
        (∀ type name, some (type, name) ∈ resolved →
          name ∈ names ∧ registry.StandsFor name (type.withNullable false)) ∧
        (nullable = true ↔ traits.nullable = true ∨
          (∃ member ∈ members, member.kind.isNull = true) ∨
            ∃ type name, some (type, name) ∈ resolved ∧ type.nullable = true)) ∧
    (∀ scope depth first last type, (((within context muted active expanding).walk
        ⟨.composed kind members discriminator, traits⟩).expression scope depth).Ends first (.ok type)
          last →
      ∃ named shape middle, (((within context muted active expanding).walk
        ⟨.composed kind members discriminator, traits⟩).declare named depth).Ends first (.ok shape)
          middle ∧
        (shape = .alias type ∧ last = middle ∨
          ∃ name declaration, last.registry.get? name = some declaration ∧
            declaration.shape.Stands shape ∧ type = .named name)) ∧
    ((∀ member ∈ members, member.kind.isNull = true) → ∀ scope depth first last,
      (∀ shape, ¬(((within context muted active expanding).walk
        ⟨.composed kind members discriminator, traits⟩).declare scope depth).Ends first (.ok shape)
          last) ∧
      ∀ type, ¬(((within context muted active expanding).walk
        ⟨.composed kind members discriminator, traits⟩).expression scope depth).Ends first (.ok type)
          last) := by
  refine ⟨fun scope depth first last shape registry consistent started ends kept => ?_,
    fun scope depth first last type => exists_of_expression_choice isChoice,
    fun areNull scope depth first last =>
      ⟨fun shape => not_ends_declare_of_areNull isChoice areNull,
        fun type => not_ends_expression_of_areNull isChoice areNull⟩⟩
  -- The cases are resolved before the discriminator is mapped, which declares nothing in their place.
  have adequate := adequate_within context muted active expanding
  obtain ⟨before, resolved, after, mapped, notes, resolves, maps, unites⟩ :=
    exists_of_declare_choice isChoice ends
  obtain ⟨consistent, grows⟩ := notes.advances consistent
  have started := grows.started started
  obtain ⟨consistent, more, stands⟩ := resolves.standsFor adequate consistent started
  have keptAfter : after.KeptIn registry := by
    cases adequate.discriminates consistent (more.started started) maps with
    | none => exact kept
    | mapped looked => exact (looked.advances consistent).2.keptIn kept
  refine ⟨before, resolved, after, (caseNames resolved).eraseDups,
    traits.nullable || admitsNull resolved, mapped, resolves, (unionOf_eq_ok unites).2,
    nodup_eraseDups _, rfl, fun member => resolves.exists_of_mem, fun type name isResolved => ?_, ?_⟩
  · exact ⟨List.mem_eraseDups.mpr (mem_caseNames_iff.mpr ⟨type, isResolved⟩),
      stands registry keptAfter type name isResolved⟩
  · rw [Bool.or_eq_true, admitsNull_iff, resolves.none_mem_iff]

/-- A text, null or a number. -/
def textOrNumber : List SchemaNode :=
  [⟨.primitive .string none, {}⟩, ⟨.null, {}⟩, ⟨.primitive .integer none, {}⟩]

/-- Declares a choice under the name `Choice`, in a document without component schemas. -/
def declareChoice (members : List SchemaNode) : Synthesis Shape :=
  ((within ⟨⟨.v31, {}⟩, {}⟩ false [] []).walk ⟨.composed .oneOf members none, {}⟩).declare
    ⟨"Choice", "#/choice"⟩ 0

/-- The names that a choice offers. -/
def offered? : Except LocatedFailure Shape → Option (List String)
  | .ok (.union union) => some union.members
  | _ => none

/-- Both types of the choice get names that stand for them, and null stays admitted; of null alone there
is no choice. -/
theorem choice_keeps_cases_textOrNumber :
    (∃ union resolved last,
      (declareChoice textOrNumber).Ends (Workspace.ofContext ⟨⟨.v31, {}⟩, {}⟩) (.ok (.union union))
        last ∧
      union.members = ["ChoiceString", "ChoiceInteger"] ∧
      union.members = (caseNames resolved).eraseDups ∧ union.nullable = true ∧
      ∀ type name, some (type, name) ∈ resolved →
        last.registry.StandsFor name (type.withNullable false)) ∧
    ∀ shape first last, ¬(declareChoice [⟨.null, {}⟩]).Ends first (.ok shape) last := by
  have isChoice : CompositionKind.oneOf ≠ .allOf := by decide
  have keeps := choice_keeps_cases ⟨⟨.v31, {}⟩, {}⟩ false [] [] textOrNumber none {} isChoice
  have drops := choice_keeps_cases ⟨⟨.v31, {}⟩, {}⟩ false [] [] [⟨.null, {}⟩] none {} isChoice
  refine ⟨?_, fun shape first last => (drops.2.2 (by decide) _ _ first last).1 shape⟩
  -- The walk is run once, on the workspace of an empty document.
  generalize isFirst : Workspace.ofContext ⟨⟨.v31, {}⟩, {}⟩ = first
  have consistent : Consistent ⟨⟨.v31, {}⟩, {}⟩ first := isFirst ▸ Consistent.ofContext _
  have gives : offered? ((declareChoice textOrNumber).outcome first).1 =
      some ["ChoiceString", "ChoiceInteger"] := by
    subst isFirst
    decide
  obtain ⟨result, last, ends⟩ := exists_ends (declareChoice textOrNumber) first
  rw [show (declareChoice textOrNumber).outcome first = (result, last) from ends] at gives
  unfold offered? at gives
  split at gives
  · rename_i union isUnion
    cases isUnion
    have isMembers := Option.some.inj gives
    obtain ⟨_, resolved, _, names, nullable, mapped, resolves, isShape, _, areNames, _, stands,
      admits⟩ := keeps.1 _ _ first last _ last.registry consistent (by simp [Started]) ends
        fun _ _ => id
    rcases isShape with ⟨_, _, isAlias⟩ | isUnion
    · cases isAlias
    · cases isUnion
      exact ⟨_, resolved, last, ends, isMembers, areNames,
        admits.mpr (.inr (.inl ⟨⟨.null, {}⟩, by simp [textOrNumber], rfl⟩)),
        fun type name isResolved => (stands type name isResolved).2⟩
  · cases gives

end Synthesis

end ApiTypes
