import ApiTypes.Proofs.Registry.Equivalence
import ApiTypes.Proofs.Synthesis.Accounting
import ApiTypes.Proofs.Synthesis.Agreement
import ApiTypes.Proofs.Synthesis.Inlining

/-!
One more component schema. While no other schema refers to it, and no other type takes the name that is
held for it, the others are synthesized as they are without it.
-/

namespace ApiTypes

/-- Another registry holds one more name, and is the same otherwise. -/
structure Registry.HeldBeside (held : String) (first other : Registry) : Prop where
  slots_eq : ∀ {name}, name ≠ held → other.slots.get? name = first.slots.get? name
  reserved : other.slots.get? held = some .reserved
  order_eq : other.order = first.order
  reservedWords_eq : other.reservedWords = first.reservedWords
  arraySuffix_eq : other.arraySuffix = first.arraySuffix

namespace Registry

variable {held : String} {first other : Registry}

/-- What is taken stays taken when something is declared. -/
theorem free_of_declare {declaration : Declaration} {name : String}
    (free : (first.declare declaration).slots.get? name = none) :
    first.slots.get? name = none ∧ declaration.name ≠ name := by
  rw [declare, Table.get?_insert] at free
  split at free
  · cases free
  · rename_i isOther
    exact ⟨free, fun same => isOther same.symm⟩

/-- What is taken stays taken when a shape is registered. -/
theorem free_of_register {candidate name : String} {shape : Shape} {doc : Option String}
    {deprecated : Bool} {origin : Origin}
    (free : (first.register candidate shape doc deprecated origin).2.slots.get? name = none) :
    first.slots.get? name = none := by
  rcases first.register_cases candidate shape doc deprecated origin with
    ⟨_, _, _, _, isSame⟩ | ⟨_, _, isDeclared⟩
  · rwa [isSame] at free
  · rw [isDeclared] at free
    exact (free_of_declare free).1

namespace HeldBeside

/-- The same is declared while the name is free. -/
theorem get?_eq (beside : first.HeldBeside held other) (free : first.slots.get? held = none) :
    other.get? = first.get? := by
  funext name
  by_cases isHeld : name = held
  · rw [isHeld, Registry.get?, Registry.get?, beside.reserved, free]
    rfl
  · rw [Registry.get?, Registry.get?, beside.slots_eq isHeld]

/-- The same may be declared under any other name. -/
theorem declare (beside : first.HeldBeside held other) {declaration : Declaration}
    (isOther : declaration.name ≠ held) :
    (first.declare declaration).HeldBeside held (other.declare declaration) where
  slots_eq {name} notHeld := by
    simp only [Registry.declare, Table.get?_insert, beside.slots_eq notHeld]
  reserved := by rw [Registry.declare, Table.get?_insert, if_neg isOther.symm, beside.reserved]
  order_eq := by
    rw [order_declare, order_declare, beside.order_eq, Registry.isDeclared, Registry.isDeclared,
      Registry.get?, Registry.get?, beside.slots_eq isOther]
  reservedWords_eq := beside.reservedWords_eq
  arraySuffix_eq := beside.arraySuffix_eq

/-- A shape gets the same name unless that would be the one that is held. -/
theorem register (beside : first.HeldBeside held other) {candidate : String} {shape : Shape}
    {doc : Option String} {deprecated : Bool} {origin : Origin}
    (free : (first.register candidate shape doc deprecated origin).2.slots.get? held = none) :
    (other.register candidate shape doc deprecated origin).1 =
        (first.register candidate shape doc deprecated origin).1 ∧
      (first.register candidate shape doc deprecated origin).2.HeldBeside held
        (other.register candidate shape doc deprecated origin).2 := by
  have before := free_of_register free
  have words : other.typeName candidate = first.typeName candidate := by
    rw [typeName, typeName, beside.reservedWords_eq]
  obtain ⟨tried, isFirst, accepted, rejected⟩ :=
    @exists_firstName_eq first (isReusable shape) rfl (first.typeName candidate)
  -- The name that is taken is not the held one, which is still free afterwards.
  have notHeld : suffixed (first.typeName candidate) tried ≠ held := by
    intro isHeld
    unfold Registry.register at free
    dsimp only at free
    rw [isFirst, isHeld] at free
    split at free
    · rename_i isDeclared
      simp [Registry.isDeclared, Registry.get?, before] at isDeclared
    · exact (free_of_declare free).2 rfl
  -- A name that is refused was taken before.
  have notEarlier (earlier : Nat) (isLess : earlier < tried) :
      suffixed (first.typeName candidate) earlier ≠ held := by
    intro isHeld
    have refused := rejected earlier isLess
    rw [isHeld, before] at refused
    cases refused
  have sameName : other.firstName (isReusable shape) (other.typeName candidate) =
      suffixed (first.typeName candidate) tried := by
    rw [words]
    refine firstName_eq rfl (by rwa [beside.slots_eq notHeld]) fun earlier isLess => ?_
    rw [beside.slots_eq (notEarlier earlier isLess)]
    exact rejected earlier isLess
  have sameDeclared : other.isDeclared (suffixed (first.typeName candidate) tried) =
      first.isDeclared (suffixed (first.typeName candidate) tried) := by
    rw [Registry.isDeclared, Registry.isDeclared, beside.get?_eq before]
  unfold Registry.register
  dsimp only
  rw [sameName, isFirst, sameDeclared]
  split
  · exact ⟨rfl, beside⟩
  · exact ⟨rfl, beside.declare notHeld⟩

end HeldBeside

end Registry

/-- Another workspace holds one more name for one more component schema, and is the same otherwise. -/
structure Workspace.HeldBeside (added held : String) (first other : Workspace) : Prop where
  registry : first.registry.HeldBeside held other.registry
  emitted_eq : ∀ {schema}, schema ≠ added →
    other.resolver.emitted.get? schema = first.resolver.emitted.get? schema
  schemas_eq : ∀ {name}, name ≠ held →
    other.resolver.schemas.get? name = first.resolver.schemas.get? name
  states_eq : other.resolver.states = first.resolver.states

/-- Another context has one more component schema after all others, to which none of them refers. -/
structure Context.Adds (context : Context) (added : String) (other : Context) : Prop where
  agrees : context.AgreesOn other (· ≠ added)
  absent : added ∉ context.model.names
  config_eq : other.config = context.config
  names_eq : other.model.names = context.model.names ++ [added]

/--
Inside active schemas, and given something of the first workspace, an action leaves a name taken. With one
more name held, another action gives and does the same, unless the first one takes that name.
-/
structure MirrorsGiven (context : Context) (active : List String) (added held : String)
    (given : Workspace → Prop) ⦃α : Type⦄ (action also : Synthesis α) : Prop where
  advances : ∀ {first last result}, Consistent context first → Started active first →
    action.Ends first result last → Consistent context last ∧ Grows first last ∧
      (last.registry.slots.get? held = none → first.registry.slots.get? held = none)
  mirrors : ∀ {first last result other}, Consistent context first → Started active first →
    given first → action.Ends first result last → last.registry.slots.get? held = none →
    first.HeldBeside added held other →
      ∃ after, also.Ends other result after ∧ last.HeldBeside added held after

/-- What an action gives and does, another one gives and does with one more name held. -/
def Mirrors (context : Context) (active : List String) (added held : String) ⦃α : Type⦄
    (action also : Synthesis α) : Prop :=
  MirrorsGiven context active added held (fun _ => True) action also

section

variable {context other : Context} {active : List String} {added held : String} {α β : Type}
  {given : Workspace → Prop}

namespace MirrorsGiven

/-- Actions follow each other, the second with what is known after the first. -/
theorem bindKnowing {action also : Synthesis α} {next alsoNext : α → Synthesis β}
    (known : α → Workspace → Prop) (earlier : MirrorsGiven context active added held given action also)
    (gives : ∀ {first value middle}, Consistent context first → Started active first →
      action.Ends first (.ok value) middle → known value middle)
    (later : ∀ value,
      MirrorsGiven context active added held (known value) (next value) (alsoNext value)) :
    MirrorsGiven context active added held given (action >>= next) (also >>= alsoNext) where
  advances consistent started ends := by
    rcases (Synthesis.ends_bind_iff _ _).mp ends with ⟨_, rfl, fails⟩ | ⟨value, _, acts, goesOn⟩
    · exact earlier.advances consistent started fails
    · have ⟨between, grows, taken⟩ := earlier.advances consistent started acts
      have ⟨after, further, alsoTaken⟩ :=
        (later value).advances between (grows.started started) goesOn
      exact ⟨after, grows.trans further, fun free => taken (alsoTaken free)⟩
  mirrors consistent started isGiven ends free beside := by
    rcases (Synthesis.ends_bind_iff _ _).mp ends with ⟨error, rfl, fails⟩ | ⟨value, _, acts, goesOn⟩
    · obtain ⟨after, alsoFails, stays⟩ :=
        earlier.mirrors consistent started isGiven fails free beside
      exact ⟨after, (Synthesis.ends_bind_iff _ _).mpr (.inl ⟨error, rfl, alsoFails⟩), stays⟩
    · have ⟨between, grows, _⟩ := earlier.advances consistent started acts
      have isStarted := grows.started started
      -- The name is free in between, as it is in the end.
      have ⟨_, _, taken⟩ := (later value).advances between isStarted goesOn
      obtain ⟨_, alsoActs, stays⟩ :=
        earlier.mirrors consistent started isGiven acts (taken free) beside
      obtain ⟨after, alsoGoesOn, ends⟩ := (later value).mirrors between isStarted
        (gives consistent started acts) goesOn free stays
      exact ⟨after, (Synthesis.ends_bind_iff _ _).mpr (.inr ⟨value, _, alsoActs, alsoGoesOn⟩), ends⟩

/-- Actions follow each other. -/
theorem bind {action also : Synthesis α} {next alsoNext : α → Synthesis β}
    (earlier : MirrorsGiven context active added held given action also)
    (later : ∀ value, Mirrors context active added held (next value) (alsoNext value)) :
    MirrorsGiven context active added held given (action >>= next) (also >>= alsoNext) :=
  earlier.bindKnowing (fun _ _ => True) (fun _ _ _ => trivial) later

/-- What is read of both workspaces may be such that the same is done with it. -/
theorem reads {next alsoNext : Workspace → Synthesis α}
    (later : ∀ workspace, Consistent context workspace →
      MirrorsGiven context active added held given (next workspace) (alsoNext workspace))
    (same : ∀ {first other}, Consistent context first → given first → first.HeldBeside added held other →
      first.registry.slots.get? held = none → alsoNext other = alsoNext first) :
    MirrorsGiven context active added held given (get >>= next) (get >>= alsoNext) where
  advances {first _ _} consistent started ends :=
    (later first consistent).advances consistent started ends
  mirrors {first _ _ _} consistent started isGiven ends free beside := by
    have reads := later first consistent
    have before := (reads.advances consistent started ends).2.2 free
    obtain ⟨after, alsoEnds, stays⟩ := reads.mirrors consistent started isGiven ends free beside
    rw [← same consistent isGiven beside before] at alsoEnds
    exact ⟨after, alsoEnds, stays⟩

end MirrorsGiven

namespace Mirrors

/-- What is mirrored in any case is mirrored if more is given. -/
theorem inAnyCase {action also : Synthesis α} (mirrors : Mirrors context active added held action also) :
    MirrorsGiven context active added held given action also :=
  ⟨mirrors.advances, fun consistent started _ => mirrors.mirrors consistent started trivial⟩

/-- Returning a value changes nothing. -/
theorem pure (value : α) :
    Mirrors context active added held (pure value : Synthesis α) (pure value) where
  advances consistent _ ends := by
    obtain ⟨_, rfl⟩ := (Synthesis.ends_pure_iff value).mp ends
    exact ⟨consistent, .refl _, id⟩
  mirrors _ _ _ ends _ beside := by
    obtain ⟨rfl, rfl⟩ := (Synthesis.ends_pure_iff value).mp ends
    exact ⟨_, (Synthesis.ends_pure_iff value).mpr ⟨rfl, rfl⟩, beside⟩

/-- Failing changes nothing. -/
theorem fail (path : String) (failure : Failure) :
    Mirrors context active added held (Synthesis.fail path failure : Synthesis α)
      (Synthesis.fail path failure) where
  advances consistent _ ends := by
    obtain ⟨_, rfl⟩ := (Synthesis.ends_fail_iff path failure).mp ends
    exact ⟨consistent, .refl _, id⟩
  mirrors _ _ _ ends _ beside := by
    obtain ⟨rfl, rfl⟩ := (Synthesis.ends_fail_iff path failure).mp ends
    exact ⟨_, (Synthesis.ends_fail_iff path failure).mpr ⟨rfl, rfl⟩, beside⟩

/-- Reports make no difference. -/
theorem reports {action : Synthesis Unit}
    (notes : ∀ {first last result}, action.Ends first result last →
      result = .ok () ∧ first.Notes last) : Mirrors context active added held action action where
  advances consistent _ ends := by
    have changed := (notes ends).2
    have ⟨after, grows⟩ := changed.advances consistent
    exact ⟨after, grows, fun free => changed.registry_eq ▸ free⟩
  mirrors {_ _ _ other} _ _ _ ends _ beside := by
    -- Reports touch neither the registry nor the resolver, in which the workspaces are compared.
    obtain ⟨rfl, changed⟩ := notes ends
    obtain ⟨result, after, alsoEnds⟩ := action.exists_ends other
    obtain ⟨rfl, alsoChanged⟩ := notes alsoEnds
    refine ⟨after, alsoEnds, ?_, ?_, ?_, ?_⟩
    · rw [changed.registry_eq, alsoChanged.registry_eq]
      exact beside.registry
    · rw [changed.resolver_eq, alsoChanged.resolver_eq]
      exact beside.emitted_eq
    · rw [changed.resolver_eq, alsoChanged.resolver_eq]
      exact beside.schemas_eq
    · rw [changed.resolver_eq, alsoChanged.resolver_eq]
      exact beside.states_eq

/-- A shape gets the same name. -/
theorem register (candidate : String) (shape : Shape) (doc : Option String) (deprecated : Bool)
    (path : String) :
    Mirrors context active added held
      (Synthesis.register candidate shape doc deprecated (.inline path))
      (Synthesis.register candidate shape doc deprecated (.inline path)) where
  advances consistent _ ends := by
    obtain ⟨_, rfl⟩ := (Synthesis.ends_register_iff candidate shape doc deprecated _).mp ends
    have ⟨after, grows⟩ := consistent.register candidate shape doc deprecated path
    exact ⟨after, grows, Registry.free_of_register⟩
  mirrors _ _ _ ends free beside := by
    obtain ⟨rfl, rfl⟩ := (Synthesis.ends_register_iff candidate shape doc deprecated _).mp ends
    have ⟨sameName, stays⟩ := beside.registry.register free
    refine ⟨_, (Synthesis.ends_register_iff candidate shape doc deprecated _).mpr ⟨?_, rfl⟩,
      stays, beside.emitted_eq, beside.schemas_eq, beside.states_eq⟩
    rw [sameName]

/-- Whether members combine does not depend on the name that is held. -/
theorem liftComposition (path : String) (combined : Except CompositionError α) :
    Mirrors context active added held (Synthesis.liftComposition path combined)
      (Synthesis.liftComposition path combined) := by
  cases combined with
  | ok value => exact pure value
  | error error => exact fail path _

/-- The case of a choice gets the same name. -/
theorem nameMember (type : TypeExpr) (parent member : Scope) :
    Mirrors context active added held (Surroundings.nameMember type parent member)
      (Surroundings.nameMember type parent member) := by
  unfold Surroundings.nameMember
  split
  · exact pure _
  · refine MirrorsGiven.reads (fun _ _ => register _ _ _ _ _) fun _ _ beside _ => ?_
    -- The candidate depends on nothing of the registry but the ending of names of arrays.
    have sameCandidate : ∀ {first other : Registry}, other.arraySuffix = first.arraySuffix →
        Surroundings.memberCandidate other parent.name type =
          Surroundings.memberCandidate first parent.name type := by
      intro first other same
      simp only [Surroundings.memberCandidate, Registry.arrayName, same]
    simp only [sameCandidate beside.registry.arraySuffix_eq]

/-- Members combine in the same way. -/
theorem combine (inputs : List IntersectionMember) (path : String) :
    Mirrors context active added held
      (get >>= fun workspace => Synthesis.liftComposition path
        (mergeAllOf inputs workspace.registry.equivalent) : Synthesis Merged)
      (get >>= fun workspace => Synthesis.liftComposition path
        (mergeAllOf inputs workspace.registry.equivalent)) :=
  MirrorsGiven.reads (fun _ _ => liftComposition _ _) fun _ _ beside free => by
    rw [Registry.equivalent_congr (beside.registry.get?_eq free)]

end Mirrors

/-- A known name is taken. -/
theorem Consistent.taken_of_knows {workspace : Workspace} (consistent : Consistent context workspace)
    {name : String} (knows : workspace.Knows context name) :
    workspace.registry.slots.get? name ≠ none := by
  rcases knows with declared | ⟨schema, emitted, _⟩
  · intro free
    simp [Registry.isDeclared, Registry.get?, free] at declared
  · exact consistent.taken emitted

/-- A type name leads only to schemas that were there before. -/
theorem Context.Adds.ne_of_schema (adds : context.Adds added other) {workspace : Workspace}
    (consistent : Consistent context workspace) {name schema : String}
    (isSchema : workspace.resolver.schemas.get? name = some schema) : schema ≠ added := by
  rintro rfl
  have emitted := (consistent.schemas_get?_iff schema name).mp isSchema
  exact adds.absent ((context.exists_emitted?_iff schema).mp ⟨name, emitted⟩)

namespace Workspace.HeldBeside

variable {first also : Workspace} (beside : first.HeldBeside added held also)

include beside

/-- Every schema is in the same state. -/
theorem state_eq (schema : String) : also.resolver.state schema = first.resolver.state schema := by
  rw [Resolver.state, Resolver.state, beside.states_eq]

/-- A name that is known, if there is one, leads to the same schema. -/
theorem bind_schemas_eq (consistent : Consistent context first)
    (free : first.registry.slots.get? held = none) {name? : Option String}
    (known : ∀ name ∈ name?, first.Knows context name) :
    name?.bind also.resolver.schemas.get? = name?.bind first.resolver.schemas.get? := by
  cases name? with
  | none => rfl
  | some name =>
    exact beside.schemas_eq fun isHeld => consistent.taken_of_knows (known name rfl) (isHeld ▸ free)

/-- A shape whose mentions are known is circular or not in the same way. -/
theorem circular?_eq (adds : context.Adds added other) (consistent : Consistent context first)
    (free : first.registry.slots.get? held = none) {shape : Shape}
    (known : ∀ name ∈ shape.mentions, first.Knows context name) :
    Synthesis.circular? other also shape = Synthesis.circular? context first shape := by
  -- The target is looked at only if the alias names a schema, and this is not the one that is added.
  unfold Synthesis.circular?
  rw [beside.bind_schemas_eq consistent free fun name isSynonym => known name ?_]
  · cases named : shape.synonym?.bind first.resolver.schemas.get? with
    | none => rfl
    | some schema =>
      obtain ⟨_, _, isSchema⟩ := Option.bind_eq_some_iff.mp named
      have sameNode := adds.agrees.same schema (adds.ne_of_schema consistent isSchema)
      have sameState : also.resolver.isVisiting schema = first.resolver.isVisiting schema := by
        rw [Resolver.isVisiting, Resolver.isVisiting, beside.state_eq]
      simp only [Option.filter, sameState, sameNode]
  · cases shape with
    | «alias» target =>
      have isName : target.name? = some name := isSynonym
      simp [Shape.mentions, TypeExpr.mentions_of_name? isName]
    | record | enum | union => cases isSynonym

/-- The synthesis of a schema begins in the same way. -/
theorem begin (name : String) : (first.begin name).HeldBeside added held (also.begin name) where
  registry := beside.registry
  emitted_eq := beside.emitted_eq
  schemas_eq := beside.schemas_eq
  states_eq := by simp only [Workspace.begin, Resolver.start, beside.states_eq]

/-- It begins with the same name. -/
theorem scopeOf_eq {name : String} (isOther : name ≠ added) : also.scopeOf name = first.scopeOf name := by
  simp only [Workspace.scopeOf, Synthesis.emittedName, beside.emitted_eq isOther, Registry.typeName,
    beside.registry.reservedWords_eq]

/-- It is concluded in the same way, unless it takes the name that is held. -/
theorem conclude {name emitted : String} {node : SchemaNode} {result : Except LocatedFailure Shape}
    (free : (first.conclude name emitted node result).registry.slots.get? held = none) :
    (first.conclude name emitted node result).HeldBeside added held
      (also.conclude name emitted node result) := by
  have ended (outcome : EntryState) : (also.resolver.finish name outcome).states =
      (first.resolver.finish name outcome).states := by
    rw [Resolver.finish, Resolver.finish, beside.states_eq]
  cases result with
  | ok shape =>
    exact ⟨beside.registry.declare (Registry.free_of_declare free).2, beside.emitted_eq,
      beside.schemas_eq, ended _⟩
  | error located => exact ⟨beside.registry, beside.emitted_eq, beside.schemas_eq, ended _⟩

end Workspace.HeldBeside

/-- A name that is taken before the conclusion of a schema is taken after it. -/
theorem Workspace.free_of_conclude {inner : Workspace} {name emitted : String} {node : SchemaNode}
    {result : Except LocatedFailure Shape}
    (free : (inner.conclude name emitted node result).registry.slots.get? held = none) :
    inner.registry.slots.get? held = none := by
  cases result with
  | ok shape => exact (Registry.free_of_declare free).1
  | error located => exact free

/-- A name that is taken before a run is taken after it. -/
theorem Runs.free_of_free {first last : Workspace} (runs : Runs context first last)
    (free : last.registry.slots.get? held = none) : first.registry.slots.get? held = none := by
  induction runs with
  | refl => exact free
  | register _ _ _ _ _ _ _ ih => exact ih (Registry.free_of_register free)
  | report _ _ _ _ ih => exact ih free
  | component _ _ _ _ _ _ _ ih insideIh => exact ih (insideIh (Workspace.free_of_conclude free))

namespace Surroundings

/-- With one more name held, other component schemas are entered and expanded in the same way. -/
structure MirroredBy (context : Context) (active : List String) (added held : String)
    (outside other : Surroundings) : Prop where
  sound : outside.Sound context active
  adds : context.Adds added other.context
  muted_eq : other.muted = outside.muted
  enter : ∀ {target}, target ≠ added → Mirrors context active added held
    (liftM (outside.enter target) : Synthesis Unit) (liftM (other.enter target))
  expand : ∀ {target} (path : String), target ≠ added → Mirrors context active added held
    (outside.expand target path) (other.expand target path)

namespace MirroredBy

variable {outside other : Surroundings} (mirrored : outside.MirroredBy context active added held other)

include mirrored

/-- A look-up finds the same. -/
theorem resolve {target : String} (isOther : target ≠ added) (path : String) :
    Mirrors context active added held (outside.resolve target path) (other.resolve target path) := by
  have sameNode := mirrored.adds.agrees.same target isOther
  have sameResult : ∀ resolver : Resolver, resolver.resolve other.context.model target =
      resolver.resolve outside.context.model target := by
    intro resolver
    rw [Resolver.resolve, Resolver.resolve, sameNode, mirrored.sound.context_eq]
  refine MirrorsGiven.reads (fun workspace _ => ?_) fun {_ _} _ _ beside _ => ?_
  · rw [sameResult]
    split
    · exact Mirrors.pure _
    · exact Mirrors.fail _ _
  · simp only [Resolver.resolve, Resolver.state, beside.states_eq, beside.emitted_eq isOther]

/-- A reference finds the same. -/
theorem reference {target : String} (isOther : target ≠ added) (scope : Scope) :
    Mirrors context active added held (outside.reference target scope)
      (other.reference target scope) := by
  -- The target is resolved before and after it is entered, and each time alike.
  have sameNode : other.context.model.node? target = outside.context.model.node? target := by
    rw [mirrored.adds.agrees.same target isOther, mirrored.sound.context_eq]
  unfold Surroundings.reference
  rw [sameNode]
  refine (mirrored.resolve isOther scope.path).bind fun lookup => ?_
  split
  · refine (mirrored.enter isOther).bind fun _ => ?_
    refine (mirrored.resolve isOther scope.path).bind fun lookup => ?_
    dsimp only
    split
    · exact Mirrors.pure _
    · exact Mirrors.fail _ _
  · simp only [pure_bind]
    split
    · exact Mirrors.pure _
    · exact Mirrors.fail _ _

/-- What a shape contributes is the same if all that it mentions is known. -/
theorem contributionOf (shape : Shape) (scope : Scope) :
    MirrorsGiven context active added held
      (fun workspace => ∀ name ∈ shape.mentions, workspace.Knows context name)
      (outside.contributionOf shape scope) (other.contributionOf shape scope) := by
  -- Only the name of another schema makes a difference, and that name is known.
  cases shape with
  | record | enum | union => exact (Mirrors.pure _).inAnyCase
  | «alias» target =>
    refine MirrorsGiven.reads (fun workspace consistent => ?_)
      fun {first other} consistent known beside free => ?_
    · dsimp only
      split
      · rename_i schema named _
        obtain ⟨_, _, isSchema⟩ := Option.bind_eq_some_iff.mp named
        exact (mirrored.expand _ (mirrored.adds.ne_of_schema consistent isSchema)).inAnyCase
      · exact (Mirrors.pure _).inAnyCase
      · exact (Mirrors.pure _).inAnyCase
    · have sameSchema := beside.bind_schemas_eq consistent free
        fun name (isName : target.name? = some name) =>
          known name (by simp [Shape.mentions, TypeExpr.mentions_of_name? isName])
      simp only [sameSchema]

/-- Every step of a walk is mirrored. -/
theorem correspondence :
    Correspondence outside other (fun _ => True) (· ≠ added) (fun _ => True) (fun _ => True)
      (Mirrors context active added held) where
  maxArrayDepth_eq := by rw [mirrored.adds.config_eq, mirrored.sound.context_eq]
  maxItems_eq := by rw [mirrored.adds.config_eq, mirrored.sound.context_eq]
  -- Whether a node is a choice depends on what it refers to, which is never the added schema.
  leadsToChoice_eq {target} isOther := by
    rw [mirrored.adds.agrees.same target isOther, mirrored.sound.context_eq]
    cases found : context.model.node? target with
    | none => rfl
    | some node =>
      exact mirrored.adds.agrees.isUnion_eq fun other refers =>
        mirrored.adds.agrees.closed target other isOther ⟨node, found, refers⟩
  below _ := id
  pure := .pure
  bind := MirrorsGiven.bind
  fail failure _ _ := .fail _ failure
  register _ _ _ _ _ := .register _ _ _ _ _
  nameCase _ used later := MirrorsGiven.bind used fun type =>
    (Mirrors.nameMember _ _ _).bind fun name => later type name
  combine inputs _ _ := .combine inputs _
  undeclared traits scope _ := by
    have same : other.reportUndeclared traits scope = outside.reportUndeclared traits scope := by
      rw [Surroundings.reportUndeclared, Surroundings.reportUndeclared, mirrored.muted_eq]
    rw [same]
    exact .reports ends_reportUndeclared
  notes notes scope _ := by
    have same : other.reportNotes notes scope = outside.reportNotes notes scope := by
      rw [Surroundings.reportNotes, Surroundings.reportNotes, mirrored.muted_eq]
    rw [same]
    exact .reports notes_of_reportNotes
  reference isOther _ := mirrored.reference isOther _
  merge isOther _ _ later := (mirrored.reference isOther _).bind fun type =>
    (mirrored.expand _ isOther).bind fun shape => later type shape
  -- What the shape of the members mentions is known, and so is no name of the added schema.
  take {members scope depth} refers _ _ intersects := by
    refine MirrorsGiven.bindKnowing
      (fun shape workspace => ∀ name ∈ shape.mentions, workspace.Knows context name) intersects
      (fun {first shape middle} consistent started ends => ?_) fun shape => ?_
    · have walks : ∀ node ∈ members.map outside.walked, WalkSound context active node.2 := by
        simp [walked, mirrored.sound.walkSound]
      have keeps : Keeps context active [] _ Shape.mentions :=
        mirrored.sound.keeps_intersection walks scope depth
      exact (keeps _ _ _ consistent started (by simp) ends).2 shape rfl
    · exact mirrored.contributionOf shape scope

/-- The shape of a node that does not refer to the added schema is the same, and it is circular or not. -/
theorem shapeWithin {node : SchemaNode} (refers : ∀ target, node.Refers target → target ≠ added)
    (scope : Scope) :
    Mirrors context active added held (Synthesis.shapeWithin outside node scope)
      (Synthesis.shapeWithin other node scope) := by
  -- What the shape mentions is known once it is declared, which the check for aliases relies on.
  have walks := mirrored.correspondence.walk node refers fun _ _ => trivial
  refine MirrorsGiven.bindKnowing
    (fun shape workspace => ∀ name ∈ shape.mentions, workspace.Knows context name)
    (walks.declare 0 trivial fun _ _ => trivial) (fun {first shape middle} consistent started ends => ?_)
    fun shape => ?_
  · have keeps := (mirrored.sound.walkSound node).declare scope 0
    exact (keeps _ _ _ consistent started (by simp) ends).2 shape rfl
  · refine MirrorsGiven.bind ?_ fun _ => Mirrors.pure shape
    constructor
    · intro first last result consistent _ ends
      obtain ⟨rfl, _⟩ := (Synthesis.ends_checkAlias_iff _ _ _ _).mp ends
      exact ⟨consistent, .refl _, id⟩
    · intro first last result also consistent _ known ends free beside
      obtain ⟨rfl, rfl⟩ := (Synthesis.ends_checkAlias_iff _ _ _ _).mp ends
      refine ⟨also, (Synthesis.ends_checkAlias_iff _ _ _ _).mpr ⟨rfl, ?_⟩, beside⟩
      rw [mirrored.sound.context_eq, beside.circular?_eq mirrored.adds consistent free known]

end MirroredBy

end Surroundings

namespace Synthesis

/-- A component schema is entered in the same way, if that of its node is mirrored. -/
theorem enterWithin_beside {expanding : List String} {target : String} (adds : context.Adds added other)
    (isOther : target ≠ added)
    (inside : ∀ node, context.model.node? target = some node → target ∉ active →
      (within context (!expanding.isEmpty) (target :: active) expanding).MirroredBy context
        (target :: active) added held
        (within other (!expanding.isEmpty) (target :: active) expanding))
    {first also : Workspace} (consistent : Consistent context first) (started : Started active first)
    (free : ((enterWithin context active expanding target).run first).2.registry.slots.get? held = none)
    (beside : first.HeldBeside added held also) :
    ((enterWithin context active expanding target).run first).2.HeldBeside added held
      ((enterWithin other active expanding target).run also).2 := by
  have sameNode := adds.agrees.same target isOther
  have sameState := beside.state_eq target
  rcases enterWithin_cases context active expanding target first with
    ⟨same, notEntered⟩ | ⟨node, result, inner, found, fresh, pending, ends, isLast⟩
  · -- For the same reason nothing is entered with one more name.
    rw [same]
    rcases enterWithin_cases other active expanding target also with
      ⟨alsoSame, _⟩ | ⟨_, _, _, found, fresh, pending, _⟩
    · rwa [alsoSame]
    · rcases notEntered with undefined | isActive | notPending
      · cases (sameNode.trans undefined).symm.trans found
      · exact absurd isActive fresh
      · exact absurd (sameState.symm.trans pending) notPending
  · rw [isLast] at free ⊢
    rcases enterWithin_cases other active expanding target also with
      ⟨_, undefined | isActive | notPending⟩ | ⟨_, _, _, alsoFound, _, _, alsoEnds, alsoLast⟩
    · cases (sameNode.symm.trans undefined).symm.trans found
    · exact absurd isActive fresh
    · exact absurd (sameState.trans pending) notPending
    · -- The nodes are the same, and what is asked of them ends in the same way.
      cases (sameNode.symm.trans alsoFound).symm.trans found
      have refers : ∀ other, node.Refers other → other ≠ added := fun other refers =>
        adds.agrees.closed target other isOther ⟨node, found, refers⟩
      have mirrored := (inside node found fresh).shapeWithin refers (first.scopeOf target)
      have begun := consistent.begin found pending
      obtain ⟨after, mirroredEnds, stays⟩ := mirrored.mirrors begun (started_begin started) trivial ends
        (Workspace.free_of_conclude free) (beside.begin target)
      rw [beside.scopeOf_eq isOther] at alsoEnds alsoLast
      obtain ⟨rfl, rfl⟩ := Prod.mk.inj (mirroredEnds.symm.trans alsoEnds)
      rw [alsoLast]
      exact stays.conclude free

/-- With one more component schema, all others are entered and expanded in the same way. -/
theorem mirroredBy_within (adds : context.Adds added other) (held : String) (muted : Bool)
    (active expanding : List String) :
    (within context muted active expanding).MirroredBy context active added held
      (within other muted active expanding) := by
  -- The induction is on the schemas that are neither in progress nor expanded.
  induction active, expanding using withinInduction context.model generalizing muted with
  | step active expanding inside expansion =>
    have sound := sound_within context muted active expanding
    refine ⟨sound, adds, rfl, fun {target} isOther => ⟨?_, ?_⟩, fun {target} path isOther => ?_⟩
    · intro first last result consistent started ends
      obtain ⟨_, rfl⟩ := (ends_lift_iff _).mp ends
      have runs : Runs context first (((within context muted active expanding).enter target).run first).2 :=
        sound.enter consistent started
      have ⟨after, grows⟩ := runs.consistent consistent
      exact ⟨after, grows, runs.free_of_free⟩
    · intro first last result also consistent started _ ends free beside
      obtain ⟨rfl, rfl⟩ := (ends_lift_iff _).mp ends
      refine ⟨_, (ends_lift_iff _).mpr ⟨rfl, rfl⟩, ?_⟩
      exact enterWithin_beside adds isOther (fun node found fresh => inside target node found fresh _)
        consistent started free beside
    · change Mirrors context active added held (expandWithin context active expanding target path)
        (expandWithin other active expanding target path)
      rw [expandWithin_eq, expandWithin_eq, adds.agrees.same target isOther]
      split
      · exact Mirrors.fail _ _
      · rename_i fresh
        cases found : context.model.node? target with
        | none => exact Mirrors.fail _ _
        | some node =>
          have refers : ∀ other, node.Refers other → other ≠ added := fun other refers =>
            adds.agrees.closed target other isOther ⟨node, found, refers⟩
          have mirrored := expansion target node found (by simpa using fresh) true
          have expands (scope : Scope) :=
            @Correspondence.expand _ _ _ _ _ _ _ scope mirrored.correspondence node refers
              (fun _ _ => trivial) (fun _ _ => trivial) trivial fun _ _ => trivial
          dsimp only
          rw [adds.agrees.isUnion_eq refers]
          split
          · exact Mirrors.pure _
          · refine MirrorsGiven.reads (fun _ _ => expands _) fun _ _ beside _ => ?_
            rw [emittedName, emittedName, beside.emitted_eq isOther]

/-- Component schemas are entered in the same way, one after the other. -/
theorem forM_enter_beside (adds : context.Adds added other) {names : List String}
    (areOthers : ∀ name ∈ names, name ≠ added) {first also : Workspace}
    (consistent : Consistent context first)
    (free : ((names.forM (enter context)).run first).2.registry.slots.get? held = none)
    (beside : first.HeldBeside added held also) :
    ((names.forM (enter context)).run first).2.HeldBeside added held
      ((names.forM (enter other)).run also).2 := by
  induction names generalizing first also with
  | nil => exact beside
  | cons name rest ih =>
    have ⟨isOther, laterOthers⟩ := List.forall_mem_cons.mp areOthers
    have between := ((runs_enter consistent name).consistent consistent).1
    have freeBetween := (runs_forM_enter rest between).free_of_free free
    exact ih laterOthers between free (enterWithin_beside adds isOther
      (fun _ _ _ => mirroredBy_within adds held _ _ _) consistent (by simp [Started]) freeBetween beside)

end Synthesis

/-- The name for the added schema is held beside all others. -/
theorem Context.Adds.heldBeside_ofContext (adds : context.Adds added other)
    (emitted : other.emitted? added = some held) :
    (Workspace.ofContext context).HeldBeside added held (Workspace.ofContext other) := by
  -- The added schema comes last, so its name is reserved after those of all others.
  have reserves := Workspace.reserves_ofContext context
  have unheld : (Workspace.ofContext context).registry.components.get? added = none := by
    rw [reserves.emitted_eq, Option.eq_none_iff_forall_ne_some]
    intro name found
    exact adds.absent ((reserves.mem_iff added).mp ⟨name, found⟩)
  have isLast : Workspace.ofContext other = (Workspace.ofContext context).reserve added := by
    rw [Workspace.ofContext, adds.names_eq, List.foldl_append, adds.config_eq]
    rfl
  rw [Context.emitted?, isLast] at emitted
  rw [isLast]
  simp only [Workspace.reserve, Registry.reserve, unheld, Resolver.bindName, Table.get?_insert,
    if_true, Option.some.injEq] at emitted ⊢
  subst emitted
  exact {
    registry := {
      slots_eq := fun isOther => by rw [Table.get?_insert, if_neg isOther]
      reserved := by rw [Table.get?_insert, if_pos rfl]
      order_eq := rfl
      reservedWords_eq := rfl
      arraySuffix_eq := rfl }
    emitted_eq := fun isOther => by rw [Table.get?_insert, if_neg isOther]
    schemas_eq := fun isOther => by rw [Table.get?_insert, if_neg isOther]
    states_eq := rfl }

end

end ApiTypes
