import ApiTypes.Proofs.Invariance
import ApiTypes.Proofs.Registry.Comparison
import ApiTypes.Proofs.Synthesis.Padding
import ApiTypes.Proofs.Synthesis.Records

/-!
Workspaces abreast. They differ in places and reports, and in that one of them may have entered component
schemas already that place no restriction.
-/

namespace ApiTypes

/-- Where a declaration comes from, whatever the place of an inline schema. -/
def Origin.unplaced : Origin → Origin
  | component schema => component schema
  | inline _ => inline ""

/-- A declaration without the place at which an inline schema is written. -/
def Declaration.unplaced (declaration : Declaration) : Declaration :=
  { declaration with origin := declaration.origin.unplaced }

/-- The place makes no difference to what a declaration mentions. -/
@[simp] theorem Declaration.mentions_unplaced (declaration : Declaration) :
    declaration.unplaced.mentions = declaration.mentions := rfl

/-- Nor does it to whether a declaration is that of a component schema. -/
@[simp] theorem Declaration.isComponent_unplaced (declaration : Declaration) :
    declaration.unplaced.origin.isComponent = declaration.origin.isComponent := by
  obtain ⟨name, shape, doc, deprecated, origin⟩ := declaration
  cases origin <;> rfl

/-- The declaration of a component schema that places no restriction. -/
def SchemaNode.neutralDeclaration (node : SchemaNode) (schema name : String) : Declaration where
  name := name
  shape := .alias (TypeExpr.any.withNullable node.traits.nullable)
  doc := node.traits.description
  deprecated := node.traits.deprecated
  origin := .component schema

/--
Another registry has the same names taken and declares the same under them, but for names that are ahead
in it.
-/
structure Registry.Abreast (first : Registry) (ahead : String → Prop) (other : Registry) : Prop where
  reservedWords_eq : other.reservedWords = first.reservedWords
  arraySuffix_eq : other.arraySuffix = first.arraySuffix
  taken_eq : ∀ name, (other.slots.get? name).isSome = (first.slots.get? name).isSome
  get?_eq : ∀ {name}, ¬ahead name →
    (other.get? name).map Declaration.unplaced = (first.get? name).map Declaration.unplaced

namespace Registry

variable {first other : Registry} {ahead : String → Prop}

/-- A slot is reusable if it is free, or by what it declares. -/
theorem isReusable_eq (shape : Shape) (slot : Option Slot) :
    isReusable shape slot = (!slot.isSome ||
      ((slot.bind Slot.declaration?).map Declaration.unplaced).any fun declaration =>
        declaration.shape == shape) := by
  cases slot with
  | none => rfl
  | some slot => cases slot <;> rfl

/-- Under declarations that differ in places alone stand equal shapes. -/
theorem shape_eq_of_unplaced {name : String}
    (same : (other.get? name).map Declaration.unplaced = (first.get? name).map Declaration.unplaced) :
    (other.get? name).map Declaration.shape = (first.get? name).map Declaration.shape := by
  have shapes := congrArg (Option.map Declaration.shape) same
  simpa only [Option.map_map, Function.comp_def, Declaration.unplaced] using shapes

/-- Under declarations that differ in places alone something is declared, or nothing. -/
theorem isDeclared_eq_of_unplaced {name : String}
    (same : (other.get? name).map Declaration.unplaced = (first.get? name).map Declaration.unplaced) :
    other.isDeclared name = first.isDeclared name := by
  simpa only [isDeclared, Option.isSome_map] using congrArg Option.isSome same

namespace Abreast

/-- More names may be taken to be ahead. -/
theorem mono {more : String → Prop} (abreast : first.Abreast ahead other)
    (included : ∀ name, ahead name → more name) : first.Abreast more other :=
  { abreast with get?_eq := fun notAhead => abreast.get?_eq fun isAhead => notAhead (included _ isAhead) }

/-- A slot is reusable in both registries or in none. -/
theorem isReusable_eq (abreast : first.Abreast ahead other) (shape : Shape) {name : String}
    (notAhead : ¬ahead name) : isReusable shape (other.slots.get? name) =
      isReusable shape (first.slots.get? name) := by
  have same := abreast.get?_eq notAhead
  rw [Registry.get?, Registry.get?] at same
  rw [Registry.isReusable_eq, Registry.isReusable_eq, abreast.taken_eq, same]

/-- The same may be declared in both registries. -/
theorem declare (abreast : first.Abreast ahead other) {declaration also : Declaration}
    (alike : also.unplaced = declaration.unplaced) :
    (first.declare declaration).Abreast ahead (other.declare also) := by
  have sameName : also.unplaced.name = declaration.unplaced.name := congrArg Declaration.name alike
  change also.name = declaration.name at sameName
  refine ⟨abreast.reservedWords_eq, abreast.arraySuffix_eq, fun name => ?_, fun {name} notAhead => ?_⟩
  · simp only [Registry.declare, Table.get?_insert, sameName]
    split
    · rfl
    · exact abreast.taken_eq name
  · rw [get?_declare, get?_declare, sameName]
    split
    · simp only [Option.map_some, alike]
    · exact abreast.get?_eq notAhead

/-- A shape gets the same name, if no name that is made up for its candidate is ahead. -/
theorem register (abreast : first.Abreast ahead other) {candidate : String}
    (free : ∀ tried, ¬ahead (suffixed (first.typeName candidate) tried)) (shape : Shape)
    (doc : Option String) (deprecated : Bool) (path place : String) :
    (other.register candidate shape doc deprecated (.inline place)).1 =
        (first.register candidate shape doc deprecated (.inline path)).1 ∧
      (first.register candidate shape doc deprecated (.inline path)).2.Abreast ahead
        (other.register candidate shape doc deprecated (.inline place)).2 := by
  have words : other.typeName candidate = first.typeName candidate := by
    rw [typeName, typeName, abreast.reservedWords_eq]
  obtain ⟨tried, isFirst, accepted, rejected⟩ :=
    @exists_firstName_eq first (isReusable shape) rfl (first.typeName candidate)
  -- Both searches try the same names, and each of these is reusable in both registries or in none.
  have sameName : other.firstName (isReusable shape) (other.typeName candidate) =
      suffixed (first.typeName candidate) tried := by
    rw [words]
    refine firstName_eq rfl (by rwa [abreast.isReusable_eq shape (free tried)]) fun earlier isLess => ?_
    rw [abreast.isReusable_eq shape (free earlier)]
    exact rejected earlier isLess
  have sameDeclared := isDeclared_eq_of_unplaced (abreast.get?_eq (free tried))
  unfold Registry.register
  dsimp only
  rw [sameName, isFirst, sameDeclared]
  split
  · exact ⟨rfl, abreast⟩
  · exact ⟨rfl, abreast.declare rfl⟩

end Abreast

end Registry

/-- Two actions both fail, or both give values that are related. -/
inductive SameEnd {α β : Type} (related : α → β → Prop) :
    Except LocatedFailure α → Except LocatedFailure β → Prop
  | gives {value : α} {also : β} (isRelated : related value also) :
    SameEnd related (.ok value) (.ok also)
  | fails {located other : LocatedFailure} : SameEnd related (.error located) (.error other)

namespace Workspace

variable {context : Context} {first other : Workspace}

/-- A name is held for a component schema that only the other workspace has entered. -/
def IsAhead (context : Context) (first other : Workspace) (name : String) : Prop :=
  ∃ schema, context.emitted? schema = some name ∧
    other.resolver.state schema ≠ first.resolver.state schema

/--
Another workspace differs from the first one in places and reports, and in that it may have declared
component schemas already that place no restriction.
-/
structure Abreast (context : Context) (first other : Workspace) : Prop where
  registry : first.registry.Abreast (IsAhead context first other) other.registry
  emitted_eq : other.resolver.emitted = first.resolver.emitted
  schemas_eq : other.resolver.schemas = first.resolver.schemas
  neutral : ∀ {schema}, other.resolver.state schema ≠ first.resolver.state schema →
    ∃ node, context.model.node? schema = some node ∧ node.isUnconstrained = true ∧
      first.resolver.state schema = .pending ∧ other.resolver.state schema = .registered ∧
      ∀ name, context.emitted? schema = some name →
        other.registry.get? name = some (node.neutralDeclaration schema name)
  settled : ∀ {schema}, context.IsNeutral schema →
    other.resolver.state schema = .pending ∨ other.resolver.state schema = .registered

namespace Abreast

variable (abreast : first.Abreast context other)

include abreast

/-- A schema that has been started is in the same state in both workspaces. -/
theorem state_eq {schema : String} (started : first.resolver.state schema ≠ .pending) :
    other.resolver.state schema = first.resolver.state schema := by
  by_contra differs
  obtain ⟨_, _, _, pending, _⟩ := abreast.neutral differs
  exact started pending

/-- A schema that places a restriction is in the same state in both workspaces. -/
theorem state_eq_of_restricted {schema : String} (restricted : ¬context.IsNeutral schema) :
    other.resolver.state schema = first.resolver.state schema := by
  by_contra differs
  obtain ⟨node, found, isUnconstrained, _⟩ := abreast.neutral differs
  exact restricted ⟨node, found, isUnconstrained⟩

/-- A name that is known is not ahead. -/
theorem not_isAhead (consistent : Consistent context first) {name : String}
    (knows : first.Knows context name) : ¬IsAhead context first other name := by
  rintro ⟨schema, emitted, differs⟩
  obtain ⟨_, _, _, pending, _⟩ := abreast.neutral differs
  exact consistent.started_of_knows emitted knows pending

/-- A name that is ahead is held for a component schema that places no restriction. -/
theorem isNeutral_of_isAhead {name : String} (isAhead : IsAhead context first other name) :
    ∃ schema, context.IsNeutral schema ∧ context.emitted? schema = some name := by
  obtain ⟨schema, emitted, differs⟩ := isAhead
  obtain ⟨node, found, isUnconstrained, _⟩ := abreast.neutral differs
  exact ⟨schema, ⟨node, found, isUnconstrained⟩, emitted⟩

/-- Types that mention only known names are equivalent in both workspaces or in none. -/
theorem equivalent_eq (consistent : Consistent context first) (known : first.KnowsMentions context)
    {left right : TypeExpr} (inLeft : ∀ mention ∈ left.mentions, first.Knows context mention)
    (inRight : ∀ mention ∈ right.mentions, first.Knows context mention) :
    other.registry.equivalent left.kind right.kind = first.registry.equivalent left.kind right.kind :=
  Registry.AgreesOn.equivalent_eq
    ⟨fun knows => Registry.shape_eq_of_unplaced
        (abreast.registry.get?_eq (abreast.not_isAhead consistent knows)),
      fun _ found mention isMentioned => known _ mention ⟨_, found, isMentioned⟩⟩ inLeft inRight

/-- A shape gets the same name in both workspaces. -/
theorem register (spelled : first.Spelled context) {candidate : String}
    (free : context.FreesNeutral candidate) (shape : Shape) (doc : Option String) (deprecated : Bool)
    (path place : String) :
    (other.registry.register candidate shape doc deprecated (.inline place)).1 =
        (first.registry.register candidate shape doc deprecated (.inline path)).1 ∧
      Abreast context
        { first with
          registry := (first.registry.register candidate shape doc deprecated (.inline path)).2 }
        { other with
          registry := (other.registry.register candidate shape doc deprecated (.inline place)).2 } := by
  have notAhead (tried : Nat) :
      ¬IsAhead context first other (Registry.suffixed (first.registry.typeName candidate) tried) := by
    intro isAhead
    obtain ⟨schema, isNeutral, emitted⟩ := abreast.isNeutral_of_isAhead isAhead
    rw [← spelled.typeName_eq] at emitted
    exact free schema _ tried isNeutral emitted rfl
  have ⟨sameName, registry⟩ := abreast.registry.register notAhead shape doc deprecated path place
  refine ⟨sameName, registry, abreast.emitted_eq, abreast.schemas_eq, fun {schema} differs => ?_,
    abreast.settled⟩
  obtain ⟨node, found, isUnconstrained, pending, registered, declared⟩ := abreast.neutral differs
  refine ⟨node, found, isUnconstrained, pending, registered, fun name emitted => ?_⟩
  -- What is declared stays declared.
  rcases other.registry.register_cases candidate shape doc deprecated (.inline place) with
    ⟨_, _, _, _, isSame⟩ | ⟨added, free, isDeclared⟩
  · rw [isSame]
    exact declared name emitted
  · rw [isDeclared, Registry.get?_declare, if_neg, declared name emitted]
    rintro rfl
    cases (Registry.get?_eq_none_of_slot free).symm.trans (declared _ emitted)

/-- Notes make no difference. -/
theorem notes {last otherLast : Workspace} (notes : first.Notes last) (also : other.Notes otherLast) :
    last.Abreast context otherLast := by
  obtain ⟨resolver, registry, diagnostics⟩ := last
  obtain ⟨otherResolver, otherRegistry, otherDiagnostics⟩ := otherLast
  obtain ⟨rfl, rfl, _⟩ := notes
  obtain ⟨rfl, rfl, _⟩ := also
  exact ⟨abreast.registry, abreast.emitted_eq, abreast.schemas_eq, abreast.neutral, abreast.settled⟩

/-- The first workspace may have noted less. -/
theorem before {earlier : Workspace} (notes : earlier.Notes first) : earlier.Abreast context other := by
  obtain ⟨resolver, registry, diagnostics⟩ := first
  obtain ⟨rfl, rfl, _⟩ := notes
  exact ⟨abreast.registry, abreast.emitted_eq, abreast.schemas_eq, abreast.neutral, abreast.settled⟩

/-- The synthesis of a schema that places a restriction begins in both. -/
theorem begin {name : String} (restricted : ¬context.IsNeutral name) :
    (first.begin name).Abreast context (other.begin name) := by
  -- The schema that begins is not neutral, so it is in the same state on both sides.
  have sameStates {schema : String}
      (differs : (other.begin name).resolver.state schema ≠ (first.begin name).resolver.state schema) :
      (other.begin name).resolver.state schema = other.resolver.state schema ∧
        (first.begin name).resolver.state schema = first.resolver.state schema := by
    rw [state_begin, state_begin] at differs ⊢
    split at differs
    · exact absurd rfl differs
    · rename_i isOther
      rw [if_neg isOther, if_neg isOther]
      exact ⟨rfl, rfl⟩
  refine ⟨abreast.registry.mono fun emitted isAhead => ?_, abreast.emitted_eq, abreast.schemas_eq,
    fun {schema} differs => ?_, fun {schema} isNeutral => ?_⟩
  · obtain ⟨schema, isEmitted, differs⟩ := isAhead
    refine ⟨schema, isEmitted, ?_⟩
    rw [state_begin, state_begin]
    split
    · rename_i isBegun
      exact absurd (abreast.state_eq_of_restricted (isBegun ▸ restricted)) differs
    · exact differs
  · have ⟨sameOther, sameFirst⟩ := sameStates differs
    rw [sameOther, sameFirst] at differs ⊢
    exact abreast.neutral differs
  · have isOther : schema ≠ name := fun isBegun => restricted (isBegun ▸ isNeutral)
    rw [state_begin, if_neg isOther]
    exact abreast.settled isNeutral

/-- The names in which it begins are the same. -/
theorem scopeOf_eq (name : String) : other.scopeOf name = first.scopeOf name := by
  simp only [scopeOf, Synthesis.emittedName, abreast.emitted_eq, Registry.typeName,
    abreast.registry.reservedWords_eq]

/-- It is concluded in both with the same shape, or it has failed in both. -/
theorem conclude {name emitted : String} (restricted : ¬context.IsNeutral name)
    (isEmitted : context.emitted? name = some emitted) {node also : SchemaNode}
    (sameTraits : also.traits = node.traits) {result otherResult : Except LocatedFailure Shape}
    (sameEnd : SameEnd (· = ·) result otherResult) :
    (first.conclude name emitted node result).Abreast context
      (other.conclude name emitted also otherResult) := by
  -- Only the state of this schema changes, and it becomes the same in both.
  have sameStates {schema : String} :
      ((other.conclude name emitted also otherResult).resolver.state schema ≠
          (first.conclude name emitted node result).resolver.state schema ↔
        other.resolver.state schema ≠ first.resolver.state schema) ∧
      (schema ≠ name →
        (other.conclude name emitted also otherResult).resolver.state schema =
            other.resolver.state schema ∧
          (first.conclude name emitted node result).resolver.state schema =
            first.resolver.state schema) := by
    rw [state_conclude, state_conclude]
    by_cases isConcluded : schema = name
    · rw [if_pos isConcluded, if_pos isConcluded, isConcluded]
      refine ⟨?_, fun isOther => absurd rfl isOther⟩
      have before := abreast.state_eq_of_restricted restricted
      cases sameEnd <;> simp [before]
    · rw [if_neg isConcluded, if_neg isConcluded]
      exact ⟨.rfl, fun _ => ⟨rfl, rfl⟩⟩
  have isOther {schema : String} (isNeutral : context.IsNeutral schema) : schema ≠ name :=
    fun isConcluded => restricted (isConcluded ▸ isNeutral)
  have registry : (first.conclude name emitted node result).registry.Abreast
      (IsAhead context first other) (other.conclude name emitted also otherResult).registry := by
    cases sameEnd with
    | gives same =>
      cases same
      refine abreast.registry.declare ?_
      rw [sameTraits]
    | fails => exact abreast.registry
  refine ⟨registry.mono fun other isAhead => ?_, ?_, ?_, fun {schema} differs => ?_,
    fun {schema} isNeutral => ?_⟩
  · obtain ⟨schema, alsoEmitted, differs⟩ := isAhead
    exact ⟨schema, alsoEmitted, sameStates.1.mpr differs⟩
  · cases sameEnd <;> exact abreast.emitted_eq
  · cases sameEnd <;> exact abreast.schemas_eq
  · obtain ⟨node, found, isUnconstrained, pending, registered, declared⟩ :=
      abreast.neutral (sameStates.1.mp differs)
    have ⟨sameOther, sameFirst⟩ := sameStates.2 (isOther ⟨node, found, isUnconstrained⟩)
    rw [sameOther, sameFirst]
    refine ⟨node, found, isUnconstrained, pending, registered, fun held alsoEmitted => ?_⟩
    cases sameEnd with
    | gives =>
      refine (Registry.get?_declare _ _ _).trans ((if_neg ?_).trans (declared held alsoEmitted))
      rintro rfl
      exact isOther ⟨node, found, isUnconstrained⟩ (Context.emitted?_injective alsoEmitted isEmitted)
    | fails => exact declared held alsoEmitted
  · rw [(sameStates.2 (isOther isNeutral)).1]
    exact abreast.settled isNeutral

end Abreast

/-- A component schema that places no restriction is entered: it is declared, and nothing else happens. -/
structure EntersNeutral (context : Context) (schema : String) (node : SchemaNode)
    (first last : Workspace) : Prop where
  emitted_eq : last.resolver.emitted = first.resolver.emitted
  schemas_eq : last.resolver.schemas = first.resolver.schemas
  state_eq : ∀ other, last.resolver.state other =
    if other = schema then .registered else first.resolver.state other
  registry_eq : ∀ {name}, context.emitted? schema = some name →
    last.registry = first.registry.declare (node.neutralDeclaration schema name)

namespace EntersNeutral

variable {schema name : String} {node : SchemaNode} {last otherLast : Workspace}

/-- The states of all other schemas stay. -/
theorem state_eq_of_ne (enters : EntersNeutral context schema node first last) {also : String}
    (isOther : also ≠ schema) : last.resolver.state also = first.resolver.state also := by
  rw [enters.state_eq, if_neg isOther]

/-- It is declared afterwards. -/
theorem state (enters : EntersNeutral context schema node first last) :
    last.resolver.state schema = .registered := by rw [enters.state_eq, if_pos rfl]

/-- Under the name held for it stands its declaration, and under all others what stood there before. -/
theorem get?_eq (enters : EntersNeutral context schema node first last)
    (isEmitted : context.emitted? schema = some name) (other : String) : last.registry.get? other =
      if other = name then some (node.neutralDeclaration schema name)
      else first.registry.get? other := by
  rw [enters.registry_eq isEmitted]
  exact Registry.get?_declare _ _ _

/-- What is ahead stays ahead after another schema has been entered. -/
theorem get?_ahead (enters : EntersNeutral context schema node other otherLast)
    (isEmitted : context.emitted? schema = some name) {also held : String} {declaration : Declaration}
    (isOther : also ≠ schema) (alsoEmitted : context.emitted? also = some held)
    (declared : other.registry.get? held = some declaration) :
    otherLast.registry.get? held = some declaration := by
  rw [enters.get?_eq isEmitted, if_neg, declared]
  rintro rfl
  exact isOther (Context.emitted?_injective alsoEmitted isEmitted)

/-- It refers to nothing, so nothing else has to be registered for it. -/
theorem rests (enters : EntersNeutral context schema node first last)
    (found : context.model.node? schema = some node) (isUnconstrained : node.isUnconstrained = true)
    (rests : first.Rests context) : last.Rests context := by
  intro source target isRegistered refers notBack
  rw [enters.state_eq] at isRegistered ⊢
  split at isRegistered
  · rename_i isEntered
    obtain ⟨other, isFound, refers⟩ := refers
    cases found.symm.trans (isEntered ▸ isFound)
    exact absurd refers (SchemaNode.not_refers_of_isUnconstrained isUnconstrained target)
  · split
    · rfl
    · exact rests source target isRegistered refers notBack

/-- Both workspaces may enter it. -/
theorem both (abreast : first.Abreast context other) (isEmitted : context.emitted? schema = some name)
    (sameState : other.resolver.state schema = first.resolver.state schema)
    (enters : EntersNeutral context schema node first last)
    (also : EntersNeutral context schema node other otherLast) : last.Abreast context otherLast := by
  -- The entered schema is registered on both sides, and any other is as it was before.
  have isOther {added : String} (differs : other.resolver.state added ≠ first.resolver.state added) :
      added ≠ schema := fun isEntered => differs (isEntered ▸ sameState)
  have differed {added : String}
      (differs : otherLast.resolver.state added ≠ last.resolver.state added) : added ≠ schema := by
    rintro rfl
    exact differs (also.state.trans enters.state.symm)
  have registry : last.registry.Abreast (IsAhead context first other) otherLast.registry := by
    rw [enters.registry_eq isEmitted, also.registry_eq isEmitted]
    exact abreast.registry.declare rfl
  refine ⟨registry.mono fun held isAhead => ?_, ?_, ?_, fun {added} differs => ?_,
    fun {added} isNeutral => ?_⟩
  · obtain ⟨added, alsoEmitted, differs⟩ := isAhead
    refine ⟨added, alsoEmitted, ?_⟩
    rwa [also.state_eq_of_ne (isOther differs), enters.state_eq_of_ne (isOther differs)]
  · rw [also.emitted_eq, enters.emitted_eq, abreast.emitted_eq]
  · rw [also.schemas_eq, enters.schemas_eq, abreast.schemas_eq]
  · have isAdded := differed differs
    rw [also.state_eq_of_ne isAdded, enters.state_eq_of_ne isAdded] at differs ⊢
    obtain ⟨node, found, isUnconstrained, pending, registered, declared⟩ := abreast.neutral differs
    exact ⟨node, found, isUnconstrained, pending, registered, fun held alsoEmitted =>
      also.get?_ahead isEmitted isAdded alsoEmitted (declared held alsoEmitted)⟩
  · rw [also.state_eq]
    split
    · exact .inr rfl
    · exact abreast.settled isNeutral

/-- The other workspace may enter it alone. -/
theorem overtakes (abreast : first.Abreast context other) (consistent : Consistent context first)
    (found : context.model.node? schema = some node) (isUnconstrained : node.isUnconstrained = true)
    (isEmitted : context.emitted? schema = some name)
    (pending : first.resolver.state schema = .pending)
    (also : EntersNeutral context schema node other otherLast) : first.Abreast context otherLast := by
  have isAhead : IsAhead context first otherLast name :=
    ⟨schema, isEmitted, by rw [also.state, pending]; simp⟩
  have stays {added : String} (differs : other.resolver.state added ≠ first.resolver.state added) :
      otherLast.resolver.state added ≠ first.resolver.state added := by
    rw [also.state_eq]
    split
    · rename_i isEntered
      rw [isEntered, pending]
      simp
    · exact differs
  refine ⟨?_, also.emitted_eq.trans abreast.emitted_eq, also.schemas_eq.trans abreast.schemas_eq,
    fun {added} differs => ?_, fun {added} isNeutral => ?_⟩
  · rw [also.registry_eq isEmitted]
    refine ⟨abreast.registry.reservedWords_eq, abreast.registry.arraySuffix_eq, fun held => ?_,
      fun {held} notAhead => ?_⟩
    · simp only [Registry.declare, Table.get?_insert]
      split
      · rename_i isName
        -- The name was taken in both before it was declared in one.
        rw [isName]
        exact (Option.isSome_iff_ne_none.mpr (consistent.taken isEmitted)).symm
      · exact abreast.registry.taken_eq held
    · have isOther : held ≠ (node.neutralDeclaration schema name).name := fun isName =>
        notAhead (isName ▸ isAhead)
      rw [Registry.get?_declare, if_neg isOther]
      refine abreast.registry.get?_eq fun ahead => notAhead ?_
      obtain ⟨added, alsoEmitted, differs⟩ := ahead
      exact ⟨added, alsoEmitted, stays differs⟩
  · by_cases isEntered : added = schema
    · subst isEntered
      refine ⟨node, found, isUnconstrained, pending, also.state, fun held alsoEmitted => ?_⟩
      cases isEmitted.symm.trans alsoEmitted
      rw [also.get?_eq isEmitted, if_pos rfl]
    · rw [also.state_eq_of_ne isEntered] at differs ⊢
      obtain ⟨node, found, isUnconstrained, pending, registered, declared⟩ := abreast.neutral differs
      exact ⟨node, found, isUnconstrained, pending, registered, fun held alsoEmitted =>
        also.get?_ahead isEmitted isEntered alsoEmitted (declared held alsoEmitted)⟩
  · rw [also.state_eq]
    split
    · exact .inr rfl
    · exact abreast.settled isNeutral

/-- What the other workspace has entered already the first one may enter later. -/
theorem catchesUp (abreast : first.Abreast context other) (consistent : Consistent context first)
    (found : context.model.node? schema = some node) (isEmitted : context.emitted? schema = some name)
    (differs : other.resolver.state schema ≠ first.resolver.state schema)
    (enters : EntersNeutral context schema node first last) : last.Abreast context other := by
  -- What is declared now is what has been declared on the other side when the schema went ahead.
  obtain ⟨_, alsoFound, _, _, registered, declared⟩ := abreast.neutral differs
  cases found.symm.trans alsoFound
  have differed {added : String} (still : other.resolver.state added ≠ last.resolver.state added) :
      added ≠ schema := by
    rintro rfl
    exact still (registered.trans enters.state.symm)
  refine ⟨?_, abreast.emitted_eq.trans enters.emitted_eq.symm,
    abreast.schemas_eq.trans enters.schemas_eq.symm, fun {added} differs => ?_, abreast.settled⟩
  · rw [enters.registry_eq isEmitted]
    refine ⟨abreast.registry.reservedWords_eq, abreast.registry.arraySuffix_eq, fun held => ?_,
      fun {held} notAhead => ?_⟩
    · rw [abreast.registry.taken_eq]
      simp only [Registry.declare, Table.get?_insert]
      split
      · rename_i isName
        rw [isName]
        exact Option.isSome_iff_ne_none.mpr (consistent.taken isEmitted)
      · rfl
    · rw [Registry.get?_declare]
      split
      · rename_i isName
        rw [isName]
        exact congrArg _ (declared name isEmitted)
      · rename_i isOther
        refine abreast.registry.get?_eq fun ahead => notAhead ?_
        obtain ⟨added, alsoEmitted, differs⟩ := ahead
        refine ⟨added, alsoEmitted, ?_⟩
        rwa [enters.state_eq_of_ne]
        rintro rfl
        exact isOther (Option.some.inj (alsoEmitted.symm.trans isEmitted))
  · have isAdded := differed differs
    rw [enters.state_eq_of_ne isAdded] at differs ⊢
    exact abreast.neutral differs

end EntersNeutral

end Workspace

end ApiTypes
