import ApiTypes.Proofs.Synthesis.Recurrence

/-!
Members without a meaning. An intersection may have further members that place no restriction: nodes
that say nothing, and references to component schemas that say nothing.
-/

namespace ApiTypes

open Relation

/-- A component schema places no restriction. -/
def Context.IsNeutral (context : Context) (schema : String) : Prop :=
  ∃ node, context.model.node? schema = some node ∧ node.isUnconstrained = true

/-- No name that is made up for a candidate is held for a component schema that places no restriction. -/
def Context.FreesNeutral (context : Context) (candidate : String) : Prop :=
  ∀ schema name tried, context.IsNeutral schema → context.emitted? schema = some name →
    name ≠ Registry.suffixed (typeName context.config.reservedWords candidate) tried

/--
No name that is made up for a candidate tried inside a component schema is held for one that places no
restriction.
-/
def Context.SparesNeutral (context : Context) : Prop :=
  ∀ {schema node name}, context.model.node? schema = some node → context.emitted? schema = some name →
    ∀ candidate, node.Tries context .declared name candidate → context.FreesNeutral candidate

/--
An intersection that refers to a component schema alone comes to the name of the schema in company as well:
the reference takes over no null, the schema contributes a type, and all to which it leads can be walked
once more when it is registered.
-/
structure Context.KeepsName (context : Context) (target : String) : Prop where
  direct : ∀ node, context.model.node? target = some node → node.inheritsNull = false
  typed : ∀ outline, context.OutlinesSchema target outline →
    outline.isTyped = true ∧ outline.isUnion = false
  secludes : context.Secludes (ReflTransGen context.Refers target)

/-- A property with another schema. -/
def Property.map {σ τ : Type} (transform : σ → τ) (property : Property σ) : Property τ :=
  { property with schema := transform property.schema }

namespace SchemaNode

/-- A member of an intersection places no restriction, or refers to a component schema that places none. -/
inductive Neutral (context : Context) : SchemaNode → Prop
  | inPlace {node : SchemaNode} (isUnconstrained : node.isUnconstrained = true) : Neutral context node
  | reference {target : String} {traits : NodeTraits} (isNeutral : context.IsNeutral target) :
    Neutral context ⟨.reference target, traits⟩

/--
Intersections stand for the same reference with further members as before; or a reference that stood alone
gets company, but the intersection comes to the name of its schema all the same.
-/
inductive KeepsOnly (context : Context) (before after : List SchemaNode) : Prop
  | same (sameOnly : onlyReference? after = onlyReference? before)
  | company {target : String} (isOnly : onlyReference? before = some target)
    (several : onlyReference? after = none) (keepsName : context.KeepsName target)

/--
Another node has the same parts, but for neutral members that its intersections have besides. A reference
that stood alone may get company by them if that makes no difference to the name.
-/
inductive Padded (context : Context) : SchemaNode → SchemaNode → Prop
  | primitive {base : PrimitiveBase} {format : Option String} {traits : NodeTraits} :
    Padded context ⟨.primitive base format, traits⟩ ⟨.primitive base format, traits⟩
  | enum {base : PrimitiveBase} {values : List Data} {traits : NodeTraits} :
    Padded context ⟨.enum base values, traits⟩ ⟨.enum base values, traits⟩
  | array {items others : SchemaNode} {traits : NodeTraits} (padded : Padded context items others) :
    Padded context ⟨.array items, traits⟩ ⟨.array others, traits⟩
  | map {value other : SchemaNode} {traits : NodeTraits} (padded : Padded context value other) :
    Padded context ⟨.map value, traits⟩ ⟨.map other, traits⟩
  | object {properties : List (Property (SchemaNode × SchemaNode))}
    {additional : Option (SchemaNode × SchemaNode)} {traits : NodeTraits}
    (listed : ∀ property ∈ properties, Padded context property.schema.1 property.schema.2)
    (further : ∀ value ∈ additional, Padded context value.1 value.2) :
    Padded context
      ⟨.object (properties.map (Property.map Prod.fst)) (additional.map Prod.fst), traits⟩
      ⟨.object (properties.map (Property.map Prod.snd)) (additional.map Prod.snd), traits⟩
  | choice {kind : CompositionKind} {members : List (SchemaNode × SchemaNode)}
    {discriminator : Option Discriminator} {traits : NodeTraits} (isChoice : kind ≠ .allOf)
    (padded : ∀ member ∈ members, Padded context member.1 member.2) :
    Padded context ⟨.composed kind (members.map Prod.fst) discriminator, traits⟩
      ⟨.composed kind (members.map Prod.snd) discriminator, traits⟩
  /-- A member that stands in the other intersection alone is neutral. -/
  | intersection {members : List (Option SchemaNode × SchemaNode)}
    {discriminator : Option Discriminator} {traits : NodeTraits}
    (padded : ∀ member ∈ members, ∀ node ∈ member.1, Padded context node member.2)
    (neutral : ∀ member ∈ members, member.1 = none → Neutral context member.2)
    (keepsOnly : KeepsOnly context (members.filterMap Prod.fst) (members.map Prod.snd)) :
    Padded context ⟨.composed .allOf (members.filterMap Prod.fst) discriminator, traits⟩
      ⟨.composed .allOf (members.map Prod.snd) discriminator, traits⟩
  | reference {target : String} {traits : NodeTraits} :
    Padded context ⟨.reference target, traits⟩ ⟨.reference target, traits⟩
  | any {traits : NodeTraits} : Padded context ⟨.any, traits⟩ ⟨.any, traits⟩
  | null {traits : NodeTraits} : Padded context ⟨.null, traits⟩ ⟨.null, traits⟩

variable {context : Context} {node other : SchemaNode}

namespace Padded

/-- Nothing has to be added. -/
theorem refl (node : SchemaNode) : Padded context node node := by
  induction node using SchemaNode.inductionOn with
  | primitive => exact .primitive
  | enum => exact .enum
  | reference => exact .reference
  | any => exact .any
  | null => exact .null
  | array items traits ih => exact .array ih
  | map value traits ih => exact .map ih
  | object properties additional traits listed further =>
    have padded := @object context
      (properties.map (Property.map fun node => (node, node))) (additional.map fun node => (node, node))
      traits (by simpa [Property.map] using listed) (by simpa using further)
    simpa [Function.comp_def, Property.map] using padded
  | composed kind members discriminator traits ih =>
    -- Only intersections may get members; the cases of a choice correspond one by one.
    by_cases isChoice : kind = .allOf
    · subst isChoice
      have padded := @intersection context (members.map fun node => (some node, node)) discriminator
        traits (by simpa using ih) (by simp) (.same (by simp [Function.comp_def, List.filterMap_map]))
      simpa [Function.comp_def, List.filterMap_map] using padded
    · have padded := @choice context kind (members.map fun node => (node, node)) discriminator traits
        isChoice (by simpa using ih)
      simpa [Function.comp_def] using padded

/-- A neutral member may be added anywhere, unless a reference loses its name by that company. -/
theorem insert {extra : SchemaNode} (neutral : Neutral context extra) (before after : List SchemaNode)
    (discriminator : Option Discriminator) (traits : NodeTraits)
    (keepsOnly : KeepsOnly context (before ++ after) (before ++ extra :: after)) :
    Padded context ⟨.composed .allOf (before ++ after) discriminator, traits⟩
      ⟨.composed .allOf (before ++ extra :: after) discriminator, traits⟩ := by
  have padded := @intersection context
    (before.map (fun node => (some node, node)) ++ (none, extra) ::
      after.map fun node => (some node, node)) discriminator traits
    (fun member isMember => by
      simp only [List.mem_append, List.mem_cons, List.mem_map] at isMember
      rcases isMember with ⟨node, _, rfl⟩ | rfl | ⟨node, _, rfl⟩
      · simpa using refl node
      · simp
      · simpa using refl node)
    (fun member isMember isExtra => by
      simp only [List.mem_append, List.mem_cons, List.mem_map] at isMember
      rcases isMember with ⟨node, _, rfl⟩ | rfl | ⟨node, _, rfl⟩
      · cases isExtra
      · exact neutral
      · cases isExtra)
    (by simpa [Function.comp_def, List.filterMap_map] using keepsOnly)
  simpa [Function.comp_def, List.filterMap_map] using padded

/-- Apart from its parts, the other node says the same. -/
theorem traits_eq (padded : Padded context node other) : other.traits = node.traits := by
  cases padded <;> rfl

/-- The other node is the type that holds null alone if the first one is. -/
theorem isNull_eq (padded : Padded context node other) : other.kind.isNull = node.kind.isNull := by
  cases padded <;> rfl

/-- Null is taken over from the other node if it is from the first one. -/
theorem inheritsNull_eq (padded : Padded context node other) :
    other.inheritsNull = node.inheritsNull := by
  cases padded <;> rfl

/-- The other node refers to what the first one does. -/
theorem referenceTarget?_eq (padded : Padded context node other) :
    other.kind.referenceTarget? = node.kind.referenceTarget? := by
  cases padded <;> rfl

/-- The same names are required beside both. -/
theorem requiredMembers_eq (padded : Padded context node other) (label : String) :
    Surroundings.requiredMembers other label = Surroundings.requiredMembers node label := by
  cases padded <;> rfl

/-- An intersection takes both as a whole or none of them. -/
theorem isAtomic_eq (padded : Padded context node other) : other.isAtomic = node.isAtomic := by
  cases padded <;> rfl

/-- Both are declared where they are used, or none of them is. -/
theorem isDeclared_eq (padded : Padded context node other) : other.isDeclared = node.isDeclared := by
  cases padded <;> simp [isDeclared]

/-- Nothing can be added to a node that places no restriction. -/
theorem eq_of_isUnconstrained (padded : Padded context node other)
    (isUnconstrained : node.isUnconstrained = true) : other = node := by
  cases padded with
  | any => rfl
  | primitive | enum | array | map | object | choice | intersection | reference | null =>
    cases isUnconstrained

end Padded

end SchemaNode

/--
Another context has the same schemas and settings, and intersections have neutral members besides. Which
component schemas are declared as mere aliases stays the same among those that lead to themselves.
-/
structure Context.Pads (context other : Context) : Prop where
  config_eq : other.config = context.config
  names_eq : other.model.names = context.model.names
  padded : ∀ {schema node}, context.model.node? schema = some node → ∃ also,
    other.model.node? schema = some also ∧ SchemaNode.Padded context node also ∧
      (TransGen context.Refers schema schema → also.declaresAlias = node.declaresAlias)

/-- What is taken as a whole declares no alias. -/
theorem SchemaNode.declaresAlias_of_isAtomic (node : SchemaNode) (isAtomic : node.isAtomic = true) :
    node.declaresAlias = false := by
  obtain ⟨kind, traits⟩ := node
  cases kind <;> first | rfl | cases isAtomic

namespace Context.Pads

variable {context other : Context} (pads : context.Pads other)

include pads

/-- A schema is defined in both contexts or in none. -/
theorem node?_cases (schema : String) :
    (context.model.node? schema = none ∧ other.model.node? schema = none) ∨
      ∃ node also, context.model.node? schema = some node ∧
        other.model.node? schema = some also ∧ SchemaNode.Padded context node also ∧
          (TransGen context.Refers schema schema → also.declaresAlias = node.declaresAlias) := by
  cases found : context.model.node? schema with
  | some node =>
    obtain ⟨also, isAlso⟩ := pads.padded found
    exact .inr ⟨node, also, rfl, isAlso⟩
  | none =>
    have unnamed : schema ∉ other.model.names := by
      rw [pads.names_eq]
      exact (Table.get?_eq_none_iff _ _).mp found
    exact .inl ⟨rfl, (Table.get?_eq_none_iff _ _).mpr unnamed⟩

/-- What leads to itself, or is taken as a whole, declares an alias in both contexts or in none. -/
theorem declaresAlias_eq {schema : String}
    (settled : TransGen context.Refers schema schema ∨ context.IsAtomic schema) :
    (other.model.node? schema).any SchemaNode.declaresAlias =
      (context.model.node? schema).any SchemaNode.declaresAlias := by
  rcases pads.node?_cases schema with ⟨undefined, alsoUndefined⟩ |
    ⟨node, also, found, alsoFound, isPadded, same⟩
  · rw [undefined, alsoUndefined]
  · rw [found, alsoFound, Option.any_some, Option.any_some]
    rcases settled with leads | ⟨_, isFound, isAtomic⟩
    · exact same leads
    · cases found.symm.trans isFound
      rw [node.declaresAlias_of_isAtomic isAtomic,
        also.declaresAlias_of_isAtomic (isPadded.isAtomic_eq.trans isAtomic)]

/-- Names are held in the same way. -/
theorem ofContext_eq : Workspace.ofContext other = Workspace.ofContext context := by
  rw [Workspace.ofContext, Workspace.ofContext, pads.names_eq, pads.config_eq]

/-- A neutral schema is neutral in both contexts, with the same node. -/
theorem node?_of_isUnconstrained {schema : String} {node : SchemaNode}
    (found : context.model.node? schema = some node) (isUnconstrained : node.isUnconstrained = true) :
    other.model.node? schema = some node := by
  obtain ⟨also, alsoFound, padded, _⟩ := pads.padded found
  exact padded.eq_of_isUnconstrained isUnconstrained ▸ alsoFound

/-- A choice is one in both contexts. -/
theorem isChoice {node also : SchemaNode} (padded : SchemaNode.Padded context node also)
    (isChoice : SchemaNode.IsChoice context.model.node? node) :
    SchemaNode.IsChoice other.model.node? also := by
  induction isChoice generalizing also with
  | choice isUnion => cases padded <;> exact .choice isUnion
  | reference found _ ih =>
    cases padded
    obtain ⟨next, alsoFound, nextPadded, _⟩ := pads.padded found
    exact .reference alsoFound (ih nextPadded)

/-- What is a choice in the other context was one before. -/
theorem isChoice_of_padded {node also : SchemaNode} (padded : SchemaNode.Padded context node also)
    (isChoice : SchemaNode.IsChoice other.model.node? also) :
    SchemaNode.IsChoice context.model.node? node := by
  induction isChoice generalizing node with
  | choice isUnion => cases padded <;> exact .choice isUnion
  | @reference target _ _ found _ ih =>
    cases padded
    rcases pads.node?_cases target with ⟨_, undefined⟩ | ⟨next, _, isNext, alsoFound, nextPadded, _⟩
    · cases undefined.symm.trans found
    · cases alsoFound.symm.trans found
      exact .reference isNext (ih nextPadded)

/-- The contexts agree on what is a choice. -/
theorem isUnion_eq {node also : SchemaNode} (padded : SchemaNode.Padded context node also) :
    other.model.isUnion also = context.model.isUnion node := by
  rw [Bool.eq_iff_iff, SchemaModel.isUnion_iff, SchemaModel.isUnion_iff]
  exact ⟨pads.isChoice_of_padded padded, pads.isChoice padded⟩

end Context.Pads

/-- Nothing has to be added to a context. -/
theorem Context.Pads.refl (context : Context) : context.Pads context :=
  ⟨rfl, rfl, fun found => ⟨_, found, .refl _, fun _ => rfl⟩⟩

end ApiTypes
