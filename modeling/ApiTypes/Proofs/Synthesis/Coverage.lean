import ApiTypes.Proofs.Synthesis.Exploration
import ApiTypes.Proofs.Synthesis.Standing

/-!
What a value leaves of the references in its task. Whatever a node uses is declared for good if all that
comes of the node is, unless the reference is a member of an intersection: then what the schema contributes
is declared for good, or its name is.
-/

namespace ApiTypes

namespace SchemaNode

mutual

/-- A node refers to a component schema, other than as one of several members of an intersection. -/
inductive Uses : SchemaNode → String → Prop
  | reference {target : String} {traits : NodeTraits} : Uses ⟨.reference target, traits⟩ target
  | items {items : SchemaNode} {traits : NodeTraits} {target : String} (inside : Uses items target) :
    Uses ⟨.array items, traits⟩ target
  | value {value : SchemaNode} {traits : NodeTraits} {target : String} (inside : Uses value target) :
    Uses ⟨.map value, traits⟩ target
  | property {properties : List (Property SchemaNode)} {additional : Option SchemaNode}
    {traits : NodeTraits} {property : Property SchemaNode} {target : String}
    (isListed : property ∈ properties) (inside : Uses property.schema target) :
    Uses ⟨.object properties additional, traits⟩ target
  | additional {properties : List (Property SchemaNode)} {additional : Option SchemaNode}
    {traits : NodeTraits} {value : SchemaNode} {target : String} (isValue : value ∈ additional)
    (inside : Uses value target) : Uses ⟨.object properties additional, traits⟩ target
  | case {kind : CompositionKind} {members : List SchemaNode} {discriminator : Option Discriminator}
    {traits : NodeTraits} {member : SchemaNode} {target : String} (isChoice : kind ≠ .allOf)
    (isMember : member ∈ members) (inside : Uses member target) :
    Uses ⟨.composed kind members discriminator, traits⟩ target
  | mapping {kind : CompositionKind} {members : List SchemaNode} {traits : NodeTraits}
    {found : Discriminator} {value target : String} (isChoice : kind ≠ .allOf)
    (isMapped : (Table.ofEntries found.mapping.entries).get? value = some target) :
    Uses ⟨.composed kind members (some found), traits⟩ target
  /-- An intersection may stand for a reference. -/
  | only {members : List SchemaNode} {discriminator : Option Discriminator} {traits : NodeTraits}
    {target : String} (isOnly : onlyReference? members = some target) :
    Uses ⟨.composed .allOf members discriminator, traits⟩ target
  | member {members : List SchemaNode} {discriminator : Option Discriminator} {traits : NodeTraits}
    {member : SchemaNode} {target : String} (isMember : member ∈ members)
    (inside : Contributes member target) :
    Uses ⟨.composed .allOf members discriminator, traits⟩ target

/-- A member of an intersection refers to a component schema inside what it contributes. -/
inductive Contributes : SchemaNode → String → Prop
  | items {items : SchemaNode} {traits : NodeTraits} {target : String} (inside : Uses items target) :
    Contributes ⟨.array items, traits⟩ target
  | value {value : SchemaNode} {traits : NodeTraits} {target : String} (inside : Uses value target) :
    Contributes ⟨.map value, traits⟩ target
  | property {properties : List (Property SchemaNode)} {additional : Option SchemaNode}
    {traits : NodeTraits} {property : Property SchemaNode} {target : String}
    (isListed : property ∈ properties) (inside : Uses property.schema target) :
    Contributes ⟨.object properties additional, traits⟩ target
  | additional {properties : List (Property SchemaNode)} {additional : Option SchemaNode}
    {traits : NodeTraits} {value : SchemaNode} {target : String} (isValue : value ∈ additional)
    (inside : Uses value target) : Contributes ⟨.object properties additional, traits⟩ target
  | member {members : List SchemaNode} {discriminator : Option Discriminator} {traits : NodeTraits}
    {member : SchemaNode} {target : String} (isMember : member ∈ members)
    (inside : Contributes member target) :
    Contributes ⟨.composed .allOf members discriminator, traits⟩ target

end

/-- Types that are contributed as such are used. -/
theorem Contributes.uses {node : SchemaNode} {target : String} (contributes : node.Contributes target) :
    node.Uses target := by
  cases contributes with
  | items inside => exact .items inside
  | value inside => exact .value inside
  | property isListed inside => exact .property isListed inside
  | additional isValue inside => exact .additional isValue inside
  | member isMember inside => exact .member isMember inside

end SchemaNode

/-- A component schema has a declaration that stands. -/
def Context.Supports (context : Context) (registry : Registry) (schema : String) : Prop :=
  ∃ name, context.emitted? schema = some name ∧ name ∈ registry.supported

/-- Every discriminator in a kind lists a value once. -/
def NodeKind.Keyed : NodeKind SchemaNode → Prop :=
  PartsMeet (fun _ _ => True) fun found => found.mapping.keys.Nodup

variable {context : Context} {expanding : List String} {first last start : Workspace}
  {isKept : String → Prop}

/-- What stands of a node leaves of the component schemas that it uses and to which it refers. -/
structure SchemaNode.Leaves (context : Context) (isKept : String → Prop) (first last : Workspace)
    (node : SchemaNode) : Prop where
  used : ∀ depth, (Task.expression node depth).Stands context isKept first last ∨
    (Task.declare node depth).Stands context isKept first last → ∀ target,
      (node.Uses target → context.Retains isKept last target) ∧
      (node.Refers target → context.Meets isKept first last target)
  contributed : ∀ depth, (Task.contribute node depth).Stands context isKept first last → ∀ target,
    (node.Contributes target → context.Retains isKept last target) ∧
    (node.Refers target → context.Meets isKept first last target)

namespace SchemaNode.Leaves

variable {node : SchemaNode} {members : List SchemaNode} {traits : NodeTraits}
  {properties : List (Property SchemaNode)} {additional : Option SchemaNode}
  {kind : CompositionKind} {discriminator : Option Discriminator}

/-- An array leaves what its items do. -/
theorem array (keeps : last.Keeps isKept) (leaves : node.Leaves context isKept first last) :
    SchemaNode.Leaves context isKept first last ⟨.array node, traits⟩ := by
  have inside {depth : Nat}
      (stands : (Task.expression ⟨.array node, traits⟩ depth).Stands context isKept first last) :=
    leaves.used _ (.inl stands.items)
  refine ⟨fun _ stands target => ⟨fun uses => ?_, fun refers => ?_⟩,
    fun _ stands target => ⟨fun contributes => ?_, fun refers => ?_⟩⟩
  · cases uses with
    | items uses => exact (inside (Task.Stands.settled keeps stands) target).1 uses
  · cases refers with
    | items refers => exact (inside (Task.Stands.settled keeps stands) target).2 refers
  · cases contributes with
    | items uses => exact (inside (stands.contributedType rfl) target).1 uses
  · cases refers with
    | items refers => exact (inside (stands.contributedType rfl) target).2 refers

/-- A map leaves what its values do. -/
theorem map (keeps : last.Keeps isKept) (leaves : node.Leaves context isKept first last) :
    SchemaNode.Leaves context isKept first last ⟨.map node, traits⟩ := by
  have inside {depth : Nat} (stands : (Task.expression node depth).Stands context isKept first last) :=
    leaves.used _ (.inl stands)
  have used {depth : Nat} (stands : (Task.expression ⟨.map node, traits⟩ depth).Stands context isKept
      first last ∨ (Task.declare ⟨.map node, traits⟩ depth).Stands context isKept first last) :=
    inside (Task.Stands.values (Task.Stands.settled keeps stands))
  refine ⟨fun _ stands target => ⟨fun uses => ?_, fun refers => ?_⟩,
    fun _ stands target => ⟨fun contributes => ?_, fun refers => ?_⟩⟩
  · cases uses with
    | value uses => exact (used stands target).1 uses
  · cases refers with
    | value refers => exact (used stands target).2 refers
  · cases contributes with
    | value uses => exact (inside stands.contributedValues target).1 uses
  · cases refers with
    | value refers => exact (inside stands.contributedValues target).2 refers

/-- An object leaves what its properties do, and the values of further ones. -/
theorem object (keeps : last.Keeps isKept)
    (leaves : ∀ property ∈ properties, property.schema.Leaves context isKept first last)
    (furtherLeaves : ∀ value ∈ additional, value.Leaves context isKept first last) :
    SchemaNode.Leaves context isKept first last ⟨.object properties additional, traits⟩ := by
  have listed {property : Property SchemaNode} (isListed : property ∈ properties)
      (stands : (Task.expression property.schema 0).Stands context isKept first last) :=
    (leaves property isListed).used _ (.inl stands)
  have further {value : SchemaNode} (isValue : value ∈ additional)
      (stands : (Task.expression value 0).Stands context isKept first last) :=
    (furtherLeaves value isValue).used _ (.inl stands)
  refine ⟨fun _ stands target => ?_, fun _ stands target => ?_⟩
  -- As a use, a record keeps what its fields and further values mention.
  · obtain ⟨fields, others⟩ := Task.Stands.usedRecord keeps stands
    refine ⟨fun uses => ?_, fun refers => ?_⟩
    · cases uses with
      | property isListed uses => exact (listed isListed (fields _ isListed) target).1 uses
      | additional isValue uses => exact (further isValue (others _ isValue) target).1 uses
    · cases refers with
      | property isListed refers => exact (listed isListed (fields _ isListed) target).2 refers
      | additional isValue refers => exact (further isValue (others _ isValue) target).2 refers
  -- So does a record that is contributed, whose fields are those of the merged one.
  · obtain ⟨fields, others⟩ := stands.contributedRecord
    refine ⟨fun contributes => ?_, fun refers => ?_⟩
    · cases contributes with
      | property isListed uses => exact (listed isListed (fields _ isListed) target).1 uses
      | additional isValue uses => exact (further isValue (others _ isValue) target).1 uses
    · cases refers with
      | property isListed refers => exact (listed isListed (fields _ isListed) target).2 refers
      | additional isValue refers => exact (further isValue (others _ isValue) target).2 refers

/-- A reference leaves the schema to which it refers. -/
theorem reference (keeps : last.Keeps isKept) (target : String) :
    SchemaNode.Leaves context isKept first last ⟨.reference target, traits⟩ := by
  have retains {depth : Nat} (stands : (Task.expression ⟨.reference target, traits⟩ depth).Stands
      context isKept first last ∨ (Task.declare ⟨.reference target, traits⟩ depth).Stands context
        isKept first last) : context.Retains isKept last target :=
    Task.Stands.use (Task.Stands.settled keeps stands)
  refine ⟨fun _ stands other => ⟨fun uses => ?_, fun refers => ?_⟩,
    fun _ stands => absurd stands Task.Stands.not_contributedReference⟩
  · cases uses
    exact retains stands
  · cases refers
    exact .inl (retains stands)

/-- An intersection leaves what its members do, and the schemas to which they refer. -/
theorem intersection (keeps : last.Keeps isKept)
    (leaves : ∀ member ∈ members, member.Leaves context isKept first last) :
    SchemaNode.Leaves context isKept first last ⟨.composed .allOf members discriminator, traits⟩ := by
  have joined {member : SchemaNode} (isMember : member ∈ members) {depth : Nat}
      (joins : ∀ member ∈ members, member.Joins context isKept first last depth) (target : String) :
      (member.Contributes target → context.Retains isKept last target) ∧
        (member.Refers target → context.Meets isKept first last target) := by
    rcases joins member isMember with ⟨other, traits, rfl, meets⟩ | stands
    · -- What a reference contributes is not written in it.
      refine ⟨fun contributes => ?_, fun refers => ?_⟩
      · cases contributes
      · cases refers with
        | reference => exact meets
    · exact (leaves member isMember).contributed _ stands target
  refine ⟨fun _ stands target => ?_,
    fun _ stands target => ⟨fun contributes => ?_, fun refers => ?_⟩⟩
  · have declared := stands.elim (Task.Stands.promoted keeps rfl) id
    have joins := Task.Stands.joins keeps (.inl declared)
    refine ⟨fun uses => ?_, fun refers => ?_⟩
    · cases uses with
      | only isOnly => exact declared.declaredIntersection.only isOnly
      | member isMember contributes => exact (joined isMember joins target).1 contributes
      | case isChoice | mapping isChoice => exact absurd rfl isChoice
    · cases refers with
      | member isMember refers => exact (joined isMember joins target).2 refers
      | mapping isChoice => exact absurd rfl isChoice
  · cases contributes with
    | member isMember contributes =>
      exact (joined isMember (Task.Stands.joins keeps (.inr stands)) target).1 contributes
  · cases refers with
    | member isMember refers =>
      exact (joined isMember (Task.Stands.joins keeps (.inr stands)) target).2 refers
    | mapping isChoice => exact absurd rfl isChoice

/-- A choice leaves what its cases do, and what its discriminator leads to. -/
theorem choice (keeps : last.Keeps isKept) (isChoice : kind ≠ .allOf)
    (leaves : ∀ member ∈ members, member.Leaves context isKept first last)
    (distinct : ∀ found ∈ discriminator, found.mapping.keys.Nodup) :
    SchemaNode.Leaves context isKept first last ⟨.composed kind members discriminator, traits⟩ := by
  refine ⟨fun _ stands target => ?_,
    fun _ stands => absurd stands (Task.Stands.not_contributedChoice isChoice)⟩
  obtain ⟨cases, mapped⟩ :=
    Task.Stands.declaredChoice keeps isChoice (stands.elim (Task.Stands.promoted keeps rfl) id)
  -- Every case but null has been used, so that the induction hypothesis tells of all below it.
  have chosen {member : SchemaNode} (isMember : member ∈ members)
      (notNull : member.kind.isNull = false) :=
    (leaves member isMember).used _ (.inl (cases member isMember notNull)) target
  refine ⟨fun uses => ?_, fun refers => ?_⟩
  · cases uses with
    | @case _ _ _ _ member _ _ isMember uses =>
      cases isNull : member.kind.isNull with
      | false => exact (chosen isMember isNull).1 uses
      | true => cases uses <;> cases isNull
    -- The targets of the mapping have been looked up beside the cases.
    | mapping _ isMapped => exact mapped _ rfl _ target isMapped
    | only | member => exact absurd rfl isChoice
  · cases refers with
    | @member _ _ _ _ member _ isMember refers =>
      cases isNull : member.kind.isNull with
      | false => exact (chosen isMember isNull).2 refers
      | true => cases refers <;> cases isNull
    | @mapping _ _ _ found _ _ isMapped =>
      obtain ⟨⟨value, _⟩, isEntry, rfl⟩ := List.mem_map.mp isMapped
      exact .inl (mapped _ rfl value _ (Table.get?_ofEntries (distinct found rfl) isEntry))

end SchemaNode.Leaves

/-- What a node uses is retained where it stands, and all to which it refers is met. -/
theorem SchemaNode.leaves (keeps : last.Keeps isKept) (node : SchemaNode) (keyed : node.kind.Keyed) :
    node.Leaves context isKept first last := by
  induction node using inductionOn with
  | primitive | enum | any | null =>
    -- Nothing stands inside these.
    refine ⟨fun _ _ _ => ⟨fun uses => ?_, fun refers => ?_⟩,
      fun _ _ _ => ⟨fun contributes => ?_, fun refers => ?_⟩⟩
    · cases uses
    · cases refers
    · cases contributes
    · cases refers
  | array items traits ih =>
    cases keyed with
    | array keyed => exact .array keeps (ih keyed)
  | map value traits ih =>
    cases keyed with
    | map keyed => exact .map keeps (ih keyed)
  | object properties additional traits ih furtherIh =>
    cases keyed with
    | object keyed alsoKeyed =>
      exact .object keeps (fun property isListed => ih property isListed (keyed property isListed))
        fun value isValue => furtherIh value isValue (alsoKeyed value isValue)
  | composed kind members discriminator traits ih =>
    cases keyed with
    | composed keyed distinct =>
      have leaves (member : SchemaNode) (isMember : member ∈ members) :=
        ih member isMember (keyed member isMember)
      by_cases isIntersection : kind = .allOf
      · exact isIntersection ▸ .intersection keeps leaves
      · exact .choice keeps isIntersection leaves distinct
  | reference target traits => exact .reference keeps target

/-- A node without nodes inside it is declared as the type that it is. -/
theorem Yields.declaresConstant {node : SchemaNode} {depth : Nat} {type : TypeExpr}
    (isConstant : node.constant? = some type) :
    Yields context expanding start (.declare node depth) (.shape (.alias type)) start :=
  .declarePlain (SchemaNode.isDeclared_of_constant? isConstant) (Surroundings.notes_refl start)
    (.constant isConstant)

/--
A component schema whose contribution stands is retained, or everything to which it refers is met; in
either case it could be declared.
-/
theorem Task.Stands.of_schema {schema : String} {node : SchemaNode} (keeps : last.Keeps isKept)
    (found : context.model.node? schema = some node) (keyed : node.kind.Keyed)
    (stands : (Task.schema schema).Stands context isKept first last) :
    (∃ name, context.emitted? schema = some name ∧ isKept name) ∨
      (Task.declare node 0).Yielded context first last ∧
        ∀ target, node.Refers target → context.Meets isKept first last target := by
  obtain ⟨value, ⟨expanding, start, _, consistent, before, yields, after⟩, notUnion, kept⟩ := stands
  -- A constant refers to nothing, and its type has been declared as it is.
  have constant {type : TypeExpr} (isConstant : node.constant? = some type) :
      (∃ name, context.emitted? schema = some name ∧ isKept name) ∨
        (Task.declare node 0).Yielded context first last ∧
          ∀ target, node.Refers target → context.Meets isKept first last target :=
    .inr ⟨(@Yields.declaresConstant _ expanding _ _ 0 _ isConstant).yielded consistent before
        ((yields.advances consistent).2.trans after),
      fun target refers => absurd refers (SchemaNode.not_refers_of_constant? isConstant target)⟩
  cases yields with
  | schemaChoice => cases notUnion
  | schema _ isFound _ emitted inside =>
    cases found.symm.trans isFound
    cases inside with
    -- What is taken as a whole contributes its own name, and that is kept.
    | expandAtomic =>
      refine .inl ⟨_, emitted, kept _ ?_⟩
      simp [Value.mentions, MemberShape.mentions, MemberShape.types]
    | expandRestriction => exact constant rfl
    | @expandRecord _ _ _ properties additional traits _ shape inside =>
      -- An object with properties is declared with the same fields; one without them is a constant.
      cases isDeclared : SchemaNode.isDeclared ⟨.object properties additional, traits⟩ with
      | true =>
        have declares : Yields context _ start (.declare ⟨.object properties additional, traits⟩ 0) _ _ :=
          .declareRecord isDeclared (Surroundings.notes_refl start) inside
        have gives := declares.gives consistent before after
        refine .inr ⟨gives.yielded, fun target => ((SchemaNode.leaves keeps _ keyed).used 0
          (.inr ⟨_, gives, rfl, ?_⟩) target).2⟩
        simpa [Value.mentions, Shape.mentions_record, MemberShape.mentions, MemberShape.types] using kept
      | false =>
        simp only [SchemaNode.isDeclared, Bool.not_eq_false', Bool.and_eq_true, List.isEmpty_iff,
          Option.isNone_iff_eq_none] at isDeclared
        obtain ⟨rfl, rfl⟩ := isDeclared
        exact constant rfl
    | expandReference looked inside =>
      -- A reference has been looked up, and what it leads to stands in its turn.
      obtain ⟨between, grows⟩ := looked.advances consistent
      obtain ⟨_, behind⟩ := inside.advances between
      refine .inr ⟨Yields.yielded (.declarePlain rfl (Surroundings.notes_refl _) (.use looked))
        consistent before (behind.trans after), fun target refers => ?_⟩
      cases refers
      exact .inr ⟨(behind.trans after).ready looked.ready_reference,
        _, inside.gives between (before.trans grows) after, notUnion, kept⟩
    | expandIntersection inside =>
      refine .inr ⟨?_, fun target refers => ?_⟩
      · cases inside with
        | contributeType isType => cases isType
        | contributeChoice isChoice => exact absurd rfl isChoice
        | contributeIntersection members takes =>
          obtain ⟨_, behind⟩ := takes.advances (members.advances consistent).1
          exact Yields.yielded (.declareIntersection (Surroundings.notes_refl _) members) consistent
            before (behind.trans after)
      · exact ((SchemaNode.leaves keeps _ keyed).contributed 0
          ⟨_, inside.gives consistent before after, notUnion, kept⟩ target).2 refers

end ApiTypes
