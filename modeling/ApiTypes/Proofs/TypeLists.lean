import ApiTypes.Proofs.Composition
import ApiTypes.Proofs.Normalization

/-!
Lists of types. A schema with several types is a choice between its types, each of which is lowered as if
it stood alone.
-/

namespace ApiTypes

/-- The types other than null are each kept where they come first. -/
theorem TypeKeyword.nonNull_eq_eraseDups (keyword : TypeKeyword) :
    keyword.nonNull = (keyword.types.filter fun type => type ≠ .null).eraseDups := by
  unfold nonNull
  -- Types are added at the end, and so the induction is on the end of the list.
  induction keyword.types using List.reverseRecOn with
  | nil => rfl
  | append_singleton types last ih =>
    rw [List.foldl_append, ih, List.filter_append]
    by_cases isNull : last = .null
    · simp [isNull]
    · rw [List.filter_cons_of_pos (by simpa using isNull), List.filter_nil, eraseDups_concat]
      simp [isNull]

/-- Going through a list gives what its steps give. -/
theorem Reporting.Gives.mapM {α β : Type} {entries : List α} {body : α → Reporting β} {value : α → β}
    (each : ∀ entry ∈ entries, (body entry).Gives (value entry)) :
    Reporting.Gives (entries.mapM body) (entries.map value) := by
  induction entries with
  | nil => exact .pure _
  | cons entry rest ih =>
    have ⟨first, later⟩ := List.forall_mem_cons.mp each
    rw [List.mapM_cons]
    exact first.bind ((ih later).map _)

namespace Keywords

variable {σ τ : Type} {keywords : Keywords σ}

/-- A schema has neither members nor listed values, so that its types decide what it is. -/
structure NamesTypesOnly (keywords : Keywords σ) : Prop where
  allOf : keywords.allOf = []
  oneOf : keywords.oneOf = []
  anyOf : keywords.anyOf = []
  values : keywords.values = []
  constant : keywords.constant = none

/-- The same keywords with one type alone. -/
def withType (keywords : Keywords σ) (type : SchemaType) : Keywords σ :=
  { keywords with type := some (.single type) }

/-- Another type does not bring members or values. -/
theorem NamesTypesOnly.withType (only : keywords.NamesTypesOnly) (type : SchemaType) :
    (keywords.withType type).NamesTypesOnly :=
  ⟨only.allOf, only.oneOf, only.anyOf, only.values, only.constant⟩

/-- Around other schemas there are no members or values either. -/
theorem NamesTypesOnly.map (only : keywords.NamesTypesOnly) (transform : σ → τ) :
    (keywords.map transform).NamesTypesOnly where
  allOf := List.map_eq_nil_iff.mpr only.allOf
  oneOf := List.map_eq_nil_iff.mpr only.oneOf
  anyOf := List.map_eq_nil_iff.mpr only.anyOf
  values := only.values
  constant := only.constant

/-- The types do not depend on the schemas inside. -/
theorem map_withType (transform : σ → τ) (type : SchemaType) :
    (keywords.withType type).map transform = (keywords.map transform).withType type := rfl

end Keywords

namespace Lowering

open Reporting (Gives)
open Normalization (constraintsOf admitsNull)

/-- A kind is one for a type: it accepts the constraints of that type, and has no members. -/
structure IsOfType (type : SchemaType) (kind : NodeKind SchemaNode) : Prop where
  accepts : kind.constraintTarget = targetOfType type
  notComposed : ∀ composition members discriminator,
    kind ≠ .composed composition members discriminator

/-- A node keeps its constraints if its kind is one for a single type. -/
theorem keeps_constraints (kind : NodeKind SchemaNode) (constraints : Constraints) :
    (∀ composition members discriminator, kind ≠ .composed composition members discriminator) →
      (match kind with
        | .composed .. => {}
        | _ => constraints) = constraints := by
  intro notComposed
  cases kind with
  | composed composition members discriminator =>
    exact absurd rfl (notComposed composition members discriminator)
  | primitive | enum | array | map | object | reference | any | null => rfl

section

variable {keywords : Keywords PlacedNode}

/-- The kind for a single type is one for the type, whatever else is said. -/
theorem steady_single_isOfType (each : keywords.Each PlacedNode.IsSteady) (type : SchemaType) :
    Steady (single type keywords) (IsOfType type) := by
  unfold single
  cases type with
  | array =>
    unfold array
    cases isItems : keywords.items with
    | none => exact .pure ⟨rfl, nofun⟩
    | some items =>
      exact ⟨.array items.node, ⟨rfl, nofun⟩, fun _ => (each.items items isItems _).map _⟩
  | object =>
    refine ⟨_, ?_, gives_object each⟩
    unfold objectKind
    -- Without properties an object is a map; both are of the type.
    split
    · split
      · exact ⟨rfl, nofun⟩
      · exact ⟨rfl, nofun⟩
    · exact ⟨rfl, nofun⟩
  | string | integer | number | boolean | null => exact .pure ⟨rfl, nofun⟩

/-- Each of several types is lowered by itself, with the constraints that apply to it. -/
theorem gives_multiType (types : List SchemaType) {kindOf : SchemaType → NodeKind SchemaNode}
    (isKind : ∀ type ∈ types, ∀ path, (single type keywords path).Gives (kindOf type))
    (version : SpecVersion) (path : String) :
    (multiType types keywords version path).Gives
      (.composed .anyOf (types.map fun type => ⟨kindOf type,
        { constraints := (constraintsOf keywords.toPlainKeywords).restrictedTo (targetOfType type) }⟩)
        none) := by
  unfold multiType
  -- All families are normalized at once, and then restricted for each type.
  simp only [(gives_normalize keywords .every version path).collect_eq,
    Constraints.restrictedTo_every]
  exact (Gives.mapM fun type isListed => (isKind type isListed path).map _).map _

/-- A single type decides the kind. -/
theorem kind_of_single (only : keywords.NamesTypesOnly) {type : SchemaType}
    (isTypes : keywords.type.map TypeKeyword.nonNull = some [type]) (version : SpecVersion)
    (path : String) :
    kind keywords version path = do return (← single type keywords path, false) := by
  unfold kind
  rw [only.allOf, only.oneOf, only.anyOf, only.values, only.constant, isTypes]
  rfl

/-- Several types give a choice between them. -/
theorem kind_of_several (only : keywords.NamesTypesOnly) {types : List SchemaType}
    (several : 2 ≤ types.length) (isTypes : keywords.type.map TypeKeyword.nonNull = some types)
    (version : SpecVersion) (path : String) :
    kind keywords version path = do return (← multiType types keywords version path, false) := by
  obtain ⟨first, second, rest, rfl⟩ : ∃ first second rest, types = first :: second :: rest := by
    match types, several with
    | first :: second :: rest, _ => exact ⟨first, second, rest, rfl⟩
  unfold kind
  rw [only.allOf, only.oneOf, only.anyOf, only.values, only.constant, isTypes]
  rfl

/-- The node for a single type has the kind for that type and the constraints that apply to it. -/
theorem node_of_single (only : keywords.NamesTypesOnly) {type : SchemaType}
    (notNull : type ≠ .null) (isType : keywords.type = some (.single type))
    {found : NodeKind SchemaNode} (isOfType : IsOfType type found)
    (isKind : ∀ path, (single type keywords path).Gives found) (version : SpecVersion) :
    (node version keywords : PlacedNode).node.kind = found ∧
      (node version keywords : PlacedNode).node.traits.constraints =
        (constraintsOf keywords.toPlainKeywords).restrictedTo (targetOfType type) := by
  have isTypes : keywords.type.map TypeKeyword.nonNull = some [type] := by
    rw [isType]
    simp [TypeKeyword.nonNull, TypeKeyword.types, notNull]
  -- The constraints are chosen by what the kind accepts, and that is what the type accepts.
  have accepts : acceptedTarget keywords.toPlainKeywords found = targetOfType type := by
    rw [acceptedTarget, isTypes]
    exact isOfType.accepts
  have isFound : (kind keywords version "").Gives (found, false) := by
    rw [kind_of_single only isTypes]
    exact (isKind "").map fun kind => (kind, false)
  have isNode : (node version keywords : PlacedNode).node = _ :=
    (isFound.bind ((gives_normalize keywords _ version "").map _)).collect_eq
  rw [isNode]
  exact ⟨rfl, (keeps_constraints found _ isOfType.notComposed).trans (by rw [accepts])⟩

/-- The node for several types is a choice between them, and admits null if that is listed as well. -/
theorem node_of_several (only : keywords.NamesTypesOnly) {type : TypeKeyword}
    (isType : keywords.type = some type) (several : 2 ≤ type.nonNull.length)
    {kindOf : SchemaType → NodeKind SchemaNode}
    (isKind : ∀ type path, (single type keywords path).Gives (kindOf type)) (version : SpecVersion) :
    (node version keywords : PlacedNode).node.kind =
        .composed .anyOf (type.nonNull.map fun type => ⟨kindOf type,
          { constraints :=
              (constraintsOf keywords.toPlainKeywords).restrictedTo (targetOfType type) }⟩) none ∧
      (node version keywords : PlacedNode).node.traits.nullable = type.containsNull := by
  -- One type alone cannot be several, so the types stand in a list, and a list can say null.
  have isMultiForm : type.isMultiForm = true := by
    cases type with
    | several types => rfl
    | single type => cases type <;> simp [TypeKeyword.nonNull, TypeKeyword.types] at several
  have isFound : (kind keywords version "").Gives (.composed .anyOf (type.nonNull.map fun type =>
      ⟨kindOf type, { constraints :=
        (constraintsOf keywords.toPlainKeywords).restrictedTo (targetOfType type) }⟩) none, false) := by
    rw [kind_of_several only several (by rw [isType, Option.map_some])]
    exact (gives_multiType _ (fun type _ => isKind type) version "").map fun kind => (kind, false)
  have isNode : (node version keywords : PlacedNode).node = _ :=
    (isFound.bind ((gives_normalize keywords _ version "").map _)).collect_eq
  rw [isNode]
  refine ⟨rfl, ?_⟩
  rw [Bool.or_false, admitsNull, isType, Option.filter_some, if_pos isMultiForm]
  rfl

end

end Lowering

/--
A schema with several types is a choice between them in the order in which they come first; each is
lowered as the same schema with that type alone, and null is admitted if it is among the types.
-/
theorem Schema.lower_several {keywords : Keywords Schema} (only : keywords.NamesTypesOnly)
    {listed : TypeKeyword} (isListed : keywords.type = some listed)
    (several : 2 ≤ (listed.types.filter fun type => type ≠ .null).eraseDups.length)
    (version : SpecVersion) (path : String) :
    ∃ members,
      ((inline keywords).lower version path).collect.1.kind = .composed .anyOf members none ∧
      (members.map fun member => (member.kind, member.traits.constraints)) =
        ((listed.types.filter fun type => type ≠ .null).eraseDups.map fun type =>
          let alone := ((inline (keywords.withType type)).lower version path).collect.1
          (alone.kind, alone.traits.constraints)) ∧
      (((inline keywords).lower version path).collect.1.traits.nullable = true ↔
        .null ∈ listed.types) := by
  have notNull : ∀ type ∈ listed.nonNull, type ≠ .null := by
    simp [listed.nonNull_eq_eraseDups]
  rw [← listed.nonNull_eq_eraseDups] at several ⊢
  choose kindOf isOfType isKind using fun type =>
    Lowering.steady_single_isOfType (each_isSteady version keywords) type
  have ⟨isChoice, admitsNull⟩ :=
    Lowering.node_of_several (only.map (lower version)) isListed several isKind version
  -- For a single type everything but the types is read, and that is the same.
  have isAlone (type : SchemaType) (isType : type ∈ listed.nonNull) :
      ((inline (keywords.withType type)).node version).kind = kindOf type ∧
        ((inline (keywords.withType type)).node version).traits.constraints =
          (Normalization.constraintsOf keywords.toPlainKeywords).restrictedTo
            (Lowering.targetOfType type) := by
    rw [node_inline, Keywords.map_withType]
    exact Lowering.node_of_single ((only.map (lower version)).withType type) (notNull type isType)
      rfl (isOfType type) (isKind type) version
  rw [← node_inline] at isChoice admitsNull
  simp only [(gives_lower version _ path).collect_eq]
  refine ⟨_, isChoice, ?_, ?_⟩
  · rw [List.map_map]
    refine List.map_congr_left fun type isType => ?_
    obtain ⟨sameKind, sameConstraints⟩ := isAlone type isType
    exact (Prod.ext sameKind sameConstraints).symm
  · rw [show (lower version (inline keywords)).node.traits.nullable = _ from admitsNull]
    simp [TypeKeyword.containsNull]

/-- Keywords of short texts, of small integers, and of null. -/
def shortTextOrSmallInteger : Keywords Schema where
  type := some (.several [.string, .integer, .null])
  maxLength := some 4
  maximum := some (.ofInt 9)

/-- Short texts or small integers are a choice of two: of the two constraints each member has its own. -/
theorem Schema.lower_several_shortTextOrSmallInteger :
    let lowered := ((inline shortTextOrSmallInteger).lower .v31 "#").collect.1
    (∃ members, lowered.kind = .composed .anyOf members none ∧
      (members.map fun member => (member.kind.label, member.traits.constraints.present)) =
        [("string", [.maxLength]), ("integer", [.maximum])]) ∧
      lowered.traits.nullable = true := by
  have only : shortTextOrSmallInteger.NamesTypesOnly := ⟨rfl, rfl, rfl, rfl, rfl⟩
  obtain ⟨members, isChoice, asAlone, nullable_iff⟩ :=
    Schema.lower_several only rfl (by decide) .v31 "#"
  refine ⟨⟨members, isChoice, ?_⟩, nullable_iff.mpr (by decide)⟩
  have labels := congrArg (List.map fun pair => (pair.1.label, pair.2.present)) asAlone
  rw [List.map_map, List.map_map] at labels
  exact labels.trans (by decide)

end ApiTypes
