import ApiTypes.Proofs.Satisfaction.Equivalence
import ApiTypes.Proofs.Satisfaction.Intersection

/-! Merging the members of an intersection: a value that satisfies all of them satisfies the merged shape. -/

namespace ApiTypes

variable {dialect : Dialect} {shapes : String → Option Shape} {registry : Registry}

/-- A value satisfies a type whose divisor fits a limit. -/
def Dialect.Suits (dialect : Dialect) (shapes : String → Option Shape) (limit : Nat) (type : TypeExpr)
    (value : Json) : Prop :=
  dialect.Accepts shapes type value ∧ type.constraints.Fits limit

/-- The value of a field satisfies its type, whose divisor fits a limit, and it is there if required. -/
structure Dialect.SuitsField (dialect : Dialect) (shapes : String → Option Shape) (limit : Nat)
    (members : List (String × Json)) (field : Field) : Prop where
  type : ∀ value, (field.key, value) ∈ members → dialect.Suits shapes limit field.type value
  required : field.required = true → ∃ value, (field.key, value) ∈ members

/-- Members satisfy an object type, with divisors that fit a limit. -/
structure Dialect.SuitsRecord (dialect : Dialect) (shapes : String → Option Shape) (limit : Nat)
    (members : List (String × Json)) (shape : RecordShape) : Prop where
  fields : ∀ field ∈ shape.fields, dialect.SuitsField shapes limit members field
  further : ∀ type ∈ shape.additional, ∀ name value, (name, value) ∈ members →
    (∀ field ∈ shape.fields, field.key ≠ name) → dialect.Accepts shapes type value

/-- A value satisfies what a member contributes to an intersection. -/
def Dialect.SuitsMember (dialect : Dialect) (shapes : String → Option Shape) (limit : Nat)
    (value : Json) : MemberShape → Prop
  | .record shape =>
    ∃ members, value = .object members ∧ dialect.SuitsRecord shapes limit members shape
  | .required names => ∀ members, value = .object members → ∀ name ∈ names,
    ∃ value, (name, value) ∈ members
  | .scalar type => dialect.Suits shapes limit type value
  | .unconstrained | .union => True

/-- A value satisfies what is declared, with divisors that fit a limit. -/
def Dialect.SuitsShape (dialect : Dialect) (shapes : String → Option Shape) (limit : Nat)
    (value : Json) : Shape → Prop
  | .record shape =>
    ∃ members, value = .object members ∧ dialect.SuitsRecord shapes limit members shape
  | .alias type => dialect.Suits shapes limit type value
  | .enum base values => dialect.AcceptsShape shapes (.enum base values) value
  | .union shape => dialect.AcceptsShape shapes (.union shape) value

/-- A value satisfies what is declared whether or not its divisors fit. -/
theorem Dialect.SuitsShape.acceptsShape {limit : Nat} {value : Json} {shape : Shape}
    (suits : dialect.SuitsShape shapes limit value shape) : dialect.AcceptsShape shapes shape value := by
  cases shape with
  | record shape =>
    obtain ⟨members, isObject, inside⟩ := suits
    exact ⟨members, isObject, fun field isField value isMember =>
      ((inside.fields field isField).type value isMember).1,
      fun field isField => (inside.fields field isField).required, inside.further⟩
  | «alias» => exact suits.1
  | enum | union => exact suits

namespace Intersection

variable {limit : Nat} (positive : 0 < limit) (small : limit ≤ 2 ^ 53)
  (kept : ∀ name declaration, registry.get? name = some declaration →
    shapes name = some declaration.shape)

include positive small kept in
/-- A value that satisfies both types of a field satisfies the merged one. -/
theorem suits_mergedField {existing incoming : Field} {value : Json}
    (compatible : Compatible registry.equivalent existing.type.kind incoming.type.kind)
    (old : dialect.Suits shapes limit existing.type value)
    (new : dialect.Suits shapes limit incoming.type value) :
    dialect.Suits shapes limit (mergedField existing incoming).1.type value := by
  have agrees : Agrees registry.equivalent existing.type.kind incoming.type.kind := .inr compatible
  have alike := TypeKind.isBounded_of_agrees agrees
  obtain ⟨name, ⟨oldKind, oldNullable, oldConstraints⟩⟩ := existing
  obtain ⟨_, ⟨newKind, newNullable, newConstraints⟩⟩ := incoming
  obtain ⟨oldAccepts, oldFits⟩ := old
  obtain ⟨newAccepts, newFits⟩ := new
  refine ⟨?_, Constraints.fits_intersect positive small oldFits newFits⟩
  simp only [mergedField] at oldAccepts newAccepts agrees alike oldFits newFits ⊢
  rw [Dialect.accepts_iff] at oldAccepts newAccepts ⊢
  have admitsNull (constraints : Constraints) : dialect.Admits constraints .null := trivial
  rcases oldAccepts with ⟨oldNull, rfl⟩ | ⟨oldInside, oldWithin⟩
  · rcases newAccepts with ⟨newNull, -⟩ | ⟨newInside, -⟩
    · exact .inl ⟨by simp [oldNull, newNull], rfl⟩
    · -- Null is of the second kind, and so of the first one.
      exact .inr ⟨Dialect.accepts_of_agrees kept agrees newInside, fun _ => admitsNull _⟩
  · rcases newAccepts with ⟨-, rfl⟩ | ⟨-, newWithin⟩
    · exact .inr ⟨oldInside, fun _ => admitsNull _⟩
    · exact .inr ⟨oldInside, fun isBounded => Dialect.admits_intersect positive small oldFits newFits
        (oldWithin isBounded) (newWithin (alike ▸ isBounded))⟩

variable {members : List (String × Json)}

include positive small kept in
/-- A field that is added leaves fields that suit, and each of their names. -/
theorem suits_addsField {incoming : Field} {fields result : List Field} {notes : List MergeNote}
    (adds : AddsField registry.equivalent incoming fields (result, notes))
    (old : ∀ field ∈ fields, dialect.SuitsField shapes limit members field)
    (new : dialect.SuitsField shapes limit members incoming) :
    (∀ field ∈ result, dialect.SuitsField shapes limit members field) ∧
      ∀ field ∈ incoming :: fields, ∃ found ∈ result, found.key = field.key := by
  cases adds with
  | last =>
    refine ⟨List.forall_mem_append.mpr ⟨old, List.forall_mem_singleton.mpr new⟩, ?_⟩
    exact fun field isField => ⟨field, by grind, rfl⟩
  | @merged before after existing _ same compatible =>
    have ⟨first, later⟩ := List.forall_mem_append.mp old
    have ⟨suits, others⟩ := List.forall_mem_cons.mp later
    have merged : dialect.SuitsField shapes limit members (mergedField existing incoming).1 := by
      refine ⟨fun value isMember => ?_, fun required => ?_⟩
      · exact suits_mergedField positive small kept compatible (suits.type value isMember)
          (new.type value (same ▸ isMember))
      · rw [required_mergedField, Bool.or_eq_true] at required
        exact required.elim suits.required fun isNew => same ▸ new.required isNew
    refine ⟨List.forall_mem_append.mpr ⟨first, List.forall_mem_cons.mpr ⟨merged, others⟩⟩, ?_⟩
    -- The merged field stands for both of those it is merged from.
    have isThere : (mergedField existing incoming).1 ∈
        before ++ (mergedField existing incoming).1 :: after := by simp
    intro field isField
    rcases List.mem_cons.mp isField with rfl | isOld
    · exact ⟨_, isThere, same⟩
    rcases List.mem_append.mp isOld with isBefore | isHere
    · exact ⟨field, by simp [isBefore], rfl⟩
    rcases List.mem_cons.mp isHere with rfl | isAfter
    · exact ⟨_, isThere, rfl⟩
    · exact ⟨field, by simp [isAfter], rfl⟩

/-- Further properties remain so when fields are only added. -/
theorem further_mono {fields more : List Field} {type : TypeExpr}
    (further : ∀ name value, (name, value) ∈ members → (∀ field ∈ fields, field.key ≠ name) →
      dialect.Accepts shapes type value)
    (keys : ∀ field ∈ fields, ∃ found ∈ more, found.key = field.key) :
    ∀ name value, (name, value) ∈ members → (∀ field ∈ more, field.key ≠ name) →
      dialect.Accepts shapes type value := by
  -- A property that none of more fields has is one that none of the fields has.
  intro name value isMember isOther
  refine further name value isMember fun field isField isName => ?_
  obtain ⟨found, isFound, sameKey⟩ := keys field isField
  exact isOther found isFound (sameKey.trans isName)

include positive small kept in
/-- Fields that are added to an object type leave it one that members satisfy. -/
theorem suits_addFields {incoming : List Field} {shape result : RecordShape}
    {before notes : List MergeNote}
    (isAdded : addFields registry.equivalent incoming (shape, before) = .ok (result, notes))
    (old : dialect.SuitsRecord shapes limit members shape)
    (new : ∀ field ∈ incoming, dialect.SuitsField shapes limit members field) :
    dialect.SuitsRecord shapes limit members result ∧
      (∀ field ∈ incoming, ∃ found ∈ result.fields, found.key = field.key) ∧
      ∀ field ∈ shape.fields, ∃ found ∈ result.fields, found.key = field.key := by
  -- Names of fields are followed through every step, as further properties are told by them.
  induction incoming generalizing shape before with
  | nil =>
    cases isAdded
    exact ⟨old, by simp, fun field isField => ⟨field, isField, rfl⟩⟩
  | cons field rest ih =>
    have ⟨first, others⟩ := List.forall_mem_cons.mp new
    obtain ⟨grown, more, adds, isLater⟩ := addFields_cons_eq_ok_iff.mp isAdded
    obtain ⟨suits, keys⟩ := suits_addsField positive small kept adds old.fields first
    have ⟨isKey, oldKeys⟩ := List.forall_mem_cons.mp keys
    have middle : dialect.SuitsRecord shapes limit members { shape with fields := grown } :=
      ⟨suits, fun type isType => further_mono (old.further type isType) oldKeys⟩
    obtain ⟨whole, newKeys, middleKeys⟩ := ih isLater middle others
    refine ⟨whole, List.forall_mem_cons.mpr ⟨?_, newKeys⟩, fun field isField => ?_⟩
    · obtain ⟨other, isOther, sameKey⟩ := isKey
      obtain ⟨last, isLast, lastKey⟩ := middleKeys other isOther
      exact ⟨last, isLast, lastKey.trans sameKey⟩
    · obtain ⟨other, isOther, sameKey⟩ := oldKeys field isField
      obtain ⟨last, isLast, lastKey⟩ := middleKeys other isOther
      exact ⟨last, isLast, lastKey.trans sameKey⟩

include positive small kept in
/-- Members that satisfy all object types satisfy the merged one. -/
theorem suits_mergeRecords {inputs : List IntersectionMember} {shape result : RecordShape}
    {before notes : List MergeNote}
    (isMerged : mergeRecords registry.equivalent inputs (shape, before) = .ok (result, notes))
    (old : dialect.SuitsRecord shapes limit members shape)
    (new : ∀ input ∈ inputs, dialect.SuitsMember shapes limit (.object members) input.shape) :
    dialect.SuitsRecord shapes limit members result := by
  -- Each member adds its fields; of further properties, the first type that is given remains.
  induction inputs generalizing shape before with
  | nil =>
    cases isMerged
    exact old
  | cons input rest ih =>
    have ⟨first, others⟩ := List.forall_mem_cons.mp new
    obtain ⟨incoming, whole, more, isRecord, isAdded, _, isLater⟩ :=
      mergeRecords_cons_eq_ok_iff.mp isMerged
    rw [isRecord] at first
    obtain ⟨_, same, suitsFirst⟩ := first
    cases same
    obtain ⟨suits, keys, _⟩ := suits_addFields positive small kept isAdded old suitsFirst.fields
    refine ih isLater ⟨suits.fields, fun type isType => ?_⟩ others
    rcases Option.or_eq_some_iff.mp isType with isOld | ⟨_, isNew⟩
    · exact suits.further type isOld
    · exact further_mono (suitsFirst.further type isNew) keys

/-- Fields that suit do so as well when those of members that are there are required. -/
theorem suits_requireFields {names : List String} {fields : List Field}
    (present : ∀ name ∈ names, ∃ value, (name, value) ∈ members)
    (suits : ∀ field ∈ fields, dialect.SuitsField shapes limit members field) :
    (∀ field ∈ (requireFields names fields).1, dialect.SuitsField shapes limit members field) ∧
      ∀ field ∈ fields, ∃ found ∈ (requireFields names fields).1, found.key = field.key := by
  rw [requireFields_eq]
  refine ⟨List.forall_mem_map.mpr fun field isField => ⟨(suits field isField).type, fun required => ?_⟩,
    fun field isField => ⟨_, List.mem_map_of_mem isField, rfl⟩⟩
  -- A field is required by its own record, or because its name is one of those that are there.
  rcases Bool.or_eq_true_iff.mp required with isRequired | isNamed
  · exact (suits field isField).required isRequired
  · exact present field.key (List.contains_iff_mem.mp isNamed)

include positive small kept in
/-- A value that satisfies all members of an intersection satisfies the merged shape. -/
theorem suits_mergeAllOf {inputs : List IntersectionMember} {merged : Merged} {value : Json}
    (isMerged : mergeAllOf inputs registry.equivalent = .ok merged)
    (suits : ∀ input ∈ inputs, dialect.SuitsMember shapes limit value input.shape ∧
      ∀ name ∈ input.reference, dialect.Accepts shapes (.named name) value) :
    dialect.SuitsShape shapes limit value merged.shape := by
  have typed (input : IntersectionMember) (isTyped : input ∈ inputs.filter isTyped) :
      dialect.SuitsMember shapes limit value input.shape :=
    (suits input (List.mem_filter.mp isTyped).1).1
  obtain ⟨noUnion, ⟨few, _, isSingle⟩ | ⟨several, whole, notes, isWhole, isRecord⟩⟩ :=
    mergeAllOf_cases isMerged
  · rw [isSingle]
    generalize isTyped : inputs.filter isTyped = only at few typed
    match only, few with
    | [], _ => exact ⟨.any, Constraints.fits_empty limit⟩
    | [input], _ =>
      have isInput : input ∈ inputs :=
        (List.mem_filter.mp (isTyped ▸ List.mem_singleton_self input)).1
      have suitsOnly := typed input (List.mem_singleton_self input)
      obtain ⟨label, reference, contribution⟩ := input
      cases reference with
      | some name => exact ⟨(suits _ isInput).2 name rfl, Constraints.fits_empty limit⟩
      | none =>
        cases contribution with
        | record shape => exact suitsOnly
        | scalar type => exact suitsOnly
        | required | unconstrained | union => exact ⟨.any, Constraints.fits_empty limit⟩
  · -- The first typed member is a record, so the value is an object.
    have nonempty : inputs.filter isTyped ≠ [] := fun isEmpty => by
      simp [isEmpty, isSingleRecord] at several
    obtain ⟨first, rest, isFirst⟩ := List.exists_cons_of_ne_nil nonempty
    have suitsFirst := typed first (isFirst ▸ List.mem_cons_self)
    obtain ⟨members, rfl⟩ : ∃ members, value = .object members := by
      rw [isFirst] at isWhole
      obtain ⟨label, reference, contribution⟩ := first
      cases contribution with
      | record shape =>
        obtain ⟨members, isObject, _⟩ := suitsFirst
        exact ⟨members, isObject⟩
      | _ => simp [mergeRecords] at isWhole
    have empty : dialect.SuitsRecord shapes limit members {} := ⟨by simp, by simp⟩
    have suitsWhole := suits_mergeRecords positive small kept isWhole empty typed
    have present : ∀ name ∈ requiredNames inputs, ∃ value, (name, value) ∈ members := by
      intro name isRequired
      obtain ⟨input, isInput, names, isShape, isName⟩ := (mem_requiredNames_iff inputs name).mp isRequired
      have required := (suits input isInput).1
      rw [isShape] at required
      exact required members rfl name isName
    obtain ⟨fields, keys⟩ := suits_requireFields present suitsWhole.fields
    rw [isRecord]
    exact ⟨members, rfl, fields, fun type isType => further_mono (suitsWhole.further type isType) keys⟩

end Intersection

end ApiTypes
