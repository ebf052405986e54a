import ApiTypes.Proofs.Outline

/-!
Outlines of what members contribute to an intersection. Contributions merge into what has the outline into
which their outlines merge, unless they say of the same properties what does not agree.
-/

namespace ApiTypes

/-- Whether members of an intersection say of the same properties what does not agree. -/
def CompositionError.isConflict : CompositionError → Bool
  | fieldConflict _ | additionalPropertiesConflict => true
  | nonObjectMember _ | nestedUnion _ | cyclicIntersection _ | emptyUnion => false

/-- Whether a type says nothing but what its constraints say. -/
def TypeExpr.isAny (type : TypeExpr) : Bool :=
  match type.kind with
  | .any => true
  | _ => false

/-- The name of a field and whether it is required. -/
def Field.entry (field : Field) : String × Bool := (field.key, field.required)

/-- The outline of an object type. -/
def RecordShape.outline (shape : RecordShape) : Outline :=
  .record (shape.fields.map Field.entry) shape.additional.isSome

/-- The outline of a contribution. -/
def MemberShape.outline : MemberShape → Outline
  | record shape => shape.outline
  | required names => .required names
  | unconstrained => .unconstrained
  | scalar type => .scalar type.isAny
  | union => .union

/-- The outline of the contribution of a member. -/
def IntersectionMember.outline (member : IntersectionMember) : Outline := member.shape.outline

/-- The outline of a member, and the declared type to which the member refers. -/
def IntersectionMember.entry (member : IntersectionMember) : Outline × Option String :=
  (member.outline, member.reference)

/-- The only type that members contribute is a declared one, and nothing is required beside it. -/
def Outline.StandFor (entries : List (Outline × Option String)) (name : String) : Prop :=
  (∃ outline, (entries.filter fun entry => entry.1.isTyped) = [(outline, some name)]) ∧
    (entries.map Prod.fst).flatMap names = []

/-- A member contributes a type if its outline is typed. -/
@[simp] theorem IntersectionMember.isTyped_outline (member : IntersectionMember) :
    member.outline.isTyped = Intersection.isTyped member := by
  obtain ⟨label, reference, shape⟩ := member
  cases shape <;> rfl

/-- A member is a choice if its outline is that of one. -/
@[simp] theorem IntersectionMember.isUnion_outline (member : IntersectionMember) :
    member.outline.isUnion = Intersection.isUnion member := by
  obtain ⟨label, reference, shape⟩ := member
  cases shape <;> rfl

/--
What members merge into, with the outline of what that contributes in turn: a record, or another name
that the only typed member has given.
-/
inductive MergesInto (members : List IntersectionMember) : Shape → Outline → Prop
  | record {shape : RecordShape} : MergesInto members (.record shape) shape.outline
  | nothing : MergesInto members (.alias .any) .unconstrained
  | reference {member : IntersectionMember} {name : String} (isMember : member ∈ members)
    (isTyped : Intersection.isTyped member = true) (notUnion : Intersection.isUnion member = false)
    (isName : member.reference = some name) :
    MergesInto members (.alias (.named name)) (.single [member.outline])
  | scalar {member : IntersectionMember} {type : TypeExpr} (isMember : member ∈ members)
    (isInline : member.reference = none) (isScalar : member.shape = .scalar type) :
    MergesInto members (.alias type) (.single [.scalar type.isAny])

namespace Intersection

variable {equivalent : TypeKind TypeExpr → TypeKind TypeExpr → Bool}

/-- A field is added as its name is. -/
theorem entries_addsField {incoming : Field} {fields result : List Field} {notes : List MergeNote}
    (adds : AddsField equivalent incoming fields (result, notes)) :
    result.map Field.entry = Outline.addEntry incoming.entry (fields.map Field.entry) := by
  -- The names of the fields in front are passed one after the other.
  have pass {field : Field} {rest others : List Field} (other : field.key ≠ incoming.key)
      (later : others.map Field.entry = Outline.addEntry incoming.entry (rest.map Field.entry)) :
      (field :: others).map Field.entry =
        Outline.addEntry incoming.entry ((field :: rest).map Field.entry) := by
    rw [List.map_cons, List.map_cons, Outline.addEntry, later]
    exact (if_neg other).symm
  cases adds with
  | last fresh =>
    induction fields with
    | nil => rfl
    | cons field rest ih =>
      obtain ⟨other, later⟩ := List.forall_mem_cons.mp fresh
      exact pass other (ih later)
  | merged before fresh same compatible =>
    induction before with
    | nil => exact (if_pos same).symm
    | cons field rest ih =>
      obtain ⟨other, later⟩ := List.forall_mem_cons.mp fresh
      exact pass other (ih later)

/-- The fields of a record are added as their names are. -/
theorem entries_addFields {incoming : List Field} {shape result : RecordShape}
    {before notes : List MergeNote}
    (isAdded : addFields equivalent incoming (shape, before) = .ok (result, notes)) :
    result.fields.map Field.entry =
      Outline.addEntries (incoming.map Field.entry) (shape.fields.map Field.entry) := by
  induction incoming generalizing shape before with
  | nil =>
    cases isAdded
    rfl
  | cons field rest ih =>
    obtain ⟨fields, more, adds, isLater⟩ := addFields_cons_eq_ok_iff.mp isAdded
    rw [ih isLater, entries_addsField adds]
    rfl

/-- Records merge as their outlines do, and nothing but records merges. -/
theorem outline_mergeRecords {members : List IntersectionMember} {shape result : RecordShape}
    {before notes : List MergeNote}
    (isMerged : mergeRecords equivalent members (shape, before) = .ok (result, notes)) :
    (members.map IntersectionMember.outline).all Outline.isRecord = true ∧
      result.fields.map Field.entry =
        Outline.addEntries ((members.map IntersectionMember.outline).flatMap Outline.fields)
          (shape.fields.map Field.entry) ∧
      result.additional.isSome = (shape.additional.isSome ||
        (members.map IntersectionMember.outline).any Outline.isOpen) := by
  -- Entries are added in the order of the members, as the fields are.
  induction members generalizing shape before with
  | nil =>
    cases isMerged
    exact ⟨rfl, rfl, by simp⟩
  | cons member rest ih =>
    obtain ⟨incoming, whole, more, isRecord, isAdded, _, isLater⟩ :=
      mergeRecords_cons_eq_ok_iff.mp isMerged
    obtain ⟨label, reference, contribution⟩ := member
    cases isRecord
    obtain ⟨records, entries, further⟩ := ih isLater
    have same := (merges_addFields isAdded).2
    refine ⟨records, ?_, ?_⟩
    · rw [entries, entries_addFields isAdded]
      exact (List.foldl_append ..).symm
    · rw [further, Option.isSome_or, same]
      exact Bool.or_assoc ..

/-- Fields are made required as their names are. -/
theorem entries_requireFields (names : List String) (fields : List Field) :
    (requireFields names fields).1.map Field.entry =
      Outline.requireEntries names (fields.map Field.entry) := by
  rw [requireFields_eq, Outline.requireEntries, List.map_map, List.map_map]
  rfl

/-- The names that members require are those that their outlines do. -/
theorem mem_flatMap_names_iff (members : List IntersectionMember) (name : String) :
    name ∈ (members.map IntersectionMember.outline).flatMap Outline.names ↔
      name ∈ requiredNames members := by
  -- Only members that require names have outlines with names.
  rw [mem_requiredNames_iff, List.mem_flatMap]
  constructor
  · rintro ⟨_, isOutline, isName⟩
    obtain ⟨⟨label, reference, shape⟩, isMember, rfl⟩ := List.mem_map.mp isOutline
    cases shape with
    | required names => exact ⟨_, isMember, names, rfl, isName⟩
    | record | unconstrained | scalar | union => cases isName
  · rintro ⟨member, isMember, names, isShape, isName⟩
    refine ⟨_, List.mem_map_of_mem isMember, ?_⟩
    rwa [IntersectionMember.outline, isShape]

/-- Members require no names if their outlines do not. -/
theorem isEmpty_flatMap_names (members : List IntersectionMember) :
    ((members.map IntersectionMember.outline).flatMap Outline.names).isEmpty =
      (requiredNames members).isEmpty := by
  rw [Bool.eq_iff_iff, List.isEmpty_iff, List.isEmpty_iff]
  simp only [List.eq_nil_iff_forall_not_mem, mem_flatMap_names_iff]

/-- The members that contribute types are those whose outlines are typed. -/
theorem filter_isTyped (members : List IntersectionMember) :
    (members.map IntersectionMember.outline).filter Outline.isTyped =
      (members.filter isTyped).map IntersectionMember.outline := by
  rw [List.filter_map]
  exact congrArg (List.map _) (List.filter_congr fun member _ => member.isTyped_outline)

/-- The only typed member is a record if its outline is that of one. -/
theorem isSingleRecord_map (members : List IntersectionMember) :
    Outline.isSingleRecord (members.map IntersectionMember.outline) = isSingleRecord members := by
  match members with
  | [] => rfl
  | [⟨_, _, shape⟩] => cases shape <;> rfl
  | _ :: _ :: _ => simp [Outline.isSingleRecord, isSingleRecord]

/-- An intersection of at most one typed member has what that gives. -/
theorem mergesInto_single {members typed : List IntersectionMember} (few : typed.length ≤ 1)
    (included : ∀ member ∈ typed, member ∈ members ∧ isTyped member = true ∧ isUnion member = false) :
    MergesInto members (single typed) (.single (typed.map IntersectionMember.outline)) := by
  -- A member that refers to a declared type stands for that, whatever it contributes.
  match typed, few with
  | [], _ => exact .nothing
  | [member], _ =>
    obtain ⟨isMember, isTyped, notUnion⟩ := included member (List.mem_singleton_self _)
    obtain ⟨label, reference, shape⟩ := member
    cases reference with
    | some name => exact .reference isMember isTyped notUnion rfl
    | none =>
      cases shape with
      | record shape => exact .record
      | scalar type => exact .scalar isMember rfl rfl
      | required | unconstrained => exact .nothing
      | union => cases notUnion

/-- Members merge into what has the outline into which their outlines merge. -/
theorem mergesInto_mergeAllOf {members : List IntersectionMember} {merged : Merged}
    (isMerged : mergeAllOf members equivalent = .ok merged) :
    ∃ outline, Outline.merge (members.map IntersectionMember.outline) = some outline ∧
      MergesInto members merged.shape outline := by
  obtain ⟨noUnion, merges⟩ := mergeAllOf_eq_ok_iff.mp isMerged
  have noChoice : (members.map IntersectionMember.outline).any Outline.isUnion = false := by
    rw [List.any_map, List.any_eq_false]
    intro member isMember
    simp [noUnion member isMember]
  simp only [Outline.merge, noChoice, filter_isTyped, isSingleRecord_map, List.length_map,
    isEmpty_flatMap_names, Bool.false_eq_true, if_false]
  obtain ⟨alone, rfl⟩ | ⟨several, whole, notes, isWhole, rfl⟩ := merges
  · rw [if_pos ((standsAlone_iff members).mp alone)]
    refine ⟨_, rfl, mergesInto_single alone.1 fun member isIncluded => ?_⟩
    obtain ⟨isMember, isTyped⟩ := List.mem_filter.mp isIncluded
    exact ⟨isMember, isTyped, noUnion member isMember⟩
  · rw [if_neg (mt (standsAlone_iff members).mpr several)]
    obtain ⟨records, entries, further⟩ := outline_mergeRecords isWhole
    rw [if_pos records]
    refine ⟨_, rfl, ?_⟩
    -- Both sides require the same names, if in another order.
    have sameRequired : Outline.requireEntries
        ((members.map IntersectionMember.outline).flatMap Outline.names)
          (whole.fields.map Field.entry) =
        (requireFields (requiredNames members) whole.fields).1.map Field.entry := by
      rw [entries_requireFields]
      refine List.map_congr_left fun entry _ => ?_
      simp only [List.contains_eq_mem, mem_flatMap_names_iff]
    have isOutline : (RecordShape.outline { whole with
        fields := (requireFields (requiredNames members) whole.fields).1 }) =
        .record (Outline.requireEntries
          ((members.map IntersectionMember.outline).flatMap Outline.names)
          (Outline.addEntries
            (((members.filter isTyped).map IntersectionMember.outline).flatMap Outline.fields) []))
          (((members.filter isTyped).map IntersectionMember.outline).any Outline.isOpen) := by
      rw [RecordShape.outline, ← sameRequired, entries, further]
      rfl
    exact isOutline ▸ .record

/-- Records fail to merge only if they do not agree. -/
theorem isConflict_mergeRecords {members : List IntersectionMember}
    {merged : RecordShape × List MergeNote} {error : CompositionError}
    (records : (members.map IntersectionMember.outline).all Outline.isRecord = true)
    (isRefused : mergeRecords equivalent members merged = .error error) : error.isConflict = true := by
  -- Of the reasons, being no record is excluded by the outlines.
  cases refuses_of_mergeRecords_error isRefused with
  | field | further => rfl
  | @member member isMember notRecord =>
    have isRecord := List.all_eq_true.mp records _ (List.mem_map_of_mem isMember)
    obtain ⟨label, reference, contribution⟩ := member
    cases contribution with
    | record shape => exact absurd rfl (notRecord shape)
    | required | unconstrained | scalar | union => cases isRecord

/-- Members of which the outlines merge do not merge themselves only if they do not agree. -/
theorem isConflict_mergeAllOf {members : List IntersectionMember} {error : CompositionError}
    {outline : Outline}
    (merges : Outline.merge (members.map IntersectionMember.outline) = some outline)
    (isRefused : mergeAllOf members equivalent = .error error) : error.isConflict = true := by
  -- Outlines with a choice among them do not merge, and neither do outlines of other types.
  have noUnion (member : IntersectionMember) (isMember : member ∈ members) : isUnion member = false :=
    member.isUnion_outline ▸ (Outline.merge_cases merges).1 _ (List.mem_map_of_mem isMember)
  have noChoice : (members.map IntersectionMember.outline).any Outline.isUnion = false :=
    List.any_eq_false.mpr fun outline isOutline => by
      simp [(Outline.merge_cases merges).1 outline isOutline]
  obtain ⟨union, isFound, _⟩ | ⟨_, several, isWhole⟩ := mergeAllOf_eq_error_iff.mp isRefused
  · have isUnion := List.find?_some isFound
    rw [noUnion union (List.mem_of_find?_eq_some isFound)] at isUnion
    cases isUnion
  · simp only [Outline.merge, noChoice, filter_isTyped, isSingleRecord_map, List.length_map,
      isEmpty_flatMap_names, Bool.false_eq_true, if_false] at merges
    rw [if_neg (mt (standsAlone_iff members).mpr several)] at merges
    split at merges
    · rename_i records
      exact isConflict_mergeRecords records isWhole
    · cases merges

/-- The types among the entries of members are those of the members that contribute types. -/
theorem filter_entry (members : List IntersectionMember) :
    ((members.map IntersectionMember.entry).filter fun entry => entry.1.isTyped) =
      (members.filter isTyped).map IntersectionMember.entry := by
  rw [List.filter_map]
  exact congrArg (List.map _) (List.filter_congr fun member _ => member.isTyped_outline)

/-- Members stand alone if others with the same entries do. -/
theorem StandsAlone.of_entries {members others : List IntersectionMember}
    (same : others.map IntersectionMember.entry = members.map IntersectionMember.entry)
    (alone : StandsAlone members) : StandsAlone others := by
  have outlines : others.map IntersectionMember.outline = members.map IntersectionMember.outline := by
    simpa [IntersectionMember.entry, Function.comp_def] using congrArg (List.map Prod.fst) same
  have typed : (others.filter isTyped).map IntersectionMember.outline =
      (members.filter isTyped).map IntersectionMember.outline := by
    rw [← filter_isTyped, ← filter_isTyped, outlines]
  obtain ⟨few, unnamed⟩ := alone
  refine ⟨?_, fun isRecord => ?_⟩
  · have sameLength := congrArg List.length typed
    simp only [List.length_map] at sameLength
    exact sameLength ▸ few
  · rw [← isSingleRecord_map, typed, isSingleRecord_map] at isRecord
    rw [← List.isEmpty_iff, ← isEmpty_flatMap_names, outlines, isEmpty_flatMap_names, List.isEmpty_iff]
    exact unnamed isRecord

/--
Members of which the outlines merge into that of a record give one, or another name of a single one.
-/
theorem shape_mergeAllOf {members : List IntersectionMember} {merged : Merged}
    {fields : List (String × Bool)} {opens : Bool}
    (merges : Outline.merge (members.map IntersectionMember.outline) = some (.record fields opens))
    (isMerged : mergeAllOf members equivalent = .ok merged) :
    (∃ name, Outline.StandFor (members.map IntersectionMember.entry) name ∧
        merged.shape = .alias (.named name)) ∨
      (∀ name, ¬Outline.StandFor (members.map IntersectionMember.entry) name) ∧
        ∃ shape, merged.shape = .record shape ∧ shape.outline = .record fields opens := by
  -- The outline of the result is that of a record, which rules out all other shapes.
  obtain ⟨_, alsoMerges, into⟩ := mergesInto_mergeAllOf isMerged
  cases merges.symm.trans alsoMerges
  have isStandFor {name : String} : Outline.StandFor (members.map IntersectionMember.entry) name ↔
      (∃ outline, (members.filter isTyped).map IntersectionMember.entry = [(outline, some name)]) ∧
        requiredNames members = [] := by
    rw [Outline.StandFor, filter_entry, ← List.isEmpty_iff, ← List.isEmpty_iff,
      ← isEmpty_flatMap_names]
    simp [IntersectionMember.entry, Function.comp_def]
  obtain ⟨_, ⟨few, unnamed, isSingle⟩ | ⟨several, whole, notes, isWhole, isRecord⟩⟩ :=
    mergeAllOf_cases isMerged
  · have isTyped := filter_isTyped members
    generalize members.filter Intersection.isTyped = typed at few unnamed isSingle isTyped isStandFor
    match typed, few with
    | [], _ =>
      simp [Outline.merge, isTyped, Outline.isSingleRecord, Outline.single] at merges
    | [⟨label, reference, shape⟩], _ =>
      cases shape with
      | required | unconstrained | union =>
        simp [Outline.merge, isTyped, Outline.isSingleRecord, Outline.single,
          IntersectionMember.outline, MemberShape.outline, Outline.isUnion] at merges
      | scalar type =>
        cases isAny : type.isAny <;>
          simp [Outline.merge, isTyped, Outline.isSingleRecord, Outline.single,
            IntersectionMember.outline, MemberShape.outline, Outline.isUnion, isAny] at merges
      | record shape =>
        cases reference with
        | some name => exact .inl ⟨name, isStandFor.mpr ⟨⟨_, rfl⟩, unnamed rfl⟩, isSingle⟩
        | none =>
          refine .inr ⟨fun name stands => ?_, shape, isSingle, ?_⟩
          · obtain ⟨⟨_, isNamed⟩, _⟩ := isStandFor.mp stands
            cases isNamed
          · rw [isSingle] at into
            generalize Outline.record fields opens = outline at into
            cases into
            rfl
  · refine .inr ⟨fun name stands => ?_, _, isRecord, ?_⟩
    · obtain ⟨⟨_, isNamed⟩, isEmpty⟩ := isStandFor.mp stands
      have few : (members.filter Intersection.isTyped).length ≤ 1 := by
        simpa using Nat.le_of_eq (congrArg List.length isNamed)
      exact (several few).2 isEmpty
    · rw [isRecord] at into
      generalize Outline.record fields opens = outline at into
      cases into
      rfl

end Intersection

end ApiTypes
