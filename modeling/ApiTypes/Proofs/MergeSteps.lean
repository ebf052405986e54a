import ApiTypes.Composition

/-!
The steps in which records are merged. Every field is added at the end or merged into the field of its
name, and what all steps keep holds of the merge of all members.
-/

namespace ApiTypes

/-- The fields that a contribution to an intersection has. -/
def MemberShape.fields : MemberShape → List Field
  | .record shape => shape.fields
  | .required _ | .unconstrained | .scalar _ | .union => []

/-- The type that a contribution to an intersection gives to further properties. -/
def MemberShape.additional : MemberShape → Option TypeExpr
  | .record shape => shape.additional
  | .required _ | .unconstrained | .scalar _ | .union => none

/-- A field of which only the name and the type are given. -/
def Field.ofType (key : String) (type : TypeExpr) : Field := { name := .of key, type }

/-- What is noted of the constraints of two sets is a divisor or a pattern that is dropped. -/
theorem Constraints.mem_notes_intersect {field : String} {left right : Constraints} {note : MergeNote}
    (isNoted : note ∈ (left.intersect field right).2) :
    (∃ kept dropped, note = .multipleOfDropped field kept dropped) ∨
      ∃ kept dropped, note = .patternDropped field kept dropped := by
  simp only [intersect, List.mem_append] at isNoted
  rcases isNoted with isDivisor | isPattern
  · -- Only of two divisors without a common multiple is one noted.
    refine .inl ?_
    unfold intersectDivisors at isDivisor
    split at isDivisor
    · split at isDivisor
      · cases isDivisor
      · exact ⟨_, _, List.mem_singleton.mp isDivisor⟩
    · cases isDivisor
  · -- Only of two different patterns is one noted.
    refine .inr ?_
    unfold intersectPatterns at isPattern
    split at isPattern
    · split at isPattern
      · cases isPattern
      · exact ⟨_, _, List.mem_singleton.mp isPattern⟩
    · cases isPattern

/-- What is read only of other notes is read of nothing that is noted of the constraints of two sets. -/
theorem Constraints.filterMap_notes_intersect {α : Type} {field : String} (left right : Constraints)
    {read : MergeNote → Option α}
    (noDivisor : ∀ kept dropped, read (.multipleOfDropped field kept dropped) = none)
    (noPattern : ∀ kept dropped, read (.patternDropped field kept dropped) = none) :
    (left.intersect field right).2.filterMap read = [] := by
  refine List.filterMap_eq_nil_iff.mpr fun note isNoted => ?_
  rcases mem_notes_intersect isNoted with ⟨_, _, rfl⟩ | ⟨_, _, rfl⟩
  · exact noDivisor _ _
  · exact noPattern _ _

namespace Intersection

/-- The fields of all members, one member after the other. -/
def occurrences (members : List IntersectionMember) : List Field :=
  members.flatMap fun member => member.shape.fields

/-- The types that members give to further properties, one member after the other. -/
def furtherTypes (members : List IntersectionMember) : List TypeExpr :=
  members.flatMap fun member => member.shape.additional.toList

@[simp] theorem occurrences_cons (member : IntersectionMember) (rest : List IntersectionMember) :
    occurrences (member :: rest) = member.shape.fields ++ occurrences rest := List.flatMap_cons

@[simp] theorem furtherTypes_cons (member : IntersectionMember) (rest : List IntersectionMember) :
    furtherTypes (member :: rest) = member.shape.additional.toList ++ furtherTypes rest :=
  List.flatMap_cons

/-- Only typed members have fields, and types of further properties. -/
theorem parts_filter_isTyped (members : List IntersectionMember) :
    occurrences (members.filter isTyped) = occurrences members ∧
      furtherTypes (members.filter isTyped) = furtherTypes members := by
  induction members with
  | nil => exact ⟨rfl, rfl⟩
  | cons member rest ih =>
    obtain ⟨label, reference, shape⟩ := member
    obtain ⟨fields, types⟩ := ih
    rw [occurrences_cons, furtherTypes_cons, ← fields, ← types, List.filter_cons]
    -- A member that is left out has neither, as only a record has any.
    cases shape <;> exact ⟨rfl, rfl⟩

/-- What two fields of one name are merged into, with what is noted. -/
def mergedField (existing incoming : Field) : Field × List MergeNote :=
  let old := existing.type
  let new := incoming.type
  let (constraints, notes) := Constraints.intersect incoming.key old.constraints new.constraints
  let emptied := constraints.hasEmptyRange && !old.constraints.hasEmptyRange
    && !new.constraints.hasEmptyRange
  ({ existing with
      type := { old with nullable := old.nullable && new.nullable, constraints }
      required := existing.required || incoming.required
      deprecated := existing.deprecated || incoming.deprecated
      readOnly := existing.readOnly || incoming.readOnly
      writeOnly := existing.writeOnly || incoming.writeOnly
      description := existing.description.or incoming.description },
    notes ++ (if emptied then [.emptyRange incoming.key] else []))

section

variable (existing incoming : Field)

@[simp] theorem key_mergedField : (mergedField existing incoming).1.key = existing.key := rfl

@[simp] theorem kind_mergedField :
    (mergedField existing incoming).1.type.kind = existing.type.kind := rfl

@[simp] theorem nullable_mergedField : (mergedField existing incoming).1.type.nullable =
    (existing.type.nullable && incoming.type.nullable) := rfl

@[simp] theorem required_mergedField : (mergedField existing incoming).1.required =
    (existing.required || incoming.required) := rfl

@[simp] theorem constraints_mergedField : (mergedField existing incoming).1.type.constraints =
    (existing.type.constraints.intersect incoming.key incoming.type.constraints).1 := rfl

/-- Of a merge is noted what the constraints cannot say, and whether it has emptied a range. -/
theorem notes_mergedField : (mergedField existing incoming).2 =
    (existing.type.constraints.intersect incoming.key incoming.type.constraints).2 ++
      if (mergedField existing incoming).1.type.constraints.hasEmptyRange
          && !existing.type.constraints.hasEmptyRange && !incoming.type.constraints.hasEmptyRange then
        [.emptyRange incoming.key]
      else [] := rfl

end

variable (equivalent : TypeKind TypeExpr → TypeKind TypeExpr → Bool)

/-- Kinds by which one type may be merged into another. -/
def Compatible (kept given : TypeKind TypeExpr) : Prop :=
  (kept == given) = true ∨ equivalent kept given = true

/-- A type of further properties that is there may stand for one that is added. -/
def AddsFurther (current extra : Option TypeExpr) : Prop :=
  ∀ kept ∈ current, ∀ given ∈ extra,
    (kept == given) = true ∨ equivalent kept.kind given.kind = true

/-- How a field is added: at the end, or by merging it into the first field of its name. -/
inductive AddsField (incoming : Field) : List Field → List Field × List MergeNote → Prop
  | last {fields : List Field} (fresh : ∀ field ∈ fields, field.key ≠ incoming.key) :
    AddsField incoming fields (fields ++ [incoming], [])
  | merged (before : List Field) {after : List Field} {existing : Field}
    (fresh : ∀ field ∈ before, field.key ≠ incoming.key) (same : existing.key = incoming.key)
    (compatible : Compatible equivalent existing.type.kind incoming.type.kind) :
    AddsField incoming (before ++ existing :: after)
      (before ++ (mergedField existing incoming).1 :: after, (mergedField existing incoming).2)

variable {equivalent}

/-- The kinds of fields are compared before anything is merged. -/
theorem mergeField_eq (existing incoming : Field) : mergeField equivalent existing incoming =
    if !(existing.type.kind == incoming.type.kind)
        && !equivalent existing.type.kind incoming.type.kind then
      .error (.fieldConflict incoming.key)
    else .ok (mergedField existing incoming) := rfl

/-- Fields are merged if their kinds are compatible. -/
theorem mergeField_eq_ok_iff {existing incoming : Field} {merged : Field × List MergeNote} :
    mergeField equivalent existing incoming = .ok merged ↔
      Compatible equivalent existing.type.kind incoming.type.kind ∧
        merged = mergedField existing incoming := by
  rw [mergeField_eq, Compatible]
  cases existing.type.kind == incoming.type.kind <;>
    cases equivalent existing.type.kind incoming.type.kind <;>
    simp [eq_comm (b := merged)]

/-- A field is added in one of the two ways. -/
theorem addField_eq_ok_iff {incoming : Field} {fields : List Field}
    {result : List Field × List MergeNote} :
    addField equivalent incoming fields = .ok result ↔ AddsField equivalent incoming fields result := by
  constructor
  · intro isAdded
    induction fields generalizing result with
    | nil =>
      cases isAdded
      exact .last nofun
    | cons existing rest ih =>
      rw [addField] at isAdded
      split at isAdded
      · rename_i same
        cases isMerged : mergeField equivalent existing incoming with
        | error error => simp [isMerged, bind, Except.bind] at isAdded
        | ok merged =>
          obtain ⟨compatible, rfl⟩ := mergeField_eq_ok_iff.mp isMerged
          simp only [isMerged, bind, Except.bind, pure, Except.pure, Except.ok.injEq] at isAdded
          subst isAdded
          exact .merged [] nofun same compatible
      · rename_i other
        cases isOther : addField equivalent incoming rest with
        | error error => simp [isOther, bind, Except.bind] at isAdded
        | ok others =>
          simp only [isOther, bind, Except.bind, pure, Except.pure, Except.ok.injEq] at isAdded
          subst isAdded
          -- The field in front stays there, and its name is another one.
          cases ih isOther with
          | last fresh => exact .last (List.forall_mem_cons.mpr ⟨other, fresh⟩)
          | merged before fresh same compatible =>
            exact .merged (existing :: before) (List.forall_mem_cons.mpr ⟨other, fresh⟩) same compatible
  · intro adds
    -- The fields of other names are passed one after the other.
    have pass {field : Field} {rest others : List Field} {notes : List MergeNote}
        (other : field.key ≠ incoming.key)
        (isAdded : addField equivalent incoming rest = .ok (others, notes)) :
        addField equivalent incoming (field :: rest) = .ok (field :: others, notes) := by
      rw [addField, if_neg other, isAdded]
      rfl
    cases adds with
    | last fresh =>
      induction fields with
      | nil => rfl
      | cons field rest ih =>
        have ⟨other, later⟩ := List.forall_mem_cons.mp fresh
        exact pass other (ih later)
    | merged before fresh same compatible =>
      induction before with
      | nil =>
        rw [List.nil_append, addField, if_pos same, mergeField_eq_ok_iff.mpr ⟨compatible, rfl⟩]
        rfl
      | cons field rest ih =>
        have ⟨other, later⟩ := List.forall_mem_cons.mp fresh
        exact pass other (ih later)

/-- A field that may be added may be so where more kinds are compatible. -/
theorem AddsField.imp {other : TypeKind TypeExpr → TypeKind TypeExpr → Bool} {incoming : Field}
    {fields : List Field} {result : List Field × List MergeNote}
    (more : ∀ kept given, Compatible equivalent kept given → Compatible other kept given)
    (adds : AddsField equivalent incoming fields result) : AddsField other incoming fields result := by
  cases adds with
  | last fresh => exact .last fresh
  | merged before fresh same compatible => exact .merged before fresh same (more _ _ compatible)

/-- A field is added if the fields of its name have kinds that are compatible with its own. -/
theorem exists_addsField {incoming : Field} {fields : List Field}
    (compatible : ∀ field ∈ fields, field.key = incoming.key →
      Compatible equivalent field.type.kind incoming.type.kind) :
    ∃ result, AddsField equivalent incoming fields result := by
  simp only [← addField_eq_ok_iff]
  -- The field is passed on until it meets the first one of its name, which is where it might fail.
  induction fields with
  | nil => exact ⟨_, rfl⟩
  | cons existing rest ih =>
    have ⟨first, later⟩ := List.forall_mem_cons.mp compatible
    rw [addField]
    split
    · rename_i same
      rw [mergeField_eq_ok_iff.mpr ⟨first same, rfl⟩]
      exact ⟨_, rfl⟩
    · obtain ⟨others, isOther⟩ := ih later
      rw [isOther]
      exact ⟨_, rfl⟩

/-- Fields are added one after the other. -/
theorem addFields_cons_eq_ok_iff {incoming : Field} {rest : List Field} {shape : RecordShape}
    {notes : List MergeNote} {result : RecordShape × List MergeNote} :
    addFields equivalent (incoming :: rest) (shape, notes) = .ok result ↔
      ∃ fields more, AddsField equivalent incoming shape.fields (fields, more) ∧
        addFields equivalent rest ({ shape with fields }, notes ++ more) = .ok result := by
  -- The first field decides whether the others are tried at all.
  simp only [← addField_eq_ok_iff]
  rw [addFields]
  cases addField equivalent incoming shape.fields with
  | error error => exact ⟨nofun, fun ⟨_, _, isAdded, _⟩ => nomatch isAdded⟩
  | ok found => exact ⟨fun isLater => ⟨found.1, found.2, rfl, isLater⟩,
      fun ⟨_, _, isAdded, isLater⟩ => Except.ok.inj isAdded ▸ isLater⟩

/-- The first type of further properties is kept, and every other one has to be compatible. -/
theorem mergeAdditional_eq_ok_iff {current extra result : Option TypeExpr} :
    mergeAdditional equivalent current extra = .ok result ↔
      AddsFurther equivalent current extra ∧ result = current.or extra := by
  -- Types are compared only where both are given.
  cases current with
  | none => simp [mergeAdditional, AddsFurther, eq_comm (b := result)]
  | some kept => cases extra with
    | none => simp [mergeAdditional, AddsFurther, eq_comm (b := result)]
    | some given =>
      simp only [mergeAdditional, AddsFurther, Option.mem_def, Option.some.injEq, Option.some_or,
        forall_eq']
      cases kept == given <;> cases equivalent kept.kind given.kind <;>
        simp [eq_comm (b := result)]

/-- Records are merged one after the other. -/
theorem mergeRecords_cons_eq_ok_iff {member : IntersectionMember} {rest : List IntersectionMember}
    {merged result : RecordShape × List MergeNote} :
    mergeRecords equivalent (member :: rest) merged = .ok result ↔
      ∃ incoming whole notes, member.shape = .record incoming ∧
        addFields equivalent incoming.fields merged = .ok (whole, notes) ∧
        AddsFurther equivalent whole.additional incoming.additional ∧
        mergeRecords equivalent rest
          ({ whole with additional := whole.additional.or incoming.additional }, notes) =
            .ok result := by
  obtain ⟨label, reference, contribution⟩ := member
  constructor
  · intro isMerged
    cases contribution with
    -- A member of another form than the others is a conflict.
    | required | unconstrained | scalar | union => cases isMerged
    | record incoming =>
      simp only [mergeRecords] at isMerged
      cases isAdded : addFields equivalent incoming.fields merged with
      | error error => simp [isAdded, bind, Except.bind] at isMerged
      | ok found =>
        cases isFurther : mergeAdditional equivalent found.1.additional incoming.additional with
        | error error => simp [isAdded, isFurther, bind, Except.bind] at isMerged
        | ok additional =>
          simp only [isAdded, isFurther, bind, Except.bind] at isMerged
          obtain ⟨adds, rfl⟩ := mergeAdditional_eq_ok_iff.mp isFurther
          exact ⟨incoming, found.1, found.2, rfl, isAdded, adds, isMerged⟩
  · rintro ⟨incoming, whole, notes, rfl, isAdded, adds, isLater⟩
    simpa [mergeRecords, isAdded, mergeAdditional_eq_ok_iff.mpr ⟨adds, rfl⟩, bind, Except.bind]
      using isLater

/-- A field is refused only because a field of its name does not agree with it. -/
theorem eq_of_addField_error {incoming : Field} {fields : List Field} {error : CompositionError}
    (isRefused : addField equivalent incoming fields = .error error) :
    error = .fieldConflict incoming.key := by
  -- Fields of other names are passed, and only the one of the same name can refuse.
  induction fields with
  | nil => cases isRefused
  | cons existing rest ih =>
    rw [addField] at isRefused
    split at isRefused
    · rw [mergeField_eq] at isRefused
      split at isRefused
      · cases isRefused
        rfl
      · cases isRefused
    · cases isOther : addField equivalent incoming rest with
      | error found =>
        rw [isOther] at isRefused
        cases isRefused
        exact ih isOther
      | ok found => simp [isOther, bind, Except.bind, pure, Except.pure] at isRefused

/-- Why members are refused: fields or types of further properties do not agree, or one is no record. -/
inductive Refuses (members : List IntersectionMember) : CompositionError → Prop
  | field (key : String) : Refuses members (.fieldConflict key)
  | further : Refuses members .additionalPropertiesConflict
  | member {member : IntersectionMember} (isMember : member ∈ members)
    (notRecord : ∀ shape, member.shape ≠ .record shape) :
    Refuses members (.nonObjectMember member.label)

/-- The fields of a record are refused only if one of them is. -/
theorem refuses_of_addFields_error {members : List IntersectionMember} {incoming : List Field}
    {merged : RecordShape × List MergeNote} {error : CompositionError}
    (isRefused : addFields equivalent incoming merged = .error error) : Refuses members error := by
  induction incoming generalizing merged with
  | nil => cases isRefused
  | cons field rest ih =>
    rw [addFields] at isRefused
    cases isFirst : addField equivalent field merged.1.fields with
    | error found =>
      rw [isFirst] at isRefused
      cases isRefused
      exact eq_of_addField_error isFirst ▸ .field field.key
    | ok found =>
      rw [isFirst] at isRefused
      exact ih isRefused

/-- Members that are merged as records are refused only for one of these reasons. -/
theorem refuses_of_mergeRecords_error {members : List IntersectionMember}
    {merged : RecordShape × List MergeNote} {error : CompositionError}
    (isRefused : mergeRecords equivalent members merged = .error error) : Refuses members error := by
  -- The induction is on the members, of which the first one that is refused gives the error.
  induction members generalizing merged with
  | nil => cases isRefused
  | cons member rest ih =>
    obtain ⟨label, reference, contribution⟩ := member
    cases contribution with
    | required | unconstrained | scalar | union =>
      cases isRefused
      exact .member List.mem_cons_self nofun
    | record incoming =>
      simp only [mergeRecords] at isRefused
      cases isAdded : addFields equivalent incoming.fields merged with
      | error found =>
        rw [isAdded] at isRefused
        cases isRefused
        exact refuses_of_addFields_error isAdded
      | ok whole =>
        simp only [isAdded, bind, Except.bind] at isRefused
        cases isFurther : mergeAdditional equivalent whole.1.additional incoming.additional with
        | error found =>
          rw [isFurther] at isRefused
          cases isRefused
          -- Only types that are both given may differ.
          unfold mergeAdditional at isFurther
          split at isFurther
          · cases isFurther
          · cases isFurther
          · split at isFurther <;> cases isFurther
            exact .further
        | ok additional =>
          rw [isFurther] at isRefused
          cases ih isRefused with
          | field key => exact .field key
          | further => exact .further
          | member isMember notRecord => exact .member (List.mem_cons_of_mem _ isMember) notRecord

/-- What every added field keeps holds after all of them are added. -/
theorem addFields_induction {motive : List Field → RecordShape → List MergeNote → Prop}
    (step : ∀ {seen shape notes incoming fields more}, motive seen shape notes →
      AddsField equivalent incoming shape.fields (fields, more) →
        motive (seen ++ [incoming]) { shape with fields } (notes ++ more))
    {seen incoming : List Field} {shape result : RecordShape} {before notes : List MergeNote}
    (holds : motive seen shape before)
    (isAdded : addFields equivalent incoming (shape, before) = .ok (result, notes)) :
    motive (seen ++ incoming) result notes := by
  -- What has been added moves from the one list to the other, so both are general in the induction.
  induction incoming generalizing seen shape before with
  | nil =>
    cases isAdded
    rwa [List.append_nil]
  | cons field rest ih =>
    obtain ⟨fields, more, adds, isLater⟩ := addFields_cons_eq_ok_iff.mp isAdded
    rw [List.append_cons]
    exact ih (step holds adds) isLater

/--
What every added field keeps, and every member that may have a type of further properties, holds after
all members are merged.
-/
theorem mergeRecords_induction
    {motive : List Field → List TypeExpr → RecordShape → List MergeNote → Prop}
    (field : ∀ {seen further shape notes incoming fields more}, motive seen further shape notes →
      AddsField equivalent incoming shape.fields (fields, more) →
        motive (seen ++ [incoming]) further { shape with fields } (notes ++ more))
    (further : ∀ {seen further shape notes extra}, motive seen further shape notes →
      AddsFurther equivalent shape.additional extra →
        motive seen (further ++ extra.toList)
          { shape with additional := shape.additional.or extra } notes)
    {members : List IntersectionMember} {seen : List Field} {types : List TypeExpr}
    {shape result : RecordShape} {before notes : List MergeNote}
    (holds : motive seen types shape before)
    (isMerged : mergeRecords equivalent members (shape, before) = .ok (result, notes)) :
    motive (seen ++ occurrences members) (types ++ furtherTypes members) result notes := by
  induction members generalizing seen types shape before with
  | nil =>
    cases isMerged
    simpa [occurrences, furtherTypes] using holds
  | cons member rest ih =>
    obtain ⟨incoming, whole, more, isRecord, isAdded, adds, isLater⟩ :=
      mergeRecords_cons_eq_ok_iff.mp isMerged
    -- The fields of the member are added first, and its further properties only after them.
    have added : motive (seen ++ incoming.fields) types whole more :=
      addFields_induction (motive := fun seen shape notes => motive seen types shape notes)
        field holds isAdded
    rw [occurrences_cons, furtherTypes_cons, isRecord, ← List.append_assoc, ← List.append_assoc]
    exact ih (further added adds) isLater

/-- Names are made required in the fields that have them, and noted where no field does. -/
theorem requireFields_eq (names : List String) (fields : List Field) :
    requireFields names fields =
      (fields.map fun field => { field with required := field.required || names.contains field.key },
        (names.filter fun name => fields.all fun field => field.key != name).map .unknownRequired) := by
  induction names generalizing fields with
  | nil => simp [requireFields]
  | cons name rest ih =>
    rw [requireFields]
    split
    · rename_i isKnown
      -- A name that some field has is not noted, and the field is required from then on.
      rw [ih, List.map_map, List.filter_cons_of_neg (by simpa [List.any_eq] using isKnown)]
      congr 1
      · refine List.map_congr_left fun field _ => ?_
        by_cases isName : field.key = name <;> simp [isName]
      · -- The same names are without a field as before.
        refine congrArg _ (List.filter_congr fun other _ => ?_)
        rw [List.all_map]
        refine congrArg _ (funext fun field => ?_)
        simp only [Function.comp_apply]
        split <;> rfl
    · rename_i isUnknown
      rw [ih, List.filter_cons_of_pos (by simpa using isUnknown), List.map_cons]
      simp only [Prod.mk.injEq, and_true]
      refine List.map_congr_left fun field isField => ?_
      -- A name that no field has requires none of them.
      have isOther : field.key ≠ name := fun isName =>
        isUnknown (List.any_eq_true.mpr ⟨field, isField, by simp [isName]⟩)
      simp [isOther]

/-- At most one member is typed; and if that is a record, no names are required beside it. -/
def StandsAlone (members : List IntersectionMember) : Prop :=
  (members.filter isTyped).length ≤ 1 ∧
    (isSingleRecord (members.filter isTyped) = true → requiredNames members = [])

/-- Members are merged as records unless one of them stands alone. -/
theorem standsAlone_iff (members : List IntersectionMember) : StandsAlone members ↔
    ((members.filter isTyped).length ≤ 1 &&
      !(isSingleRecord (members.filter isTyped) && !(requiredNames members).isEmpty)) = true := by
  cases isRecord : isSingleRecord (members.filter isTyped) <;> simp [StandsAlone, isRecord]

/--
Members without a choice among them merge into the only one that is typed, or into a record in which names
are made required; and it is noted which names no field has.
-/
theorem mergeAllOf_eq_ok_iff {members : List IntersectionMember} {merged : Merged} :
    mergeAllOf members equivalent = .ok merged ↔ (∀ member ∈ members, isUnion member = false) ∧
      (StandsAlone members ∧
          merged = ⟨single (members.filter isTyped), (requiredNames members).map .unknownRequired⟩ ∨
        ¬StandsAlone members ∧ ∃ whole notes,
          mergeRecords equivalent (members.filter isTyped) ({}, []) = .ok (whole, notes) ∧
            merged = ⟨.record
                { whole with fields := (requireFields (requiredNames members) whole.fields).1 },
              notes ++ (requireFields (requiredNames members) whole.fields).2⟩) := by
  -- A choice is looked for first; without one, it is decided whether a member stands alone.
  unfold mergeAllOf
  cases isChoice : members.find? isUnion with
  | some union =>
    refine ⟨nofun, fun ⟨noUnion, _⟩ => ?_⟩
    have isUnion := List.find?_some isChoice
    rw [noUnion union (List.mem_of_find?_eq_some isChoice)] at isUnion
    cases isUnion
  | none =>
    have noUnion : ∀ member ∈ members, isUnion member = false := by
      simpa using List.find?_eq_none.mp isChoice
    simp only [bind, Except.bind, pure, Except.pure, and_iff_right noUnion]
    by_cases alone : StandsAlone members
    · rw [if_pos ((standsAlone_iff members).mp alone)]
      simp [alone, eq_comm]
    · rw [if_neg (mt (standsAlone_iff members).mpr alone)]
      cases mergeRecords equivalent (members.filter isTyped) ({}, []) with
      | error error => simp [alone]
      | ok found =>
        obtain ⟨whole, notes⟩ := found
        simp [alone, and_assoc, eq_comm (b := merged)]

/-- Members fail to merge because of a choice among them, or as records. -/
theorem mergeAllOf_eq_error_iff {members : List IntersectionMember} {error : CompositionError} :
    mergeAllOf members equivalent = .error error ↔
      (∃ union, members.find? isUnion = some union ∧ error = .nestedUnion union.label) ∨
        members.find? isUnion = none ∧ ¬StandsAlone members ∧
          mergeRecords equivalent (members.filter isTyped) ({}, []) = .error error := by
  unfold mergeAllOf
  cases isChoice : members.find? isUnion with
  | some union =>
    simp [bind, Except.bind, throw, throwThe, MonadExceptOf.throw, eq_comm (b := error)]
  | none =>
    simp only [bind, Except.bind, pure, Except.pure]
    by_cases alone : StandsAlone members
    · rw [if_pos ((standsAlone_iff members).mp alone)]
      simp [alone]
    · rw [if_neg (mt (standsAlone_iff members).mpr alone)]
      cases mergeRecords equivalent (members.filter isTyped) ({}, []) <;> simp [alone]

end Intersection

end ApiTypes
