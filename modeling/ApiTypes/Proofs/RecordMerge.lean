import ApiTypes.Proofs.MergeSteps
import ApiTypes.Proofs.Registry.PartialEquivalence

/-!
Which members merge into a record, and what its fields are. Kinds are compared by an equivalence, so it
does not matter which of the fields of a name stand for the others.
-/

namespace ApiTypes

/--
A field says what the fields of its name say together: it has the kind of the first of them, is required
if one of them is or if its name is listed, and admits null if all of them do.
-/
structure Field.Combines (occurrences : List Field) (listed : String → Prop) (field : Field) :
    Prop where
  kind : ∃ first, occurrences.find? (fun occurrence => occurrence.key == field.key) = some first ∧
    field.type.kind = first.type.kind
  required : field.required = true ↔
    (∃ occurrence ∈ occurrences, occurrence.key = field.key ∧ occurrence.required = true) ∨
      listed field.key
  nullable : field.type.nullable = true ↔
    ∀ occurrence ∈ occurrences, occurrence.key = field.key → occurrence.type.nullable = true

/-- Fields that are merged from others: one of each name, in the order in which the names come first. -/
structure CombineFields (occurrences : List Field) (listed : String → Prop) (fields : List Field) :
    Prop where
  keys : fields.map Field.key = (occurrences.map Field.key).eraseDups
  combines : ∀ field ∈ fields, field.Combines occurrences listed

/-- The name of which a note says that it is required and declared by no member. -/
def MergeNote.unknownRequired? : MergeNote → Option String
  | unknownRequired name => some name
  | patternDropped .. | multipleOfDropped .. | emptyRange _ => none

/-- The names of which notes say so are those for which there is such a note. -/
theorem MergeNote.mem_filterMap_unknownRequired? {notes : List MergeNote} {name : String} :
    name ∈ notes.filterMap unknownRequired? ↔ .unknownRequired name ∈ notes := by
  have only (note : MergeNote) : note.unknownRequired? = some name ↔ note = .unknownRequired name := by
    cases note <;> simp [unknownRequired?]
  simp [List.mem_filterMap, only]

namespace Intersection

/-- A name is listed by a member that requires names. -/
def Lists (members : List IntersectionMember) (name : String) : Prop :=
  ∃ member ∈ members, ∃ names, member.shape = .required names ∧ name ∈ names

variable (equivalent : TypeKind TypeExpr → TypeKind TypeExpr → Bool)

/-- Fields have equivalent kinds if they have the same name. -/
def Concur (first second : Field) : Prop :=
  first.key = second.key → equivalent first.type.kind second.type.kind = true

/-- Every type has a kind that is equivalent to that of the first one. -/
def AgreeWithFirst : List TypeExpr → Prop
  | [] => True
  | first :: rest => ∀ type ∈ rest, equivalent first.kind type.kind = true

variable {equivalent}

/-- Kinds are compatible if they are equivalent, where equal kinds are so. -/
theorem compatible_iff (isEquivalence : TypeKind.IsEquivalence equivalent)
    (kept given : TypeKind TypeExpr) :
    Compatible equivalent kept given ↔ equivalent kept given = true :=
  ⟨fun compatible => compatible.elim isEquivalence.of_beq id, .inr⟩

/-- A type of further properties may be added if it agrees with the first one, where equal ones do. -/
theorem agreeWithFirst_append_iff (isEquivalence : TypeKind.IsEquivalence equivalent)
    (types : List TypeExpr) (extra : Option TypeExpr) :
    AgreeWithFirst equivalent (types ++ extra.toList) ↔
      AgreeWithFirst equivalent types ∧ AddsFurther equivalent types.head? extra := by
  -- Equal types have equal kinds, so being compatible is the same as being equivalent.
  have compatible (kept given : TypeExpr) : (kept == given) = true ∨
      equivalent kept.kind given.kind = true ↔ equivalent kept.kind given.kind = true :=
    or_iff_right_of_imp fun same => isEquivalence.of_beq (TypeExpr.kind_beq_of_beq same)
  cases types <;> cases extra <;>
    simp [AgreeWithFirst, AddsFurther, compatible, or_imp, forall_and]

/-- If types agree with the first of them, so do those before others. -/
theorem AgreeWithFirst.left {types more : List TypeExpr}
    (agree : AgreeWithFirst equivalent (types ++ more)) : AgreeWithFirst equivalent types := by
  cases types with
  | nil => trivial
  | cons first rest => exact fun type isType => agree type (List.mem_append_left _ isType)

end Intersection

namespace Field.Combines

variable {seen : List Field} {listed : String → Prop} {incoming : Field}

/-- Fields of a name that is not among others combine into the one that is added. -/
theorem last (fresh : ∀ field ∈ seen, field.key ≠ incoming.key) :
    incoming.Combines (seen ++ [incoming]) fun _ => False where
  kind := by
    have none : seen.find? (fun occurrence => occurrence.key == incoming.key) = none :=
      List.find?_eq_none.mpr fun field isSeen => by simpa using fresh field isSeen
    exact ⟨incoming, by simp [List.find?_append, none], rfl⟩
  required := by grind
  nullable := by grind

/-- A field of another name changes nothing. -/
theorem other {field : Field} (combines : field.Combines seen listed)
    (isOther : field.key ≠ incoming.key) : field.Combines (seen ++ [incoming]) listed where
  kind := by
    -- The first field of the name is found before the end of the list is reached.
    obtain ⟨first, isFirst, sameKind⟩ := combines.kind
    exact ⟨first, by simp [List.find?_append, isFirst], sameKind⟩
  required := by
    rw [combines.required]
    grind
  nullable := by
    rw [combines.nullable]
    grind

/-- A field into which another one is merged combines one more. -/
theorem merged {existing : Field} (combines : existing.Combines seen fun _ => False)
    (same : existing.key = incoming.key) :
    (Intersection.mergedField existing incoming).1.Combines (seen ++ [incoming]) fun _ => False where
  kind := by
    obtain ⟨first, isFirst, sameKind⟩ := combines.kind
    exact ⟨first, by simp [List.find?_append, isFirst], by simpa using sameKind⟩
  required := by
    rw [Intersection.required_mergedField, Bool.or_eq_true, combines.required]
    grind [Intersection.key_mergedField]
  nullable := by
    rw [Intersection.nullable_mergedField, Bool.and_eq_true, combines.nullable]
    grind [Intersection.key_mergedField]

end Field.Combines

namespace CombineFields

variable {equivalent : TypeKind TypeExpr → TypeKind TypeExpr → Bool} {seen : List Field}
  {listed : String → Prop}

/-- A name of fields that are merged is the name of one of the fields they are merged from. -/
theorem mem_keys_iff {fields : List Field} (combines : CombineFields seen listed fields)
    (key : String) : (∃ field ∈ fields, field.key = key) ↔ ∃ field ∈ seen, field.key = key := by
  have same : key ∈ fields.map Field.key ↔ key ∈ seen.map Field.key := by
    rw [combines.keys, List.mem_eraseDups]
  simpa only [List.mem_map] using same

/-- A field that is added is one more that is combined. -/
theorem add {incoming : Field} {fields result : List Field} {notes : List MergeNote}
    (combines : CombineFields seen (fun _ => False) fields)
    (adds : Intersection.AddsField equivalent incoming fields (result, notes)) :
    CombineFields (seen ++ [incoming]) (fun _ => False) result := by
  have isThere_iff : (seen.map Field.key).contains incoming.key = true ↔
      ∃ field ∈ fields, field.key = incoming.key := by
    rw [combines.mem_keys_iff, List.contains_iff_mem, List.mem_map]
  have distinct : (fields.map Field.key).Nodup := combines.keys ▸ nodup_eraseDups _
  cases adds with
  | last fresh =>
    -- The name comes first here, and so it is the last one.
    have isNew : ¬(seen.map Field.key).contains incoming.key = true := by
      rw [isThere_iff]
      exact fun ⟨field, isField, isKey⟩ => fresh field isField isKey
    refine ⟨?_, fun field isField => ?_⟩
    · rw [List.map_append, List.map_append, List.map_singleton, eraseDups_concat, if_neg isNew,
        combines.keys]
    · rcases List.mem_append.mp isField with isOld | isLast
      · exact (combines.combines field isOld).other (fresh field isOld)
      · cases List.mem_singleton.mp isLast
        exact .last fun other isSeen isKey =>
          isNew (List.contains_iff_mem.mpr (List.mem_map.mpr ⟨other, isSeen, isKey⟩))
  | @merged before after existing fresh same compatible =>
    -- The name is there already, so the names stay as they are.
    have isThere : (seen.map Field.key).contains incoming.key = true :=
      isThere_iff.mpr ⟨existing, by simp, same⟩
    refine ⟨?_, fun field isField => ?_⟩
    · have grown : (seen ++ [incoming]).map Field.key = seen.map Field.key ++ [incoming.key] := by simp
      rw [grown, eraseDups_concat, if_pos isThere, ← combines.keys]
      simp
    · -- Only one of the fields has the name.
      rw [List.map_append, List.map_cons, List.nodup_append, List.nodup_cons] at distinct
      rcases List.mem_append.mp isField with isBefore | isHere
      · exact (combines.combines field (by simp [isBefore])).other (fresh field isBefore)
      rcases List.mem_cons.mp isHere with rfl | isAfter
      · exact (combines.combines existing (by simp)).merged same
      · refine (combines.combines field (by simp [isAfter])).other fun isKey => ?_
        exact distinct.2.1.1 (List.mem_map.mpr ⟨field, isAfter, isKey.trans same.symm⟩)

/-- The kind of a merged field is that of a field it is merged from, and others of its name concur. -/
theorem exists_first {fields : List Field} (combines : CombineFields seen listed fields)
    (concur : seen.Pairwise (Intersection.Concur equivalent)) {field : Field} (isField : field ∈ fields) :
    ∃ first ∈ seen, first.key = field.key ∧ field.type.kind = first.type.kind ∧
      ∀ other ∈ seen, other.key = field.key → other = first ∨
        equivalent first.type.kind other.type.kind = true := by
  obtain ⟨first, isFirst, sameKind⟩ := (combines.combines field isField).kind
  obtain ⟨isKey, before, after, rfl, fresh⟩ := List.find?_eq_some_iff_append.mp isFirst
  have sameKey : first.key = field.key := by simpa using isKey
  refine ⟨first, by simp, sameKey, sameKind, fun other isOther otherKey => ?_⟩
  -- No field before the first one has its name, and those after it concur with it.
  rcases List.mem_append.mp isOther with isBefore | isLater
  · exact absurd otherKey (by simpa using fresh other isBefore)
  · refine (List.mem_cons.mp isLater).imp id fun isAfter => ?_
    exact (List.pairwise_cons.mp (List.pairwise_append.mp concur).2.1).1 other isAfter
      (sameKey.trans otherKey.symm)

/-- A field can be added if it concurs with all that are there. -/
theorem exists_add_iff (isEquivalence : TypeKind.IsEquivalence equivalent) {fields : List Field}
    (combines : CombineFields seen listed fields)
    (concur : seen.Pairwise (Intersection.Concur equivalent)) (incoming : Field) :
    (∃ result, Intersection.AddsField equivalent incoming fields result) ↔
      (seen ++ [incoming]).Pairwise (Intersection.Concur equivalent) := by
  have split : (seen ++ [incoming]).Pairwise (Intersection.Concur equivalent) ↔
      ∀ field ∈ seen, Intersection.Concur equivalent field incoming := by
    simp [List.pairwise_append, concur]
  rw [split]
  constructor
  · rintro ⟨result, adds⟩ other isOther sameKey
    cases adds with
    | last fresh =>
      -- No field of the name has been seen.
      obtain ⟨field, isField, isKey⟩ := (combines.mem_keys_iff incoming.key).mpr ⟨other, isOther, sameKey⟩
      exact absurd isKey (fresh field isField)
    | @merged before after existing fresh same compatible =>
      -- The field that is there has the kind of the first one, to which the kinds of all are equivalent.
      have agree := (Intersection.compatible_iff isEquivalence _ _).mp compatible
      have isField : existing ∈ before ++ existing :: after := by simp
      obtain ⟨first, isFirst, _, sameKind, others⟩ := combines.exists_first concur isField
      rw [sameKind] at agree
      rcases others other isOther (sameKey.trans same.symm) with rfl | alike
      · exact agree
      · exact isEquivalence.trans (isEquivalence.symm alike) agree
  · intro agree
    refine Intersection.exists_addsField fun field isField sameKey => .inr ?_
    obtain ⟨first, isFirst, firstKey, sameKind, _⟩ := combines.exists_first concur isField
    exact sameKind ▸ agree first isFirst (firstKey.trans sameKey)

end CombineFields

namespace Intersection

variable {equivalent : TypeKind TypeExpr → TypeKind TypeExpr → Bool}

/-- What a merge of fields and of types of further properties has come to. -/
structure Progress (seen : List Field) (further : List TypeExpr) (shape : RecordShape)
    (notes : List MergeNote) : Prop where
  fields : CombineFields seen (fun _ => False) shape.fields
  additional : shape.additional = further.head?
  notes : notes.filterMap MergeNote.unknownRequired? = []

/-- What is noted of two fields is not that their name is unknown. -/
theorem unknownRequired?_mergedField (existing incoming : Field) :
    (mergedField existing incoming).2.filterMap MergeNote.unknownRequired? = [] := by
  rw [notes_mergedField, List.filterMap_append,
    Constraints.filterMap_notes_intersect _ _ (fun _ _ => rfl) fun _ _ => rfl, List.nil_append]
  split <;> rfl

/-- The merge goes on with a field. -/
theorem Progress.field {seen : List Field} {further : List TypeExpr} {shape : RecordShape}
    {notes more : List MergeNote} {incoming : Field} {fields : List Field}
    (progress : Progress seen further shape notes)
    (adds : AddsField equivalent incoming shape.fields (fields, more)) :
    Progress (seen ++ [incoming]) further { shape with fields } (notes ++ more) where
  fields := progress.fields.add adds
  additional := progress.additional
  notes := by
    rw [List.filterMap_append, progress.notes]
    generalize shape.fields = before at adds
    cases adds with
    | last => rfl
    | merged => exact unknownRequired?_mergedField _ _

/-- The merge goes on with what a member says of further properties. -/
theorem Progress.further {seen : List Field} {types : List TypeExpr} {shape : RecordShape}
    {notes : List MergeNote} {extra : Option TypeExpr} (progress : Progress seen types shape notes) :
    Progress seen (types ++ extra.toList) { shape with additional := shape.additional.or extra }
      notes where
  fields := progress.fields
  additional := by
    rw [progress.additional, List.head?_append]
    cases extra <;> rfl
  notes := progress.notes

/-- The fields of a record can be added if all concur. -/
theorem Progress.exists_addFields_iff (isEquivalence : TypeKind.IsEquivalence equivalent)
    {seen : List Field} {further : List TypeExpr} {shape : RecordShape} {notes : List MergeNote}
    (progress : Progress seen further shape notes) (concur : seen.Pairwise (Concur equivalent))
    (incoming : List Field) :
    (∃ result, addFields equivalent incoming (shape, notes) = .ok result) ↔
      (seen ++ incoming).Pairwise (Concur equivalent) := by
  -- The fields that are added are seen one after the other, so both lists change in the induction.
  induction incoming generalizing seen shape notes with
  | nil => simp [addFields, concur]
  | cons field rest ih =>
    simp only [addFields_cons_eq_ok_iff]
    have step := progress.fields.exists_add_iff isEquivalence concur field
    rw [List.append_cons]
    constructor
    · rintro ⟨result, fields, more, isFirst, isLater⟩
      exact (ih (progress.field isFirst) (step.mp ⟨_, isFirst⟩)).mp ⟨result, isLater⟩
    · intro all
      have first := (List.pairwise_append.mp all).1
      obtain ⟨⟨fields, more⟩, isFirst⟩ := step.mpr first
      obtain ⟨result, isLater⟩ := (ih (progress.field isFirst) first).mpr all
      exact ⟨result, fields, more, isFirst, isLater⟩

/-- Members can be merged if they are records, their fields concur, and further properties agree. -/
theorem Progress.exists_mergeRecords_iff (isEquivalence : TypeKind.IsEquivalence equivalent)
    {seen : List Field} {further : List TypeExpr} {shape : RecordShape} {notes : List MergeNote}
    (progress : Progress seen further shape notes) (concur : seen.Pairwise (Concur equivalent))
    (agree : AgreeWithFirst equivalent further) (members : List IntersectionMember) :
    (∃ result, mergeRecords equivalent members (shape, notes) = .ok result) ↔
      (∀ member ∈ members, ∃ shape, member.shape = .record shape) ∧
        (seen ++ occurrences members).Pairwise (Concur equivalent) ∧
        AgreeWithFirst equivalent (further ++ furtherTypes members) := by
  induction members generalizing seen further shape notes with
  | nil => simp [mergeRecords, occurrences, furtherTypes, concur, agree]
  | cons member rest ih =>
    simp only [mergeRecords_cons_eq_ok_iff, List.forall_mem_cons, occurrences_cons,
      furtherTypes_cons, ← List.append_assoc]
    have added {incoming : RecordShape} {whole : RecordShape} {more : List MergeNote}
        (isAdded : addFields equivalent incoming.fields (shape, notes) = .ok (whole, more)) :
        Progress (seen ++ incoming.fields) further whole more :=
      addFields_induction (motive := fun seen shape notes => Progress seen further shape notes)
        (fun progress adds => progress.field adds) progress isAdded
    constructor
    -- What is known of the fields and types that are seen is known of those of the member as well.
    · rintro ⟨result, incoming, whole, more, isRecord, isAdded, adds, isLater⟩
      have fields := (progress.exists_addFields_iff isEquivalence concur _).mp ⟨_, isAdded⟩
      have types := (agreeWithFirst_append_iff isEquivalence further incoming.additional).mpr
        ⟨agree, (added isAdded).additional ▸ adds⟩
      obtain ⟨records, others, agreeing⟩ :=
        (ih (added isAdded).further fields types).mp ⟨result, isLater⟩
      rw [isRecord]
      exact ⟨⟨⟨incoming, rfl⟩, records⟩, others, agreeing⟩
    · rintro ⟨⟨⟨incoming, isRecord⟩, records⟩, others, agreeing⟩
      rw [isRecord] at others agreeing
      have fields := (List.pairwise_append.mp others).1
      obtain ⟨⟨whole, more⟩, isAdded⟩ :=
        (progress.exists_addFields_iff isEquivalence concur incoming.fields).mpr fields
      obtain ⟨_, adds⟩ := (agreeWithFirst_append_iff isEquivalence further incoming.additional).mp
        agreeing.left
      obtain ⟨result, isLater⟩ :=
        (ih (added isAdded).further fields agreeing.left).mpr ⟨records, others, agreeing⟩
      exact ⟨result, incoming, whole, more, isRecord, isAdded,
        (added isAdded).additional ▸ adds, isLater⟩

/-- A merge starts with nothing. -/
theorem Progress.start : Progress [] [] {} [] := ⟨⟨rfl, nofun⟩, rfl, rfl⟩

/-- What the merge of members comes to. -/
theorem progress_of_mergeRecords {members : List IntersectionMember} {shape : RecordShape}
    {notes : List MergeNote}
    (isMerged : mergeRecords equivalent members ({}, []) = .ok (shape, notes)) :
    Progress (occurrences members) (furtherTypes members) shape notes := by
  have run := mergeRecords_induction (motive := Progress) (fun progress adds => progress.field adds)
    (fun progress _ => progress.further) .start isMerged
  rwa [List.nil_append, List.nil_append] at run

/-- Fields of which the names are listed are required besides. -/
theorem combineFields_requireFields {seen fields : List Field}
    (combines : CombineFields seen (fun _ => False) fields) (names : List String) :
    CombineFields seen (· ∈ names) (requireFields names fields).1 := by
  rw [requireFields_eq]
  refine ⟨by rw [← combines.keys, List.map_map]; rfl, fun field isField => ?_⟩
  obtain ⟨source, isSource, rfl⟩ := List.mem_map.mp isField
  have ⟨kind, required, nullable⟩ := combines.combines source isSource
  refine ⟨kind, ?_, nullable⟩
  -- A name that is listed is required in addition to what the fields say.
  rw [Bool.or_eq_true, required]
  simp [Field.key]

/--
Members of which several are typed, or one record and names that are required beside it, merge into a
record exactly if the typed ones are records whose fields of one name have equivalent kinds, and no type
of further properties differs from the first one. The record has one field of each name, which combines
all fields of that name, and the names are noted that are listed and declared by no member.
-/
theorem mergeAllOf_records (isEquivalence : TypeKind.IsEquivalence equivalent)
    {members : List IntersectionMember} (noUnion : ∀ member ∈ members, isUnion member = false)
    (several : 2 ≤ (members.filter isTyped).length ∨
      (∃ member shape, members.filter isTyped = [member] ∧ member.shape = .record shape) ∧
        ∃ name, Lists members name) :
    ((∃ shape notes, mergeAllOf members equivalent = .ok ⟨.record shape, notes⟩) ↔
      (∀ member ∈ members, isTyped member = true → ∃ shape, member.shape = .record shape) ∧
        (occurrences members).Pairwise (Concur equivalent) ∧
        AgreeWithFirst equivalent (furtherTypes members)) ∧
    ∀ shape notes, mergeAllOf members equivalent = .ok ⟨.record shape, notes⟩ →
      CombineFields (occurrences members) (Lists members) shape.fields ∧
        (notes.filterMap MergeNote.unknownRequired?).Nodup ∧
        ∀ name, .unknownRequired name ∈ notes ↔
          Lists members name ∧ ∀ field ∈ occurrences members, field.key ≠ name := by
  have listed (name : String) : Lists members name ↔ name ∈ requiredNames members :=
    (mem_requiredNames_iff members name).symm
  have notAlone : ¬StandsAlone members := by
    rintro ⟨few, alone⟩
    rcases several with many | ⟨⟨⟨_, _, _⟩, shape, isOnly, isRecord⟩, name, isListed⟩
    · exact absurd few (by omega)
    · cases isRecord
      have isSingle : isSingleRecord (members.filter isTyped) = true := by
        rw [isOnly]
        rfl
      exact List.ne_nil_of_mem ((listed name).mp isListed) (alone isSingle)
  -- Only typed members are merged, and they have all fields and all types of further properties.
  have ⟨sameFields, sameTypes⟩ := parts_filter_isTyped members
  constructor
  · have merges := Progress.start.exists_mergeRecords_iff isEquivalence .nil trivial (members.filter isTyped)
    simp only [List.nil_append, sameFields, sameTypes, List.mem_filter, and_imp] at merges
    rw [← merges]
    constructor
    · rintro ⟨_, _, isMerged⟩
      obtain ⟨_, ⟨alone, _⟩ | ⟨_, whole, notes, isWhole, _⟩⟩ := mergeAllOf_eq_ok_iff.mp isMerged
      · exact absurd alone notAlone
      · exact ⟨_, isWhole⟩
    · rintro ⟨⟨whole, notes⟩, isWhole⟩
      exact ⟨_, _, mergeAllOf_eq_ok_iff.mpr ⟨noUnion, .inr ⟨notAlone, whole, notes, isWhole, rfl⟩⟩⟩
  · intro shape notes isMerged
    obtain ⟨_, ⟨alone, _⟩ | ⟨_, whole, more, isWhole, isRecord⟩⟩ := mergeAllOf_eq_ok_iff.mp isMerged
    · exact absurd alone notAlone
    cases isRecord
    have progress : Progress (occurrences members) (furtherTypes members) whole more := by
      rw [← sameFields, ← sameTypes]
      exact progress_of_mergeRecords isWhole
    have same : Lists members = (· ∈ requiredNames members) := funext fun name => propext (listed name)
    -- The merge itself notes no unknown names; they are noted when names are made required.
    have unknown : (more ++ (requireFields (requiredNames members) whole.fields).2).filterMap
        MergeNote.unknownRequired? = (requiredNames members).filter fun name =>
          whole.fields.all fun field => field.key != name := by
      rw [List.filterMap_append, progress.notes, requireFields_eq, List.filterMap_map]
      exact List.filterMap_some
    refine ⟨same ▸ combineFields_requireFields progress.fields _,
      unknown ▸ (nodup_requiredNames members).filter _, fun name => ?_⟩
    rw [← MergeNote.mem_filterMap_unknownRequired?, unknown, List.mem_filter, listed]
    refine and_congr_right fun _ => ?_
    -- The merged fields have the names of all fields.
    have sameKeys := progress.fields.mem_keys_iff name
    simpa [bne_iff_ne] using not_congr sameKeys

/-- Two records with a field in common, of which one admits null, and names that are required. -/
def overlappingRecords : List IntersectionMember :=
  let string : TypeExpr := ⟨.primitive .string none, false, {}⟩
  let first : RecordShape :=
    { fields := [.ofType "id" string, .ofType "tag" (string.withNullable true)] }
  let second : RecordShape :=
    { fields := [.ofType "tag" string, .ofType "note" string], additional := some string }
  [{ label := "first", shape := .record first },
    { label := "names", shape := .required ["tag", "owner"] },
    { label := "second", shape := .record second }]

/-- The records merge into one that requires the field they have in common, and one name is unknown. -/
theorem mergeAllOf_overlappingRecords : ∃ shape notes,
    mergeAllOf overlappingRecords (Registry.ofConfig {}).equivalent = .ok ⟨.record shape, notes⟩ ∧
      shape.fields.map Field.key = ["id", "tag", "note"] ∧
      (∀ field ∈ shape.fields, field.key = "tag" →
        field.required = true ∧ ¬field.type.nullable = true) ∧
      .unknownRequired "owner" ∈ notes := by
  have equivalence := (Registry.ofConfig {}).isEquivalence_equivalent
  have noUnion : ∀ member ∈ overlappingRecords, isUnion member = false := by decide
  obtain ⟨merges, result⟩ := mergeAllOf_records equivalence noUnion (.inl (by decide))
  have alike : (Registry.ofConfig {}).equivalent (.primitive .string none)
      (.primitive .string none) = true := equivalence.of_beq (by decide)
  obtain ⟨shape, notes, isMerged⟩ := merges.mpr
    ⟨by simp [overlappingRecords, isTyped],
      by simp [overlappingRecords, occurrences, MemberShape.fields, Concur, Field.ofType,
        TypeExpr.withNullable, alike],
      by simp [overlappingRecords, furtherTypes, MemberShape.additional, AgreeWithFirst]⟩
  obtain ⟨fields, _, unknown⟩ := result shape notes isMerged
  -- Both names are listed by the member in the middle.
  have lists (name : String) (isListed : name ∈ ["tag", "owner"]) : Lists overlappingRecords name :=
    ⟨_, List.mem_cons_of_mem _ List.mem_cons_self, _, rfl, isListed⟩
  refine ⟨shape, notes, isMerged, fields.keys.trans (by decide), fun field isField isTag => ?_,
    (unknown "owner").mpr ⟨lists _ (by simp), by decide⟩⟩
  have combines := fields.combines field isField
  rw [combines.required, combines.nullable, isTag]
  exact ⟨.inr (lists _ (by simp)), by decide⟩

end Intersection

end ApiTypes
