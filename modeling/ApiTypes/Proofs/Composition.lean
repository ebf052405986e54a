import Mathlib.Data.List.Induction
import ApiTypes.Proofs.MergeSteps

/-! What combined members mention: nothing but what the members themselves mention. -/

namespace ApiTypes

namespace TypeExpr

/-- What a type mentions depends on its kind alone. -/
theorem mentions_eq_of_kind {left right : TypeExpr} (same : left.kind = right.kind) :
    left.mentions = right.mentions := by
  obtain ⟨kind, _, _⟩ := left
  obtain ⟨_, _, _⟩ := right
  cases same
  cases kind <;> simp only [mentions]

/-- Admitting null or not changes nothing about what a type mentions. -/
@[simp] theorem mentions_withNullable (type : TypeExpr) (nullable : Bool) :
    (type.withNullable nullable).mentions = type.mentions := mentions_eq_of_kind rfl

/-- A use of a declared type mentions it. -/
@[simp] theorem mentions_named (name : String) : (named name).mentions = [name] := by
  simp [named, mentions]

/-- The type that a type uses directly is the only one that it mentions. -/
theorem mentions_of_name? {type : TypeExpr} {name : String} (isName : type.name? = some name) :
    type.mentions = [name] := by
  obtain ⟨kind, nullable, constraints⟩ := type
  cases kind <;> simp [name?] at isName
  simp [mentions, isName]

/-- Equal types are of equal kinds. -/
theorem kind_beq_of_beq {left right : TypeExpr} (same : (left == right) = true) :
    (left.kind == right.kind) = true := by
  -- Types are compared part by part, and the kinds are the first part.
  obtain ⟨leftKind, _, _⟩ := left
  obtain ⟨rightKind, _, _⟩ := right
  have parts : TypeExpr.same _ _ = true := same
  simp only [TypeExpr.same, Bool.and_eq_true] at parts
  exact parts.1.1

end TypeExpr

/-- The types of the fields and of the further properties of a record. -/
def RecordShape.types (shape : RecordShape) : List TypeExpr :=
  shape.fields.map Field.type ++ shape.additional.toList

/-- All types of a record are those of its fields and of its further properties. -/
theorem RecordShape.forall_types_iff {holds : TypeExpr → Prop} (shape : RecordShape) :
    (∀ type ∈ shape.types, holds type) ↔
      (∀ field ∈ shape.fields, holds field.type) ∧ ∀ type ∈ shape.additional, holds type := by
  simp [types, or_imp, forall_and]

/-- The types that a contribution to an intersection consists of. -/
def MemberShape.types : MemberShape → List TypeExpr
  | .record shape => shape.types
  | .scalar type => [type]
  | .required _ | .unconstrained | .union => []

/-- The declared types that a contribution to an intersection mentions. -/
def MemberShape.mentions (shape : MemberShape) : List String :=
  shape.types.flatMap TypeExpr.mentions

/-- The declared types that a member of an intersection mentions, the one it refers to included. -/
def IntersectionMember.mentions (member : IntersectionMember) : List String :=
  member.reference.toList ++ member.shape.mentions

/-- A record mentions what its types do. -/
theorem Shape.mentions_record (shape : RecordShape) :
    (Shape.record shape).mentions = shape.types.flatMap TypeExpr.mentions := by
  cases additional : shape.additional <;>
    simp [Shape.mentions, RecordShape.types, List.flatMap_map, additional]

namespace Intersection

variable (equivalent : TypeKind TypeExpr → TypeKind TypeExpr → Bool)

/-- A kind that is kept agrees with one that it stands for. -/
def Agrees (kept given : TypeKind TypeExpr) : Prop :=
  kept = given ∨ (kept == given) = true ∨ equivalent kept given = true

/--
How types are merged into others: whatever comes out had its kind before, a type that was there keeps
its kind, and one that is merged agrees with some type that comes out.
-/
structure Merges (before incoming after : List TypeExpr) : Prop where
  origin : ∀ type ∈ after, ∃ source ∈ before ++ incoming, type.kind = source.kind
  kept : ∀ type ∈ before, ∃ found ∈ after, found.kind = type.kind
  agrees : ∀ type ∈ incoming, ∃ found ∈ after, Agrees equivalent found.kind type.kind

variable {equivalent}

/-- Types are merged into others if they are added as they are. -/
theorem Merges.append (types more : List TypeExpr) : Merges equivalent types more (types ++ more) where
  origin type isMember := ⟨type, isMember, rfl⟩
  kept type isMember := ⟨type, List.mem_append_left _ isMember, rfl⟩
  agrees type isMember := ⟨type, List.mem_append_right _ isMember, .inl rfl⟩

/-- Nothing is merged into types that stay as they are. -/
theorem Merges.refl (types : List TypeExpr) : Merges equivalent types [] types := by
  simpa using Merges.append types []

/-- Types may be merged in two steps. -/
theorem Merges.trans {before middle after first second : List TypeExpr}
    (earlier : Merges equivalent before first middle)
    (later : Merges equivalent middle second after) :
    Merges equivalent before (first ++ second) after where
  origin type isMember := by
    obtain ⟨source, isSource, sameKind⟩ := later.origin type isMember
    rcases List.mem_append.mp isSource with isMiddle | isSecond
    · obtain ⟨origin, isOrigin, alsoKind⟩ := earlier.origin source isMiddle
      rw [← List.append_assoc]
      exact ⟨origin, List.mem_append_left _ isOrigin, sameKind.trans alsoKind⟩
    · exact ⟨source, by simp [isSecond], sameKind⟩
  kept type isMember := by
    obtain ⟨middle, isMiddle, sameKind⟩ := earlier.kept type isMember
    obtain ⟨found, isFound, alsoKind⟩ := later.kept middle isMiddle
    exact ⟨found, isFound, alsoKind.trans sameKind⟩
  agrees type isMember := by
    rcases List.mem_append.mp isMember with isFirst | isSecond
    · -- The type that stands for it after the first step keeps its kind in the second.
      obtain ⟨middle, isMiddle, agree⟩ := earlier.agrees type isFirst
      obtain ⟨found, isFound, sameKind⟩ := later.kept middle isMiddle
      exact ⟨found, isFound, sameKind ▸ agree⟩
    · exact later.agrees type isSecond

/-- Types on either side of the merged ones take no part. -/
theorem Merges.between {before incoming after : List TypeExpr}
    (merges : Merges equivalent before incoming after) (left right : List TypeExpr) :
    Merges equivalent (left ++ before ++ right) incoming (left ++ after ++ right) where
  origin type isMember := by
    by_cases isAfter : type ∈ after
    · obtain ⟨source, isSource, sameKind⟩ := merges.origin type isAfter
      exact ⟨source, by grind, sameKind⟩
    · exact ⟨type, by grind, rfl⟩
  kept type isMember := by
    by_cases isBefore : type ∈ before
    · obtain ⟨found, isFound, sameKind⟩ := merges.kept type isBefore
      exact ⟨found, by grind, sameKind⟩
    · exact ⟨type, by grind, rfl⟩
  agrees type isMember := by
    obtain ⟨found, isFound, agree⟩ := merges.agrees type isMember
    exact ⟨found, by grind, agree⟩

/-- A field is added at the end, or merged into the field of its name. -/
theorem merges_addsField {incoming : Field} {fields result : List Field} {notes : List MergeNote}
    (adds : AddsField equivalent incoming fields (result, notes)) :
    Merges equivalent (fields.map Field.type) [incoming.type] (result.map Field.type) := by
  cases adds with
  | last => simpa using Merges.append (fields.map Field.type) [incoming.type]
  | @merged before after existing _ _ compatible =>
    have one : Merges equivalent [existing.type] [incoming.type]
        [(mergedField existing incoming).1.type] := ⟨by simp, by simp, by simpa using .inr compatible⟩
    -- The fields around the place where the field goes stay as they are.
    simpa using one.between (before.map Field.type) (after.map Field.type)

/-- Fields are added to a record one after the other. -/
theorem merges_addFields {incoming : List Field} {shape result : RecordShape}
    {before notes : List MergeNote}
    (isAdded : addFields equivalent incoming (shape, before) = .ok (result, notes)) :
    Merges equivalent shape.types (incoming.map Field.type) result.types ∧
      result.additional = shape.additional := by
  -- Further properties take no part while fields are added.
  induction incoming generalizing shape before with
  | nil =>
    cases isAdded
    exact ⟨Merges.refl _, rfl⟩
  | cons field rest ih =>
    obtain ⟨fields, more, adds, isLater⟩ := addFields_cons_eq_ok_iff.mp isAdded
    obtain ⟨later, same⟩ := ih isLater
    have first := (merges_addsField adds).between [] shape.additional.toList
    exact ⟨first.trans later, same⟩

/-- The first type of further properties stays, and every other agrees with it. -/
theorem merges_addsFurther {current extra : Option TypeExpr}
    (adds : AddsFurther equivalent current extra) :
    Merges equivalent current.toList extra.toList (current.or extra).toList := by
  -- If both types are given, the first stays, and it agrees with the other.
  cases current with
  | none => exact Merges.append [] extra.toList
  | some kept => cases extra with
    | none => exact Merges.refl _
    | some given =>
      have agree : Agrees equivalent kept.kind given.kind :=
        .inr ((adds kept rfl given rfl).imp_left TypeExpr.kind_beq_of_beq)
      exact ⟨by simp, by simp, by simpa using agree⟩

/-- Merging records merges the types of all of them. -/
theorem merges_mergeRecords {members : List IntersectionMember} {shape result : RecordShape}
    {before notes : List MergeNote}
    (isMerged : mergeRecords equivalent members (shape, before) = .ok (result, notes)) :
    Merges equivalent shape.types (members.flatMap fun member => member.shape.types)
      result.types := by
  -- Each member merges its fields first, and then its type of further properties.
  induction members generalizing shape before with
  | nil =>
    cases isMerged
    exact Merges.refl _
  | cons member rest ih =>
    obtain ⟨incoming, whole, more, isRecord, isAdded, adds, isLater⟩ :=
      mergeRecords_cons_eq_ok_iff.mp isMerged
    have added := (merges_addFields isAdded).1
    have further := (merges_addsFurther adds).between (whole.fields.map Field.type) []
    simp only [List.append_nil] at further
    rw [List.flatMap_cons, isRecord]
    exact (added.trans further).trans (ih isLater)

/-- Making fields required leaves their types as they are. -/
theorem types_requireFields (names : List String) (fields : List Field) :
    (requireFields names fields).1.map Field.type = fields.map Field.type := by
  rw [requireFields_eq, List.map_map]
  rfl

/-- Merged members have no choice among them, and are a single type or a merged record. -/
theorem mergeAllOf_cases {members : List IntersectionMember} {merged : Merged}
    (isMerged : mergeAllOf members equivalent = .ok merged) :
    (∀ member ∈ members, isUnion member = false) ∧
      (((members.filter isTyped).length ≤ 1 ∧
          (isSingleRecord (members.filter isTyped) = true → requiredNames members = []) ∧
          merged.shape = single (members.filter isTyped)) ∨
        ((members.filter isTyped).length ≤ 1 →
            isSingleRecord (members.filter isTyped) = true ∧ requiredNames members ≠ []) ∧
          ∃ whole notes, mergeRecords equivalent (members.filter isTyped) ({}, []) = .ok (whole, notes) ∧
          merged.shape = .record
            { whole with fields := (requireFields (requiredNames members) whole.fields).1 }) := by
  -- This forgets what is noted.
  obtain ⟨noUnion, ⟨alone, rfl⟩ | ⟨several, whole, notes, isWhole, rfl⟩⟩ :=
    mergeAllOf_eq_ok_iff.mp isMerged
  · exact ⟨noUnion, .inl ⟨alone.1, alone.2, rfl⟩⟩
  · refine ⟨noUnion, .inr ⟨fun few => ?_, whole, notes, isWhole, rfl⟩⟩
    simpa [StandsAlone, few] using several

/-- A property of types that the merged type of two fields has if both of them have it. -/
def Stable (equivalent : TypeKind TypeExpr → TypeKind TypeExpr → Bool) (holds : TypeExpr → Prop) :
    Prop :=
  ∀ {old new : TypeExpr} (key : String) (nullable : Bool), Agrees equivalent old.kind new.kind →
    holds old → holds new →
      holds { old with nullable, constraints := (old.constraints.intersect key new.constraints).1 }

namespace Stable

variable {holds : TypeExpr → Prop}

/-- A field that is added to others leaves them with a stable property of the types of all. -/
theorem addsField (stable : Stable equivalent holds) {incoming : Field} {fields result : List Field}
    {notes : List MergeNote} (old : ∀ field ∈ fields, holds field.type) (new : holds incoming.type)
    (adds : AddsField equivalent incoming fields (result, notes)) :
    ∀ field ∈ result, holds field.type := by
  -- Only the merged field is new, and that its kinds are compatible is why they agree.
  cases adds with
  | last => exact List.forall_mem_append.mpr ⟨old, List.forall_mem_singleton.mpr new⟩
  | merged before _ _ compatible =>
    have ⟨first, later⟩ := List.forall_mem_append.mp old
    have ⟨existing, others⟩ := List.forall_mem_cons.mp later
    refine List.forall_mem_append.mpr ⟨first, List.forall_mem_cons.mpr ⟨?_, others⟩⟩
    exact stable incoming.key _ (.inr compatible) existing new

/-- So do fields that are added one after the other. -/
theorem addFields (stable : Stable equivalent holds) {incoming : List Field}
    {shape result : RecordShape} {before notes : List MergeNote}
    (old : ∀ type ∈ shape.types, holds type) (new : ∀ field ∈ incoming, holds field.type)
    (isAdded : addFields equivalent incoming (shape, before) = .ok (result, notes)) :
    ∀ type ∈ result.types, holds type := by
  -- The induction is on the fields that are left; the record that has them grows with each.
  induction incoming generalizing shape before with
  | nil =>
    cases isAdded
    exact old
  | cons field rest ih =>
    have ⟨first, later⟩ := List.forall_mem_cons.mp new
    have ⟨fields, additional⟩ := shape.forall_types_iff.mp old
    obtain ⟨grown, more, adds, isLater⟩ := addFields_cons_eq_ok_iff.mp isAdded
    have added : ∀ type ∈ ({ shape with fields := grown } : RecordShape).types, holds type :=
      (RecordShape.forall_types_iff _).mpr ⟨stable.addsField fields first adds, additional⟩
    exact ih added later isLater

/-- A merged record has a stable property of the types of all records. -/
theorem mergeRecords (stable : Stable equivalent holds) {members : List IntersectionMember}
    {shape result : RecordShape} {before notes : List MergeNote}
    (old : ∀ type ∈ shape.types, holds type)
    (new : ∀ member ∈ members, ∀ record, member.shape = .record record →
      ∀ type ∈ record.types, holds type)
    (isMerged : mergeRecords equivalent members (shape, before) = .ok (result, notes)) :
    ∀ type ∈ result.types, holds type := by
  induction members generalizing shape before with
  | nil =>
    cases isMerged
    exact old
  | cons member rest ih =>
    have ⟨first, later⟩ := List.forall_mem_cons.mp new
    obtain ⟨incoming, whole, more, isRecord, isAdded, _, isLater⟩ :=
      mergeRecords_cons_eq_ok_iff.mp isMerged
    have ⟨fields, additional⟩ := incoming.forall_types_iff.mp (first incoming isRecord)
    have ⟨added, further⟩ := whole.forall_types_iff.mp (stable.addFields old fields isAdded)
    -- Of two types of further properties one is kept as it is.
    have kept : ∀ type ∈ whole.additional.or incoming.additional, holds type := fun type isType =>
      (Option.or_eq_some_iff.mp isType).elim (further type) fun isNew => additional type isNew.2
    have next : ∀ type ∈ ({ whole with
        additional := whole.additional.or incoming.additional } : RecordShape).types, holds type :=
      (RecordShape.forall_types_iff _).mpr ⟨added, kept⟩
    exact ih next later isLater

/--
What members merge into is another name of a type of which something holds, or a record of whose types
something stable holds, if that is so of the members.
-/
theorem mergeAllOf {alone inside : TypeExpr → Prop} (stable : Stable equivalent inside)
    (any : alone .any) (named : ∀ name, alone (.named name)) {members : List IntersectionMember}
    {merged : Merged} (isMerged : mergeAllOf members equivalent = .ok merged)
    (scalars : ∀ member ∈ members, ∀ type, member.shape = .scalar type → alone type)
    (records : ∀ member ∈ members, ∀ record, member.shape = .record record →
      ∀ type ∈ record.types, inside type) :
    (∃ type, merged.shape = .alias type ∧ alone type) ∨
      ∃ record, merged.shape = .record record ∧ ∀ type ∈ record.types, inside type := by
  obtain ⟨_, ⟨few, _, isSingle⟩ | ⟨_, whole, notes, isWhole, isRecord⟩⟩ := mergeAllOf_cases isMerged
  · -- At most one member has a type: it gives the whole shape.
    have isMember : ∀ member ∈ members.filter isTyped, member ∈ members :=
      fun member isTyped => (List.mem_filter.mp isTyped).1
    rw [isSingle]
    generalize members.filter isTyped = only at few isMember
    match only, few with
    | [], _ => exact .inl ⟨_, rfl, any⟩
    | [⟨_, some name, _⟩], _ => exact .inl ⟨_, rfl, named name⟩
    | [⟨label, none, shape⟩], _ =>
      have isOnly := isMember _ (List.mem_singleton_self _)
      cases shape with
      | record record => exact .inr ⟨record, rfl, records _ isOnly record rfl⟩
      | scalar type => exact .inl ⟨type, rfl, scalars _ isOnly type rfl⟩
      | required | unconstrained | union => exact .inl ⟨_, rfl, any⟩
  · -- Several are merged as records, whose fields get no types but those of the members.
    have types := stable.mergeRecords (by simp [RecordShape.types])
      (fun member isTyped => records member (List.mem_filter.mp isTyped).1) isWhole
    refine .inr ⟨_, isRecord, ?_⟩
    simpa [RecordShape.types, types_requireFields] using types

end Stable

end Intersection

/-- A merge mentions nothing but what its members do. -/
theorem mentions_mergeAllOf {members : List IntersectionMember} {merged : Merged}
    {equivalent : TypeKind TypeExpr → TypeKind TypeExpr → Bool}
    (isMerged : mergeAllOf members equivalent = .ok merged) {name : String}
    (isMentioned : name ∈ merged.shape.mentions) :
    ∃ member ∈ members, name ∈ member.mentions := by
  obtain ⟨_, ⟨few, _, isSingle⟩ | ⟨_, whole, notes, isWhole, isRecord⟩⟩ :=
    Intersection.mergeAllOf_cases isMerged
  · -- A single typed member gives its reference, its record or its type.
    rw [isSingle] at isMentioned
    generalize isTyped : members.filter Intersection.isTyped = typed at few isMentioned
    match typed, few with
    | [], _ => simp [Intersection.single, Shape.mentions, TypeExpr.any, TypeExpr.mentions] at isMentioned
    | [member], _ =>
      have isMember : member ∈ members := (List.mem_filter.mp (isTyped ▸ List.mem_singleton_self member)).1
      refine ⟨member, isMember, ?_⟩
      obtain ⟨label, reference, contribution⟩ := member
      cases reference with
      | some target =>
        simp only [Intersection.single, Shape.mentions, TypeExpr.mentions_named] at isMentioned
        simpa [IntersectionMember.mentions] using .inl (List.mem_singleton.mp isMentioned)
      | none =>
        cases contribution with
        | record shape =>
          rw [Intersection.single, Shape.mentions_record] at isMentioned
          exact isMentioned
        | scalar type =>
          simpa [Intersection.single, Shape.mentions, IntersectionMember.mentions,
            MemberShape.mentions, MemberShape.types] using isMentioned
        | required _ | unconstrained | union =>
          simp [Intersection.single, Shape.mentions, TypeExpr.any, TypeExpr.mentions] at isMentioned
  · -- The types of a merged record have the kinds of types of its members.
    rw [isRecord, Shape.mentions_record] at isMentioned
    simp only [RecordShape.types, Intersection.types_requireFields] at isMentioned
    obtain ⟨type, isType, inType⟩ := List.mem_flatMap.mp isMentioned
    obtain ⟨source, isSource, sameKind⟩ := (Intersection.merges_mergeRecords isWhole).origin type isType
    rw [TypeExpr.mentions_eq_of_kind sameKind] at inType
    have fromMembers : source ∈ (members.filter Intersection.isTyped).flatMap
        fun member => member.shape.types := by simpa [RecordShape.types] using isSource
    obtain ⟨member, isTyped, isPart⟩ := List.mem_flatMap.mp fromMembers
    exact ⟨member, (List.mem_filter.mp isTyped).1,
      List.mem_append_right _ (List.mem_flatMap.mpr ⟨source, isPart, inType⟩)⟩

/-- An item at the end is kept unless it is there before. -/
theorem eraseDups_concat {α : Type} [BEq α] [LawfulBEq α] (items : List α) (last : α) :
    (items ++ [last]).eraseDups =
      if items.contains last then items.eraseDups else items.eraseDups ++ [last] := by
  -- What is removed from the single item at the end is the item itself, or nothing.
  rw [List.eraseDups_append, List.removeAll]
  split
  · rename_i isThere
    rw [List.filter_cons_of_neg (by simpa using isThere)]
    simp
  · rename_i isNew
    rw [List.filter_cons_of_pos (by simpa using isNew)]
    simp [List.eraseDups_cons]

/-- No item is kept twice. -/
theorem nodup_eraseDups {α : Type} [BEq α] [LawfulBEq α] (items : List α) : items.eraseDups.Nodup := by
  -- Whether an item is kept depends on those before it, so the induction is on the end of the list.
  induction items using List.reverseRecOn with
  | nil => simp
  | append_singleton items last ih =>
    rw [eraseDups_concat]
    split
    · exact ih
    · rename_i isNew
      refine List.nodup_append.mpr ⟨ih, by simp, fun item isKept other isLast => ?_⟩
      rintro rfl
      cases List.mem_singleton.mp isLast
      exact isNew (by simpa using isKept)

/-- Items that are distinct are all kept. -/
theorem eraseDups_eq_self {α : Type} [BEq α] [LawfulBEq α] {items : List α} (distinct : items.Nodup) :
    items.eraseDups = items := by
  induction items with
  | nil => rfl
  | cons first rest ih =>
    have ⟨fresh, later⟩ := List.nodup_cons.mp distinct
    have others : rest.filter (fun item => !item == first) = rest :=
      List.filter_eq_self.mpr fun item isItem => by
        simpa using fun same : item = first => fresh (same ▸ isItem)
    rw [List.eraseDups_cons, others, ih later]

/-- The distinct names are those that are kept, each in the place where it comes first. -/
theorem distinctNames_eq_eraseDups (names : List String) : distinctNames names = names.eraseDups := by
  -- Names are added at the end, and so the induction is on the end of the list as well.
  induction names using List.reverseRecOn with
  | nil => rfl
  | append_singleton names last ih =>
    have step : distinctNames (names ++ [last]) =
        if (distinctNames names).contains last then distinctNames names
        else distinctNames names ++ [last] := by
      rw [distinctNames, List.foldl_append]
      rfl
    rw [step, ih, eraseDups_concat]
    simp

/-- The distinct names are the names. -/
theorem mem_distinctNames_iff (names : List String) (name : String) :
    name ∈ distinctNames names ↔ name ∈ names := by
  rw [distinctNames_eq_eraseDups, List.mem_eraseDups]

/-- No name is among the distinct ones twice. -/
theorem nodup_distinctNames (names : List String) : (distinctNames names).Nodup :=
  distinctNames_eq_eraseDups names ▸ nodup_eraseDups names

/-- Names that are distinct are left as they are. -/
theorem distinctNames_eq_self {names : List String} (distinct : names.Nodup) :
    distinctNames names = names :=
  (distinctNames_eq_eraseDups names).trans (eraseDups_eq_self distinct)

/-- A name is distinct from those before it, or it is left out. -/
theorem distinctNames_concat (names : List String) (last : String) :
    distinctNames (names ++ [last]) =
      if last ∈ names then distinctNames names else distinctNames names ++ [last] := by
  simp only [distinctNames_eq_eraseDups, eraseDups_concat]
  simp

/-- Names among which some have been made distinct before are as distinct as they would be anyway. -/
theorem distinctNames_append_distinctNames (before names after : List String) :
    distinctNames (before ++ (distinctNames names ++ after)) =
      distinctNames (before ++ (names ++ after)) := by
  -- Whether the last name is left out depends on which names are there, and not on how often.
  induction after using List.reverseRecOn with
  | nil =>
    simp only [List.append_nil]
    induction names using List.reverseRecOn with
    | nil => rfl
    | append_singleton names last ih =>
      rw [distinctNames_concat, ← List.append_assoc, distinctNames_concat]
      by_cases isName : last ∈ names
      · rw [if_pos isName, if_pos (by simp [isName]), ih]
      · rw [if_neg isName, ← List.append_assoc, distinctNames_concat, ih]
        simp [mem_distinctNames_iff]
  | append_singleton after last ih =>
    have concat (names : List String) : before ++ (names ++ (after ++ [last])) =
        (before ++ (names ++ after)) ++ [last] := by simp
    rw [concat, concat, distinctNames_concat, distinctNames_concat, ih]
    simp [mem_distinctNames_iff]

namespace Intersection

/-- The names that members require are the distinct ones of all lists of names. -/
theorem requiredNames_eq_distinctNames (members : List IntersectionMember) :
    requiredNames members = distinctNames (members.flatMap fun member =>
      match member.shape with
      | .required names => names
      | _ => []) := by
  rw [requiredNames, distinctNames, List.foldl_flatMap]
  congr 1
  funext names member
  cases member.shape <;> rfl

/-- The names that members require are required by one of them. -/
theorem mem_requiredNames_iff (members : List IntersectionMember) (name : String) :
    name ∈ requiredNames members ↔
      ∃ member ∈ members, ∃ names, member.shape = .required names ∧ name ∈ names := by
  rw [requiredNames_eq_distinctNames, mem_distinctNames_iff, List.mem_flatMap]
  refine exists_congr fun member => and_congr_right fun _ => ?_
  cases member.shape <;> simp

/-- The names that members require, each once. -/
theorem nodup_requiredNames (members : List IntersectionMember) : (requiredNames members).Nodup :=
  requiredNames_eq_distinctNames members ▸ nodup_distinctNames _

end Intersection

/-- Only names that are none at all are not united into a choice. -/
theorem names_eq_nil_of_unionOf {kind : CompositionKind} {names : List String} {nullable : Bool}
    {discriminator : Option Discriminator} {error : CompositionError}
    (isError : unionOf kind names nullable discriminator = .error error) : names = [] := by
  -- A name would be among the distinct ones, of which there are none.
  refine List.eq_nil_iff_forall_not_mem.mpr fun name isName => ?_
  unfold unionOf at isError
  split at isError
  · rename_i isEmpty
    simpa [isEmpty] using (mem_distinctNames_iff names name).mpr isName
  · cases isError
  · cases isError

/-- A choice mentions its members, and the types that its discriminator maps to. -/
theorem mentions_unionOf {kind : CompositionKind} {names : List String} {nullable : Bool}
    {discriminator : Option Discriminator} {shape : Shape}
    (isUnion : unionOf kind names nullable discriminator = .ok shape) (name : String) :
    name ∈ shape.mentions ↔ name ∈ names ∨
      ∃ found ∈ discriminator, name ∈ found.mapping.values := by
  -- A single name without a discriminator is mentioned by the alias that stands for the choice.
  have mapped : ∀ discriminator : Option Discriminator,
      name ∈ (discriminator.map fun found => found.mapping.values).getD [] ↔
        ∃ found ∈ discriminator, name ∈ found.mapping.values := by
    intro discriminator
    cases discriminator <;> simp
  rw [← mem_distinctNames_iff names]
  unfold unionOf at isUnion
  split at isUnion
  · cases isUnion
  · rename_i only isOnly
    cases isUnion
    simp [Shape.mentions, isOnly]
  · cases isUnion
    simp only [Shape.mentions, List.mem_append, mapped]

end ApiTypes
