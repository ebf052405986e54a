import Mathlib.Data.List.Nodup
import ApiTypes.Proofs.Composition

/-!
Outlines of what an intersection merges: the names of fields and which of them are required, whatever
their types are.
-/

namespace ApiTypes

/-- What a contribution to an intersection says of the names of properties. -/
inductive Outline where
  /-- Fields in order, each with whether it is required, and whether further properties are typed. -/
  | record (fields : List (String × Bool)) (opens : Bool)
  | required (names : List String)
  | unconstrained
  /-- A type that is not an object, and whether it is one that says nothing. -/
  | scalar (isAny : Bool)
  | union
deriving DecidableEq

namespace Outline

/-- Whether an outline is that of a type. -/
def isTyped : Outline → Bool
  | required _ | unconstrained => false
  | record _ _ | scalar _ | union => true

/-- Whether an outline is that of a choice. -/
def isUnion : Outline → Bool
  | union => true
  | record _ _ | required _ | unconstrained | scalar _ => false

/-- Whether an outline is that of an object type. -/
def isRecord : Outline → Bool
  | record _ _ => true
  | required _ | unconstrained | scalar _ | union => false

/-- The fields of an object type with whether they are required. -/
def fields : Outline → List (String × Bool)
  | record fields _ => fields
  | required _ | unconstrained | scalar _ | union => []

/-- Whether an object type says something of further properties. -/
def isOpen : Outline → Bool
  | record _ opens => opens
  | required _ | unconstrained | scalar _ | union => false

/-- The names that are required without a field. -/
def names : Outline → List String
  | required names => names
  | record _ _ | unconstrained | scalar _ | union => []

/-- All names of which an outline says whether they are required. -/
def entries (outline : Outline) : List (String × Bool) :=
  outline.fields ++ outline.names.map fun name => (name, true)

/-- Adds a field at the end, or to the field of its name, which is then required if either one is. -/
def addEntry (entry : String × Bool) : List (String × Bool) → List (String × Bool)
  | [] => [entry]
  | first :: rest =>
    if first.1 = entry.1 then (first.1, first.2 || entry.2) :: rest else first :: addEntry entry rest

/-- Adds fields one after the other. -/
def addEntries (entries found : List (String × Bool)) : List (String × Bool) :=
  entries.foldl (fun found entry => addEntry entry found) found

/-- Makes the fields of the given names required. -/
def requireEntries (names : List String) (fields : List (String × Bool)) : List (String × Bool) :=
  fields.map fun field => (field.1, field.2 || names.contains field.1)

/-- Whether the only outline of a type is that of an object type. -/
def isSingleRecord : List Outline → Bool
  | [record _ _] => true
  | _ => false

/-- The outline of an intersection of at most one type. One that says nothing does not restrict either. -/
def single : List Outline → Outline
  | [record fields opens] => .record fields opens
  | [scalar false] => .scalar false
  | _ => .unconstrained

/-- The outline of an intersection, unless its members do not combine. -/
def merge (members : List Outline) : Option Outline :=
  let required := members.flatMap names
  let typed := members.filter isTyped
  if members.any isUnion then none
  else if typed.length ≤ 1 && !(isSingleRecord typed && !required.isEmpty) then some (single typed)
  else if typed.all isRecord then
    some (.record (requireEntries required (addEntries (typed.flatMap fields) []))
      (typed.any isOpen))
  else none

/-- An outline says of every name only once whether it is required. -/
def IsCoherent (outline : Outline) : Prop :=
  ∀ name first second, (name, first) ∈ outline.entries → (name, second) ∈ outline.entries →
    first = second

/-- A field that is added has a name that was there, or a new one in the end. -/
theorem map_fst_addEntry (entry : String × Bool) (found : List (String × Bool)) :
    (addEntry entry found).map Prod.fst =
      if (found.map Prod.fst).contains entry.1 then found.map Prod.fst
      else found.map Prod.fst ++ [entry.1] := by
  induction found with
  | nil => rfl
  | cons first rest ih =>
    rw [addEntry]
    by_cases same : first.1 = entry.1
    · simp [same]
    · rw [if_neg same, List.map_cons, ih]
      have other : (entry.1 == first.1) = false := by simpa using Ne.symm same
      simp only [List.map_cons, List.contains_cons, other, Bool.false_or]
      split <;> rfl

/-- Fields that are added have each name once. -/
theorem map_fst_addEntries (entries : List (String × Bool)) :
    (addEntries entries []).map Prod.fst = distinctNames (entries.map Prod.fst) := by
  have general (found : List (String × Bool)) : (addEntries entries found).map Prod.fst =
      (entries.map Prod.fst).foldl (fun found name =>
        if found.contains name then found else found ++ [name]) (found.map Prod.fst) := by
    induction entries generalizing found with
    | nil => rfl
    | cons entry rest ih => rw [addEntries, List.foldl_cons, ← addEntries, ih, map_fst_addEntry]; rfl
  exact general []

/-- Among the fields after one is added, those are required that were so before, and that one if it is. -/
theorem mem_addEntry_iff (entry : String × Bool) (found : List (String × Bool)) (name : String) :
    (name, true) ∈ addEntry entry found ↔ entry = (name, true) ∨ (name, true) ∈ found := by
  induction found with
  | nil => simp [addEntry, eq_comm]
  | cons first rest ih =>
    rw [addEntry]
    split
    · rename_i same
      obtain ⟨key, required⟩ := entry
      obtain ⟨_, existing⟩ := first
      cases same
      cases existing <;> cases required <;> simp [eq_comm]
    · rw [List.mem_cons, ih, List.mem_cons]
      exact or_left_comm

/-- Among the fields after some are added, those are required that were so before or are so now. -/
theorem mem_addEntries_iff (entries found : List (String × Bool)) (name : String) :
    (name, true) ∈ addEntries entries found ↔ (name, true) ∈ entries ∨ (name, true) ∈ found := by
  induction entries generalizing found with
  | nil => simp [addEntries]
  | cons entry rest ih =>
    rw [addEntries, List.foldl_cons, ← addEntries, ih, mem_addEntry_iff, List.mem_cons, eq_comm,
      or_left_comm, or_assoc]

/-- The fields of the given names are required, and those that were so before. -/
theorem mem_requireEntries_iff (names : List String) (fields : List (String × Bool)) (name : String) :
    (name, true) ∈ requireEntries names fields ↔
      name ∈ fields.map Prod.fst ∧ (name ∈ names ∨ (name, true) ∈ fields) := by
  rw [requireEntries, List.mem_map, List.mem_map]
  constructor
  · rintro ⟨⟨key, required⟩, isField, same⟩
    obtain ⟨rfl, isRequired⟩ := Prod.mk.inj same
    refine ⟨⟨_, isField, rfl⟩, ?_⟩
    rcases Bool.or_eq_true_iff.mp isRequired with rfl | isName
    · exact .inr isField
    · exact .inl (List.contains_iff_mem.mp isName)
  · rintro ⟨⟨⟨key, required⟩, isField, rfl⟩, isName | isRequired⟩
    · exact ⟨_, isField, by simp [isName]⟩
    · exact ⟨_, isRequired, rfl⟩

/-- Fields that are required keep their names. -/
theorem map_fst_requireEntries (names : List String) (fields : List (String × Bool)) :
    (requireEntries names fields).map Prod.fst = fields.map Prod.fst := by
  simp [requireEntries, Function.comp_def]

/-- A name is said to be required by a field or by a name without one. -/
theorem mem_entries_iff (outline : Outline) (name : String) :
    (name, true) ∈ outline.entries ↔ (name, true) ∈ outline.fields ∨ name ∈ outline.names := by
  simp [entries]

/-- An object type is a type. -/
theorem isTyped_of_isRecord {outline : Outline} (isRecord : outline.isRecord = true) :
    outline.isTyped = true := by
  cases outline with
  | record => rfl
  | required | unconstrained | scalar | union => cases isRecord

/-- What has fields is an object type. -/
theorem isRecord_of_mem_fields {outline : Outline} {entry : String × Bool}
    (isField : entry ∈ outline.fields) : outline.isRecord = true := by
  cases outline with
  | record => rfl
  | required | unconstrained | scalar | union => cases isField

/-- What has fields is typed. -/
theorem isTyped_of_mem_fields {outline : Outline} {entry : String × Bool}
    (isField : entry ∈ outline.fields) : outline.isTyped = true :=
  isTyped_of_isRecord (isRecord_of_mem_fields isField)

/-- What merges has no choice among it, and is a single type or a merged record. -/
theorem merge_cases {members : List Outline} {outline : Outline}
    (merges : merge members = some outline) :
    (∀ member ∈ members, member.isUnion = false) ∧
      (((members.filter isTyped).length ≤ 1 ∧
          (isSingleRecord (members.filter isTyped) = true → members.flatMap names = []) ∧
          outline = single (members.filter isTyped)) ∨
        (∀ member ∈ members.filter isTyped, member.isRecord = true) ∧
          outline = .record
            (requireEntries (members.flatMap names)
              (addEntries ((members.filter isTyped).flatMap fields) []))
            ((members.filter isTyped).any isOpen)) := by
  -- This goes through the branches of the merge.
  simp only [merge] at merges
  split at merges
  · cases merges
  · rename_i noUnion
    refine ⟨fun member isMember => ?_, ?_⟩
    · simpa using fun isUnion => noUnion (List.any_eq_true.mpr ⟨member, isMember, isUnion⟩)
    split at merges
    · rename_i few
      cases merges
      simp only [Bool.and_eq_true, decide_eq_true_eq, Bool.not_eq_true', Bool.and_eq_false_iff] at few
      refine .inl ⟨few.1, fun isRecord => ?_, rfl⟩
      simpa [isRecord] using few.2
    · split at merges <;> cases merges
      rename_i records
      exact .inr ⟨List.all_eq_true.mp records, rfl⟩

/-- A merge does not give a type that says nothing. -/
theorem merge_ne_any (members : List Outline) : merge members ≠ some (.scalar true) := by
  intro merges
  obtain ⟨_, ⟨_, _, isSingle⟩ | ⟨_, isRecord⟩⟩ := merge_cases merges
  · unfold single at isSingle
    split at isSingle <;> cases isSingle
  · cases isRecord

/-- What a merge says of a name at all is whether one of the members requires it. -/
theorem mem_entries_merge_iff {members : List Outline} {outline : Outline}
    (merges : merge members = some outline) (name : String) :
    (name, true) ∈ outline.entries ↔
      name ∈ outline.entries.map Prod.fst ∧ ∃ member ∈ members, (name, true) ∈ member.entries := by
  obtain ⟨_, ⟨few, unnamed, rfl⟩ | ⟨_, rfl⟩⟩ := merge_cases merges
  · generalize isTyped : members.filter Outline.isTyped = typed at few unnamed
    match typed, few with
    | [], _ => simp [single, entries, fields, names]
    | [.scalar isAny], _ => cases isAny <;> simp [single, entries, fields, names]
    | [.required _], _ | [.unconstrained], _ | [.union], _ =>
      simp [single, entries, fields, names]
    | [.record fields opens], _ =>
      have isMember : Outline.record fields opens ∈ members :=
        (List.mem_filter.mp (isTyped ▸ List.mem_singleton_self _)).1
      refine ⟨fun isRequired => ⟨List.mem_map_of_mem isRequired, _, isMember, isRequired⟩, ?_⟩
      rintro ⟨_, member, isOther, isRequired⟩
      rcases (member.mem_entries_iff name).mp isRequired with isField | isName
      · -- No other member has fields.
        have also := List.mem_filter.mpr ⟨isOther, isTyped_of_mem_fields isField⟩
        rw [isTyped, List.mem_singleton] at also
        rw [also] at isRequired
        exact isRequired
      · have isNamed : name ∈ members.flatMap names := List.mem_flatMap.mpr ⟨member, isOther, isName⟩
        rw [unnamed rfl] at isNamed
        cases isNamed
  · simp only [entries, fields, names, List.map_nil, List.append_nil]
    rw [mem_requireEntries_iff, mem_addEntries_iff]
    rw [map_fst_requireEntries]
    refine and_congr_right fun _ => ?_
    simp only [List.not_mem_nil, or_false, List.mem_flatMap]
    constructor
    · rintro (⟨member, isMember, isName⟩ | ⟨member, isTyped, isField⟩)
      · exact ⟨member, isMember, (member.mem_entries_iff name).mpr (.inr isName)⟩
      · exact ⟨member, (List.mem_filter.mp isTyped).1, (member.mem_entries_iff name).mpr (.inl isField)⟩
    · rintro ⟨member, isMember, isRequired⟩
      rcases (member.mem_entries_iff name).mp isRequired with isField | isName
      · exact .inr ⟨member, List.mem_filter.mpr ⟨isMember, isTyped_of_mem_fields isField⟩, isField⟩
      · exact .inl ⟨member, isMember, isName⟩

/-- All types that are merged into an object type are object types. -/
theorem isRecord_of_merge {members : List Outline} {fields : List (String × Bool)} {opens : Bool}
    (merges : merge members = some (.record fields opens)) {member : Outline}
    (isMember : member ∈ members) (isTyped : member.isTyped = true) : member.isRecord = true := by
  have isIncluded := List.mem_filter.mpr ⟨isMember, isTyped⟩
  obtain ⟨_, ⟨few, _, isSingle⟩ | ⟨records, _⟩⟩ := merge_cases merges
  · generalize members.filter Outline.isTyped = typed at few isSingle isIncluded
    match typed, few with
    | [.record _ _], _ => rw [List.mem_singleton.mp isIncluded]; rfl
    | [.scalar isAny], _ => cases isAny <;> cases isSingle
    | [], _ | [.required _], _ | [.unconstrained], _ | [.union], _ => cases isSingle
  · exact records member isIncluded

/-- Whether there is a choice depends on the types alone. -/
theorem any_isUnion (members : List Outline) :
    members.any isUnion = (members.filter isTyped).any isUnion := by
  rw [List.any_filter]
  refine List.any_congr rfl fun member => ?_
  cases member <;> rfl

/-- A single object type stays one, with each of its names once if something is required beside it. -/
theorem merge_of_single {members : List Outline} {fields : List (String × Bool)} {opens : Bool}
    (isSingle : members.filter isTyped = [record fields opens]) :
    ∃ merged, merge members = some (.record merged opens) ∧
      ((members.flatMap names = [] ∧ merged = fields) ∨
        members.flatMap names ≠ [] ∧ merged.map Prod.fst = distinctNames (fields.map Prod.fst)) := by
  have noUnion : members.any isUnion = false := by
    rw [any_isUnion, isSingle]
    rfl
  by_cases unnamed : members.flatMap names = []
  · exact ⟨fields, by simp [merge, noUnion, isSingle, unnamed, single], .inl ⟨unnamed, rfl⟩⟩
  · refine ⟨requireEntries (members.flatMap names) (addEntries fields []), ?_, .inr ⟨unnamed, ?_⟩⟩
    · simp [merge, noUnion, isSingle, isSingleRecord, unnamed, isRecord, Outline.fields, isOpen]
    · rw [map_fst_requireEntries, map_fst_addEntries]

/-- Several types are merged if they are object types. -/
theorem merge_of_several {members : List Outline} {first second : Outline} {rest : List Outline}
    (several : members.filter isTyped = first :: second :: rest) :
    merge members = if (members.filter isTyped).all isRecord then
      some (.record (requireEntries (members.flatMap names)
        (addEntries ((members.filter isTyped).flatMap fields) [])) ((members.filter isTyped).any isOpen))
      else none := by
  -- A choice is typed and is no record, so that the last branch excludes it as well.
  have many : ¬(members.filter isTyped).length ≤ 1 := by simp [several]
  simp only [merge, any_isUnion members, many, decide_false, Bool.false_and, Bool.false_eq_true,
    if_false]
  split
  · rename_i isUnion
    obtain ⟨member, isMember, isUnion⟩ := List.any_eq_true.mp isUnion
    rw [if_neg]
    intro records
    have isRecord := List.all_eq_true.mp records member isMember
    cases member with
    | union => cases isRecord
    | record | required | unconstrained | scalar => cases isUnion
  · rfl

/--
Members with the same types merge into an object type with fields of the same names, whatever is required
beside it. If a single object type is left as it is, its fields need to have distinct names.
-/
theorem merge_congr {members others : List Outline}
    (sameTyped : others.filter isTyped = members.filter isTyped)
    (distinct : ∀ fields opens, members.filter isTyped = [record fields opens] →
      (members.flatMap names = [] ↔ others.flatMap names = []) ∨ (fields.map Prod.fst).Nodup)
    {fields : List (String × Bool)} {opens : Bool} (merges : merge members = some (.record fields opens)) :
    ∃ also, merge others = some (.record also opens) ∧ also.map Prod.fst = fields.map Prod.fst := by
  -- Names make a difference only for a single record, of which they may change no name that is there.
  match isTyped : members.filter isTyped with
  | [] => simp [merge, any_isUnion members, isTyped, isSingleRecord, single] at merges
  | [.record first opens'] =>
    obtain ⟨merged, isMerged, asMembers⟩ := merge_of_single isTyped
    obtain ⟨also, isAlso, asOthers⟩ := merge_of_single (sameTyped.trans isTyped)
    cases isMerged.symm.trans merges
    refine ⟨also, isAlso, ?_⟩
    rcases distinct first _ isTyped with sameNames | distinct
    · rcases asMembers with ⟨unnamed, rfl⟩ | ⟨named, isDistinct⟩ <;>
        rcases asOthers with ⟨alsoUnnamed, rfl⟩ | ⟨alsoNamed, alsoDistinct⟩
      · rfl
      · exact absurd (sameNames.mp unnamed) alsoNamed
      · exact absurd (sameNames.mpr alsoUnnamed) named
      · exact alsoDistinct.trans isDistinct.symm
    · rw [distinctNames_eq_self distinct] at asMembers asOthers
      have keeps {fields : List (String × Bool)} {names : List String}
          (isOne : names = [] ∧ fields = first ∨
            names ≠ [] ∧ fields.map Prod.fst = first.map Prod.fst) :
          fields.map Prod.fst = first.map Prod.fst := by
        rcases isOne with ⟨_, rfl⟩ | ⟨_, same⟩
        · rfl
        · exact same
      exact (keeps asOthers).trans (keeps asMembers).symm
  | [.required _] | [.unconstrained] | [.union] =>
    simp [merge, any_isUnion members, isTyped, isSingleRecord, single, isUnion] at merges
  | [.scalar isAny] =>
    cases isAny <;>
      simp [merge, any_isUnion members, isTyped, isSingleRecord, single, isUnion] at merges
  | first :: second :: rest =>
    rw [merge_of_several isTyped] at merges
    rw [merge_of_several (sameTyped.trans isTyped), sameTyped]
    split at merges
    · rename_i records
      cases merges
      exact ⟨_, if_pos records, by simp only [map_fst_requireEntries]⟩
    · cases merges

/-- Fields with distinct names are known from their names and from which of them are required. -/
theorem eq_map_of_nodup {fields : List (String × Bool)} (distinct : (fields.map Prod.fst).Nodup) :
    fields = (fields.map Prod.fst).map fun name => (name, decide ((name, true) ∈ fields)) := by
  rw [List.map_map]
  refine (List.map_id fields).symm.trans (List.map_congr_left fun field isField => ?_)
  obtain ⟨name, required⟩ := field
  refine Prod.ext rfl ?_
  cases required with
  | true => simp [isField]
  | false =>
    have notRequired : (name, true) ∉ fields := fun isRequired => by
      cases List.inj_on_of_nodup_map distinct isField isRequired rfl
    simp [notRequired]

/-- Fields with the same distinct names are the same if the same ones are required. -/
theorem eq_of_required_iff {fields others : List (String × Bool)}
    (sameNames : others.map Prod.fst = fields.map Prod.fst) (distinct : (fields.map Prod.fst).Nodup)
    (sameRequired : ∀ name, (name, true) ∈ others ↔ (name, true) ∈ fields) : others = fields := by
  refine (eq_map_of_nodup (sameNames ▸ distinct)).trans ?_
  rw [sameNames]
  refine (List.map_congr_left fun name _ => ?_).trans (eq_map_of_nodup distinct).symm
  exact Prod.ext rfl (decide_eq_decide.mpr (sameRequired name))

/-- What members are merged into depends on their types, and on the names that they require beside them. -/
theorem merge_eq_of_same {members others : List Outline}
    (sameTyped : others.filter isTyped = members.filter isTyped)
    (sameNames : others.flatMap names = members.flatMap names) : merge others = merge members := by
  simp only [merge, any_isUnion members, any_isUnion others, sameTyped, sameNames]

/-- Only types have fields. -/
theorem flatMap_fields (members : List Outline) :
    (members.filter isTyped).flatMap fields = members.flatMap fields := by
  induction members with
  | nil => rfl
  | cons member rest ih => cases member <;> simp [List.filter_cons, isTyped, fields, ih]

/-- Two types or more are merged if they are object types. -/
theorem merge_of_two_le {members : List Outline} (several : 2 ≤ (members.filter isTyped).length) :
    merge members = if (members.filter isTyped).all isRecord then
      some (.record (requireEntries (members.flatMap names) (addEntries (members.flatMap fields) []))
        ((members.filter isTyped).any isOpen))
      else none := by
  match isTyped : members.filter isTyped, several with
  | first :: second :: rest, _ => rw [merge_of_several isTyped, ← isTyped, flatMap_fields]

/-- What is merged has each name once if every member has. -/
theorem isCoherent_merge {members : List Outline} {outline : Outline}
    (merges : merge members = some outline) (coherent : ∀ member ∈ members, member.IsCoherent) :
    outline.IsCoherent := by
  obtain ⟨_, ⟨few, _, rfl⟩ | ⟨_, rfl⟩⟩ := merge_cases merges
  · generalize isTyped : members.filter Outline.isTyped = typed at few
    match typed, few with
    | [.record fields opens], _ =>
      exact coherent _ (List.mem_filter.mp (isTyped ▸ List.mem_singleton_self _)).1
    | [.scalar isAny], _ => cases isAny <;> nofun
    | [], _ | [.required _], _ | [.unconstrained], _ | [.union], _ => nofun
  · -- The names of merged fields are distinct.
    have distinct : ((requireEntries (members.flatMap names)
        (addEntries ((members.filter Outline.isTyped).flatMap fields) [])).map Prod.fst).Nodup := by
      rw [map_fst_requireEntries, map_fst_addEntries]
      exact nodup_distinctNames _
    intro name first second isFirst isSecond
    simp only [entries, fields, names, List.map_nil, List.append_nil] at isFirst isSecond
    exact congrArg Prod.snd (List.inj_on_of_nodup_map distinct isFirst isSecond rfl)

end Outline

end ApiTypes
