import ApiTypes.Proofs.SchemaReading

/-!
Values of keywords that are written and read again. A table is read from its entries in any order, and of
two ways to read a value that are tried in turn, the first one does not take what the second one wrote.
-/

namespace ApiTypes

/-- Whatever spells data other than null is there. -/
theorem Data.Spells.isPresent {data : Data} {source : Source} (spells : data.Spells source)
    (notNull : data ≠ .null) : source.isAbsent .whole = .ok false := by
  cases spells with
  | null => exact absurd rfl notNull
  | bool | integer | real | text | list | record | variant => rfl

/-- A finite number is equal to itself. -/
theorem Binary64.beq_self_of_isFinite {number : Binary64} (isFinite : number.isFinite = true) :
    (number == number) = true :=
  beq_self fun isNan => by
    rw [isNan] at isFinite
    cases isFinite

/-- A text is read again from what spells it. -/
theorem exists_readText {text : String} {source : Source} (spells : (Data.text text).Spells source) :
    ∃ again, source.readText .whole = .ok again ∧ (text == again) = true := by
  cases spells
  exact ⟨text, rfl, beq_self_eq_true text⟩

section

variable {α β ν : Type} {write : α → Data} {test : α → β → Bool}

/-- A value that is written is read again as one that a test of it accepts. -/
theorem exists_readOption {read : Source → Reading β} {source : Source} {value : Option α} {data : Data}
    (writes : value.map write = some data) (spells : data.Spells source)
    (survives : ∀ present ∈ value, write present ≠ .null ∧ ((write present).Spells source →
      ∃ again, read source = .ok again ∧ test present again = true)) :
    ∃ again, source.readOption .whole read = .ok again ∧
      acceptsOption (value.map test) again = true := by
  obtain ⟨present, rfl, rfl⟩ := Option.map_eq_some_iff.mp writes
  obtain ⟨notNull, reads⟩ := survives present rfl
  obtain ⟨again, isRead, accepts⟩ := reads spells
  refine ⟨some again, ?_, accepts⟩
  refine Reading.bind_eq_ok_iff.mpr ⟨false, spells.isPresent notNull, ?_⟩
  exact Reading.bind_eq_ok_iff.mpr ⟨again, isRead, rfl⟩

/-- Items that are each read as ones that are accepted are read as a list that is. -/
theorem exists_mapM {read : ν → Reading β} {items : List α} {parts : List ν}
    (reads : List.Forall₂ (fun item part => ∃ again, read part = .ok again ∧ test item again = true)
      items parts) :
    ∃ again, parts.mapM read = .ok again ∧ acceptsList (items.map test) again = true := by
  induction reads with
  | nil => exact ⟨[], rfl, rfl⟩
  | cons isFirst _ ih =>
    obtain ⟨first, isRead, accepts⟩ := isFirst
    obtain ⟨others, areRead, acceptsOthers⟩ := ih
    refine ⟨first :: others, ?_, Bool.and_eq_true_iff.mpr ⟨accepts, acceptsOthers⟩⟩
    rw [Source.mapM_eq_ok_iff] at areRead ⊢
    exact .cons isRead areRead

/-- A list that is written is read again as one that a test of it accepts. -/
theorem exists_readList {read : Source → Reading β} {source : Source} {items : List α} {data : Data}
    (writes : KeywordKind.writeList write items = some data) (spells : data.Spells source)
    (survives : ∀ item ∈ items, ∀ part, (write item).Spells part →
      ∃ again, read part = .ok again ∧ test item again = true) :
    ∃ parts again, source = .list parts ∧ parts.mapM read = .ok again ∧
      acceptsList (items.map test) again = true := by
  unfold KeywordKind.writeList at writes
  split at writes
  · cases writes
  · cases writes
    obtain ⟨parts, isSource, each⟩ := Data.spells_list_iff.mp spells
    have reads := forall₂_imp_of_mem (List.forall₂_map_left_iff.mp each) survives
    obtain ⟨again, areRead, accepts⟩ := exists_mapM reads
    exact ⟨parts, again, isSource, areRead, accepts⟩

/-- A table that is written is read again, in whatever order, with values that are accepted. -/
theorem exists_readEntries {read : Source → Reading β} {source : Source} {table : Table α}
    (distinct : table.keys.Nodup)
    (survives : ∀ value ∈ table.values, ∀ part, (write value).Spells part →
      ∃ again, read part = .ok again ∧ test value again = true)
    (spells : (Data.ofTable write table).Spells source) :
    ∃ (parts : List (String × Source)) (again : Table β), source = .record (Source.underNames parts) ∧
      Source.readEntries .whole read (Source.underNames parts) {} = .ok again ∧
      again.keys.Perm table.keys ∧
      ∀ entry ∈ table.entries, ∃ found, again.get? entry.1 = some found ∧ test entry.2 found = true := by
  obtain ⟨ordered, parts, isOrder, isSource, each⟩ := Data.spells_record_iff.mp spells
  -- Each member is that of an entry of the table, and is read under the key of that entry.
  have written : ∀ part ∈ parts, ∃ entry : String × β, (part.1 = entry.1 ∧ read part.2 = .ok entry.2) ∧
      ∃ value, (entry.1, value) ∈ table.entries ∧ test value entry.2 = true := by
    intro part isPart
    obtain ⟨member, isMember, sameName, spells⟩ := exists_of_mem_right each isPart
    obtain ⟨entry, isEntry, rfl⟩ := List.mem_map.mp (isOrder.mem_iff.mpr isMember)
    obtain ⟨again, isRead, accepts⟩ := survives entry.2 (List.mem_map_of_mem isEntry) part.2 spells
    exact ⟨(entry.1, again), ⟨sameName.symm, isRead⟩, entry.2, isEntry, accepts⟩
  obtain ⟨entries, areRead⟩ := exists_forall₂ written
  have sameNames : entries.map Prod.fst = ordered.map Prod.fst :=
    (names_eq_of_forall₂ areRead fun _ _ isRead => isRead.1.1).symm.trans
      (names_eq_of_forall₂ each fun _ _ spells => spells.1).symm
  have keys : (entries.map Prod.fst).Perm table.keys := by
    rw [sameNames, ← Table.keys_map write table]
    exact (isOrder.map Prod.fst).symm
  -- With distinct keys, what is read stays in the order of the members.
  have stillDistinct := keys.nodup_iff.mpr distinct
  refine ⟨parts, ⟨entries⟩, isSource, ?_, keys, fun entry isEntry => ?_⟩
  · exact Source.readEntries_underNames (areRead.imp fun _ _ isRead => isRead.1) stillDistinct
  · -- Under the key of an entry stands what was read for it, as no other entry has the key.
    have isKey : entry.1 ∈ entries.map Prod.fst := keys.mem_iff.mpr (List.mem_map_of_mem isEntry)
    obtain ⟨found, isFound, sameKey⟩ := List.mem_map.mp isKey
    obtain ⟨_, _, _, value, isValue, accepts⟩ := exists_of_mem_right areRead isFound
    have stored := Table.get?_of_mem_entries distinct isEntry
    rw [← sameKey, Table.get?_of_mem_entries distinct isValue] at stored
    cases stored
    exact ⟨found.2, sameKey ▸ Table.get?_of_mem_entries stillDistinct isFound, accepts⟩

/-- A table with the same keys and accepted values is accepted. -/
theorem acceptsTable_of_perm {table : Table α} {again : Table β} (keys : again.keys.Perm table.keys)
    (found : ∀ entry ∈ table.entries, ∃ value, again.get? entry.1 = some value ∧
      test entry.2 value = true) : acceptsTable (table.map test) again = true := by
  have sameSize : (table.map test).size = again.size := by
    simpa [Table.keys, Table.size, Table.map] using keys.length_eq.symm
  refine Bool.and_eq_true_iff.mpr ⟨beq_of_eq sameSize, ?_⟩
  refine List.all_eq_true.mpr (List.forall_mem_map.mpr fun entry isEntry => ?_)
  obtain ⟨value, isFound, accepts⟩ := found entry isEntry
  simp only [isFound, Option.any_some, accepts]

end

namespace TypeKeyword

/-- The types of a schema can be written as a JSON value. -/
theorem exists_spells (keyword : TypeKeyword) : ∃ source, keyword.toData.Spells source := by
  cases keyword with
  | single type => exact ⟨_, .text type.name⟩
  | several types =>
    exact Data.exists_spells_list (List.forall_mem_map.mpr fun type _ => ⟨_, .text type.name⟩)

/-- The types of a schema are never written as null. -/
theorem toData_ne_null (keyword : TypeKeyword) : keyword.toData ≠ .null := by
  cases keyword <;> exact nofun

/-- A type is read again from its name. -/
theorem readChoice_name (type : SchemaType) :
    (Source.scalar (.text type.name)).readChoice .whole SchemaType.named = .ok type := by
  cases type <;> rfl

/-- The types of a schema are read again from whatever spells them. -/
theorem read_of_spells {keyword : TypeKeyword} {source : Source}
    (spells : keyword.toData.Spells source) : read source = .ok keyword := by
  have isJson := spells.isJson
  cases keyword with
  | single type =>
    cases spells
    exact Source.tryAll_of_first isJson (Reading.map_eq_ok_iff.mpr ⟨type, readChoice_name type, rfl⟩)
  | several types =>
    obtain ⟨parts, rfl, each⟩ := Data.spells_list_iff.mp spells
    have areRead : parts.mapM (Source.readChoice .whole SchemaType.named) = .ok types := by
      rw [Source.mapM_eq_ok_iff]
      refine ((List.forall₂_map_left_iff.mp each).imp fun type part spells => ?_).flip
      cases spells
      exact readChoice_name type
    -- A list is no name of a type.
    exact Source.tryAll_of_second isJson nofun (Reading.map_eq_ok_iff.mpr ⟨types, areRead, rfl⟩)

end TypeKeyword

/-- An exclusive bound can be written as a JSON value if its number is finite. -/
theorem ExclusiveBound.exists_spells {bound : ExclusiveBound}
    (isFinite : ∀ number, bound = .value number → number.isFinite = true) :
    ∃ source, bound.toData.Spells source := by
  cases bound with
  | flag exclusive => exact ⟨_, .bool exclusive⟩
  | value number => exact ⟨_, .real (isFinite number rfl)⟩

/-- An exclusive bound is never written as null. -/
theorem ExclusiveBound.toData_ne_null (bound : ExclusiveBound) : bound.toData ≠ .null := by
  cases bound <;> exact nofun

/-- An exclusive bound is read again from whatever spells it. -/
theorem ExclusiveBound.read_of_spells {bound : ExclusiveBound} {source : Source}
    (spells : bound.toData.Spells source) : read source = .ok bound := by
  have isJson := spells.isJson
  cases bound with
  | flag =>
    cases spells
    exact Source.tryAll_of_first isJson rfl
  | value =>
    cases spells
    -- A number is no flag.
    refine Source.tryAll_of_second isJson (fun other isFlag => ?_) rfl
    exact nomatch (Reading.map_eq_ok_iff.mp isFlag).choose_spec.1

/-- A mapping is read again from whatever spells it. -/
theorem exists_readMapping {mapping : Table String} (distinct : mapping.keys.Nodup) {source : Source}
    (spells : (Data.ofTable .text mapping).Spells source) :
    ∃ again, source.readTable .whole (·.readText .whole) = .ok again ∧ (mapping == again) = true := by
  obtain ⟨parts, again, rfl, reads, keys, found⟩ :=
    exists_readEntries distinct (fun _ _ _ spells => exists_readText spells) spells
  -- Every entry is read again, and as the keys are the same, nothing else is.
  have lookups : ∀ entry ∈ mapping.entries, again.get? entry.1 = some entry.2 := by
    intro entry isEntry
    obtain ⟨value, isFound, same⟩ := found entry isEntry
    rw [isFound, eq_of_beq same]
  refine ⟨again, reads, Bool.and_eq_true_iff.mpr ⟨List.all_eq_true.mpr fun entry isEntry => ?_,
    List.all_eq_true.mpr fun entry isEntry => ?_⟩⟩
  · rw [lookups entry isEntry]
    exact beq_self_eq_true entry.2
  · have isKey : entry.1 ∈ mapping.keys := keys.mem_iff.mp (List.mem_map_of_mem isEntry)
    obtain ⟨value, isValue⟩ := (Table.mem_keys_iff mapping entry.1).mp isKey
    have stored := Table.get?_of_mem_entries (keys.nodup_iff.mpr distinct) isEntry
    rw [lookups _ (Table.mem_entries_of_get? isValue)] at stored
    cases stored
    rw [isValue]
    exact beq_self_eq_true entry.2

namespace Discriminator

/-- A discriminator is written as one or two members. -/
theorem mem_toData {discriminator : Discriminator} {members : List (String × Data)}
    (isWritten : discriminator.toData = .record members) :
    (members.map Prod.fst).Nodup ∧ "propertyName" ∈ members.map Prod.fst ∧
      ("mapping" ∉ members.map Prod.fst → discriminator.mapping = {}) ∧
      ∀ member ∈ members, member = ("propertyName", .text discriminator.propertyName) ∨
        member = ("mapping", Data.ofTable .text discriminator.mapping) := by
  cases isWritten
  obtain ⟨propertyName, ⟨entries⟩⟩ := discriminator
  cases entries with
  | nil => simp [Data.field, Table.isEmpty]; rfl
  | cons => simp [Data.field, Table.isEmpty]

/-- A discriminator can be written as a JSON value. -/
theorem exists_spells (discriminator : Discriminator) :
    ∃ source, discriminator.toData.Spells source := by
  refine Data.exists_spells_record fun member isMember => ?_
  rcases (@mem_toData discriminator _ rfl).2.2.2 member isMember with rfl | rfl
  · exact ⟨_, .text _⟩
  · exact Data.exists_spells_record (List.forall_mem_map.mpr fun entry _ => ⟨_, .text entry.2⟩)

/-- The fields that have been met hold what is written, and the mapping is empty until it is met. -/
structure IsRestored (discriminator : Discriminator) (seen : List String) (again : Discriminator) :
    Prop where
  propertyName : "propertyName" ∈ seen → discriminator.propertyName = again.propertyName
  mapping : "mapping" ∈ seen → (discriminator.mapping == again.mapping) = true
  unmapped : "mapping" ∉ seen → again.mapping = {}

/-- Reading a member restores its field. -/
theorem IsRestored.exists_set {discriminator again : Discriminator} {seen : List String}
    (isRestored : discriminator.IsRestored seen again) (distinct : discriminator.mapping.keys.Nodup)
    {name : String} {part : Source}
    (spells : (name = "propertyName" ∧ (Data.text discriminator.propertyName).Spells part) ∨
      (name = "mapping" ∧ (Data.ofTable .text discriminator.mapping).Spells part)) :
    ∃ next, set .whole name part again = .ok next ∧ discriminator.IsRestored (name :: seen) next := by
  rcases spells with ⟨rfl, spells⟩ | ⟨rfl, spells⟩
  · cases spells
    refine ⟨{ again with propertyName := discriminator.propertyName }, rfl, fun _ => rfl, ?_, ?_⟩
    · simpa using isRestored.mapping
    · simpa using isRestored.unmapped
  · obtain ⟨mapping, isRead, isSame⟩ := exists_readMapping distinct spells
    refine ⟨{ again with mapping := mapping }, ?_, ?_, fun _ => isSame, by simp⟩
    · exact Reading.bind_eq_ok_iff.mpr ⟨mapping, isRead, rfl⟩
    · simpa using isRestored.propertyName

/-- A discriminator is read again from whatever spells it. -/
theorem exists_read {discriminator : Discriminator} (distinct : discriminator.mapping.keys.Nodup)
    {source : Source} (spells : discriminator.toData.Spells source) :
    ∃ again, read .whole source = .ok again ∧ (discriminator == again) = true := by
  obtain ⟨ordered, parts, isOrder, rfl, each⟩ := Data.spells_record_iff.mp spells
  have ⟨membersDistinct, isNamed, unmapped, isMember⟩ := @mem_toData discriminator _ rfl
  -- The members may stand in another order than they are written in.
  have names := (isOrder.map Prod.fst).trans
    (.of_eq (names_eq_of_forall₂ each fun _ _ spells => spells.1))
  have written : ∀ part ∈ parts,
      (part.1 = "propertyName" ∧ (Data.text discriminator.propertyName).Spells part.2) ∨
        (part.1 = "mapping" ∧ (Data.ofTable .text discriminator.mapping).Spells part.2) := by
    intro part isPart
    obtain ⟨member, isOrdered, sameName, spells⟩ := exists_of_mem_right each isPart
    rcases isMember member (isOrder.mem_iff.mpr isOrdered) with rfl | rfl
    · exact .inl ⟨sameName.symm, spells⟩
    · exact .inr ⟨sameName.symm, spells⟩
  have known : ∀ part ∈ parts, part.1 ∈ form.names := by
    intro part isPart
    rcases written part isPart with ⟨isName, _⟩ | ⟨isName, _⟩ <;> simp [isName, form, RecordForm.names]
  have required : ∀ name, (name, .required) ∈ form.fields → name ∈ [] ∨ name ∈ parts.map Prod.fst := by
    intro name isRequired
    have isPropertyName : name = "propertyName" := by simpa [form] using isRequired
    exact .inr (isPropertyName ▸ names.mem_iff.mp isNamed)
  have start : discriminator.IsRestored [] ⟨"", {}⟩ := ⟨by simp, by simp, fun _ => rfl⟩
  obtain ⟨again, reads, isRestored⟩ := RecordForm.exists_readMembers discriminator.IsRestored known
    (names.nodup_iff.mp membersDistinct) (by simp) required
    (fun part isPart _ _ _ isRestored => isRestored.exists_set distinct (written part isPart)) start
  have isSeen (name : String) : name ∈ (parts.map Prod.fst).reverse ++ [] ↔
      name ∈ parts.map Prod.fst := by simp
  -- In the end all members have been met, and a mapping that has not was left out because it is empty.
  have propertyNames := isRestored.propertyName ((isSeen _).mpr (names.mem_iff.mp isNamed))
  have mappings : (discriminator.mapping == again.mapping) = true := by
    by_cases isMapped : "mapping" ∈ parts.map Prod.fst
    · exact isRestored.mapping ((isSeen _).mpr isMapped)
    · rw [unmapped (mt names.mem_iff.mp isMapped), isRestored.unmapped (mt (isSeen _).mp isMapped)]
      rfl
  exact ⟨again, reads, Bool.and_eq_true_iff.mpr ⟨beq_of_eq propertyNames, mappings⟩⟩

end Discriminator

end ApiTypes
