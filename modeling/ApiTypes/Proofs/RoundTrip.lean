import Mathlib.Data.List.Nodup
import ApiTypes.Proofs.ValueRoundTrip

/-!
Schemas survive a round trip through JSON. A schema that is read from a JSON value can be written as one,
and whatever it is written as, with the members of records in any order, is read as an equal schema.
-/

namespace ApiTypes

namespace Schema

/-- A schema can be written as a JSON value, and every such value is read as an equal schema. -/
structure Survives (schema : Schema) : Prop where
  exists_spells : ∃ written, schema.toData.Spells written
  exists_read : ∀ written, schema.toData.Spells written →
    ∃ again, read written = .ok again ∧ schema.same again = true

/-- Every schema is written as a record. -/
theorem exists_toData_eq (schema : Schema) : ∃ members, schema.toData = .record members := by
  cases schema with
  | ref path => exact ⟨_, rfl⟩
  | inline keywords => exact ⟨_, toData_inline keywords⟩

/-- No schema is written as null. -/
theorem toData_ne_null (schema : Schema) : schema.toData ≠ .null := by
  obtain ⟨members, isRecord⟩ := schema.exists_toData_eq
  rw [isRecord]
  exact nofun

/-- The items of a list are read as schemas. -/
theorem readings_list_list (parts : List Source) :
    (readings (.list parts)).list .whole = parts.mapM read := by
  rw [readings_list]
  exact List.mapM_map

/-- The members of a record are read as a table of schemas. -/
theorem readings_record_table (parts : List (String × Source)) :
    (readings (.record (Source.underNames parts))).table .whole =
      Source.readEntries .whole read (Source.underNames parts) {} := by
  rw [readings_record]
  change Source.readEntries .whole SchemaPart.schema _ _ = _
  -- The entries are read into a table that grows.
  generalize (∅ : Table Schema) = table
  induction parts generalizing table with
  | nil => rfl
  | cons part rest ih =>
    simp only [Source.underNames, List.map_cons, Source.readEntries] at ih ⊢
    simp only [ih]
    rfl

end Schema

/-- Further properties that are written are not null. -/
theorem Additional.toData_ne_null (additional : Additional Schema) :
    (additional.map Schema.toData).toData ≠ .null := by
  cases additional with
  | allowed => exact nofun
  | schema schema =>
    obtain ⟨members, isRecord⟩ := schema.exists_toData_eq
    simp [map, toData, isRecord]

/-- What is said of further properties is read again from whatever spells it. -/
theorem Additional.exists_read {additional : Additional Schema}
    (survives : ∀ schema, additional = .schema schema → schema.Survives) {source : Source}
    (spells : (additional.map Schema.toData).toData.Spells source) :
    ∃ again, SchemaPart.additional (source, Schema.readings source) = .ok again ∧
      (additional.map Schema.same).accepts again = true := by
  have isJson := spells.isJson
  cases additional with
  | allowed isAllowed =>
    cases spells
    exact ⟨.allowed isAllowed, Source.tryAll_of_first isJson rfl, beq_self_eq_true isAllowed⟩
  | schema schema =>
    obtain ⟨again, reads, isSame⟩ := (survives schema rfl).exists_read source spells
    refine ⟨.schema again, Source.tryAll_of_second isJson ?_ ?_, isSame⟩
    · -- A schema is written as a record, which is no truth value.
      obtain ⟨members, isRecord⟩ := schema.exists_toData_eq
      change schema.toData.Spells source at spells
      rw [isRecord] at spells
      obtain ⟨_, _, _, rfl, _⟩ := Data.spells_record_iff.mp spells
      exact nofun
    · exact Reading.map_eq_ok_iff.mpr ⟨again, reads, rfl⟩

namespace KeywordKind

open Schema (Survives same toData)

variable {kind : KeywordKind} {value : kind.Value Schema} {data : Data} {source : Source}

/-- What is written of a list of transformed items. -/
theorem writeList_map {α β : Type} (write : β → Data) (transform : α → β) (items : List α) :
    writeList write (items.map transform) = writeList (fun item => write (transform item)) items := by
  simp [writeList, Function.comp_def]

/-- A value that is left out equals the one of a keyword that is not written. -/
theorem accepts_unset (isAbsent : kind.write (kind.map toData value) = none) :
    kind.accepts (kind.map same value) kind.unset = true := by
  cases kind with
  | types | text | data | flag | discriminator | real | bound | count | additional | schema =>
    cases value with
    | none => rfl
    | some => cases isAbsent
  | texts | values | schemas =>
    cases value with
    | nil => rfl
    | cons => cases isAbsent
  | table =>
    obtain ⟨entries⟩ := value
    cases entries with
    | nil => rfl
    | cons => cases isAbsent

/-- A list that is written can be written as a JSON value if each of its items can. -/
theorem exists_spells_writeList {α : Type} {write : α → Data} {items : List α}
    (each : ∀ item ∈ items, ∃ part, (write item).Spells part)
    (writes : writeList write items = some data) : ∃ source, data.Spells source := by
  unfold writeList at writes
  split at writes
  · cases writes
  · cases writes
    exact Data.exists_spells_list (List.forall_mem_map.mpr each)

/-- A table of schemas is written as a record, if at all. -/
theorem eq_ofTable_of_write {table : Table Schema}
    (writes : KeywordKind.table.write (table.map toData) = some data) :
    data = Data.ofTable toData table := by
  change (if (table.map toData).isEmpty then none else some (Data.ofTable id (table.map toData))) =
    some data at writes
  split at writes
  · cases writes
  · rw [← Option.some.inj writes]
    simp [Data.ofTable, Table.map]

/-- A value that is written can be written as a JSON value. -/
theorem exists_spells (fits : kind.Fits Survives value)
    (writes : kind.write (kind.map toData value) = some data) : ∃ source, data.Spells source := by
  cases kind with
  -- Values of a plain kind are written as they are, and each of their forms can be read.
  | types =>
    obtain ⟨keyword, _, rfl⟩ := Option.map_eq_some_iff.mp writes
    exact keyword.exists_spells
  | text =>
    obtain ⟨text, _, rfl⟩ := Option.map_eq_some_iff.mp writes
    exact ⟨_, .text text⟩
  | data =>
    obtain ⟨data, isValue, rfl⟩ := Option.map_eq_some_iff.mp writes
    exact (fits data isValue).1.exists_spells
  | flag =>
    obtain ⟨flag, _, rfl⟩ := Option.map_eq_some_iff.mp writes
    exact ⟨_, .bool flag⟩
  | texts => exact exists_spells_writeList (fun text _ => ⟨_, .text text⟩) writes
  | discriminator =>
    obtain ⟨discriminator, _, rfl⟩ := Option.map_eq_some_iff.mp writes
    exact discriminator.exists_spells
  | values => exact exists_spells_writeList (fun data isValue => (fits data isValue).exists_spells) writes
  -- Of a number a form can be read if it is finite, which the survival of the value says.
  | real =>
    obtain ⟨number, isValue, rfl⟩ := Option.map_eq_some_iff.mp writes
    exact ⟨_, .real (fits number isValue)⟩
  | bound =>
    obtain ⟨bound, isValue, rfl⟩ := Option.map_eq_some_iff.mp writes
    exact ExclusiveBound.exists_spells fun number isNumber => fits number (isNumber ▸ isValue)
  | count =>
    obtain ⟨count, isValue, rfl⟩ := Option.map_eq_some_iff.mp writes
    exact ⟨_, .integer (fits count isValue)⟩
  -- The nested kinds write schemas, all of which survive by assumption.
  | table =>
    rw [eq_ofTable_of_write writes]
    refine Data.exists_spells_record (List.forall_mem_map.mpr fun entry isEntry => ?_)
    exact (fits.2 entry.2 (List.mem_map_of_mem isEntry)).exists_spells
  | additional =>
    obtain ⟨_, isMapped, rfl⟩ := Option.map_eq_some_iff.mp writes
    obtain ⟨additional, isValue, rfl⟩ := Option.map_eq_some_iff.mp isMapped
    cases additional with
    | allowed isAllowed => exact ⟨_, .bool isAllowed⟩
    | schema schema => exact (fits schema isValue).exists_spells
  | schema =>
    obtain ⟨_, isMapped, rfl⟩ := Option.map_eq_some_iff.mp writes
    obtain ⟨schema, isValue, rfl⟩ := Option.map_eq_some_iff.mp isMapped
    exact (fits schema isValue).exists_spells
  | schemas =>
    have written := (writeList_map id toData value).symm.trans writes
    exact exists_spells_writeList (fun schema isValue => (fits schema isValue).exists_spells) written

/-- Schemas that survive are read again, whichever part is written for each. -/
theorem exists_read_of_survives {schemas : List Schema} (survive : ∀ schema ∈ schemas, schema.Survives) :
    ∀ schema ∈ schemas, ∀ part, schema.toData.Spells part →
      ∃ again, Schema.read part = .ok again ∧ schema.same again = true :=
  fun schema isMember => (survive schema isMember).exists_read

/-- A value that is written is read again from whatever spells it. -/
theorem exists_read (fits : kind.Fits Survives value)
    (writes : kind.write (kind.map toData value) = some data) (spells : data.Spells source) :
    ∃ again, kind.read (source, Schema.readings source) = .ok again ∧
      kind.accepts (kind.map same value) again = true := by
  cases kind with
  | types =>
    refine exists_readOption writes spells fun keyword _ => ⟨keyword.toData_ne_null, fun spells => ?_⟩
    exact ⟨keyword, TypeKeyword.read_of_spells spells, decide_eq_true rfl⟩
  | text =>
    exact exists_readOption writes spells fun text _ => ⟨nofun, exists_readText⟩
  | data =>
    refine exists_readOption writes spells fun data isValue => ⟨(fits data isValue).2, fun spells => ?_⟩
    have isJson := (fits data isValue).1
    exact ⟨data, isJson.readData_of_spells spells, isJson.beq_self⟩
  | flag =>
    refine exists_readOption writes spells fun flag _ => ⟨nofun, fun spells => ?_⟩
    cases spells
    exact ⟨flag, rfl, beq_self_eq_true flag⟩
  | texts =>
    obtain ⟨parts, again, rfl, reads, accepts⟩ :=
      exists_readList writes spells fun _ _ _ => exists_readText
    exact ⟨again, reads, accepts⟩
  | discriminator =>
    refine exists_readOption writes spells fun discriminator isValue => ⟨nofun, fun spells => ?_⟩
    exact Discriminator.exists_read (fits discriminator isValue) spells
  | values =>
    obtain ⟨parts, again, rfl, reads, accepts⟩ := exists_readList writes spells
      fun data isValue part spells =>
        ⟨data, (fits data isValue).readData_of_spells spells, (fits data isValue).beq_self⟩
    exact ⟨again, reads, accepts⟩
  | real =>
    refine exists_readOption writes spells fun number isValue => ⟨nofun, fun spells => ?_⟩
    have isFinite := fits number isValue
    cases spells
    exact ⟨number, rfl, Binary64.beq_self_of_isFinite isFinite⟩
  | bound =>
    refine exists_readOption writes spells fun bound isValue => ⟨bound.toData_ne_null, fun spells => ?_⟩
    refine ⟨bound, ExclusiveBound.read_of_spells spells, ?_⟩
    cases bound with
    | flag exclusive => exact beq_self_eq_true exclusive
    | value number => exact Binary64.beq_self_of_isFinite (fits number isValue)
  | count =>
    refine exists_readOption writes spells fun count _ => ⟨nofun, fun spells => ?_⟩
    cases spells
    exact ⟨count, rfl, beq_self_eq_true count⟩
  | table =>
    -- The properties may be met in another order.
    rw [eq_ofTable_of_write writes] at spells
    obtain ⟨parts, again, rfl, reads, keys, found⟩ := exists_readEntries fits.1
      (exists_read_of_survives fits.2) spells
    exact ⟨again, (Schema.readings_record_table parts).trans reads, acceptsTable_of_perm keys found⟩
  | additional =>
    have written := (Option.map_map ..).symm.trans writes
    obtain ⟨again, reads, isSame⟩ := exists_readOption written spells fun additional isValue =>
      And.intro additional.toData_ne_null fun spells =>
        Additional.exists_read (fun schema isSchema => fits schema (isSchema ▸ isValue)) spells
    exact ⟨again, reads, (congrArg (acceptsOption · again) (Option.map_map ..)).trans isSame⟩
  | schema =>
    have written := (Option.map_map ..).symm.trans writes
    refine exists_readOption written spells fun schema isValue => ⟨schema.toData_ne_null, fun spells => ?_⟩
    exact (fits schema isValue).exists_read source spells
  | schemas =>
    have written := (writeList_map id toData value).symm.trans writes
    obtain ⟨parts, again, rfl, reads, accepts⟩ := exists_readList written spells
      (exists_read_of_survives fits)
    exact ⟨again, (Schema.readings_list_list parts).trans reads, accepts⟩

end KeywordKind

namespace Keyword

/-- No two keywords have the same name. -/
theorem name_injective : Function.Injective name := by
  have distinct : (all.map name).Nodup := by decide
  intro keyword other same
  exact List.inj_on_of_nodup_map distinct keyword.mem_all other.mem_all same

end Keyword

namespace Keywords

/-- Members say what the keywords of a schema object are written as. -/
structure AreSpelled (keywords : Keywords Schema) (parts : List (String × Source)) : Prop where
  distinct : (parts.map Prod.fst).Nodup
  named : ∀ (keyword : Keyword) (data : Data),
    keyword.kind.write (keyword.kind.map Schema.toData (Keyword.get keywords keyword)) = some data →
      keyword.name ∈ parts.map Prod.fst
  each : ∀ part ∈ parts, ∃ (keyword : Keyword) (data : Data), part.1 = keyword.name ∧
    keyword.kind.write (keyword.kind.map Schema.toData (Keyword.get keywords keyword)) = some data ∧
      data.Spells part.2

/-- What spells a schema object is a record of what its keywords are written as. -/
theorem exists_areSpelled {keywords : Keywords Schema} {source : Source}
    (spells : (Schema.inline keywords).toData.Spells source) :
    ∃ parts, source = .record (Source.underNames parts) ∧ keywords.AreSpelled parts := by
  rw [Schema.toData_inline] at spells
  obtain ⟨ordered, parts, isOrder, isSource, each⟩ := Data.spells_record_iff.mp spells
  have names := (isOrder.map Prod.fst).trans
    (.of_eq (names_eq_of_forall₂ each fun _ _ spells => spells.1))
  refine ⟨parts, isSource, names.nodup_iff.mp ?_, fun keyword data writes => ?_, fun part isPart => ?_⟩
  · -- Each keyword is written once at most, and no two have the same name.
    rw [List.map_filterMap]
    have distinct : Keyword.all.Nodup := by decide
    refine distinct.filterMap fun keyword other name isName isOther => ?_
    simp only [Option.map_map, Option.mem_def, Option.map_eq_some_iff, Function.comp_apply] at isName isOther
    obtain ⟨_, _, isName⟩ := isName
    obtain ⟨_, _, isOther⟩ := isOther
    exact Keyword.name_injective (isName.trans isOther.symm)
  · refine names.mem_iff.mp (List.mem_map.mpr ⟨(keyword.name, data), ?_, rfl⟩)
    exact List.mem_filterMap.mpr ⟨keyword, keyword.mem_all, Option.map_eq_some_iff.mpr ⟨data, writes, rfl⟩⟩
  · obtain ⟨member, isOrdered, sameName, spells⟩ := exists_of_mem_right each isPart
    obtain ⟨keyword, _, isMember⟩ := List.mem_filterMap.mp (isOrder.mem_iff.mpr isOrdered)
    obtain ⟨data, writes, rfl⟩ := Option.map_eq_some_iff.mp isMember
    exact ⟨keyword, data, sameName.symm, writes, spells⟩

/-- The keywords that have been met are equal to those that are written, and the others are unset. -/
structure IsRestored (keywords : Keywords Schema) (seen : List String)
    (again : Keywords Schema) : Prop where
  accepts : ∀ keyword : Keyword, keyword.name ∈ seen →
    keyword.kind.accepts (keyword.kind.map Schema.same (Keyword.get keywords keyword))
      (Keyword.get again keyword) = true
  unset : ∀ keyword : Keyword, keyword.name ∉ seen → Keyword.get again keyword = keyword.kind.unset

/-- Reading a member restores its keyword. -/
theorem IsRestored.exists_set {keywords again : Keywords Schema} {seen : List String}
    (isRestored : keywords.IsRestored seen again) {keyword : Keyword}
    (fits : keyword.kind.Fits Schema.Survives (Keyword.get keywords keyword)) {data : Data}
    (writes : keyword.kind.write (keyword.kind.map Schema.toData (Keyword.get keywords keyword)) =
      some data) {part : Source} (spells : data.Spells part) :
    ∃ next, Schema.setKeyword .whole keyword.name (part, Schema.readings part) again = .ok next ∧
      keywords.IsRestored (keyword.name :: seen) next := by
  obtain ⟨value, reads, accepts⟩ := KeywordKind.exists_read fits writes spells
  refine ⟨Keyword.put again keyword value, ?_, fun other isSeen => ?_, fun other isUnseen => ?_⟩
  · rw [Keyword.setKeyword_name, reads]
    rfl
  -- The keyword has its value again; those that were read before keep theirs.
  · by_cases isOther : other = keyword
    · subst isOther
      rw [Keyword.get_put_self]
      exact accepts
    · rw [Keyword.get_put_of_ne _ isOther]
      refine isRestored.accepts other ((List.mem_cons.mp isSeen).resolve_left fun sameName => ?_)
      exact isOther (Keyword.name_injective sameName)
  · have isOther : other ≠ keyword := fun same => isUnseen (same ▸ List.mem_cons_self)
    rw [Keyword.get_put_of_ne _ isOther]
    exact isRestored.unset other fun isSeen => isUnseen (List.mem_cons_of_mem _ isSeen)

/-- Keywords are read again from members that say what they are written as. -/
theorem AreSpelled.exists_read {keywords : Keywords Schema} {parts : List (String × Source)}
    (areSpelled : keywords.AreSpelled parts)
    (fits : ∀ keyword : Keyword, keyword.kind.Fits Schema.Survives (Keyword.get keywords keyword)) :
    ∃ again, (Schema.readings (.record (Source.underNames parts))).keywords .whole = .ok again ∧
      keywords.IsRestored (parts.map Prod.fst) again := by
  rw [Schema.readings_record]
  have known : ∀ part ∈ parts.map fun part => (part.1, part.2, Schema.readings part.2),
      part.1 ∈ form.names := List.forall_mem_map.mpr fun part isPart => by
    obtain ⟨keyword, _, isName, _⟩ := areSpelled.each part isPart
    rw [isName, Keyword.names_form]
    exact List.mem_map_of_mem keyword.mem_all
  have names : (parts.map fun part => (part.1, part.2, Schema.readings part.2)).map Prod.fst =
      parts.map Prod.fst := List.map_map
  -- At first nothing has been read, and every keyword is unset.
  have start : keywords.IsRestored [] {} := ⟨by simp, fun keyword _ => keyword.get_unset⟩
  obtain ⟨again, reads, isRestored⟩ := RecordForm.exists_readMembers keywords.IsRestored known
    (names ▸ areSpelled.distinct) (by simp) (by simp [form])
    (List.forall_mem_map.mpr fun part isPart _ _ _ isRestored => by
      obtain ⟨keyword, _, isName, writes, spells⟩ := areSpelled.each part isPart
      rw [isName]
      exact isRestored.exists_set (fits keyword) writes spells) start
  -- Names that were met are restored, and others are left as at the start.
  refine ⟨again, reads, fun keyword isSeen => ?_, fun keyword isUnseen => ?_⟩
  · exact isRestored.accepts keyword (by simpa [names] using isSeen)
  · exact isRestored.unset keyword (by simpa [names] using isUnseen)

end Keywords

namespace Schema

/-- A reference survives. -/
theorem survives_ref (path : String) : (ref path).Survives where
  exists_spells :=
    Data.exists_spells_record fun member isMember => List.eq_of_mem_singleton isMember ▸ ⟨_, .text path⟩
  exists_read written spells := by
    have isJson := spells.isJson
    obtain ⟨ordered, parts, isOrder, rfl, each⟩ := Data.spells_record_iff.mp spells
    cases List.singleton_perm.mp isOrder
    obtain ⟨⟨name, part⟩, rfl⟩ : ∃ part, parts = [part] := List.length_eq_one_iff.mp each.length_eq.symm
    obtain ⟨rfl, spells⟩ := List.forall₂_cons.mp each |>.1
    cases spells
    exact ⟨ref path, rfl, beq_self_eq_true path⟩

/-- A schema object survives if the schemas inside it do. -/
theorem survives_inline {keywords : Keywords Schema}
    (fits : ∀ keyword : Keyword, keyword.kind.Fits Survives (Keyword.get keywords keyword)) :
    (inline keywords).Survives where
  exists_spells := by
    rw [toData_inline]
    refine Data.exists_spells_record fun member isMember => ?_
    obtain ⟨keyword, _, isMember⟩ := List.mem_filterMap.mp isMember
    obtain ⟨data, writes, rfl⟩ := Option.map_eq_some_iff.mp isMember
    exact KeywordKind.exists_spells (fits keyword) writes
  exists_read written spells := by
    have isJson := spells.isJson
    obtain ⟨parts, rfl, areSpelled⟩ := Keywords.exists_areSpelled spells
    obtain ⟨again, reads, isRestored⟩ := areSpelled.exists_read fits
    refine ⟨inline again, Source.tryAll_of_second isJson (fun other => ?_) ?_, ?_⟩
    · -- No path is read, as the members are keywords.
      intro isReference
      obtain ⟨path, isPath, _⟩ := Reading.map_eq_ok_iff.mp isReference
      refine RecordForm.readMembers_ne_ok List.mem_cons_self (fun isMember => ?_) List.not_mem_nil _ _ isPath
      obtain ⟨part, isPart, isName⟩ := List.mem_map.mp isMember
      obtain ⟨keyword, _, isKeyword, _⟩ := areSpelled.each part isPart
      have notReference : keyword.name ≠ "$ref" := by cases keyword <;> decide
      exact notReference (isKeyword.symm.trans isName)
    · exact Reading.map_eq_ok_iff.mpr ⟨again, reads, rfl⟩
    · rw [same_inline_iff]
      intro keyword
      by_cases isSeen : keyword.name ∈ parts.map Prod.fst
      · exact isRestored.accepts keyword isSeen
      · -- A keyword that is not met has been left out.
        rw [isRestored.unset keyword isSeen]
        refine KeywordKind.accepts_unset (Option.eq_none_iff_forall_ne_some.mpr fun data writes => ?_)
        exact isSeen (areSpelled.named keyword data writes)

/-- What is known of the schemas inside a schema object is known of the values of its keywords. -/
theorem fits_of_each {known : Schema → Prop} {keywords : Keywords Schema}
    (each : keywords.Each fun schema => schema.FitsJson → known schema)
    (fits : (inline keywords).FitsJson) (keyword : Keyword) :
    keyword.kind.Fits known (Keyword.get keywords keyword) := by
  have fits := (fitsJson_inline_iff keywords).mp fits keyword
  -- Six keywords hold schemas; of the others nothing more is asked.
  cases keyword
  case properties =>
    refine ⟨fits.1, List.forall_mem_map.mpr fun entry isEntry => ?_⟩
    exact each.properties entry isEntry (fits.2 _ (List.mem_map_of_mem isEntry))
  case additional => exact fun schema isValue => each.additional schema isValue (fits schema isValue)
  case items => exact fun schema isValue => each.items schema isValue (fits schema isValue)
  case allOf => exact fun schema isMember => each.allOf schema isMember (fits schema isMember)
  case oneOf => exact fun schema isMember => each.oneOf schema isMember (fits schema isMember)
  case anyOf => exact fun schema isMember => each.anyOf schema isMember (fits schema isMember)
  all_goals exact fits

/-- A schema that is read from JSON values survives. -/
theorem FitsJson.survives {schema : Schema} (fits : schema.FitsJson) : schema.Survives := by
  induction schema using inductionOn with
  | ref path => exact survives_ref path
  | inline keywords each => exact survives_inline (fits_of_each each fits)

/--
What is read as a schema from a JSON value can be written as a JSON value, and whatever it is written as is
read as an equal schema.
-/
theorem survives_json {source : Source} (isJson : source.isJson = true) {schema : Schema}
    (accepts : read source = .ok schema) :
    (∃ written, schema.toData.Spells written) ∧
      ∀ written, schema.toData.Spells written → written.isJson = true ∧
        ∃ again, read written = .ok again ∧ schema.same again = true := by
  have survives := (fitsJson_of_read isJson accepts).survives
  exact ⟨survives.exists_spells, fun written spells => ⟨spells.isJson, survives.exists_read written spells⟩⟩

/-- A schema object with schemas inside, beside a field that is no keyword and a path that is no text. -/
def looseSource : Source :=
  .record <| Source.underNames
    [("$ref", .scalar (.integer 5)), ("x-order", .list [.scalar .null]),
      ("type", .list [.scalar (.text "object"), .scalar (.text "null")]),
      ("properties", .record <| Source.underNames
        [("size", .record <| Source.underNames
          [("type", .scalar (.text "integer")), ("minimum", .scalar (.integer 0)),
            ("exclusiveMinimum", .scalar (.bool true)), ("exclusiveMaximum", .scalar (.integer 10))]),
          ("owner", .record <| Source.underNames
            [("additionalProperties", .record <| Source.underNames
              [("$ref", .scalar (.text "#/components/schemas/Owner"))])])]),
      ("additionalProperties", .scalar (.bool false))]

/-- What is read from it. -/
def looseSchema : Schema :=
  .inline {
    type := some (.several [.object, .null])
    properties := ⟨[
      ("size", .inline {
        type := some (.single .integer)
        minimum := some (.ofInt 0)
        exclusiveMinimum := some (.flag true)
        exclusiveMaximum := some (.value (.ofInt 10)) }),
      ("owner", .inline { additional := some (.schema (.ref "#/components/schemas/Owner")) })]⟩
    additional := some (.allowed false) }

/-- The stray members are dropped, and the schema is written and read as any other. -/
theorem survives_json_looseSource : looseSource.isJson = true ∧ read looseSource = .ok looseSchema ∧
    (∃ written, looseSchema.toData.Spells written) ∧
      ∀ written, looseSchema.toData.Spells written → written.isJson = true ∧
        ∃ again, read written = .ok again ∧ looseSchema.same again = true := by
  have isJson : looseSource.isJson = true := by decide
  have accepts : read looseSource = .ok looseSchema := rfl
  exact ⟨isJson, accepts, survives_json isJson accepts⟩

end Schema

end ApiTypes
