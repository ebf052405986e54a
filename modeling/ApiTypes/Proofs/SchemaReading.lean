import ApiTypes.Proofs.JsonData
import ApiTypes.Proofs.Keywords

/-!
When schemas are equal, and which of them are read from JSON values: numbers are finite, counts have 64 bits,
data has its members in order, and the keys of tables are distinct. All of this is asked of the keywords one
by one, and of the schemas inside.
-/

namespace ApiTypes

namespace Table

variable {α β : Type} (transform : α → β) (table : Table α)

/-- Transforming values keeps the keys. -/
@[simp] theorem keys_map : (table.map transform).keys = table.keys := by
  simp [map, keys]

/-- The values are transformed one by one. -/
@[simp] theorem values_map : (table.map transform).values = table.values.map transform := by
  simp [map, values]

end Table

section

variable {α : Type}

/-- Whether a value is accepted by a test, and absent if there is no test. -/
def acceptsOption : Option (α → Bool) → Option α → Bool
  | none, none => true
  | some test, some value => test value
  | _, _ => false

/-- Whether there are as many items as tests, each accepted by the one in its place. -/
def acceptsList : List (α → Bool) → List α → Bool
  | [], [] => true
  | test :: tests, item :: rest => test item && acceptsList tests rest
  | _, _ => false

/-- Whether there are as many entries as tests, and one under each key that its test accepts. -/
def acceptsTable (tests : Table (α → Bool)) (table : Table α) : Bool :=
  tests.size == table.size && tests.entries.all fun entry => (table.get? entry.1).any entry.2

end

/-- Equality of exclusive bounds: a flag never equals a number. -/
def ExclusiveBound.same : ExclusiveBound → ExclusiveBound → Bool
  | .flag left, .flag right => left == right
  | .value left, .value right => left == right
  | _, _ => false

/-- Whether a keyword for further properties is accepted: the same truth value, or a schema. -/
def Additional.accepts {α : Type} : Additional (α → Bool) → Additional α → Bool
  | .allowed left, .allowed right => left == right
  | .schema test, .schema value => test value
  | _, _ => false

namespace KeywordKind

variable {σ τ : Type}

/-- Whether a value equals another one, in which tests stand for the schemas. -/
def accepts : (kind : KeywordKind) → kind.Value (σ → Bool) → kind.Value σ → Bool
  | types => fun value => acceptsOption (value.map fun keyword other => decide (keyword = other))
  | text => fun value => acceptsOption (value.map BEq.beq)
  | data => fun value => acceptsOption (value.map BEq.beq)
  | flag => fun value => acceptsOption (value.map BEq.beq)
  | texts => fun values => acceptsList (values.map BEq.beq)
  | discriminator => fun value => acceptsOption (value.map BEq.beq)
  | values => fun values => acceptsList (values.map BEq.beq)
  | real => fun value => acceptsOption (value.map BEq.beq)
  | bound => fun value => acceptsOption (value.map ExclusiveBound.same)
  | count => fun value => acceptsOption (value.map BEq.beq)
  | table => acceptsTable
  | additional => fun value => acceptsOption (value.map Additional.accepts)
  | schema => acceptsOption
  | schemas => acceptsList

/-- A value of a kind is one that is read from JSON values, with something known of the schemas inside. -/
def Fits (known : σ → Prop) : (kind : KeywordKind) → kind.Value σ → Prop
  | types | text | flag | texts => fun _ => True
  | data => fun (value : Option Data) => ∀ data ∈ value, data.FitsJson ∧ data ≠ .null
  | discriminator => fun (value : Option Discriminator) =>
    ∀ discriminator ∈ value, discriminator.mapping.keys.Nodup
  | values => fun (values : List Data) => ∀ data ∈ values, data.FitsJson
  | real => fun (value : Option Binary64) => ∀ number ∈ value, number.isFinite = true
  | bound => fun value => ∀ number, value = some (.value number) → number.isFinite = true
  | count => fun (value : Option Nat) => ∀ count ∈ value, fitsWord (count : Int) = true
  | table => fun table => table.keys.Nodup ∧ ∀ schema ∈ table.values, known schema
  | additional => fun value => ∀ schema, value = some (.schema schema) → known schema
  | schema => fun (value : Option σ) => ∀ schema ∈ value, known schema
  | schemas => fun (values : List σ) => ∀ schema ∈ values, known schema

/-- The value of a keyword that is not written is one of those that are read. -/
theorem fits_unset (known : σ → Prop) (kind : KeywordKind) : kind.Fits known kind.unset := by
  cases kind with
  | types | text | flag | texts => trivial
  | data | discriminator | real | count | schema =>
    exact fun _ isValue => absurd isValue (Option.not_mem_none _)
  | values | schemas => exact fun _ isValue => absurd isValue List.not_mem_nil
  | bound | additional => exact fun _ isValue => by cases isValue
  | table => exact ⟨List.nodup_nil, fun _ isValue => absurd isValue List.not_mem_nil⟩

/-- Something is known of what is inside after a transformation if it is of what is transformed. -/
theorem fits_map_iff (transform : σ → τ) (known : τ → Prop) (kind : KeywordKind)
    (value : kind.Value σ) :
    kind.Fits known (kind.map transform value) ↔ kind.Fits (fun schema => known (transform schema))
      value := by
  cases kind with
  | types | text | data | flag | texts | discriminator | values | real | bound | count => rfl
  | table =>
    have general (table : Table σ) :
        ((table.map transform).keys.Nodup ∧ ∀ schema ∈ (table.map transform).values, known schema) ↔
          table.keys.Nodup ∧ ∀ schema ∈ table.values, known (transform schema) := by
      rw [Table.keys_map, Table.values_map, List.forall_mem_map]
    exact general value
  | additional =>
    rcases value with _ | isAllowed | schema
    · exact ⟨fun _ _ isSchema => (by cases isSchema), fun _ _ isSchema => (by cases isSchema)⟩
    · exact ⟨fun _ _ isSchema => (by cases isSchema), fun _ _ isSchema => (by cases isSchema)⟩
    · refine ⟨fun holds _ isSchema => ?_, fun holds _ isSchema => ?_⟩ <;>
        · cases isSchema
          exact holds _ rfl
  | schema => cases value <;> simp [Fits, map]
  | schemas => exact List.forall_mem_map

end KeywordKind

namespace Schema

/-- Equality of schemas: of their paths, or of their keywords. -/
def same : Schema → Schema → Bool :=
  fold
    (fun path other => match other with
      | .ref target => path == target
      | .inline _ => false)
    fun tests other => match other with
      | .ref _ => false
      | .inline keywords => Keyword.all.all fun keyword =>
        keyword.kind.accepts (Keyword.get tests keyword) (Keyword.get keywords keyword)

/-- A schema is one that is read from JSON values. -/
def FitsJson : Schema → Prop :=
  fold (fun _ => True) fun keywords =>
    ∀ keyword : Keyword, keyword.kind.Fits id (Keyword.get keywords keyword)

/-- Schema objects are equal if each keyword has equal values. -/
theorem same_inline_iff (left right : Keywords Schema) : (inline left).same (inline right) = true ↔
    ∀ keyword : Keyword, keyword.kind.accepts (keyword.kind.map same (Keyword.get left keyword))
      (Keyword.get right keyword) = true := by
  simp only [same, fold_inline, List.all_eq_true, Keyword.get_map]
  exact ⟨fun accepts keyword => accepts keyword keyword.mem_all, fun accepts keyword _ => accepts keyword⟩

/-- A schema object is read from JSON values if the values of its keywords are. -/
theorem fitsJson_inline_iff (keywords : Keywords Schema) : (inline keywords).FitsJson ↔
    ∀ keyword : Keyword, keyword.kind.Fits FitsJson (Keyword.get keywords keyword) := by
  simp only [FitsJson, fold_inline, Keyword.get_map, KeywordKind.fits_map_iff]
  rfl

/-- A schema object is written as the record of its keywords. -/
theorem toData_inline (keywords : Keywords Schema) : (inline keywords).toData =
    .record (Keyword.all.filterMap fun keyword =>
      (keyword.kind.write (keyword.kind.map toData (Keyword.get keywords keyword))).map
        fun written => (keyword.name, written)) := by
  simp only [toData, fold_inline, Keyword.keywordsData_eq, Keyword.get_map]

end Schema

namespace Source

variable {source : Source}

/-- What is read as data is null only if it is absent. -/
theorem ne_null_of_readData (isJson : source.isJson = true) (isPresent : source.isAbsent .whole = .ok false)
    {data : Data} (reads : source.readData .whole = .ok data) : data ≠ .null := by
  rintro rfl
  -- Numbers that are not finite become null, but JSON values have none.
  cases source with
  | scalar value =>
    cases value with
    | null => cases isPresent
    | bool | integer | text => cases reads
    | real number =>
      cases number with
      | finite => cases reads
      | nan | infinite => cases isJson
  | list => cases (Reading.bind_eq_ok_iff.mp reads).choose_spec.2
  | record => cases (Reading.bind_eq_ok_iff.mp reads).choose_spec.2
  | word | sealed | misplaced | fault => cases isJson

/-- A number that is read is finite. -/
theorem isFinite_of_readReal (isJson : source.isJson = true) {number : Binary64}
    (reads : source.readReal .whole = .ok number) : number.isFinite = true := by
  cases source with
  | scalar value =>
    cases value with
    | integer => cases reads; exact Binary64.isFinite_ofInt isJson
    | real => cases reads; exact isJson
    | null | bool | text => cases reads
  | list | record => cases reads
  | word | sealed | misplaced | fault => cases isJson

/-- A count that is read fits into 64 bits. -/
theorem fitsWord_of_readNat (isJson : source.isJson = true) {expected : String} {count : Nat}
    (reads : source.readNat .whole expected = .ok count) : fitsWord (count : Int) = true := by
  cases source with
  | scalar value =>
    cases value with
    | integer value =>
      change (if 0 ≤ value then .ok value.toNat else _) = Except.ok count at reads
      split at reads
      · rename_i notNegative
        cases reads
        rw [Int.toNat_of_nonneg notNegative]
        exact isJson
      · cases reads
    | real | null | bool | text => cases reads
  | list | record => cases reads
  | word | sealed | misplaced | fault => cases isJson

end Source

/-- An exclusive bound that is read as a number is finite. -/
theorem ExclusiveBound.isFinite_of_read {source : Source} (isJson : source.isJson = true)
    {number : Binary64} (reads : read source = .ok (.value number)) : number.isFinite = true := by
  rcases Source.of_tryAll reads with asFlag | asNumber
  · obtain ⟨_, _, isFlag⟩ := Reading.map_eq_ok_iff.mp asFlag
    cases isFlag
  · obtain ⟨found, isFound, isNumber⟩ := Reading.map_eq_ok_iff.mp asNumber
    cases isNumber
    exact Source.isFinite_of_readReal isJson isFound

/-- The mapping of a discriminator that is read has distinct keys. -/
theorem Discriminator.nodup_of_read {source : Source} (isJson : source.isJson = true)
    {discriminator : Discriminator} (reads : read .whole source = .ok discriminator) :
    discriminator.mapping.keys.Nodup := by
  have start : (∅ : Table String).keys.Nodup := List.nodup_nil
  refine RecordForm.holds_of_read (fun discriminator : Discriminator =>
    discriminator.mapping.keys.Nodup) isJson
      (fun part isPart name _ value next distinct isSet => ?_) start reads
  unfold set at isSet
  split at isSet
  · obtain ⟨_, _, isNext⟩ := Reading.bind_eq_ok_iff.mp isSet
    cases isNext
    exact distinct
  · obtain ⟨mapping, isMapping, isNext⟩ := Reading.bind_eq_ok_iff.mp isSet
    cases isNext
    obtain ⟨parts, _, areRead⟩ := Source.of_readTable isPart isMapping
    exact (Source.of_readEntries areRead List.nodup_nil).1

namespace Schema

/-- Everything that a part of a text gives is read from JSON values. -/
structure ReadingsFit (readings : SchemaReadings) : Prop where
  keywords : ∀ keywords, readings.keywords .whole = .ok keywords → (inline keywords).FitsJson
  table : ∀ table, readings.table .whole = .ok table →
    table.keys.Nodup ∧ ∀ schema ∈ table.values, schema.FitsJson
  list : ∀ schemas, readings.list .whole = .ok schemas → ∀ schema ∈ schemas, schema.FitsJson

variable {part : SchemaPart}

/-- A schema that a part gives is read from JSON values if the keywords are. -/
theorem ReadingsFit.schema (fits : ReadingsFit part.2) {schema : Schema}
    (reads : part.schema = .ok schema) : schema.FitsJson := by
  rcases Source.of_tryAll reads with asReference | asKeywords
  · obtain ⟨_, _, rfl⟩ := Reading.map_eq_ok_iff.mp asReference
    trivial
  · obtain ⟨keywords, isRead, rfl⟩ := Reading.map_eq_ok_iff.mp asKeywords
    exact fits.keywords keywords isRead

/-- The value of a keyword that is read from a JSON value. -/
theorem ReadingsFit.fits_of_read (fits : ReadingsFit part.2) (isJson : part.1.isJson = true)
    {kind : KeywordKind} {value : kind.Value Schema} (reads : kind.read part = .ok value) :
    kind.Fits FitsJson value := by
  cases kind with
  | types | text | flag | texts => trivial
  | data =>
    intro data isValue
    have ⟨isPresent, isRead⟩ := Source.of_readOption reads isValue
    exact ⟨Data.fitsJson_of_readData isJson data isRead,
      Source.ne_null_of_readData isJson isPresent isRead⟩
  | discriminator =>
    intro discriminator isValue
    exact Discriminator.nodup_of_read isJson (Source.of_readOption reads isValue).2
  | values =>
    -- Among the listed values there may be null.
    obtain ⟨parts, isSource, areRead⟩ := Source.of_readList isJson reads
    rw [isSource] at isJson
    have areJson := (Source.isJsonItems_iff parts).mp (by simpa [Source.isJson] using isJson)
    intro data isValue
    obtain ⟨item, isItem, isRead⟩ := exists_of_mem_right areRead isValue
    exact Data.fitsJson_of_readData (areJson item isItem) data isRead
  | real =>
    intro number isValue
    exact Source.isFinite_of_readReal isJson (Source.of_readOption reads isValue).2
  | bound =>
    intro number isValue
    exact ExclusiveBound.isFinite_of_read isJson (Source.of_readOption reads isValue).2
  | count =>
    intro count isValue
    exact Source.fitsWord_of_readNat isJson (Source.of_readOption reads isValue).2
  | table => exact fits.table value reads
  | additional =>
    intro schema isValue
    rcases Source.of_tryAll (Source.of_readOption reads isValue).2 with asFlag | asSchema
    · obtain ⟨_, _, isFlag⟩ := Reading.map_eq_ok_iff.mp asFlag
      cases isFlag
    · obtain ⟨found, isFound, isSchema⟩ := Reading.map_eq_ok_iff.mp asSchema
      cases isSchema
      exact fits.schema isFound
  | schema =>
    intro schema isValue
    exact fits.schema (Source.of_readOption reads isValue).2
  | schemas => exact fits.list value reads

/-- Nothing is read from a scalar that is a JSON value. -/
theorem readingsFit_scalar (value : Scalar) : ReadingsFit (readings (.scalar value)) where
  keywords _ reads := by cases reads
  table _ reads := by cases reads
  list _ reads := by cases reads

/-- The keywords that are written for schema objects fit if those that are set do. -/
theorem fitsJson_of_setKeyword (isJson : part.1.isJson = true) (fits : ReadingsFit part.2)
    {name : String} (isKnown : name ∈ Keywords.form.names) {keywords next : Keywords Schema}
    (holds : (inline keywords).FitsJson)
    (isSet : setKeyword .whole name part keywords = .ok next) : (inline next).FitsJson := by
  obtain ⟨keyword, _, rfl⟩ := List.mem_map.mp (Keyword.names_form ▸ isKnown)
  rw [Keyword.setKeyword_name] at isSet
  obtain ⟨value, isRead, isNext⟩ := Reading.bind_eq_ok_iff.mp isSet
  cases isNext
  rw [fitsJson_inline_iff] at holds ⊢
  -- Only the keyword that is set has another value than before.
  intro other
  by_cases isOther : other = keyword
  · subst isOther
    rw [Keyword.get_put_self]
    exact fits.fits_of_read isJson isRead
  · rw [Keyword.get_put_of_ne _ isOther]
    exact holds other

/-- The keywords of a schema object without any fit. -/
theorem fitsJson_unset : (inline {}).FitsJson := by
  rw [fitsJson_inline_iff]
  intro keyword
  rw [Keyword.get_unset]
  exact keyword.kind.fits_unset _

/-- The parts of a list stand beside what they give. -/
theorem readings_list (items : List Source) :
    readings (.list items) = listReadings (items.map fun item => (item, readings item)) := by
  have each : ∀ items : List Source,
      Source.recurseItems leafReadings listReadings recordReadings items =
        items.map fun item => (item, readings item) := by
    intro items
    induction items with
    | nil => rfl
    | cons item rest ih => simp [Source.recurseItems, ih, readings]
  rw [← each]
  rfl

/-- The parts of a record stand beside what they give. -/
theorem readings_record (members : List (String × Source)) :
    readings (.record (Source.underNames members)) = recordReadings
      (Source.underNames (members.map fun member => (member.1, member.2, readings member.2))) := by
  have each : ∀ members : List (String × Source),
      Source.recurseMembers leafReadings listReadings recordReadings (Source.underNames members) =
        Source.underNames (members.map fun member => (member.1, member.2, readings member.2)) := by
    intro members
    induction members with
    | nil => rfl
    | cons member rest ih =>
      simp only [Source.underNames] at ih
      simp [Source.underNames, Source.recurseMembers, ih, readings]
  rw [← each]
  rfl

/-- All that a JSON value gives is read from JSON values. -/
theorem readingsFit {source : Source} (isJson : source.isJson = true) :
    ReadingsFit (readings source) := by
  -- The parts inside a value give what fits; the value is read from them as a list or as a record.
  refine Source.jsonInduction isJson (fun value _ => readingsFit_scalar value)
    (fun items areJson => ?_) fun members areJson => ?_
  · rw [readings_list]
    refine ⟨fun keywords reads => ?_, fun _ reads => (by cases reads), fun schemas reads => ?_⟩
    · refine RecordForm.holds_of_readItems (fun keywords => (inline keywords).FitsJson)
        (fun part isPart name isName _ _ holds isSet => ?_) fitsJson_unset reads
      obtain ⟨item, isItem, rfl⟩ := List.mem_map.mp isPart
      exact fitsJson_of_setKeyword (areJson item isItem).1 (areJson item isItem).2 isName holds isSet
    · intro schema isSchema
      obtain ⟨part, isPart, isRead⟩ := exists_of_mem_right (Source.mapM_eq_ok_iff.mp reads) isSchema
      obtain ⟨item, isItem, rfl⟩ := List.mem_map.mp isPart
      exact (areJson item isItem).2.schema isRead
  · rw [readings_record]
    refine ⟨fun keywords reads => ?_, fun table reads => ?_, fun _ reads => (by cases reads)⟩
    · refine RecordForm.holds_of_readMembers (fun keywords => (inline keywords).FitsJson)
        (fun part isPart isName _ _ holds isSet => ?_) fitsJson_unset reads
      obtain ⟨member, isMember, rfl⟩ := List.mem_map.mp isPart
      exact fitsJson_of_setKeyword (areJson member isMember).1 (areJson member isMember).2 isName holds
        isSet
    · have ⟨distinct, areRead⟩ := Source.of_readEntries reads List.nodup_nil
      refine ⟨distinct, fun schema isSchema => ?_⟩
      rcases areRead schema isSchema with isNone | ⟨part, isPart, isRead⟩
      · cases isNone
      · obtain ⟨member, isMember, rfl⟩ := List.mem_map.mp isPart
        exact (areJson member isMember).2.schema isRead

/-- A schema that is read from a JSON value is one of those that are read from JSON values. -/
theorem fitsJson_of_read {source : Source} (isJson : source.isJson = true) {schema : Schema}
    (reads : read source = .ok schema) : schema.FitsJson :=
  (readingsFit isJson).schema reads

end Schema

end ApiTypes
