import ApiTypes.Proofs.Lowering
import ApiTypes.Proofs.Table

/-! The induction over schemas, and folds of schema objects as transformations of what is inside. -/

namespace ApiTypes

variable {σ τ ρ : Type}

/-- The same keyword with its schema transformed. -/
def Additional.map (transform : σ → τ) : Additional σ → Additional τ
  | allowed value => allowed value
  | schema value => schema (transform value)

namespace Keywords

/-- The same keywords with the schemas inside transformed. -/
def map (transform : σ → τ) (keywords : Keywords σ) : Keywords τ where
  toPlainKeywords := keywords.toPlainKeywords
  properties := keywords.properties.map transform
  additional := keywords.additional.map (Additional.map transform)
  items := keywords.items.map transform
  allOf := keywords.allOf.map transform
  oneOf := keywords.oneOf.map transform
  anyOf := keywords.anyOf.map transform

/-- Transformations of the schemas inside follow each other. -/
theorem map_map (first : σ → τ) (second : τ → ρ) (keywords : Keywords σ) :
    (keywords.map first).map second = keywords.map fun schema => second (first schema) := by
  have further : (keywords.additional.map (Additional.map first)).map (Additional.map second) =
      keywords.additional.map (Additional.map fun schema => second (first schema)) := by
    rcases keywords.additional with _ | (_ | _) <;> rfl
  simp [map, Table.map, further, Function.comp_def]

/-- What follows from something that holds of all schemas inside holds of all of them. -/
theorem Each.mp {first second : σ → Prop} {keywords : Keywords σ}
    (implies : keywords.Each fun schema => first schema → second schema)
    (holds : keywords.Each first) : keywords.Each second where
  properties entry isEntry := implies.properties entry isEntry (holds.properties entry isEntry)
  additional value isValue := implies.additional value isValue (holds.additional value isValue)
  items value isValue := implies.items value isValue (holds.items value isValue)
  allOf value isMember := implies.allOf value isMember (holds.allOf value isMember)
  oneOf value isMember := implies.oneOf value isMember (holds.oneOf value isMember)
  anyOf value isMember := implies.anyOf value isMember (holds.anyOf value isMember)

/-- Something holds of what is inside after a transformation if it holds of what is transformed. -/
theorem each_map_iff {holds : τ → Prop} (transform : σ → τ) (keywords : Keywords σ) :
    (keywords.map transform).Each holds ↔ keywords.Each fun schema => holds (transform schema) := by
  have listed : (∀ entry ∈ (keywords.properties.map transform).entries, holds entry.2) ↔
      ∀ entry ∈ keywords.properties.entries, holds (transform entry.2) := List.forall_mem_map
  have further : (∀ value, keywords.additional.map (Additional.map transform) = some (.schema value) →
      holds value) ↔
        ∀ value, keywords.additional = some (.schema value) → holds (transform value) := by
    rcases keywords.additional with _ | (_ | _) <;> simp [Additional.map]
  have single : (∀ value ∈ keywords.items.map transform, holds value) ↔
      ∀ value ∈ keywords.items, holds (transform value) := by
    cases keywords.items <;> simp
  constructor
  · rintro ⟨properties, additional, items, allOf, oneOf, anyOf⟩
    exact ⟨listed.mp properties, further.mp additional, single.mp items,
      List.forall_mem_map.mp allOf, List.forall_mem_map.mp oneOf, List.forall_mem_map.mp anyOf⟩
  · rintro ⟨properties, additional, items, allOf, oneOf, anyOf⟩
    exact ⟨listed.mpr properties, further.mpr additional, single.mpr items,
      List.forall_mem_map.mpr allOf, List.forall_mem_map.mpr oneOf, List.forall_mem_map.mpr anyOf⟩

end Keywords

namespace Schema

/-- What holds of a schema object if it does of the schemas inside it holds of every schema. -/
@[elab_as_elim] theorem inductionOn {motive : Schema → Prop} (schema : Schema)
    (ref : ∀ path, motive (.ref path))
    (inline : ∀ keywords : Keywords Schema, keywords.Each motive → motive (.inline keywords)) :
    motive schema :=
  -- A table, a list and an option hold what each of their schemas needs.
  @Schema.rec motive (fun keywords => keywords.Each motive)
    (fun table => ∀ entry ∈ table.entries, motive entry.2)
    (fun additional => ∀ value, additional = some (.schema value) → motive value)
    (fun schema? => ∀ value ∈ schema?, motive value) (fun schemas => ∀ value ∈ schemas, motive value)
    (fun entries => ∀ entry ∈ entries, motive entry.2)
    (fun additional => ∀ value, additional = .schema value → motive value)
    (fun entry => motive entry.2)
    ref inline
    (fun _ _ _ _ _ _ _ properties additional items allOf oneOf anyOf =>
      ⟨properties, additional, items, allOf, oneOf, anyOf⟩)
    (fun _ holds => holds)
    (fun _ isValue => by cases isValue)
    (fun _ holds value isValue => holds value (Option.some.inj isValue))
    (fun _ isValue => absurd isValue (Option.not_mem_none _))
    (fun _ holds _ isValue => Option.mem_some.mp isValue ▸ holds)
    (fun _ isMember => absurd isMember List.not_mem_nil)
    (fun _ _ first rest => List.forall_mem_cons.mpr ⟨first, rest⟩)
    (fun _ isMember => absurd isMember List.not_mem_nil)
    (fun _ _ first rest => List.forall_mem_cons.mpr ⟨first, rest⟩)
    (fun _ _ isValue => by cases isValue)
    (fun _ holds _ isValue => Additional.schema.inj isValue ▸ holds)
    (fun _ _ holds => holds) schema

variable {β : Type} (onRef : String → β) (onKeywords : Keywords β → β)

/-- The schemas of properties are folded one by one. -/
theorem foldEntries_eq (entries : List (String × Schema)) :
    foldEntries onRef onKeywords entries =
      entries.map fun entry => (entry.1, entry.2.fold onRef onKeywords) := by
  induction entries with
  | nil => rfl
  | cons entry rest ih => simp [foldEntries, ih]

/-- The schemas of a list are folded one by one. -/
theorem foldList_eq (schemas : List Schema) :
    foldList onRef onKeywords schemas = schemas.map (fold onRef onKeywords) := by
  induction schemas with
  | nil => rfl
  | cons schema rest ih => simp [foldList, ih]

/-- A schema object is folded by folding the schemas inside it first. -/
theorem fold_inline (keywords : Keywords Schema) :
    (inline keywords).fold onRef onKeywords = onKeywords (keywords.map (fold onRef onKeywords)) := by
  obtain ⟨plain, ⟨entries⟩, additional, items, allOf, oneOf, anyOf⟩ := keywords
  have further : foldAdditional onRef onKeywords additional =
      additional.map (Additional.map (fold onRef onKeywords)) := by
    rcases additional with _ | (_ | _) <;> rfl
  have single : foldOption onRef onKeywords items = items.map (fold onRef onKeywords) := by
    cases items <;> rfl
  simp only [fold, foldEntries_eq, foldList_eq, further, single, Keywords.map, Table.map]

end Schema

end ApiTypes
