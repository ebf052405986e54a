import ApiTypes.Lowering

/-!
What lowering reports. It leaves nothing out, and says nothing of required names and of merges, which are
judged in synthesis.
-/

namespace ApiTypes

/-- Something holds of every schema inside a schema object. -/
structure Keywords.Each {σ : Type} (holds : σ → Prop) (keywords : Keywords σ) : Prop where
  properties : ∀ entry ∈ keywords.properties.entries, holds entry.2
  additional : ∀ value, keywords.additional = some (.schema value) → holds value
  items : ∀ value ∈ keywords.items, holds value
  allOf : ∀ value ∈ keywords.allOf, holds value
  oneOf : ∀ value ∈ keywords.oneOf, holds value
  anyOf : ∀ value ∈ keywords.anyOf, holds value

namespace Schema

variable {β : Type} {onRef : String → β} {onKeywords : Keywords β → β} {holds : β → Prop}

mutual

/-- What a fold keeps holds of its result. -/
theorem fold_holds (ref : ∀ path, holds (onRef path))
    (inline : ∀ keywords, keywords.Each holds → holds (onKeywords keywords)) :
    ∀ schema : Schema, holds (schema.fold onRef onKeywords)
  | .ref path => ref path
  | .inline ⟨_, ⟨entries⟩, additional, items, allOf, oneOf, anyOf⟩ =>
    inline _
      { properties := foldEntries_holds ref inline entries
        additional := foldAdditional_holds ref inline additional
        items := foldOption_holds ref inline items
        allOf := foldList_holds ref inline allOf
        oneOf := foldList_holds ref inline oneOf
        anyOf := foldList_holds ref inline anyOf }

/-- It holds of the results for properties. -/
theorem foldEntries_holds (ref : ∀ path, holds (onRef path))
    (inline : ∀ keywords, keywords.Each holds → holds (onKeywords keywords)) :
    ∀ entries : List (String × Schema),
      ∀ entry ∈ foldEntries onRef onKeywords entries, holds entry.2
  | [], _, isMember => absurd isMember List.not_mem_nil
  | (_, schema) :: rest, entry, isMember => by
    rcases List.mem_cons.mp isMember with rfl | isLater
    · exact fold_holds ref inline schema
    · exact foldEntries_holds ref inline rest entry isLater

/-- It holds of the result for properties that are not listed. -/
theorem foldAdditional_holds (ref : ∀ path, holds (onRef path))
    (inline : ∀ keywords, keywords.Each holds → holds (onKeywords keywords)) :
    ∀ additional : Option (Additional Schema), ∀ value,
      foldAdditional onRef onKeywords additional = some (.schema value) → holds value
  | none, _, isValue => by cases isValue
  | some (.allowed _), _, isValue => by cases isValue
  | some (.schema schema), value, isValue => by
    cases isValue
    exact fold_holds ref inline schema

/-- It holds of the result for a schema that may be absent. -/
theorem foldOption_holds (ref : ∀ path, holds (onRef path))
    (inline : ∀ keywords, keywords.Each holds → holds (onKeywords keywords)) :
    ∀ schema? : Option Schema, ∀ value ∈ foldOption onRef onKeywords schema?, holds value
  | none, _, isValue => by cases isValue
  | some schema, value, isValue => by
    cases isValue
    exact fold_holds ref inline schema

/-- It holds of the results for a list. -/
theorem foldList_holds (ref : ∀ path, holds (onRef path))
    (inline : ∀ keywords, keywords.Each holds → holds (onKeywords keywords)) :
    ∀ schemas : List Schema, ∀ value ∈ foldList onRef onKeywords schemas, holds value
  | [], _, isMember => absurd isMember List.not_mem_nil
  | schema :: rest, value, isMember => by
    rcases List.mem_cons.mp isMember with rfl | isLater
    · exact fold_holds ref inline schema
    · exact foldList_holds ref inline rest value isLater

end

end Schema

/-- What lowering notices: no schema is left out, and required names and merges are judged later. -/
def Cause.isOfLowering : Cause → Bool
  | undeclaredRequired _ | merged _ | failed _ | operationDropped _ _ => false
  | _ => true

/-- What lowering notices is no error. -/
theorem Diagnostic.isError_of_isOfLowering {diagnostic : Diagnostic}
    (isOfLowering : diagnostic.cause.isOfLowering = true) : diagnostic.isError = false := by
  obtain ⟨path, cause⟩ := diagnostic
  cases cause <;> first | rfl | cases isOfLowering

/-- A computation adds only what lowering notices to the diagnostics that are collected. -/
def Preliminary {α : Type} (computation : Reporting α) : Prop :=
  ∀ before, (∀ diagnostic ∈ before, diagnostic.cause.isOfLowering = true) →
    ∀ diagnostic ∈ (computation.run before).2, diagnostic.cause.isOfLowering = true

namespace Preliminary

variable {α β : Type}

/-- A value reports nothing. -/
theorem pure (value : α) : Preliminary (pure value) := fun _ preliminary => preliminary

/-- Preliminary computations may follow each other. -/
theorem bind {computation : Reporting α} {next : α → Reporting β} (first : Preliminary computation)
    (later : ∀ value, Preliminary (next value)) : Preliminary (computation >>= next) :=
  fun before preliminary => later _ _ (first before preliminary)

/-- A report is preliminary if lowering may notice its cause. -/
theorem report (path : String) {cause : Cause} (isOfLowering : cause.isOfLowering = true) :
    Preliminary (Reporting.report path cause) := by
  intro before preliminary diagnostic isMember
  have isAdded : diagnostic ∈ before ++ [⟨path, cause⟩] := isMember
  rcases List.mem_append.mp isAdded with isOld | isNew
  · exact preliminary diagnostic isOld
  · simp [List.mem_singleton.mp isNew, isOfLowering]

/-- A preliminary computation under a condition is preliminary. -/
theorem ite {condition : Prop} [Decidable condition] {positive negative : Reporting α}
    (first : Preliminary positive) (second : Preliminary negative) :
    Preliminary (if condition then positive else negative) := by
  split
  · exact first
  · exact second

/-- Going through a list is preliminary if every step is. -/
theorem forIn {entries : List β} {body : β → α → Reporting (ForInStep α)}
    (preliminary : ∀ entry state, Preliminary (body entry state)) (state : α) :
    Preliminary (forIn entries state body) := by
  induction entries generalizing state with
  | nil => exact pure _
  | cons entry rest ih =>
    rw [List.forIn_cons]
    refine (preliminary entry state).bind fun step => ?_
    cases step with
    | done state => exact pure state
    | yield state => exact ih state

/-- Transforming a list is preliminary if every step is. -/
theorem mapM {entries : List α} {body : α → Reporting β}
    (preliminary : ∀ entry ∈ entries, Preliminary (body entry)) :
    Preliminary (entries.mapM body) := by
  induction entries with
  | nil => exact pure _
  | cons entry rest ih =>
    rw [List.mapM_cons]
    refine (preliminary entry List.mem_cons_self).bind fun _ => ?_
    exact (ih fun other isLater => preliminary other (List.mem_cons_of_mem _ isLater)).bind fun _ =>
      pure _

/-- What a preliminary computation collects may be noticed in lowering. -/
theorem collect {computation : Reporting α} (preliminary : Preliminary computation) :
    ∀ diagnostic ∈ computation.collect.2, diagnostic.cause.isOfLowering = true :=
  preliminary [] (by simp)

end Preliminary

/-- A schema whose node depends on its place reports only what lowering notices. -/
def PlacedNode.Preliminary (placed : PlacedNode) : Prop := ∀ path, ApiTypes.Preliminary (placed path)

namespace Normalization

/-- Bringing the spellings of null together reports only what lowering notices. -/
theorem preliminary_nullable (keywords : PlainKeywords) (version : SpecVersion) (path : String) :
    Preliminary (nullable keywords version path) := by
  unfold nullable
  -- Both spellings may be noticed, and then those of several types are compared with the flag.
  refine Preliminary.ite ((Preliminary.report _ rfl).bind fun _ => ?_) ?_ <;>
    refine Preliminary.ite ((Preliminary.report _ rfl).bind fun _ => ?_) ?_ <;>
  · split
    · exact Preliminary.pure _
    · split
      · exact (Preliminary.pure _).bind fun _ => Preliminary.pure _
      · exact Preliminary.ite
          ((Preliminary.report _ rfl).bind fun _ => Preliminary.pure _)
          (Preliminary.pure _)

/-- Finding a bound reports only what lowering notices. -/
theorem preliminary_bound (rangeEnd : RangeEnd) (inclusive : Option Binary64)
    (exclusive : Option ExclusiveBound) (version : SpecVersion) (path : String) :
    Preliminary (bound rangeEnd inclusive exclusive version path) := by
  unfold bound
  split
  · exact Preliminary.pure _
  · rename_i flag
    have dangling : Preliminary (if (inclusive.isNone && flag) = true then do
          Reporting.report path (.danglingFlag rangeEnd)
          return inclusive.map fun value => (⟨value, flag⟩ : Bound)
        else return inclusive.map fun value => (⟨value, flag⟩ : Bound)) :=
      Preliminary.ite ((Preliminary.report _ rfl).bind fun _ => Preliminary.pure _)
        (Preliminary.pure _)
    exact Preliminary.ite ((Preliminary.report _ rfl).bind fun _ => dangling)
      dangling
  · exact Preliminary.ite
      ((Preliminary.report _ rfl).bind fun _ => Preliminary.pure _)
      (Preliminary.pure _)

/-- Collecting the stated constraints reports only what lowering notices. -/
theorem preliminary_stated (keywords : PlainKeywords) (version : SpecVersion) (path : String) :
    Preliminary (stated keywords version path) :=
  (preliminary_bound _ _ _ _ _).bind fun _ => (preliminary_bound _ _ _ _ _).bind fun _ =>
    Preliminary.pure _

end Normalization

/-- Normalizing keywords reports only what lowering notices. -/
theorem preliminary_normalize {σ : Type} (keywords : Keywords σ) (target : ConstraintTarget)
    (version : SpecVersion) (path : String) :
    Preliminary (normalize keywords target version path) := by
  unfold normalize
  refine (Normalization.preliminary_nullable _ _ _).bind fun nullable => ?_
  refine (Normalization.preliminary_stated _ _ _).bind fun stated => ?_
  refine (Preliminary.forIn (fun keyword _ => ?_) _).bind fun _ => ?_
  · exact (Preliminary.report _ rfl).bind fun _ => Preliminary.pure _
  · refine (Preliminary.forIn (fun family _ => Preliminary.ite ?_ (Preliminary.pure _)) _).bind fun _ =>
      Preliminary.pure _
    exact (Preliminary.report _ rfl).bind fun _ => Preliminary.pure _

namespace Lowering

/-- The node of an array reports only what lowering notices. -/
theorem preliminary_array {keywords : Keywords PlacedNode} (each : keywords.Each PlacedNode.Preliminary)
    (path : String) : Preliminary (array keywords path) := by
  unfold array
  split
  · rename_i items isItems
    exact (each.items items isItems _).bind fun _ => Preliminary.pure _
  · exact Preliminary.pure _

/-- The node of further properties reports only what lowering notices. -/
theorem preliminary_additional {keywords : Keywords PlacedNode}
    (each : keywords.Each PlacedNode.Preliminary) (path : String) :
    Preliminary (additional keywords path) := by
  unfold additional
  split
  · rename_i value isValue
    exact (each.additional value isValue _).bind fun _ => Preliminary.pure _
  · exact Preliminary.pure _
  · exact Preliminary.pure _
  · exact Preliminary.pure _

/-- The nodes of properties report only what lowering notices. -/
theorem preliminary_properties (required : List String) (path : String)
    {entries : List (String × PlacedNode)} (each : ∀ entry ∈ entries, entry.2.Preliminary) :
    Preliminary (properties required path entries) := by
  induction entries with
  | nil => exact Preliminary.pure _
  | cons entry rest ih =>
    have ⟨first, later⟩ := List.forall_mem_cons.mp each
    exact (first _).bind fun _ => (ih later).bind fun _ => Preliminary.pure _

/-- The node of an object reports only what lowering notices. -/
theorem preliminary_object {keywords : Keywords PlacedNode} (each : keywords.Each PlacedNode.Preliminary)
    (path : String) : Preliminary (object keywords path) := by
  unfold object
  refine Preliminary.ite ((preliminary_additional each path).bind fun found => ?_) ?_
  · split <;> exact Preliminary.pure _
  · exact (preliminary_properties _ _ each.properties).bind fun _ =>
      (preliminary_additional each path).bind fun _ => Preliminary.pure _

/-- The members of a composition report only what lowering notices. -/
theorem preliminary_members (path : String) {placed : List PlacedNode}
    (each : ∀ member ∈ placed, member.Preliminary) (index : Nat) :
    Preliminary (members path placed index) := by
  induction placed generalizing index with
  | nil => exact Preliminary.pure _
  | cons member rest ih =>
    have ⟨first, later⟩ := List.forall_mem_cons.mp each
    exact (first _).bind fun _ => (ih later _).bind fun _ => Preliminary.pure _

/-- A choice reports only what lowering notices. -/
theorem preliminary_union (keywords : Keywords PlacedNode)
    (oneOf : ∀ member ∈ keywords.oneOf, member.Preliminary)
    (anyOf : ∀ member ∈ keywords.anyOf, member.Preliminary) (path : String) :
    Preliminary (union keywords path) := by
  have listed : ∀ member ∈ if keywords.oneOf.isEmpty then keywords.anyOf else keywords.oneOf,
      member.Preliminary := by
    split
    · exact anyOf
    · exact oneOf
  have choice : ∀ kind : CompositionKind, Preliminary (do
      let nodes ← members (path ++ "/" ++ kind.keyword)
        (if keywords.oneOf.isEmpty then keywords.anyOf else keywords.oneOf) 0
      return NodeKind.composed kind nodes (keywords.discriminator.map resolveMapping)) :=
    fun kind => (preliminary_members _ listed 0).bind fun _ => Preliminary.pure _
  unfold union
  refine Preliminary.ite ((Preliminary.report _ rfl).bind fun _ => ?_) ?_ <;>
    exact Preliminary.ite ((Preliminary.report _ rfl).bind fun _ => choice _)
      (choice _)

/-- What stands beside an intersection reports only what lowering notices. -/
theorem preliminary_siblingMember {keywords : Keywords PlacedNode}
    (each : keywords.Each PlacedNode.Preliminary) (path : String) :
    Preliminary (siblingMember keywords path) := by
  unfold siblingMember
  refine Preliminary.ite (Preliminary.pure _) (Preliminary.ite ?_ ?_)
  · exact (preliminary_object each path).bind fun _ => Preliminary.pure _
  · exact (Preliminary.pure _).bind fun _ => Preliminary.pure _

/-- A choice beside an intersection reports only what lowering notices. -/
theorem preliminary_siblingUnion {keywords : Keywords PlacedNode}
    (each : keywords.Each PlacedNode.Preliminary) (path : String) :
    Preliminary (siblingUnion keywords path) := by
  have choice : Preliminary (union { keywords with properties := {} } path) :=
    preliminary_union { keywords with properties := {} } each.oneOf each.anyOf path
  exact Preliminary.ite (Preliminary.pure _) (choice.bind fun _ => Preliminary.pure _)

/-- An intersection reports only what lowering notices. -/
theorem preliminary_intersection {keywords : Keywords PlacedNode}
    (each : keywords.Each PlacedNode.Preliminary) (path : String) :
    Preliminary (intersection keywords path) :=
  (preliminary_members _ each.allOf 0).bind fun _ => (preliminary_siblingMember each path).bind fun _ =>
    (preliminary_siblingUnion each path).bind fun _ => Preliminary.pure _

/-- An enumeration reports only what lowering notices. -/
theorem preliminary_enumeration (keywords : Keywords PlacedNode) (path : String) :
    Preliminary (enumeration keywords path) := by
  unfold enumeration
  refine Preliminary.ite (Preliminary.pure _) ?_
  split
  · exact Preliminary.pure _
  · exact (Preliminary.report _ rfl).bind fun _ => Preliminary.pure _

/-- The kind for a single type reports only what lowering notices. -/
theorem preliminary_single (type : SchemaType) {keywords : Keywords PlacedNode}
    (each : keywords.Each PlacedNode.Preliminary) (path : String) :
    Preliminary (single type keywords path) := by
  unfold single
  split
  · exact preliminary_array each path
  · exact preliminary_object each path
  · split <;> exact Preliminary.pure _

/-- A choice between several types reports only what lowering notices. -/
theorem preliminary_multiType (types : List SchemaType) {keywords : Keywords PlacedNode}
    (each : keywords.Each PlacedNode.Preliminary) (version : SpecVersion) (path : String) :
    Preliminary (multiType types keywords version path) := by
  unfold multiType
  refine (Preliminary.mapM fun type _ => ?_).bind fun _ => Preliminary.pure _
  exact (preliminary_single type each path).bind fun _ => Preliminary.pure _

/-- The kind of a schema reports only what lowering notices. -/
theorem preliminary_kind {keywords : Keywords PlacedNode} (each : keywords.Each PlacedNode.Preliminary)
    (version : SpecVersion) (path : String) : Preliminary (kind keywords version path) := by
  have unlisted : ∀ {found : Reporting (NodeKind SchemaNode)}, Preliminary found →
      Preliminary (do return (← found, false)) := fun preliminary =>
    preliminary.bind fun _ => Preliminary.pure _
  unfold kind
  refine Preliminary.ite (unlisted (preliminary_intersection each path)) ?_
  refine Preliminary.ite (unlisted (preliminary_union _ each.oneOf each.anyOf path)) ?_
  refine Preliminary.ite (preliminary_enumeration keywords path) ?_
  split
  · exact Preliminary.pure _
  · exact unlisted (preliminary_single _ each path)
  · exact unlisted (preliminary_multiType _ each version path)
  · refine Preliminary.ite (unlisted (preliminary_object each path)) ?_
    exact Preliminary.ite (unlisted (preliminary_array each path)) (Preliminary.pure _)

/-- The node of a schema object reports only what lowering notices. -/
theorem preliminary_node (version : SpecVersion) {keywords : Keywords PlacedNode}
    (each : keywords.Each PlacedNode.Preliminary) : (node version keywords).Preliminary := fun path =>
  (preliminary_kind each version path).bind fun _ =>
    (preliminary_normalize _ _ _ _).bind fun _ => Preliminary.pure _

end Lowering

/-- Lowering a schema reports only what lowering notices. -/
theorem Schema.preliminary_lower (version : SpecVersion) (schema : Schema) (path : String) :
    Preliminary (schema.lower version path) :=
  schema.fold_holds (fun _ _ => Preliminary.pure _)
    (fun _ each => Lowering.preliminary_node version each) path

namespace SchemaModel

/-- Lowering the component schemas reports only what lowering notices. -/
theorem preliminary_lowerEntries (version : SpecVersion) (entries : List (String × Schema)) :
    Preliminary (lowerEntries version entries) := by
  induction entries with
  | nil => exact Preliminary.pure _
  | cons entry rest ih =>
    exact (entry.2.preliminary_lower version _).bind fun _ => ih.bind fun _ => Preliminary.pure _

/-- Lowering a document reports only what lowering notices. -/
theorem preliminary_ofDocument (document : Document) : Preliminary (ofDocument document) :=
  (preliminary_lowerEntries _ _).bind fun _ => Preliminary.pure _

/-- Lowering keeps the names of the component schemas, whatever has been reported before. -/
theorem keys_lowerEntries (version : SpecVersion) (entries : List (String × Schema))
    (before : List Diagnostic) :
    ((lowerEntries version entries).run before).1.map Prod.fst = entries.map Prod.fst := by
  induction entries generalizing before with
  | nil => rfl
  | cons entry rest ih => exact congrArg (entry.1 :: ·) (ih _)

/-- The component schemas of the model are those of the document. -/
theorem names_ofDocument (document : Document) :
    (ofDocument document).collect.1.names = document.schemas.keys :=
  keys_lowerEntries _ _ []

end SchemaModel

end ApiTypes
