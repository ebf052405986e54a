import ApiTypes.Proofs.Schema

/-!
The two spellings of schemas. What a schema in the form of version 3.0 is lowered to is what its
translation to the form of version 3.1 is lowered to, whichever version either is read in.
-/

namespace ApiTypes

namespace PlainKeywords

/-- Keywords in the form of version 3.0: at most one type, not null, and flags as exclusive bounds. -/
structure IsOldForm (keywords : PlainKeywords) : Prop where
  type : ∀ keyword ∈ keywords.type, ∃ type, keyword = .single type ∧ type ≠ .null
  exclusiveMinimum : ∀ bound ∈ keywords.exclusiveMinimum, ∃ flag, bound = .flag flag
  exclusiveMaximum : ∀ bound ∈ keywords.exclusiveMaximum, ∃ flag, bound = .flag flag

/-- The types and the flag for null in the form of version 3.1. Without a type the flag stays. -/
def nullAmongTypes : Option TypeKeyword → Option Bool → Option TypeKeyword × Option Bool
  | some (.single type), some true => (some (.several [type, .null]), none)
  | type, nullable => (type, nullable)

/-- The bounds at one end of a range in the form of version 3.1. -/
def ownBounds : Option Binary64 → Option ExclusiveBound → Option Binary64 × Option ExclusiveBound
  | some bound, some (.flag true) => (none, some (.value bound))
  | inclusive, some (.flag _) => (inclusive, none)
  | inclusive, exclusive => (inclusive, exclusive)

/-- The same keywords in the form of version 3.1. -/
def toNewForm (keywords : PlainKeywords) : PlainKeywords :=
  { keywords with
    type := (nullAmongTypes keywords.type keywords.nullable).1
    nullable := (nullAmongTypes keywords.type keywords.nullable).2
    minimum := (ownBounds keywords.minimum keywords.exclusiveMinimum).1
    exclusiveMinimum := (ownBounds keywords.minimum keywords.exclusiveMinimum).2
    maximum := (ownBounds keywords.maximum keywords.exclusiveMaximum).1
    exclusiveMaximum := (ownBounds keywords.maximum keywords.exclusiveMaximum).2 }

end PlainKeywords

/-- The same keywords in the form of version 3.1, around the same schemas. -/
def Keywords.toNewForm {σ : Type} (keywords : Keywords σ) : Keywords σ :=
  { keywords with toPlainKeywords := keywords.toPlainKeywords.toNewForm }

namespace Schema

/-- Every schema object in a schema is in the form of version 3.0. -/
def IsOldForm (schema : Schema) : Prop :=
  schema.fold (fun _ => True) fun keywords => keywords.toPlainKeywords.IsOldForm ∧ keywords.Each id

/-- The same schema in the form of version 3.1, with all schemas inside it. -/
def toNewForm (schema : Schema) : Schema :=
  schema.fold .ref fun keywords => .inline keywords.toNewForm

/-- A schema object is in the form of version 3.0 if its keywords are, and the schemas inside. -/
theorem isOldForm_inline_iff (keywords : Keywords Schema) :
    (inline keywords).IsOldForm ↔
      keywords.toPlainKeywords.IsOldForm ∧ keywords.Each IsOldForm := by
  rw [IsOldForm, fold_inline, Keywords.each_map_iff]
  rfl

/-- A schema object is translated by its keywords and the schemas inside. -/
theorem toNewForm_inline (keywords : Keywords Schema) :
    (inline keywords).toNewForm = .inline (keywords.map toNewForm).toNewForm :=
  fold_inline _ _ keywords

end Schema

/-- A computation gives a value, whatever was reported before. -/
def Reporting.Gives {α : Type} (computation : Reporting α) (value : α) : Prop :=
  ∀ before, (computation.run before).1 = value

/-- Computations that give the same, whatever they report and whatever was reported before. -/
def Reporting.Same {α : Type} (left right : Reporting α) : Prop :=
  ∀ before after, (left.run before).1 = (right.run after).1

/-- Computations that give equal values are the same. -/
theorem Reporting.Gives.same {α : Type} {left right : Reporting α} {value other : α}
    (gives : Gives left value) (also : Gives right other) (equal : value = other) :
    Same left right := fun before after =>
  (gives before).trans (equal.trans (also after).symm)

namespace Reporting.Same

variable {α β : Type}

/-- The same value is the same. -/
theorem pure (value : α) : Same (pure value) (pure value) := fun _ _ => rfl

/-- What gives nothing is the same as anything else of the kind. -/
theorem silent (left right : Reporting Unit) : Same left right := fun _ _ => rfl

/-- The same computations may go on with the same ones. -/
theorem bind {left right : Reporting α} {leftNext rightNext : α → Reporting β}
    (first : Same left right) (later : ∀ value, Same (leftNext value) (rightNext value)) :
    Same (left >>= leftNext) (right >>= rightNext) := by
  intro before after
  have agrees := later (left.run before).1 (left.run before).2 (right.run after).2
  rw [first before after] at agrees
  change (leftNext (left.run before).1 (left.run before).2).1 =
    (rightNext (right.run after).1 (right.run after).2).1
  rw [first before after]
  exact agrees

/-- What computations give may be transformed. -/
theorem map {left right : Reporting α} (same : Same left right) (transform : α → β) :
    Same (do return transform (← left)) (do return transform (← right)) :=
  same.bind fun _ => pure _

/-- What is collected with the same computations is the same but for the reports. -/
theorem collect {left right : Reporting α} (same : Same left right) :
    left.collect.1 = right.collect.1 := same [] []

end Reporting.Same

/-- Schemas that have the same node at every place. -/
def PlacedNode.Same (left right : PlacedNode) : Prop :=
  ∀ path, Reporting.Same (left path) (right path)

open Reporting (Same)

namespace Normalization

/-- Types that can express null win over the flag. -/
theorem gives_nullable (keywords : PlainKeywords) (version : SpecVersion) (path : String) :
    (nullable keywords version path).Gives
      (((keywords.type.filter TypeKeyword.isMultiForm).map TypeKeyword.containsNull).getD
        (keywords.nullable.getD false)) := by
  -- The type says so in the one form and a flag in the other; they are compared only for a report.
  intro before
  unfold nullable
  cases keywords.type.filter TypeKeyword.isMultiForm with
  | none =>
    simp only
    split <;> split <;> rfl
  | some types =>
    cases keywords.nullable with
    | none =>
      simp only
      split <;> split <;> rfl
    | some flag =>
      simp only
      split <;> split <;> split <;> rfl

/-- An exclusive bound excludes the inclusive one, or competes with it. -/
theorem gives_bound (rangeEnd : RangeEnd) (inclusive : Option Binary64)
    (exclusive : Option ExclusiveBound) (version : SpecVersion) (path : String) :
    (bound rangeEnd inclusive exclusive version path).Gives (match exclusive with
      | none => inclusive.map .inclusive
      | some (.flag flag) => inclusive.map fun value => ⟨value, flag⟩
      | some (.value value) => some (match inclusive with
        | none => .exclusively value
        | some inclusive => tighter rangeEnd inclusive value)) := by
  intro before
  unfold bound
  rcases exclusive with _ | (flag | value)
  · rfl
  · simp only
    split <;> split <;> rfl
  · simp only
    split <;> rfl

/-- A bound and its flag are the same as a bound of its own. -/
theorem same_bound {exclusive : Option ExclusiveBound}
    (flagged : ∀ bound ∈ exclusive, ∃ flag, bound = .flag flag) (rangeEnd : RangeEnd)
    (inclusive : Option Binary64) (version other : SpecVersion) (path : String) :
    Same (bound rangeEnd inclusive exclusive version path)
      (bound rangeEnd (PlainKeywords.ownBounds inclusive exclusive).1
        (PlainKeywords.ownBounds inclusive exclusive).2 other path) := by
  refine (gives_bound _ _ _ _ _).same (gives_bound _ _ _ _ _) ?_
  rcases exclusive with _ | (flag | value)
  · cases inclusive <;> rfl
  · cases inclusive <;> cases flag <;> rfl
  · obtain ⟨_, isFlag⟩ := flagged _ rfl
    cases isFlag

/-- The flag for null is the same as null among the types. -/
theorem same_nullable {keywords : PlainKeywords} (old : keywords.IsOldForm)
    (version other : SpecVersion) (path : String) :
    Same (nullable keywords version path) (nullable keywords.toNewForm other path) := by
  refine (gives_nullable _ _ _).same (gives_nullable _ _ _) ?_
  simp only [PlainKeywords.toNewForm]
  cases isType : keywords.type with
  | none => cases keywords.nullable <;> rfl
  | some type =>
    obtain ⟨type, rfl, notNull⟩ := old.type _ isType
    rcases keywords.nullable with _ | (_ | _)
    · rfl
    · rfl
    · simp [PlainKeywords.nullAmongTypes, Option.filter, TypeKeyword.isMultiForm, notNull,
        TypeKeyword.containsNull, TypeKeyword.types]

/-- The constraints that are stated are the same. -/
theorem same_stated {keywords : PlainKeywords} (old : keywords.IsOldForm)
    (version other : SpecVersion) (path : String) :
    Same (stated keywords version path) (stated keywords.toNewForm other path) :=
  (same_bound old.exclusiveMinimum .lower _ _ _ _).bind fun _ =>
    (same_bound old.exclusiveMaximum .upper _ _ _ _).map _

end Normalization

/-- The types other than null are the same. -/
theorem PlainKeywords.IsOldForm.nonNull_toNewForm {keywords : PlainKeywords}
    (old : keywords.IsOldForm) :
    keywords.toNewForm.type.map TypeKeyword.nonNull = keywords.type.map TypeKeyword.nonNull := by
  simp only [PlainKeywords.toNewForm]
  cases isType : keywords.type with
  | none => rfl
  | some type =>
    obtain ⟨type, rfl, notNull⟩ := old.type _ isType
    rcases keywords.nullable with _ | (_ | _)
    · rfl
    · rfl
    · simp [PlainKeywords.nullAmongTypes, TypeKeyword.nonNull, TypeKeyword.types, notNull]

/-- There are never several types other than null. -/
theorem PlainKeywords.IsOldForm.nonNull_eq {keywords : PlainKeywords} (old : keywords.IsOldForm) :
    keywords.type.map TypeKeyword.nonNull = none ∨
      ∃ type, keywords.type.map TypeKeyword.nonNull = some [type] := by
  cases isType : keywords.type with
  | none => exact .inl rfl
  | some type =>
    obtain ⟨type, rfl, notNull⟩ := old.type _ isType
    exact .inr ⟨type, by simp [TypeKeyword.nonNull, TypeKeyword.types, notNull]⟩

/-- The keywords amount to the same constraints and to the same admission of null. -/
theorem same_normalize {σ τ : Type} (left : Keywords σ) (right : Keywords τ)
    (old : left.toPlainKeywords.IsOldForm)
    (translated : right.toPlainKeywords = left.toPlainKeywords.toNewForm) (target : ConstraintTarget)
    (version other : SpecVersion) (path : String) :
    Same (normalize left target version path) (normalize right target other path) := by
  unfold normalize
  rw [translated]
  refine (Normalization.same_nullable old version other path).bind fun nullable => ?_
  refine (Normalization.same_stated old version other path).bind fun stated => ?_
  -- What does not apply is only reported, and so is a range without any value.
  exact (Same.silent _ _).bind fun _ => (Same.silent _ _).bind fun _ => .pure _

namespace Lowering

variable {σ : Type} {left right : σ → PlacedNode} {keywords : Keywords σ}

/-- The required names without a property are the same. -/
theorem undeclaredRequired_toNewForm (left right : σ → PlacedNode) (keywords : Keywords σ) :
    undeclaredRequired (keywords.map right).toNewForm =
      undeclaredRequired (keywords.map left) := by
  simp [undeclaredRequired, Keywords.map, Keywords.toNewForm, PlainKeywords.toNewForm]

section

variable (each : keywords.Each fun schema => (left schema).Same (right schema))

include each

/-- The items of an array are the same. -/
theorem same_array (path : String) :
    Same (array (keywords.map left) path) (array (keywords.map right).toNewForm path) := by
  have items := each.items
  simp only [array, Keywords.map, Keywords.toNewForm]
  cases isItems : keywords.items with
  | none => exact .pure _
  | some schema => exact (items schema isItems _).map _

/-- The further properties are the same. -/
theorem same_additional (path : String) :
    Same (additional (keywords.map left) path) (additional (keywords.map right).toNewForm path) := by
  have further := each.additional
  simp only [additional, Keywords.map, Keywords.toNewForm]
  rcases isAdditional : keywords.additional with _ | (_ | schema)
  · exact .pure _
  · rename_i allowed
    cases allowed <;> exact .pure _
  · exact (further schema isAdditional _).map _

omit each in
/-- The properties in order are the same. -/
theorem same_properties (required : List String) (path : String) {entries : List (String × σ)}
    (same : ∀ entry ∈ entries, (left entry.2).Same (right entry.2)) :
    Same (properties required path (entries.map fun entry => (entry.1, left entry.2)))
      (properties required path (entries.map fun entry => (entry.1, right entry.2))) := by
  induction entries with
  | nil => exact .pure []
  | cons entry rest ih =>
    have ⟨first, later⟩ := List.forall_mem_cons.mp same
    exact (first _).bind fun _ => (ih later).map _

/-- The object is the same. -/
theorem same_object (path : String) :
    Same (object (keywords.map left) path) (object (keywords.map right).toNewForm path) := by
  have further := same_additional each path
  have listed := same_properties keywords.required path each.properties
  have isEmpty : (keywords.map left).properties.isEmpty =
      (keywords.map right).toNewForm.properties.isEmpty := by
    simp [Keywords.map, Keywords.toNewForm]
  unfold object
  rw [isEmpty]
  split
  · exact further.bind fun additional => by
      cases additional <;> exact .pure _
  · exact listed.bind fun _ => further.map _

omit each in
/-- The members of a composition in order are the same. -/
theorem same_members (path : String) {schemas : List σ}
    (same : ∀ schema ∈ schemas, (left schema).Same (right schema)) (index : Nat) :
    Same (members path (schemas.map left) index) (members path (schemas.map right) index) := by
  induction schemas generalizing index with
  | nil => exact .pure []
  | cons schema rest ih =>
    have ⟨first, later⟩ := List.forall_mem_cons.mp same
    exact (first _).bind fun _ => (ih later _).map _

omit each in
/-- The choice is the same. -/
theorem same_union (oneOf : ∀ schema ∈ keywords.oneOf, (left schema).Same (right schema))
    (anyOf : ∀ schema ∈ keywords.anyOf, (left schema).Same (right schema)) (path : String) :
    Same (union (keywords.map left) path) (union (keywords.map right).toNewForm path) := by
  -- Which of the two keywords is lowered depends on whether there are members, not on how they are
  -- written.
  have listed : ∀ path index, Same
      (members path (if keywords.oneOf.isEmpty then keywords.anyOf.map left
        else keywords.oneOf.map left) index)
      (members path (if keywords.oneOf.isEmpty then keywords.anyOf.map right
        else keywords.oneOf.map right) index) := by
    intro path index
    split
    · exact same_members path anyOf index
    · exact same_members path oneOf index
  simp only [union, Keywords.map, Keywords.toNewForm, PlainKeywords.toNewForm, List.isEmpty_map,
    Table.isEmpty_map]
  have chosen := (listed
    (path ++ "/" ++ CompositionKind.keyword (if keywords.oneOf.isEmpty then .anyOf else .oneOf)) 0).map
    fun nodes => NodeKind.composed (if keywords.oneOf.isEmpty then .anyOf else .oneOf) nodes
      (keywords.discriminator.map resolveMapping)
  split <;> split
  · exact (Same.silent _ _).bind fun _ => (Same.silent _ _).bind fun _ => chosen
  · exact (Same.silent _ _).bind fun _ => chosen
  · exact (Same.silent _ _).bind fun _ => chosen
  · exact chosen

/-- What stands beside `allOf` contributes the same. -/
theorem same_siblingMember (path : String) :
    Same (siblingMember (keywords.map left) path)
      (siblingMember (keywords.map right).toNewForm path) := by
  have object := same_object each path
  have isObject : (!(keywords.map left).properties.isEmpty || (keywords.map left).additional.isSome) =
      (!(keywords.map right).toNewForm.properties.isEmpty ||
        (keywords.map right).toNewForm.additional.isSome) := by
    simp [Keywords.map, Keywords.toNewForm]
  have required : (keywords.map left).required = (keywords.map right).toNewForm.required := rfl
  simp only [siblingMember, isObject, required, undeclaredRequired_toNewForm left]
  split
  · exact .pure []
  · split
    · exact object.map _
    · exact Same.pure _

/-- A union beside `allOf` contributes the same. -/
theorem same_siblingUnion (path : String) :
    Same (siblingUnion (keywords.map left) path)
      (siblingUnion (keywords.map right).toNewForm path) := by
  let others : Keywords σ := { keywords with properties := {} }
  have chosen : Same (union (others.map left) path) (union (others.map right).toNewForm path) :=
    @same_union σ left right others each.oneOf each.anyOf path
  unfold siblingUnion
  have isEmpty : ((keywords.map left).oneOf.isEmpty && (keywords.map left).anyOf.isEmpty) =
      ((keywords.map right).toNewForm.oneOf.isEmpty &&
        (keywords.map right).toNewForm.anyOf.isEmpty) := by
    simp [Keywords.map, Keywords.toNewForm]
  rw [isEmpty]
  split
  · exact .pure _
  · exact chosen.map _

/-- The intersection is the same. -/
theorem same_intersection (path : String) :
    Same (intersection (keywords.map left) path)
      (intersection (keywords.map right).toNewForm path) :=
  (same_members _ each.allOf 0).bind fun _ => (same_siblingMember each path).bind fun _ =>
    (same_siblingUnion each path).map _

/-- An array, an object or a single base type is the same. -/
theorem same_single (type : SchemaType) (path : String) :
    Same (single type (keywords.map left) path)
      (single type (keywords.map right).toNewForm path) := by
  cases type with
  | array => exact same_array each path
  | object => exact same_object each path
  | string | integer | number | boolean | null => exact .pure _

variable (old : keywords.toPlainKeywords.IsOldForm)

omit each in
include old in
/-- The enumeration is the same. -/
theorem same_enumeration (path : String) :
    Same (enumeration (keywords.map left) path)
      (enumeration (keywords.map right).toNewForm path) := by
  -- Only the first type that is not null matters.
  have declared : ∀ keywords : Keywords PlacedNode,
      (do baseOfType? (← (← keywords.type).nonNull.head?) : Option PrimitiveBase) =
        (keywords.type.map TypeKeyword.nonNull).bind fun types => types.head?.bind baseOfType? := by
    intro keywords
    cases keywords.type <;> rfl
  have sameTypes : (keywords.map left).type.map TypeKeyword.nonNull =
      (keywords.map right).toNewForm.type.map TypeKeyword.nonNull := old.nonNull_toNewForm.symm
  have values : (keywords.map left).values = (keywords.map right).toNewForm.values := rfl
  have constant : (keywords.map left).constant = (keywords.map right).toNewForm.constant := rfl
  simp only [enumeration, declared, sameTypes, values, constant]
  generalize (if (keywords.map right).toNewForm.values.isEmpty then _ else _) = listed
  split
  · exact .pure _
  · generalize Option.or _ _ = base
    cases base with
    | some base => exact .pure _
    | none => exact (Same.silent _ _).bind fun _ => .pure _

include old in
/-- The kind is the same. -/
theorem same_kind (version other : SpecVersion) (path : String) :
    Same (kind (keywords.map left) version path)
      (kind (keywords.map right).toNewForm other path) := by
  have sameTypes : (keywords.map left).type.map TypeKeyword.nonNull =
      (keywords.map right).toNewForm.type.map TypeKeyword.nonNull := old.nonNull_toNewForm.symm
  have conditions : (keywords.map left).allOf.isEmpty = (keywords.map right).toNewForm.allOf.isEmpty ∧
      (keywords.map left).oneOf.isEmpty = (keywords.map right).toNewForm.oneOf.isEmpty ∧
      (keywords.map left).anyOf.isEmpty = (keywords.map right).toNewForm.anyOf.isEmpty ∧
      (keywords.map left).values = (keywords.map right).toNewForm.values ∧
      (keywords.map left).constant = (keywords.map right).toNewForm.constant ∧
      (keywords.map left).properties.isEmpty =
        (keywords.map right).toNewForm.properties.isEmpty ∧
      (keywords.map left).additional.isSome = (keywords.map right).toNewForm.additional.isSome ∧
      (keywords.map left).items.isSome = (keywords.map right).toNewForm.items.isSome := by
    simp [Keywords.map, Keywords.toNewForm, PlainKeywords.toNewForm]
  obtain ⟨allOf, oneOf, anyOf, values, constant, properties, additional, items⟩ := conditions
  simp only [kind, sameTypes, allOf, oneOf, anyOf, values, constant, properties, additional, items]
  split
  · exact (same_intersection each path).map _
  split
  · exact (same_union each.oneOf each.anyOf path).map _
  split
  · exact same_enumeration old path
  split
  · exact .pure _
  · exact (same_single each _ path).map _
  · -- A type that is not a list stands for one type only.
    rename_i types notNone notSingle isTypes
    rw [← sameTypes] at isTypes
    rcases old.nonNull_eq with absent | ⟨type, isSingle⟩
    · cases absent.symm.trans isTypes
    · exact absurd (Option.some.inj (isTypes.symm.trans isSingle)) (notSingle type)
  · split
    · exact (same_object each path).map _
    · split
      · exact (same_array each path).map _
      · exact .pure _

end

/-- A schema object in the form of version 3.0 has the same node in the form of version 3.1. -/
theorem same_node (each : keywords.Each fun schema => (left schema).Same (right schema))
    (old : keywords.toPlainKeywords.IsOldForm) (version other : SpecVersion) :
    (node version (keywords.map left)).Same (node other (keywords.map right).toNewForm) := by
  -- Kinds are lowered first, and decide which constraints are accepted.
  intro path
  have target : ∀ kind, acceptedTarget (keywords.map left).toPlainKeywords kind =
      acceptedTarget (keywords.map right).toNewForm.toPlainKeywords kind := by
    intro kind
    have sameTypes : (keywords.map right).toNewForm.type.map TypeKeyword.nonNull =
      (keywords.map left).type.map TypeKeyword.nonNull := old.nonNull_toNewForm
    simp only [acceptedTarget, sameTypes]
  have kinds := same_kind each old version other path
  simp only [node]
  refine kinds.bind fun found => ?_
  obtain ⟨kind, hasNull⟩ := found
  have normalized := fun target =>
    same_normalize (keywords.map left) (keywords.map right).toNewForm old rfl target version other path
  simp only [← target, undeclaredRequired_toNewForm left]
  exact (normalized _).bind fun _ => .pure _

end Lowering

/-- A schema in the form of version 3.0 has the same node in the form of version 3.1. -/
theorem Schema.IsOldForm.same_lower {schema : Schema} (old : schema.IsOldForm)
    (version other : SpecVersion) :
    (schema.lower version).Same (schema.toNewForm.lower other) := by
  induction schema using inductionOn with
  | ref path => exact fun _ => .pure _
  | inline keywords ih =>
    have ⟨plain, each⟩ := (isOldForm_inline_iff keywords).mp old
    have translated : ((keywords.map toNewForm).toNewForm.map
        (fold Lowering.reference (Lowering.node other))) =
        (keywords.map fun schema => schema.toNewForm.lower other).toNewForm :=
      congrArg Keywords.toNewForm (keywords.map_map _ _)
    rw [toNewForm_inline, lower, lower, fold_inline, fold_inline, translated]
    exact Lowering.same_node (ih.mp each) plain version other

/-- Schemas in the form of version 3.0 have the same nodes in the form of version 3.1. -/
theorem SchemaModel.same_lowerEntries {entries : List (String × Schema)}
    (old : ∀ entry ∈ entries, entry.2.IsOldForm) (version other : SpecVersion) :
    Same (lowerEntries version entries)
      (lowerEntries other (entries.map fun entry => (entry.1, entry.2.toNewForm))) := by
  induction entries with
  | nil => exact .pure []
  | cons entry rest ih =>
    have ⟨first, later⟩ := List.forall_mem_cons.mp old
    exact (first.same_lower version other _).bind fun _ => (ih later).map _

end ApiTypes
