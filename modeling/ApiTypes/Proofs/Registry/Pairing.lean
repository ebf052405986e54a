import ApiTypes.Registry.Equivalence

/-!
The forms that equivalent types have in common, and which names in them are compared in turn: whatever is
said of equivalent types is said by cases on these forms.
-/

namespace ApiTypes

namespace Equivalence

/-- Kinds that are equivalent are of one form, and the names in them are paired. -/
inductive PairsKinds : TypeKind TypeExpr → TypeKind TypeExpr → List NamePair → Prop
  | array {left right : TypeExpr} {pairs : List NamePair}
    (isPaired : ofTypes left right = some pairs) : PairsKinds (.array left) (.array right) pairs
  | map {left right : TypeExpr} {pairs : List NamePair}
    (isPaired : ofTypes left right = some pairs) : PairsKinds (.map left) (.map right) pairs
  | named (left right : String) : PairsKinds (.named left) (.named right) [(left, right)]
  | primitive (base : PrimitiveBase) (format : Option String) :
    PairsKinds (.primitive base format) (.primitive base format) []
  | any : PairsKinds .any .any []
  | null : PairsKinds .null .null []

/-- Kinds are equivalent exactly if they are of one form. -/
theorem ofKinds_eq_some_iff {left right : TypeKind TypeExpr} {pairs : List NamePair} :
    ofKinds left right = some pairs ↔ PairsKinds left right pairs := by
  constructor
  · intro isPaired
    cases left <;> cases right <;> simp only [ofKinds] at isPaired
    case array.array => exact .array isPaired
    case map.map => exact .map isPaired
    case named.named =>
      cases isPaired
      exact .named _ _
    case primitive.primitive =>
      split at isPaired <;> cases isPaired
      rename_i same
      have ⟨bases, formats⟩ := Bool.and_eq_true_iff.mp same
      rw [eq_of_beq bases, eq_of_beq formats]
      exact .primitive _ _
    case any.any =>
      cases isPaired
      exact .any
    case null.null =>
      cases isPaired
      exact .null
    -- Kinds of different forms are not equal either.
    all_goals
      split at isPaired
      · rename_i same
        cases same
      · cases isPaired
  · intro isPaired
    cases isPaired with
    | array isPaired | map isPaired => rwa [ofKinds]
    | named | any | null => rfl
    | primitive base format =>
      have same : ((.primitive base format : TypeKind TypeExpr) == .primitive base format) = true :=
        Bool.and_eq_true_iff.mpr ⟨BEq.rfl, BEq.rfl⟩
      simp only [ofKinds, same, if_true]

/--
Types are equivalent exactly if they are alike in what is said besides, and their kinds are of one form.
-/
theorem ofTypes_eq_some_iff {left right : TypeExpr} {pairs : List NamePair} :
    ofTypes left right = some pairs ↔ left.nullable = right.nullable ∧
      (left.constraints == right.constraints) = true ∧ PairsKinds left.kind right.kind pairs := by
  -- What is said besides the kinds is compared before the kinds are.
  obtain ⟨leftKind, leftNullable, leftConstraints⟩ := left
  obtain ⟨rightKind, rightNullable, rightConstraints⟩ := right
  rw [ofTypes, ← ofKinds_eq_some_iff, ← and_assoc, ← beq_iff_eq (a := leftNullable),
    ← Bool.and_eq_true]
  split <;> simp_all

/-- Kinds are equivalent if types of them are of which nothing else is said. -/
theorem ofTypes_of_kinds (left right : TypeKind TypeExpr) :
    ofTypes ⟨left, false, {}⟩ ⟨right, false, {}⟩ = ofKinds left right := by
  rw [ofTypes, if_pos (by decide)]

/-- Fields that are equivalent have the same names and flags in the same order, and equivalent types. -/
inductive PairsFields : List Field → List Field → List NamePair → Prop
  | nil : PairsFields [] [] []
  | cons {first second : Field} {rest others : List Field} {types later : List NamePair}
    (names : first.name = second.name) (flags : first.required = second.required)
    (areTypes : ofTypes first.type second.type = some types) (areLater : PairsFields rest others later) :
    PairsFields (first :: rest) (second :: others) (types ++ later)

/-- Lists of fields are equivalent exactly if their fields are, one after the other. -/
theorem ofFields_eq_some_iff {left right : List Field} {pairs : List NamePair} :
    ofFields left right = some pairs ↔ PairsFields left right pairs := by
  constructor
  · intro isPaired
    induction left generalizing right pairs with
    | nil => cases right with
      | nil =>
        cases isPaired
        exact .nil
      | cons => cases isPaired
    | cons first rest ih => cases right with
      | nil => cases isPaired
      | cons second others =>
        rw [ofFields] at isPaired
        -- Names and flags are compared before the types are, of which the names are collected.
        split at isPaired
        · rename_i same
          have ⟨names, flags⟩ := Bool.and_eq_true_iff.mp same
          obtain ⟨types, areTypes, isPaired⟩ := Option.bind_eq_some_iff.mp isPaired
          obtain ⟨later, areLater, isPaired⟩ := Option.bind_eq_some_iff.mp isPaired
          cases isPaired
          exact .cons (eq_of_beq names) (eq_of_beq flags) areTypes (ih areLater)
        · cases isPaired
  · intro isPaired
    induction isPaired with
    | nil => rfl
    | cons names flags areTypes _ areLater =>
      rw [ofFields, if_pos (by rw [names, flags, BEq.rfl, BEq.rfl]; rfl), areTypes, areLater]
      rfl

/-- Shapes that are equivalent are of one form, and the names in them are paired. -/
inductive PairsShapes : Shape → Shape → List NamePair → Prop
  | record {left right : RecordShape} {further fields : List NamePair}
    (areFurther : ofOptions left.additional right.additional = some further)
    (areFields : PairsFields left.fields right.fields fields) :
    PairsShapes (.record left) (.record right) (further ++ fields)
  | alias {left right : TypeExpr} {pairs : List NamePair}
    (isPaired : ofTypes left right = some pairs) : PairsShapes (.alias left) (.alias right) pairs
  | union {left right : UnionShape} (kinds : (left.kind == right.kind) = true)
    (nulls : left.nullable = right.nullable)
    (discriminators : (left.discriminator == right.discriminator) = true)
    (lengths : left.members.length = right.members.length) :
    PairsShapes (.union left) (.union right) (left.members.zip right.members)
  | enum (base : PrimitiveBase) {left right : List Data} (values : (left == right) = true) :
    PairsShapes (.enum base left) (.enum base right) []

/-- Shapes are equivalent exactly if they are of one form. -/
theorem ofShapes_eq_some_iff {left right : Shape} {pairs : List NamePair} :
    ofShapes left right = some pairs ↔ PairsShapes left right pairs := by
  constructor
  · intro isPaired
    cases left <;> cases right <;> simp only [ofShapes] at isPaired
    case record.record =>
      obtain ⟨further, areFurther, isPaired⟩ := Option.bind_eq_some_iff.mp isPaired
      obtain ⟨fields, areFields, isPaired⟩ := Option.bind_eq_some_iff.mp isPaired
      cases isPaired
      exact .record areFurther (ofFields_eq_some_iff.mp areFields)
    case alias.alias => exact .alias isPaired
    case union.union =>
      split at isPaired <;> cases isPaired
      rename_i same
      simp only [Bool.and_eq_true] at same
      obtain ⟨⟨⟨kinds, nulls⟩, discriminators⟩, lengths⟩ := same
      exact .union kinds (eq_of_beq nulls) discriminators (eq_of_beq lengths)
    case enum.enum =>
      split at isPaired <;> cases isPaired
      rename_i same
      have ⟨bases, values⟩ := Bool.and_eq_true_iff.mp same
      rw [eq_of_beq bases]
      exact .enum _ values
    -- Shapes of different forms are not equal either.
    all_goals
      split at isPaired
      · rename_i same
        cases same
      · cases isPaired
  · intro isPaired
    cases isPaired with
    | record areFurther areFields =>
      rw [ofShapes, areFurther, ofFields_eq_some_iff.mpr areFields]
      rfl
    | «alias» isPaired => exact isPaired
    | union kinds nulls discriminators lengths =>
      simp only [ofShapes, kinds, nulls, discriminators, lengths, BEq.rfl, Bool.and_self, if_true]
    | enum base values => exact if_pos (Bool.and_eq_true_iff.mpr ⟨BEq.rfl, values⟩)

end Equivalence

/-- What follows two names follows from their declarations, unless the names are the same. -/
theorem Registry.namePairs_eq_some_iff {registry : Registry} {left right : String}
    {next : List NamePair} : registry.namePairs (left, right) = some next ↔
      left = right ∧ next = [] ∨ left ≠ right ∧ ∃ first second, registry.get? left = some first ∧
        registry.get? right = some second ∧ Equivalence.PairsShapes first.shape second.shape next := by
  simp only [namePairs, ← Equivalence.ofShapes_eq_some_iff]
  by_cases same : left = right
  · simp [same, eq_comm]
  · cases registry.get? left <;> cases registry.get? right <;> simp [same]

end ApiTypes
