import ApiTypes.Proofs.Registry.PartialEquivalence
import ApiTypes.Proofs.Satisfaction.Types

/-!
Values of equivalent types. The comparison of types follows their names without an end, while a value is
read to an end; by induction on how it is read, it conforms to both of two types or to neither. Which items
of a list count as the same is left open where they may have to be unique.
-/

namespace ApiTypes

/-- What is left open, and besides which lists have no item twice. -/
structure StrictDialect extends Dialect where
  Distinct : List Json → Prop

/-- A value is within constraints, and has no item twice if its items have to be unique. -/
structure StrictDialect.Within (dialect : StrictDialect) (constraints : Constraints) (value : Json) :
    Prop where
  admits : dialect.Admits constraints value
  distinct : constraints.uniqueItems = true → ∀ items, value = .list items → dialect.Distinct items

/-- A value conforms to a type, where names stand for shapes and unique items are told apart. -/
inductive StrictDialect.Conforms (dialect : StrictDialect) (shapes : String → Option Shape) :
    TypeExpr → Json → Prop
  | null {type : TypeExpr} (nullable : type.nullable = true) : Conforms dialect shapes type .null
  | primitive {base format nullable constraints value}
    (isPrimitive : dialect.IsPrimitive base format value)
    (within : dialect.Within constraints value) :
    Conforms dialect shapes ⟨.primitive base format, nullable, constraints⟩ value
  | array {type nullable constraints items} (within : dialect.Within constraints (.list items))
    (each : ∀ item ∈ items, Conforms dialect shapes type item) :
    Conforms dialect shapes ⟨.array type, nullable, constraints⟩ (.list items)
  | map {type nullable constraints members}
    (each : ∀ name value, (name, value) ∈ members → Conforms dialect shapes type value) :
    Conforms dialect shapes ⟨.map type, nullable, constraints⟩ (.object members)
  | any {nullable constraints value} : Conforms dialect shapes ⟨.any, nullable, constraints⟩ value
  | onlyNull {nullable constraints} : Conforms dialect shapes ⟨.null, nullable, constraints⟩ .null
  | record {name nullable constraints shape members}
    (declared : shapes name = some (.record shape))
    (fields : ∀ field ∈ shape.fields, ∀ value, (field.key, value) ∈ members →
      Conforms dialect shapes field.type value)
    (required : ∀ field ∈ shape.fields, field.required = true →
      ∃ value, (field.key, value) ∈ members)
    (further : ∀ type ∈ shape.additional, ∀ name value, (name, value) ∈ members →
      (∀ field ∈ shape.fields, field.key ≠ name) → Conforms dialect shapes type value) :
    Conforms dialect shapes ⟨.named name, nullable, constraints⟩ (.object members)
  | enum {name nullable constraints base values data value}
    (declared : shapes name = some (.enum base values)) (isListed : data ∈ values)
    (stands : data.json? = some value) :
    Conforms dialect shapes ⟨.named name, nullable, constraints⟩ value
  | unionNull {name nullable constraints shape} (declared : shapes name = some (.union shape))
    (admitsNull : shape.nullable = true) :
    Conforms dialect shapes ⟨.named name, nullable, constraints⟩ .null
  | unionMember {name nullable constraints shape member value}
    (declared : shapes name = some (.union shape)) (isMember : member ∈ shape.members)
    (inside : Conforms dialect shapes (.named member) value) :
    Conforms dialect shapes ⟨.named name, nullable, constraints⟩ value
  | alias {name nullable constraints target value} (declared : shapes name = some (.alias target))
    (inside : Conforms dialect shapes target value) :
    Conforms dialect shapes ⟨.named name, nullable, constraints⟩ value

namespace StrictDialect

variable {dialect : StrictDialect} {shapes : String → Option Shape}

/-- Any value is within no constraints. -/
@[simp] theorem within_empty (value : Json) : dialect.Within {} value :=
  ⟨dialect.admits_empty value, nofun⟩

/-- Null is within all constraints. -/
theorem within_null (constraints : Constraints) : dialect.Within constraints .null :=
  ⟨trivial, fun _ _ => nofun⟩

/-- Equal constraints admit the same values, and ask alike for unique items. -/
theorem within_of_beq {left right : Constraints} (same : (left == right) = true) {value : Json}
    (within : dialect.Within right value) : dialect.Within left value := by
  have alike : left.uniqueItems = right.uniqueItems := by
    simp only [BEq.beq, instBEqConstraints.beq, Bool.and_eq_true] at same
    exact eq_of_beq same.2.2.2.2.2.2.2.2
  exact ⟨Dialect.admits_of_beq same within.admits, fun unique => within.distinct (alike ▸ unique)⟩

/-- A value conforms to a type if that admits null, or by its kind and within its constraints. -/
theorem conforms_iff (type : TypeExpr) (value : Json) : dialect.Conforms shapes type value ↔
    type.nullable = true ∧ value = .null ∨ dialect.Conforms shapes ⟨type.kind, false, {}⟩ value ∧
      (type.kind.isBounded = true → dialect.Within type.constraints value) := by
  obtain ⟨kind, nullable, constraints⟩ := type
  constructor
  · intro conforms
    cases conforms with
    | null isNullable => exact .inl ⟨isNullable, rfl⟩
    -- Only primitives and arrays have constraints that are looked at.
    | primitive isPrimitive within =>
      exact .inr ⟨.primitive isPrimitive (within_empty value), fun _ => within⟩
    | array within each => exact .inr ⟨.array (within_empty _) each, fun _ => within⟩
    | map each => exact .inr ⟨.map each, nofun⟩
    | any => exact .inr ⟨.any, nofun⟩
    | onlyNull => exact .inr ⟨.onlyNull, nofun⟩
    | record declared fields required further =>
      exact .inr ⟨.record declared fields required further, nofun⟩
    | enum declared isListed stands => exact .inr ⟨.enum declared isListed stands, nofun⟩
    | unionNull declared admitsNull => exact .inr ⟨.unionNull declared admitsNull, nofun⟩
    | unionMember declared isMember inside =>
      exact .inr ⟨.unionMember declared isMember inside, nofun⟩
    | «alias» declared inside => exact .inr ⟨.alias declared inside, nofun⟩
  · rintro (⟨isNullable, rfl⟩ | ⟨conforms, within⟩)
    · exact .null isNullable
    · cases conforms with
      | null isNullable => cases isNullable
      | primitive isPrimitive => exact .primitive isPrimitive (within rfl)
      | array _ each => exact .array (within rfl) each
      | map each => exact .map each
      | any => exact .any
      | onlyNull => exact .onlyNull
      | record declared fields required further => exact .record declared fields required further
      | enum declared isListed stands => exact .enum declared isListed stands
      | unionNull declared admitsNull => exact .unionNull declared admitsNull
      | unionMember declared isMember inside => exact .unionMember declared isMember inside
      | «alias» declared inside => exact .alias declared inside

/-- Every value that conforms to a type satisfies it. -/
theorem Conforms.accepts {type : TypeExpr} {value : Json}
    (conforms : dialect.Conforms shapes type value) : dialect.Accepts shapes type value := by
  -- What is asked besides is forgotten at every primitive and every list.
  induction conforms with
  | null isNullable => exact .null isNullable
  | primitive isPrimitive within => exact .primitive isPrimitive within.admits
  | array within _ each => exact .array within.admits each
  | map _ each => exact .map each
  | any => exact .any
  | onlyNull => exact .onlyNull
  | record declared _ required _ fields further => exact .record declared fields required further
  | enum declared isListed stands => exact .enum declared isListed stands
  | unionNull declared admitsNull => exact .unionNull declared admitsNull
  | unionMember declared isMember _ inside => exact .unionMember declared isMember inside
  | «alias» declared _ inside => exact .alias declared inside

/-- Where no list has an item twice, a value conforms to every type that it satisfies. -/
theorem conforms_of_accepts (distinct : ∀ items, dialect.Distinct items) {type : TypeExpr} {value : Json}
    (accepts : dialect.Accepts shapes type value) : dialect.Conforms shapes type value := by
  -- Nothing is asked besides where every list counts as one without an item twice.
  induction accepts with
  | null isNullable => exact .null isNullable
  | primitive isPrimitive within =>
    exact .primitive isPrimitive ⟨within, fun _ items _ => distinct items⟩
  | array within _ each => exact .array ⟨within, fun _ items _ => distinct items⟩ each
  | map _ each => exact .map each
  | any => exact .any
  | onlyNull => exact .onlyNull
  | record declared _ required _ fields further => exact .record declared fields required further
  | enum declared isListed stands => exact .enum declared isListed stands
  | unionNull declared admitsNull => exact .unionNull declared admitsNull
  | unionMember declared isMember _ inside => exact .unionMember declared isMember inside
  | «alias» declared _ inside => exact .alias declared inside

end StrictDialect

variable {shapes : String → Option Shape} {registry : Registry}

/-- Equivalent fields have the same names and are required alike, and their types are equivalent. -/
theorem Equivalence.PairsFields.exists_of_mem {left right : List Field} {pairs : List NamePair}
    (arePaired : PairsFields left right pairs) :
    (∀ field ∈ left, ∃ other ∈ right, other.key = field.key ∧ other.required = field.required ∧
      ∃ more, ofTypes field.type other.type = some more ∧ more ⊆ pairs) ∧
    ∀ other ∈ right, ∃ field ∈ left, field.key = other.key := by
  -- Fields are paired by their position, and what the pairs of one field come to is among all pairs.
  induction arePaired with
  | nil => simp
  | @cons first second _ _ types _ names flags areTypes _ ih =>
    obtain ⟨forward, backward⟩ := ih
    have sameKey : first.key = second.key := congrArg CasedName.given names
    simp only [List.forall_mem_cons, List.exists_mem_cons_iff]
    refine ⟨⟨.inl ⟨sameKey.symm, flags.symm, types, areTypes, List.subset_append_left _ _⟩,
      fun field isField => .inr ?_⟩, .inl sameKey, fun other isOther => .inr (backward other isOther)⟩
    obtain ⟨other, isOther, key, required, more, isMore, inside⟩ := forward field isField
    exact ⟨other, isOther, key, required, more, isMore,
      List.Subset.trans inside (List.subset_append_right _ _)⟩

/-- A type that is given is equivalent to one that is given as well. -/
theorem Equivalence.exists_of_ofOptions {left right : Option TypeExpr} {pairs : List NamePair}
    (isPaired : ofOptions left right = some pairs) {type : TypeExpr} (isLeft : type ∈ left) :
    ∃ other ∈ right, ofTypes type other = some pairs := by
  cases isLeft
  cases right with
  | none => cases isPaired
  | some other => exact ⟨other, rfl, isPaired⟩

/-- A type that is equivalent to a name is a name, of which the declaration is equivalent if it differs. -/
theorem Registry.cases_of_named (kept : ∀ name declaration, registry.get? name = some declaration →
      shapes name = some declaration.shape)
    {left : TypeExpr} {name : String} {nullable : Bool} {constraints : Constraints}
    {pairs : List NamePair}
    (isPaired : Equivalence.ofTypes left ⟨.named name, nullable, constraints⟩ = some pairs)
    (alike : ∀ pair ∈ pairs, registry.Alike pair) {shape : Shape} (declared : shapes name = some shape) :
    left.kind = .named name ∨ ∃ other target next, left.kind = .named other ∧
      shapes other = some target ∧ Equivalence.PairsShapes target shape next ∧
        ∀ pair ∈ next, registry.Alike pair := by
  obtain ⟨leftKind, _, _⟩ := left
  obtain ⟨_, _, kinds⟩ := Equivalence.ofTypes_eq_some_iff.mp isPaired
  cases kinds with
  | named other =>
    -- What follows the pair is there, as the names are alike.
    obtain ⟨next, follows, inside⟩ := (alike _ (List.mem_singleton_self _)).next
    rcases namePairs_eq_some_iff.mp follows with ⟨rfl, _⟩ | ⟨_, first, second, isFirst, isSecond, shapes⟩
    · exact .inl rfl
    · cases (kept _ _ isSecond).symm.trans declared
      exact .inr ⟨other, _, next, rfl, kept _ _ isFirst, shapes, inside⟩

namespace StrictDialect

variable {dialect : StrictDialect}
  (kept : ∀ name declaration, registry.get? name = some declaration →
    shapes name = some declaration.shape)

include kept

/-- A value that conforms to a type conforms to every type that is equivalent to it. -/
theorem conforms_of_alike {left right : TypeExpr} {value : Json}
    (conforms : dialect.Conforms shapes right value) {pairs : List NamePair}
    (isPaired : Equivalence.ofTypes left right = some pairs)
    (alike : ∀ pair ∈ pairs, registry.Alike pair) : dialect.Conforms shapes left value := by
  -- The induction is on how the value is read by the one type. Where that is a name, the other type is
  -- the same name, or one whose declaration has the same form, and reading goes on in both.
  induction conforms generalizing left pairs with
  | null nullable =>
    exact .null ((Equivalence.ofTypes_eq_some_iff.mp isPaired).1.trans nullable)
  | primitive isPrimitive within =>
    obtain ⟨kind, nullable, constraints⟩ := left
    obtain ⟨_, same, kinds⟩ := Equivalence.ofTypes_eq_some_iff.mp isPaired
    cases kinds
    exact .primitive isPrimitive (within_of_beq same within)
  | array within _ ih =>
    obtain ⟨kind, nullable, constraints⟩ := left
    obtain ⟨_, same, kinds⟩ := Equivalence.ofTypes_eq_some_iff.mp isPaired
    cases kinds with
    | array items =>
      exact .array (within_of_beq same within) fun item isItem => ih item isItem items alike
  | map _ ih =>
    obtain ⟨kind, nullable, constraints⟩ := left
    obtain ⟨_, _, kinds⟩ := Equivalence.ofTypes_eq_some_iff.mp isPaired
    cases kinds with
    | map values =>
      exact .map fun name value isMember => ih name value isMember values alike
  | any =>
    obtain ⟨kind, nullable, constraints⟩ := left
    obtain ⟨_, _, kinds⟩ := Equivalence.ofTypes_eq_some_iff.mp isPaired
    cases kinds
    exact .any
  | onlyNull =>
    obtain ⟨kind, nullable, constraints⟩ := left
    obtain ⟨_, _, kinds⟩ := Equivalence.ofTypes_eq_some_iff.mp isPaired
    cases kinds
    exact .onlyNull
  | @record _ _ _ shape _ declared fields required further fieldsIh furtherIh =>
    obtain ⟨kind, nullable, constraints⟩ := left
    rcases Registry.cases_of_named kept isPaired alike declared with rfl |
      ⟨_, target, next, rfl, isTarget, shapes, inside⟩
    · exact .record declared fields required further
    cases shapes with
    | record areFurther areFields =>
      have ⟨forward, backward⟩ := areFields.exists_of_mem
      refine .record isTarget (fun field isField value isMember => ?_)
        (fun field isField isRequired => ?_) fun type isType name value isMember isOther => ?_
      · obtain ⟨other, isRight, sameKey, _, more, types, inFields⟩ := forward field isField
        exact fieldsIh other isRight value (sameKey ▸ isMember) types fun pair isPair =>
          inside pair (List.mem_append_right _ (inFields isPair))
      · obtain ⟨other, isRight, sameKey, sameFlag, _⟩ := forward field isField
        exact sameKey ▸ required other isRight (sameFlag.trans isRequired)
      · -- A name that no field of the one record has, no field of the other has either.
        have isFurther : ∀ other ∈ shape.fields, other.key ≠ name := fun other isRight sameName => by
          obtain ⟨field, isField, sameKey⟩ := backward other isRight
          exact isOther field isField (sameKey.trans sameName)
        obtain ⟨extra, isExtra, types⟩ := Equivalence.exists_of_ofOptions areFurther isType
        exact furtherIh extra isExtra name value isMember isFurther types fun pair isPair =>
          inside pair (List.mem_append_left _ isPair)
  | enum declared isListed stands =>
    obtain ⟨kind, nullable, constraints⟩ := left
    rcases Registry.cases_of_named kept isPaired alike declared with rfl |
      ⟨_, target, next, rfl, isTarget, shapes, inside⟩
    · exact .enum declared isListed stands
    cases shapes with
    | enum base sameValues =>
      obtain ⟨data, isData, same⟩ := (Dialect.exists_of_list_beq sameValues).1 _ isListed
      exact .enum isTarget isData ((Data.json?_of_same same).trans stands)
  | unionNull declared admitsNull =>
    obtain ⟨kind, nullable, constraints⟩ := left
    rcases Registry.cases_of_named kept isPaired alike declared with rfl |
      ⟨_, target, next, rfl, isTarget, shapes, inside⟩
    · exact .unionNull declared admitsNull
    cases shapes with
    | union _ nulls => exact .unionNull isTarget (nulls.trans admitsNull)
  | unionMember declared isMember member ih =>
    obtain ⟨kind, nullable, constraints⟩ := left
    rcases Registry.cases_of_named kept isPaired alike declared with rfl |
      ⟨_, target, next, rfl, isTarget, shapes, inside⟩
    · exact .unionMember declared isMember member
    cases shapes with
    | union _ _ _ lengths =>
      obtain ⟨other, isOther, isPair⟩ := Equivalence.exists_mem_zip lengths isMember
      -- The member stands in the same position, and the two names follow the pair of the unions.
      refine .unionMember isTarget isOther (ih rfl ?_)
      simpa using inside _ isPair
  | «alias» declared target ih =>
    obtain ⟨kind, nullable, constraints⟩ := left
    rcases Registry.cases_of_named kept isPaired alike declared with rfl |
      ⟨_, target, next, rfl, isTarget, shapes, inside⟩
    · exact .alias declared target
    cases shapes with
    | «alias» types =>
      exact .alias isTarget (ih types inside)

/-- Values conform alike to kinds that are equivalent. -/
theorem conforms_iff_of_equivalent {left right : TypeKind TypeExpr}
    (equivalent : registry.equivalent left right = true) (value : Json) :
    dialect.Conforms shapes ⟨left, false, {}⟩ value ↔
      dialect.Conforms shapes ⟨right, false, {}⟩ value := by
  -- Equivalence is symmetric, so it is enough to go in one direction.
  have transfer {left right : TypeKind TypeExpr} (equivalent : registry.equivalent left right = true)
      (conforms : dialect.Conforms shapes ⟨right, false, {}⟩ value) :
      dialect.Conforms shapes ⟨left, false, {}⟩ value := by
    obtain ⟨pairs, isPaired, alike⟩ := (Registry.equivalent_iff left right).mp equivalent
    rw [← Equivalence.ofTypes_of_kinds] at isPaired
    exact conforms_of_alike kept conforms isPaired alike
  exact ⟨transfer (registry.isEquivalence_equivalent.symm equivalent), transfer equivalent⟩

end StrictDialect

namespace Dialect

/-- Of types that agree, a value satisfies the first if it satisfies the second. -/
theorem accepts_of_agrees {dialect : Dialect}
    (kept : ∀ name declaration, registry.get? name = some declaration →
      shapes name = some declaration.shape)
    {left right : TypeKind TypeExpr} (agrees : Intersection.Agrees registry.equivalent left right)
    {value : Json} (accepts : dialect.Accepts shapes ⟨right, false, {}⟩ value) :
    dialect.Accepts shapes ⟨left, false, {}⟩ value := by
  have transfer (equivalent : registry.equivalent left right = true) :
      dialect.Accepts shapes ⟨left, false, {}⟩ value := by
    -- The same values conform to both, however unique items are told apart.
    let strict : StrictDialect := ⟨dialect, fun _ => True⟩
    have conforms : strict.Conforms shapes ⟨right, false, {}⟩ value :=
      StrictDialect.conforms_of_accepts (fun _ => trivial) accepts
    exact ((StrictDialect.conforms_iff_of_equivalent kept equivalent value).mpr conforms).accepts
  rcases agrees with rfl | same | equivalent
  · exact accepts
  · exact transfer (registry.isEquivalence_equivalent.of_beq same)
  · exact transfer equivalent

end Dialect

/-- Types that agree are bounded alike. -/
theorem TypeKind.isBounded_of_agrees {left right : TypeKind TypeExpr}
    (agrees : Intersection.Agrees registry.equivalent left right) :
    left.isBounded = right.isBounded := by
  have alike (equivalent : registry.equivalent left right = true) : left.isBounded = right.isBounded := by
    obtain ⟨_, isPaired, _⟩ := (Registry.equivalent_iff left right).mp equivalent
    cases Equivalence.ofKinds_eq_some_iff.mp isPaired <;> rfl
  rcases agrees with rfl | same | equivalent
  · rfl
  · exact alike (registry.isEquivalence_equivalent.of_beq same)
  · exact alike equivalent

end ApiTypes
