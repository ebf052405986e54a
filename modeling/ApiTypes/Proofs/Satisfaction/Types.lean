import ApiTypes.Proofs.Registry.Equivalence
import ApiTypes.Proofs.Satisfaction.Value

/-!
When a value satisfies a type or a declaration. Equal types and equal declarations are satisfied by the
same values.
-/

namespace ApiTypes

/-- A value satisfies a type, where names stand for shapes. -/
inductive Dialect.Accepts (dialect : Dialect) (shapes : String → Option Shape) :
    TypeExpr → Json → Prop
  | null {type : TypeExpr} (nullable : type.nullable = true) : Accepts dialect shapes type .null
  | primitive {base format nullable constraints value}
    (isPrimitive : dialect.IsPrimitive base format value)
    (within : dialect.Admits constraints value) :
    Accepts dialect shapes ⟨.primitive base format, nullable, constraints⟩ value
  | array {type nullable constraints items} (within : dialect.Admits constraints (.list items))
    (each : ∀ item ∈ items, Accepts dialect shapes type item) :
    Accepts dialect shapes ⟨.array type, nullable, constraints⟩ (.list items)
  | map {type nullable constraints members}
    (each : ∀ name value, (name, value) ∈ members → Accepts dialect shapes type value) :
    Accepts dialect shapes ⟨.map type, nullable, constraints⟩ (.object members)
  | any {nullable constraints value} : Accepts dialect shapes ⟨.any, nullable, constraints⟩ value
  | onlyNull {nullable constraints} : Accepts dialect shapes ⟨.null, nullable, constraints⟩ .null
  | record {name nullable constraints shape members}
    (declared : shapes name = some (.record shape))
    (fields : ∀ field ∈ shape.fields, ∀ value, (field.key, value) ∈ members →
      Accepts dialect shapes field.type value)
    (required : ∀ field ∈ shape.fields, field.required = true →
      ∃ value, (field.key, value) ∈ members)
    (further : ∀ type ∈ shape.additional, ∀ name value, (name, value) ∈ members →
      (∀ field ∈ shape.fields, field.key ≠ name) → Accepts dialect shapes type value) :
    Accepts dialect shapes ⟨.named name, nullable, constraints⟩ (.object members)
  | enum {name nullable constraints base values data value}
    (declared : shapes name = some (.enum base values)) (isListed : data ∈ values)
    (stands : data.json? = some value) :
    Accepts dialect shapes ⟨.named name, nullable, constraints⟩ value
  | unionNull {name nullable constraints shape} (declared : shapes name = some (.union shape))
    (admitsNull : shape.nullable = true) :
    Accepts dialect shapes ⟨.named name, nullable, constraints⟩ .null
  | unionMember {name nullable constraints shape member value}
    (declared : shapes name = some (.union shape)) (isMember : member ∈ shape.members)
    (inside : Accepts dialect shapes (.named member) value) :
    Accepts dialect shapes ⟨.named name, nullable, constraints⟩ value
  | alias {name nullable constraints target value} (declared : shapes name = some (.alias target))
    (inside : Accepts dialect shapes target value) :
    Accepts dialect shapes ⟨.named name, nullable, constraints⟩ value

/-- Equal fields have the same name, equal types, and are required alike. -/
theorem Field.parts_of_beq {left right : Field} (same : (left == right) = true) :
    left.key = right.key ∧ (left.type == right.type) = true ∧ left.required = right.required := by
  simp only [BEq.beq, instBEqField.beq, Bool.and_eq_true] at same
  obtain ⟨name, type, required, _⟩ := same
  have sameName : left.name = right.name := eq_of_beq name
  exact ⟨congrArg CasedName.given sameName, type, eq_of_beq required⟩

/-- Whether the constraints of a type are those of its values. -/
def TypeKind.isBounded {τ : Type} : TypeKind τ → Bool
  | .primitive .. | .array _ => true
  | .map _ | .named _ | .any | .null => false

namespace Dialect

variable {dialect : Dialect} {shapes : String → Option Shape}

variable (dialect shapes) in
/-- A value satisfies the members of an object type. -/
structure AcceptsRecord (shape : RecordShape) (members : List (String × Json)) : Prop where
  fields : ∀ field ∈ shape.fields, ∀ value, (field.key, value) ∈ members →
    dialect.Accepts shapes field.type value
  required : ∀ field ∈ shape.fields, field.required = true → ∃ value, (field.key, value) ∈ members
  further : ∀ type ∈ shape.additional, ∀ name value, (name, value) ∈ members →
    (∀ field ∈ shape.fields, field.key ≠ name) → dialect.Accepts shapes type value

variable (dialect shapes) in
/-- A value satisfies what a declaration declares. -/
def AcceptsShape : Shape → Json → Prop
  | .record shape, value =>
    ∃ members, value = .object members ∧ dialect.AcceptsRecord shapes shape members
  | .enum _ values, value => ∃ data ∈ values, data.json? = some value
  | .union shape, value => shape.nullable = true ∧ value = .null ∨
    ∃ member ∈ shape.members, dialect.Accepts shapes (.named member) value
  | .alias target, value => dialect.Accepts shapes target value

/-- A value satisfies a type if that admits null, or by its kind and within its constraints. -/
theorem accepts_iff (kind : TypeKind TypeExpr) (nullable : Bool) (constraints : Constraints)
    (value : Json) : dialect.Accepts shapes ⟨kind, nullable, constraints⟩ value ↔
      nullable = true ∧ value = .null ∨ dialect.Accepts shapes ⟨kind, false, {}⟩ value ∧
        (kind.isBounded = true → dialect.Admits constraints value) := by
  -- Null apart, only primitives and arrays look at constraints, so others go over as they are.
  constructor
  · intro accepts
    cases accepts with
    | null isNullable => exact .inl ⟨isNullable, rfl⟩
    | primitive isPrimitive within =>
      exact .inr ⟨.primitive isPrimitive (dialect.admits_empty value), fun _ => within⟩
    | array within each => exact .inr ⟨.array (dialect.admits_empty _) each, fun _ => within⟩
    | map each => exact .inr ⟨.map each, nofun⟩
    | any => exact .inr ⟨.any, nofun⟩
    | onlyNull => exact .inr ⟨.onlyNull, nofun⟩
    | record declared fields required further =>
      exact .inr ⟨.record declared fields required further, nofun⟩
    | enum declared isListed stands => exact .inr ⟨.enum declared isListed stands, nofun⟩
    | unionNull declared admitsNull => exact .inr ⟨.unionNull declared admitsNull, nofun⟩
    | unionMember declared isMember inside =>
      exact .inr ⟨.unionMember declared isMember inside, nofun⟩
    | «alias» declared inside => exact .inr ⟨.alias declared inside, nofun⟩
  · rintro (⟨isNullable, rfl⟩ | ⟨accepts, within⟩)
    · exact .null isNullable
    · cases accepts with
      | null isNullable => cases isNullable
      | primitive isPrimitive => exact .primitive isPrimitive (within rfl)
      | array _ each => exact .array (within rfl) each
      | map each => exact .map each
      | any => exact .any
      | onlyNull => exact .onlyNull
      | record declared fields required further => exact .record declared fields required further
      | enum declared isListed stands => exact .enum declared isListed stands
      | unionNull declared admitsNull => exact .unionNull declared admitsNull
      | unionMember declared isMember inside => exact .unionMember declared isMember inside
      | «alias» declared inside => exact .alias declared inside

/-- A value satisfies a type that admits null where another one does, if it satisfies that. -/
theorem Accepts.withNullable {type : TypeExpr} {value : Json} {nullable : Bool}
    (accepts : dialect.Accepts shapes type value) (more : type.nullable = true → nullable = true) :
    dialect.Accepts shapes (type.withNullable nullable) value := by
  obtain ⟨kind, isNullable, constraints⟩ := type
  rw [TypeExpr.withNullable, accepts_iff]
  exact ((accepts_iff _ _ _ _).mp accepts).imp_left fun ⟨admitsNull, isNull⟩ =>
    ⟨more admitsNull, isNull⟩

/-- A value that satisfies a type satisfies it without null as well, unless it is null. -/
theorem Accepts.of_nullable {type : TypeExpr} {value : Json}
    (accepts : dialect.Accepts shapes type value) :
    type.nullable = true ∧ value = .null ∨
      dialect.Accepts shapes (type.withNullable false) value := by
  obtain ⟨kind, isNullable, constraints⟩ := type
  rw [TypeExpr.withNullable, accepts_iff]
  exact ((accepts_iff _ _ _ _).mp accepts).imp_right .inr

/-- A value satisfies a name if it satisfies what that stands for. -/
theorem accepts_named_iff (name : String) (value : Json) :
    dialect.Accepts shapes (.named name) value ↔
      ∃ shape, shapes name = some shape ∧ dialect.AcceptsShape shapes shape value := by
  -- A name has no constraints and does not admit null by itself.
  constructor
  · intro accepts
    rw [TypeExpr.named] at accepts
    cases accepts with
    | null isNullable => cases isNullable
    | record declared fields required further =>
      exact ⟨_, declared, _, rfl, fields, required, further⟩
    | enum declared isListed stands => exact ⟨_, declared, _, isListed, stands⟩
    | unionNull declared admitsNull => exact ⟨_, declared, .inl ⟨admitsNull, rfl⟩⟩
    | unionMember declared isMember inside => exact ⟨_, declared, .inr ⟨_, isMember, inside⟩⟩
    | «alias» declared inside => exact ⟨_, declared, inside⟩
  · rintro ⟨shape, declared, accepts⟩
    cases shape with
    | record shape =>
      obtain ⟨members, rfl, inside⟩ := accepts
      exact .record declared inside.fields inside.required inside.further
    | enum =>
      obtain ⟨data, isListed, stands⟩ := accepts
      exact .enum declared isListed stands
    | union =>
      rcases accepts with ⟨admitsNull, rfl⟩ | ⟨member, isMember, inside⟩
      · exact .unionNull declared admitsNull
      · exact .unionMember declared isMember inside
    | «alias» => exact .alias declared accepts

/-- A value that satisfies a type that is only a name satisfies that name, unless it is null. -/
theorem Accepts.of_name? {type : TypeExpr} {name : String} {value : Json}
    (accepts : dialect.Accepts shapes type value) (isName : type.name? = some name) :
    type.nullable = true ∧ value = .null ∨ dialect.Accepts shapes (.named name) value := by
  obtain ⟨kind, isNullable, constraints⟩ := type
  cases kind <;> simp only [TypeExpr.name?, reduceCtorEq, Option.some.injEq] at isName
  subst isName
  exact ((accepts_iff _ _ _ _).mp accepts).imp_right And.left

/-- A value satisfies every type that is equal to one that it satisfies. -/
theorem accepts_of_beq : ∀ {left right : TypeExpr} {value : Json}, (left == right) = true →
    dialect.Accepts shapes right value → dialect.Accepts shapes left value
  | ⟨leftKind, leftNullable, leftConstraints⟩, ⟨rightKind, rightNullable, rightConstraints⟩, value,
    same, accepts => by
    -- The recursion is on the types, since equality of types is; names are not followed.
    have parts : TypeExpr.same _ _ = true := same
    simp only [TypeExpr.same, Bool.and_eq_true] at parts
    obtain ⟨⟨kinds, nullables⟩, constraints⟩ := parts
    rw [accepts_iff] at accepts ⊢
    refine accepts.imp (And.imp_left (eq_of_beq nullables).trans) ?_
    rintro ⟨inside, within⟩
    cases leftKind <;> cases rightKind <;>
      simp only [TypeExpr.sameKind, Bool.false_eq_true, Bool.and_eq_true] at kinds
    case primitive.primitive =>
      cases eq_of_beq kinds.1
      cases eq_of_beq kinds.2
      exact ⟨inside, fun isBounded => admits_of_beq constraints (within isBounded)⟩
    case array.array =>
      cases inside with
      | null isNullable => cases isNullable
      | array _ each =>
        exact ⟨.array (dialect.admits_empty _) fun item isItem => accepts_of_beq kinds (each item isItem),
          fun isBounded => admits_of_beq constraints (within isBounded)⟩
    case map.map =>
      cases inside with
      | null isNullable => cases isNullable
      | map each =>
        exact ⟨.map fun name value isMember => accepts_of_beq kinds (each name value isMember),
          fun isBounded => by cases isBounded⟩
    case named.named =>
      cases eq_of_beq kinds
      exact ⟨inside, fun isBounded => by cases isBounded⟩
    case any.any => exact ⟨inside, fun isBounded => by cases isBounded⟩
    case null.null => exact ⟨inside, fun isBounded => by cases isBounded⟩

/-- Every item of a list is equal to one of an equal list. -/
theorem exists_of_list_beq {α : Type} [BEq α] {left right : List α} (same : (left == right) = true) :
    (∀ item ∈ right, ∃ other ∈ left, (other == item) = true) ∧
      ∀ item ∈ left, ∃ other ∈ right, (item == other) = true := by
  -- Equal lists are as long as each other, and items in the same position are equal.
  induction left generalizing right with
  | nil => cases right with
    | nil => simp
    | cons => cases same
  | cons first rest ih => cases right with
    | nil => cases same
    | cons second others =>
      obtain ⟨sameFirst, sameRest⟩ := Bool.and_eq_true_iff.mp same
      obtain ⟨backward, forward⟩ := ih sameRest
      constructor
      · intro item isItem
        rcases List.mem_cons.mp isItem with rfl | isLater
        · exact ⟨first, List.mem_cons_self, sameFirst⟩
        · obtain ⟨other, isOther, alike⟩ := backward item isLater
          exact ⟨other, List.mem_cons_of_mem _ isOther, alike⟩
      · intro item isItem
        rcases List.mem_cons.mp isItem with rfl | isLater
        · exact ⟨second, List.mem_cons_self, sameFirst⟩
        · obtain ⟨other, isOther, alike⟩ := forward item isLater
          exact ⟨other, List.mem_cons_of_mem _ isOther, alike⟩

/-- A value satisfies every shape that is equal to one that it satisfies. -/
theorem acceptsShape_of_beq {left right : Shape} {value : Json} (same : (left == right) = true)
    (accepts : dialect.AcceptsShape shapes right value) : dialect.AcceptsShape shapes left value := by
  -- Fields go from the one record to the other by their position, and back: what is further in the one is
  -- so in the other.
  cases left <;> cases right
  case record.record left right =>
    have ⟨fields, additional⟩ := Bool.and_eq_true_iff.mp
      (show (left.fields == right.fields && left.additional == right.additional) = true from same)
    obtain ⟨backward, forward⟩ := exists_of_list_beq fields
    obtain ⟨members, isObject, inside⟩ := accepts
    refine ⟨members, isObject, fun field isField value isMember => ?_,
      fun field isField isRequired => ?_, fun type isType name value isMember isOther => ?_⟩
    · obtain ⟨other, isRight, alike⟩ := forward field isField
      have ⟨sameKey, sameType, _⟩ := Field.parts_of_beq alike
      exact accepts_of_beq sameType (inside.fields other isRight value (sameKey ▸ isMember))
    · obtain ⟨other, isRight, alike⟩ := forward field isField
      have ⟨sameKey, _, sameRequired⟩ := Field.parts_of_beq alike
      exact sameKey ▸ inside.required other isRight (sameRequired ▸ isRequired)
    · obtain ⟨other, isRight, alike⟩ := exists_of_option_beq additional isType
      refine accepts_of_beq alike (inside.further other isRight name value isMember ?_)
      intro field isField isKey
      obtain ⟨found, isFound, alikeField⟩ := backward field isField
      exact isOther found isFound ((Field.parts_of_beq alikeField).1.trans isKey)
  case union.union left right =>
    have parts : (left == right) = true := same
    simp only [BEq.beq, instBEqUnionShape.beq, Bool.and_eq_true] at parts
    obtain ⟨_, members, nullable, _⟩ := parts
    have sameMembers : left.members = right.members := eq_of_beq members
    have sameNullable : left.nullable = right.nullable := eq_of_beq nullable
    simpa only [AcceptsShape, sameMembers, sameNullable] using accepts
  case alias.alias left right => exact accepts_of_beq same accepts
  case enum.enum =>
    obtain ⟨data, isListed, stands⟩ := accepts
    obtain ⟨_, values⟩ := Bool.and_eq_true_iff.mp same
    obtain ⟨other, isOther, alike⟩ := (exists_of_list_beq values).1 data isListed
    exact ⟨other, isOther, (Data.json?_of_same alike).trans stands⟩
  all_goals cases same

end Dialect

end ApiTypes
