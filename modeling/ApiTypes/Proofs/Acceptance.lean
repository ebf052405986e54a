import ApiTypes.Proofs.AliasCycles
import ApiTypes.Proofs.Satisfaction.Walk
import ApiTypes.Proofs.Invariance

/-!
The values of component schemas and of the declarations that are emitted for them. Every value of a schema
satisfies its declaration as long as no multiple of divisors has to be rounded.
-/

namespace ApiTypes

/-- What is emitted under a name. -/
def Output.shape? (output : Output) (name : String) : Option Shape :=
  (output.declaration? name).map Declaration.shape

/-- Names that stand for the same may take each other's place, with all that is reached from them. -/
theorem Dialect.Accepts.transfer {dialect : Dialect} {first second : String → Option Shape}
    {reached : String → Prop}
    (agrees : ∀ name, reached name → first name = second name ∧
      ∀ shape, first name = some shape → ∀ mentioned ∈ shape.mentions, reached mentioned)
    {type : TypeExpr} {value : Json} (accepts : dialect.Accepts first type value)
    (inside : ∀ name ∈ type.mentions, reached name) : dialect.Accepts second type value := by
  -- Names that are reached lead to names that are reached, so reading a value never leaves the
  -- agreement.
  have ofName {name : String} {nullable : Bool} {constraints : Constraints}
      (inside : ∀ mentioned ∈ TypeExpr.mentions ⟨.named name, nullable, constraints⟩,
        reached mentioned) : reached name := inside name (by simp [TypeExpr.mentions])
  induction accepts with
  | null nullable => exact .null nullable
  | primitive isPrimitive within => exact .primitive isPrimitive within
  | array within _ ih =>
    simp only [TypeExpr.mentions] at inside
    exact .array within fun item isItem => ih item isItem inside
  | map _ ih =>
    simp only [TypeExpr.mentions] at inside
    exact .map fun name value isMember => ih name value isMember inside
  | any => exact .any
  | onlyNull => exact .onlyNull
  | record declared _ required _ fieldsIh furtherIh =>
    obtain ⟨same, beyond⟩ := agrees _ (ofName inside)
    have mentioned := beyond _ declared
    rw [Shape.mentions_record] at mentioned
    refine .record (same ▸ declared) (fun field isField value isMember => ?_) required
      fun type isType name value isMember isOther => ?_
    · exact fieldsIh field isField value isMember fun name isMentioned =>
        mentioned name (List.mem_flatMap.mpr ⟨field.type,
          List.mem_append_left _ (List.mem_map_of_mem isField), isMentioned⟩)
    · exact furtherIh type isType name value isMember isOther fun name isMentioned =>
        mentioned name (List.mem_flatMap.mpr ⟨type,
          List.mem_append_right _ (Option.mem_toList.mpr isType), isMentioned⟩)
  | enum declared isListed stands =>
    obtain ⟨same, _⟩ := agrees _ (ofName inside)
    exact .enum (same ▸ declared) isListed stands
  | unionNull declared admitsNull =>
    obtain ⟨same, _⟩ := agrees _ (ofName inside)
    exact .unionNull (same ▸ declared) admitsNull
  | unionMember declared isMember _ ih =>
    obtain ⟨same, beyond⟩ := agrees _ (ofName inside)
    refine .unionMember (same ▸ declared) isMember (ih fun name isMentioned => ?_)
    rw [TypeExpr.mentions_named, List.mem_singleton] at isMentioned
    subst isMentioned
    exact beyond _ declared _ (List.mem_append_left _ isMember)
  | «alias» declared _ ih =>
    obtain ⟨same, beyond⟩ := agrees _ (ofName inside)
    exact .alias (same ▸ declared) (ih (beyond _ declared))

namespace Document

variable (document : Document) (config : Config)

/-- What values of the schemas of a document are judged by, before anything is left out. -/
def judgement (dialect : Dialect) (limit : Nat) : Judgement :=
  ⟨document.context config, (document.unfinished config).registry, dialect, limit⟩

/-- Whatever is declared for a component schema has come of its node. -/
theorem isFair_judgement {dialect : Dialect} {limit : Nat} (positive : 0 < limit)
    (small : limit ≤ 2 ^ 53)
    (fits : ∀ node, (document.context config).model.Contains node →
      node.traits.constraints.Fits limit)
    (strict : ∀ node, (document.context config).model.Contains node →
      node.traits.nullable = true → node.kind.isNull = true) :
    (document.judgement config dialect limit).IsFair := by
  refine ⟨positive, small, fits, strict, fun schema name declaration emitted stands => ?_⟩
  have registered := ((document.consistent_unfinished config).registered_of_declared emitted stands).2
  cases document.records_unfinished config registered with
  | walk found isName isRecorded consistent yields kept =>
    cases emitted.symm.trans isName
    cases stands.symm.trans isRecorded
    exact ⟨_, _, _, _, found, consistent, yields, kept⟩

/-- What is emitted under a name is what was declared, and all that it mentions is emitted too. -/
theorem shape?_of_emitted {dialect : Dialect} {limit : Nat} {name : String}
    (isEmitted : ∃ declaration ∈ (document.synthesize config).declarations, declaration.name = name) :
    (document.judgement config dialect limit).shapes name = (document.synthesize config).shape? name ∧
      ∀ shape, (document.judgement config dialect limit).shapes name = some shape →
        ∀ mentioned ∈ shape.mentions,
          ∃ declaration ∈ (document.synthesize config).declarations, declaration.name = mentioned := by
  -- The output has the declaration of a name just once.
  obtain ⟨declaration, isEmitted, rfl⟩ := isEmitted
  have stands := ((document.mem_declarations_synthesize_iff config declaration).mp isEmitted).1
  have shapes : (document.judgement config dialect limit).shapes declaration.name =
      some declaration.shape := by
    rw [Judgement.shapes, judgement, stands]
    rfl
  refine ⟨?_, fun shape isShape mentioned isMentioned => ?_⟩
  · cases found : (document.synthesize config).declaration? declaration.name with
    | none =>
      have absent := List.find?_eq_none.mp found declaration isEmitted
      simp at absent
    | some other =>
      have isOther := List.mem_of_find?_eq_some found
      have sameName : other.name = declaration.name := by simpa using List.find?_some found
      rw [shapes, Output.shape?, found, document.emitted_unique config isOther isEmitted sameName]
      rfl
  · cases shapes.symm.trans isShape
    exact document.exists_emitted_of_mention config isEmitted isMentioned

/--
A value that satisfies the node of an emitted component schema satisfies its declaration, if no node but
that of null admits null, and the whole numbers among the divisors divide a number up to `2 ^ 53`.
-/
theorem accepts_of_satisfies (dialect : Dialect) (limit : Nat) (positive : 0 < limit)
    (small : limit ≤ 2 ^ 53)
    (fits : ∀ node, (document.context config).model.Contains node →
      node.traits.constraints.Fits limit)
    (strict : ∀ node, (document.context config).model.Contains node →
      node.traits.nullable = true → node.kind.isNull = true)
    (schema name : String) (node : SchemaNode) (value : Json)
    (emitted : (document.synthesize config).names.get? schema = some name)
    (found : (document.context config).model.node? schema = some node)
    (satisfies : dialect.Satisfies (document.context config).model node value) :
    dialect.Accepts (document.synthesize config).shape? (.named name) value := by
  have fair : (document.judgement config dialect limit).IsFair :=
    document.isFair_judgement config positive small fits strict
  have ⟨isName, _⟩ := (document.names_synthesize_get?_iff config schema name).mp emitted
  have accepts := fair.accepts found isName (fair.preserves (.schema found) satisfies).declared
  refine accepts.transfer (fun _ => document.shape?_of_emitted config) fun mentioned isMentioned => ?_
  rw [TypeExpr.mentions_named, List.mem_singleton] at isMentioned
  subst isMentioned
  obtain ⟨declaration, isNamed, _, isDeclared⟩ := document.declarations_of_emitted config emitted
  have isEmitted := List.mem_of_mem_filter (isDeclared ▸ List.mem_singleton_self declaration)
  exact ⟨declaration, isEmitted, isNamed⟩

/-- An integer that some number divides. -/
def multiplesNode (divisor : Nat) : SchemaNode :=
  ⟨.primitive .integer none, { constraints := { multipleOf := some (Binary64.ofInt divisor) } }⟩

/-- A record with such an integer. -/
def multiplesRecord (divisor : Nat) : SchemaNode :=
  ⟨.object [⟨"p", false, multiplesNode divisor⟩] none, {}⟩

/-- An intersection of two records that share an integer, with a divisor each. -/
def twoDivisors (first second : Nat) : Document :=
  let record (divisor : Nat) : Schema := .inline {
    type := some (.single .object)
    properties := ⟨[("p", .inline {
      type := some (.single .integer)
      multipleOf := some (Binary64.ofInt divisor) })]⟩ }
  { openapi := "3.1.0"
    info := { title := "Two divisors", version := "1" }
    components := some { schemas := ⟨[("A", .inline { allOf := [record first, record second] })]⟩ } }

/-- The intersection. -/
def divisorsNode (first second : Nat) : SchemaNode :=
  ⟨.composed .allOf [multiplesRecord first, multiplesRecord second] none, {}⟩

/-- The model of such an intersection alone. -/
def divisorsModel (first second : Nat) : SchemaModel := ⟨.v31, ⟨[("A", divisorsNode first second)]⟩⟩

/-- The model of such an intersection contains it, its members, and their integers. -/
theorem contains_divisorsModel {first second : Nat} {node : SchemaNode}
    (contained : (divisorsModel first second).Contains node) :
    node ∈ [divisorsNode first second, multiplesRecord first, multiplesRecord second,
      multiplesNode first, multiplesNode second] := by
  -- The model has five nodes, and each step inside one of them leads to another one.
  simp only [List.mem_cons, List.not_mem_nil, or_false]
  induction contained with
  | schema found =>
    cases List.mem_singleton.mp (Table.mem_entries_of_get? found)
    exact .inl rfl
  | items _ ih | value _ ih => rcases ih with h | h | h | h | h <;> cases h
  | property _ isListed ih =>
    rcases ih with h | h | h | h | h <;> cases h <;> cases List.mem_singleton.mp isListed
    · exact .inr (.inr (.inr (.inl rfl)))
    · exact .inr (.inr (.inr (.inr rfl)))
  | additional _ isValue ih => rcases ih with h | h | h | h | h <;> cases h <;> cases isValue
  | member _ isMember ih =>
    rcases ih with h | h | h | h | h <;> cases h
    simp only [List.mem_cons, List.not_mem_nil, or_false] at isMember
    exact .inr (isMember.imp_right .inl)

/-- A record whose integer both numbers divide satisfies the intersection. -/
theorem satisfies_divisorsNode (dialect : Dialect) (model : SchemaModel) {first second number : Nat}
    (firstPositive : 0 < first) (firstSmall : first ≤ 2 ^ 53) (secondPositive : 0 < second)
    (secondSmall : second ≤ 2 ^ 53) (byFirst : first ∣ number) (bySecond : second ∣ number) :
    dialect.Satisfies model (divisorsNode first second) (.object [("p", .number number)]) := by
  -- The value has to satisfy both members, which differ in their divisors alone.
  have record {divisor : Nat} (positive : 0 < divisor) (small : divisor ≤ 2 ^ 53)
      (divides : divisor ∣ number) :
      dialect.Satisfies model (multiplesRecord divisor) (.object [("p", .number number)]) := by
    refine .object ?_ (by simp) (by simp) (by simp)
    intro property isListed value isMember
    cases List.mem_singleton.mp isListed
    cases List.mem_singleton.mp isMember
    obtain ⟨factor, isMultiple⟩ := divides
    refine .primitive ⟨by simp, rfl⟩ ⟨by simp, by simp, fun found isDivisor => ?_⟩
    · cases isDivisor
      refine ⟨divisor, Binary64.rational?_ofInt positive small, factor, ?_⟩
      rw [isMultiple]
      push_cast
      ring
  refine .every fun member isMember => ?_
  simp only [List.mem_cons, List.not_mem_nil, or_false] at isMember
  rcases isMember with rfl | rfl
  · exact record firstPositive firstSmall byFirst
  · exact record secondPositive secondSmall bySecond

/-- No node of such an intersection admits null. -/
theorem not_nullable_of_contains {first second : Nat} {node : SchemaNode}
    (contained : (divisorsModel first second).Contains node) : node.traits.nullable = false := by
  have cases := contains_divisorsModel contained
  simp only [List.mem_cons, List.not_mem_nil, or_false] at cases
  rcases cases with rfl | rfl | rfl | rfl | rfl <;> rfl

/-- The divisors of such an intersection fit a number that both divide. -/
theorem fits_of_contains {first second limit : Nat} (firstPositive : 0 < first)
    (firstSmall : first ≤ 2 ^ 53) (secondPositive : 0 < second) (secondSmall : second ≤ 2 ^ 53)
    (byFirst : first ∣ limit) (bySecond : second ∣ limit) {node : SchemaNode}
    (contained : (divisorsModel first second).Contains node) :
    node.traits.constraints.Fits limit := by
  -- Only the two nodes of numbers have divisors, and these are whole.
  have integer {divisor : Nat} (positive : 0 < divisor) (small : divisor ≤ 2 ^ 53)
      (divides : divisor ∣ limit) : (multiplesNode divisor).traits.constraints.Fits limit := by
    intro found isDivisor natural _ isNatural
    cases isDivisor
    cases Nat.cast_injective
      (Option.some.inj ((Binary64.rational?_ofInt positive small).symm.trans isNatural))
    exact divides
  have cases := contains_divisorsModel contained
  simp only [List.mem_cons, List.not_mem_nil, or_false] at cases
  rcases cases with rfl | rfl | rfl | rfl | rfl
  · exact Constraints.fits_empty limit
  · exact Constraints.fits_empty limit
  · exact Constraints.fits_empty limit
  · exact integer firstPositive firstSmall byFirst
  · exact integer secondPositive secondSmall bySecond

/-- Every text matches, and every value is of any format. -/
def lenient : Dialect := ⟨fun _ _ => True, fun _ _ => True⟩

/-- A multiple of four and of six is also one of the divisor that comes of them. -/
theorem accepts_fourAndSix :
    lenient.Satisfies ((twoDivisors 4 6).context {}).model (divisorsNode 4 6)
        (.object [("p", .number (12 : Nat))]) ∧
      lenient.Accepts ((twoDivisors 4 6).synthesize {}).shape? (.named "A")
        (.object [("p", .number (12 : Nat))]) := by
  -- Twelve is the least common multiple of both divisors.
  have isModel : ((twoDivisors 4 6).context {}).model = divisorsModel 4 6 := by rfl
  have found : ((twoDivisors 4 6).context {}).model.node? "A" = some (divisorsNode 4 6) := by
    rw [isModel]
    rfl
  have satisfies : lenient.Satisfies ((twoDivisors 4 6).context {}).model (divisorsNode 4 6)
      (.object [("p", .number (12 : Nat))]) :=
    satisfies_divisorsNode lenient _ (by decide) (by decide) (by decide) (by decide) (by decide)
      (by decide)
  refine ⟨satisfies, accepts_of_satisfies (twoDivisors 4 6) {} lenient 12 (by decide) (by decide)
    (fun node contained => ?_) (fun node contained isNullable => ?_)
    "A" "A" (divisorsNode 4 6) _ (by decide +kernel) found satisfies⟩
  · rw [isModel] at contained
    exact fits_of_contains (by decide) (by decide) (by decide) (by decide) (by decide) (by decide)
      contained
  · rw [isModel] at contained
    cases (not_nullable_of_contains contained).symm.trans isNullable

/-- What the fields of a record say of the numbers in them. -/
def fieldDivisors : Shape → Option (List (String × Bool × Bool × Option Binary64))
  | .record shape => some (shape.fields.map fun field =>
    (field.key, field.type.nullable, field.type.kind.isBounded, field.type.constraints.multipleOf))
  | .alias _ | .enum _ _ | .union _ => none

/-- The least common multiple of the two divisors is `2 ^ 53 + 1`, which is rounded to `2 ^ 53`. -/
theorem not_accepts_roundedMultiple :
    ¬∀ (document : Document) (config : Config) (dialect : Dialect),
      (∀ node, (document.context config).model.Contains node → node.traits.nullable = true →
        node.kind.isNull = true) →
      ∀ (schema name : String) (node : SchemaNode) (value : Json),
        (document.synthesize config).names.get? schema = some name →
        (document.context config).model.node? schema = some node →
        dialect.Satisfies (document.context config).model node value →
        dialect.Accepts (document.synthesize config).shape? (.named name) value := by
  -- The least common multiple has 54 bits and is odd, so it is rounded to an even number, which does
  -- not divide it.
  intro accepts
  have isModel : ((twoDivisors 3 3002399751580331).context {}).model =
      divisorsModel 3 3002399751580331 := by rfl
  have found : ((twoDivisors 3 3002399751580331).context {}).model.node? "A" =
      some (divisorsNode 3 3002399751580331) := by
    rw [isModel]
    rfl
  have satisfies : lenient.Satisfies ((twoDivisors 3 3002399751580331).context {}).model
      (divisorsNode 3 3002399751580331) (.object [("p", .number (9007199254740993 : Nat))]) :=
    satisfies_divisorsNode lenient _ (by decide) (by decide) (by decide) (by decide) (by decide)
      (by decide)
  have isAccepted := accepts (twoDivisors 3 3002399751580331) {} lenient
    (fun node contained isNullable => by
      rw [isModel] at contained
      cases (not_nullable_of_contains contained).symm.trans isNullable)
    "A" "A" (divisorsNode 3 3002399751580331) _ (by decide +kernel) found satisfies
  have isRounded : (((twoDivisors 3 3002399751580331).synthesize {}).shape? "A").bind fieldDivisors =
      some [("p", false, true, some (Binary64.ofInt (9007199254740992 : Nat)))] := by
    decide +kernel
  obtain ⟨shape, isShape, isRounded⟩ := Option.bind_eq_some_iff.mp isRounded
  obtain ⟨other, isOther, inside⟩ := (Dialect.accepts_named_iff _ _).mp isAccepted
  cases isShape.symm.trans isOther
  cases shape with
  | record shape =>
    obtain ⟨members, isObject, inside⟩ := inside
    cases isObject
    obtain ⟨field, isField, isPart⟩ : ∃ field ∈ shape.fields, (field.key, field.type.nullable,
        field.type.kind.isBounded, field.type.constraints.multipleOf) =
          ("p", false, true, some (Binary64.ofInt (9007199254740992 : Nat))) :=
      List.mem_map.mp (Option.some.inj isRounded ▸ List.mem_singleton_self _)
    simp only [Prod.mk.injEq] at isPart
    obtain ⟨isKey, notNull, isBounded, isDivisor⟩ := isPart
    have isType := inside.fields field isField (.number (9007199254740993 : Nat)) (by simp [isKey])
    obtain ⟨_, ⟨kind, nullable, constraints⟩⟩ := field
    rcases (Dialect.accepts_iff kind nullable constraints _).mp isType with ⟨_, isNull⟩ | ⟨_, within⟩
    · cases isNull
    · obtain ⟨divisor, isValue, factor, isMultiple⟩ := (within isBounded).2.2 _ isDivisor
      cases (Binary64.rational?_ofInt (by decide) (by decide)).symm.trans isValue
      have whole : (9007199254740993 : ℤ) = factor * 9007199254740992 := by exact_mod_cast isMultiple
      omega
  | _ => cases isRounded

end Document

end ApiTypes
