import ApiTypes.Proofs.PartialEquivalence
import ApiTypes.Proofs.Registry.Equivalence

/-!
Equivalence of types through their declarations. Like equality by value, it is symmetric and transitive:
what two types have to agree in, each of them has to agree in with a third one.
-/

namespace ApiTypes

/-- Pairs of names in between, each composed of a pair of either list. -/
def Composes (first second pairs : List NamePair) : Prop :=
  ∀ pair ∈ pairs, ∃ middle, (pair.1, middle) ∈ first ∧ (middle, pair.2) ∈ second

/-- Nothing is composed of anything. -/
theorem Composes.nil (first second : List NamePair) : Composes first second [] := nofun

/-- Composed pairs may be put together. -/
theorem Composes.append {first second pairs others more further : List NamePair}
    (composes : Composes first second pairs) (also : Composes others more further) :
    Composes (first ++ others) (second ++ more) (pairs ++ further) := by
  -- Every pair comes from one of the two parts.
  intro pair isPair
  rcases List.mem_append.mp isPair with inPairs | inFurther
  · obtain ⟨middle, isFirst, isSecond⟩ := composes pair inPairs
    exact ⟨middle, List.mem_append_left _ isFirst, List.mem_append_left _ isSecond⟩
  · obtain ⟨middle, isFirst, isSecond⟩ := also pair inFurther
    exact ⟨middle, List.mem_append_right _ isFirst, List.mem_append_right _ isSecond⟩

namespace Equivalence

/-- Types are equivalent the other way round if the names in them are. -/
theorem ofTypes_symm : ∀ {left right : TypeExpr} {pairs : List NamePair},
    ofTypes left right = some pairs → ofTypes right left = some (pairs.map Prod.swap)
  | ⟨leftKind, _, _⟩, ⟨rightKind, _, _⟩, pairs, isPaired => by
    rw [ofTypes_eq_some_iff] at isPaired ⊢
    obtain ⟨nulls, constraints, kinds⟩ := isPaired
    refine ⟨nulls.symm, BEq.symm constraints, ?_⟩
    cases kinds with
    | array isPaired => exact .array (ofTypes_symm isPaired)
    | map isPaired => exact .map (ofTypes_symm isPaired)
    | named left right => exact .named right left
    | primitive base format => exact .primitive base format
    | any => exact .any
    | null => exact .null

/-- A type that is equivalent to one is so to a third one that is equivalent to that. -/
theorem ofTypes_trans : ∀ {left middle right : TypeExpr} {first second : List NamePair},
    ofTypes left middle = some first → ofTypes middle right = some second →
      ∃ pairs, ofTypes left right = some pairs ∧ Composes first second pairs
  | ⟨leftKind, _, _⟩, ⟨middleKind, _, _⟩, ⟨rightKind, _, _⟩, first, second, one, two => by
    simp only [ofTypes_eq_some_iff] at one two ⊢
    obtain ⟨nulls, constraints, one⟩ := one
    obtain ⟨alsoNulls, alsoConstraints, two⟩ := two
    -- The kind in the middle has one form, so that all three have it.
    simp only [nulls.trans alsoNulls, PartialEquivBEq.trans constraints alsoConstraints, true_and]
    cases one with
    | array one =>
      cases two with
      | array two =>
        obtain ⟨pairs, isPaired, composes⟩ := ofTypes_trans one two
        exact ⟨pairs, .array isPaired, composes⟩
    | map one =>
      cases two with
      | map two =>
        obtain ⟨pairs, isPaired, composes⟩ := ofTypes_trans one two
        exact ⟨pairs, .map isPaired, composes⟩
    | named left middle =>
      cases two with
      | named _ right => exact ⟨_, .named left right, by simp [Composes]⟩
    | primitive base format =>
      cases two
      exact ⟨[], .primitive base format, .nil _ _⟩
    | any =>
      cases two
      exact ⟨[], .any, .nil _ _⟩
    | null =>
      cases two
      exact ⟨[], .null, .nil _ _⟩

/-- Kinds are equivalent the other way round if the names in them are. -/
theorem ofKinds_symm {left right : TypeKind TypeExpr} {pairs : List NamePair}
    (isPaired : ofKinds left right = some pairs) :
    ofKinds right left = some (pairs.map Prod.swap) := by
  rw [← ofTypes_of_kinds] at isPaired ⊢
  exact ofTypes_symm isPaired

/-- A kind that is equivalent to one is so to a third one that is equivalent to that. -/
theorem ofKinds_trans {left middle right : TypeKind TypeExpr} {first second : List NamePair}
    (one : ofKinds left middle = some first) (two : ofKinds middle right = some second) :
    ∃ pairs, ofKinds left right = some pairs ∧ Composes first second pairs := by
  rw [← ofTypes_of_kinds] at one two ⊢
  exact ofTypes_trans one two

/-- Fields are equivalent the other way round if the names in them are. -/
theorem PairsFields.symm {left right : List Field} {pairs : List NamePair}
    (arePaired : PairsFields left right pairs) : PairsFields right left (pairs.map Prod.swap) := by
  induction arePaired with
  | nil => exact .nil
  | cons names flags areTypes _ ih =>
    rw [List.map_append]
    exact .cons names.symm flags.symm (ofTypes_symm areTypes) ih

/-- Fields that are equivalent to some are so to those that are equivalent to these. -/
theorem PairsFields.trans {left middle right : List Field} {first second : List NamePair}
    (one : PairsFields left middle first) (two : PairsFields middle right second) :
    ∃ pairs, PairsFields left right pairs ∧ Composes first second pairs := by
  induction one generalizing right second with
  | nil =>
    cases two
    exact ⟨[], .nil, .nil _ _⟩
  | cons names flags areTypes _ ih =>
    cases two with
    | cons alsoNames alsoFlags alsoTypes alsoLater =>
      obtain ⟨pairs, isPaired, composes⟩ := ofTypes_trans areTypes alsoTypes
      obtain ⟨later, areLater, further⟩ := ih alsoLater
      exact ⟨_, .cons (names.trans alsoNames) (flags.trans alsoFlags) isPaired areLater,
        composes.append further⟩

/-- Types that may be absent are equivalent the other way round if the names in them are. -/
theorem ofOptions_symm {left right : Option TypeExpr} {pairs : List NamePair}
    (isPaired : ofOptions left right = some pairs) :
    ofOptions right left = some (pairs.map Prod.swap) := by
  cases left <;> cases right
  case some.some => exact ofTypes_symm isPaired
  case none.none =>
    cases isPaired
    rfl
  all_goals cases isPaired

/-- A type that may be absent is equivalent to a third one if both are so to one in between. -/
theorem ofOptions_trans {left middle right : Option TypeExpr} {first second : List NamePair}
    (one : ofOptions left middle = some first) (two : ofOptions middle right = some second) :
    ∃ pairs, ofOptions left right = some pairs ∧ Composes first second pairs := by
  cases left <;> cases middle <;> cases right
  case some.some.some => exact ofTypes_trans one two
  case none.none.none => exact ⟨[], rfl, .nil _ _⟩
  all_goals first | cases one; done | cases two

/-- Shapes are equivalent the other way round if the names in them are. -/
theorem PairsShapes.symm {left right : Shape} {pairs : List NamePair}
    (arePaired : PairsShapes left right pairs) : PairsShapes right left (pairs.map Prod.swap) := by
  cases arePaired with
  | record areFurther areFields =>
    rw [List.map_append]
    exact .record (ofOptions_symm areFurther) areFields.symm
  | «alias» isPaired => exact .alias (ofTypes_symm isPaired)
  | union kinds nulls discriminators lengths =>
    rw [List.zip_swap]
    exact .union (BEq.symm kinds) nulls.symm (BEq.symm discriminators) lengths.symm
  | enum base values => exact .enum base (BEq.symm values)

/-- Members in the same positions are equivalent to third ones through those in between. -/
theorem composes_zip : ∀ {left middle right : List String}, left.length = middle.length →
    Composes (left.zip middle) (middle.zip right) (left.zip right)
  | [], _, _, _ => by simp [Composes]
  | _ :: _, _ :: _, [], _ => by simp [Composes]
  | first :: rest, second :: others, third :: more, lengths => by
    -- Names in one position are composed by the name in that position between them.
    have later : Composes (rest.zip others) (others.zip more) (rest.zip more) :=
      composes_zip (Nat.succ.inj lengths)
    have head : Composes [(first, second)] [(second, third)] [(first, third)] := by simp [Composes]
    exact head.append later

/-- A shape that is equivalent to one is so to a third one that is equivalent to that. -/
theorem PairsShapes.trans {left middle right : Shape} {first second : List NamePair}
    (one : PairsShapes left middle first) (two : PairsShapes middle right second) :
    ∃ pairs, PairsShapes left right pairs ∧ Composes first second pairs := by
  cases one with
  | record areFurther areFields =>
    cases two with
    | record alsoFurther alsoFields =>
      obtain ⟨pairs, isPaired, composes⟩ := ofOptions_trans areFurther alsoFurther
      obtain ⟨others, areOthers, also⟩ := areFields.trans alsoFields
      exact ⟨_, .record isPaired areOthers, composes.append also⟩
  | «alias» one =>
    cases two with
    | «alias» two =>
      obtain ⟨pairs, isPaired, composes⟩ := ofTypes_trans one two
      exact ⟨pairs, .alias isPaired, composes⟩
  | union kinds nulls discriminators lengths =>
    cases two with
    | union alsoKinds alsoNulls alsoDiscriminators alsoLengths =>
      exact ⟨_, .union (PartialEquivBEq.trans kinds alsoKinds) (nulls.trans alsoNulls)
        (PartialEquivBEq.trans discriminators alsoDiscriminators) (lengths.trans alsoLengths),
        composes_zip lengths⟩
  | enum base values =>
    cases two with
    | enum _ alsoValues => exact ⟨[], .enum base (PartialEquivBEq.trans values alsoValues), .nil _ _⟩

/-- Equal types are equivalent, as the names in them are the same. -/
theorem ofTypes_of_beq : ∀ {left right : TypeExpr}, (left == right) = true →
    ∃ pairs, ofTypes left right = some pairs ∧ ∀ pair ∈ pairs, pair.1 = pair.2
  | ⟨leftKind, _, _⟩, ⟨rightKind, _, _⟩, equal => by
    have parts : TypeExpr.same _ _ = true := equal
    simp only [TypeExpr.same, Bool.and_eq_true] at parts
    rw [ofTypes, if_pos (Bool.and_eq_true_iff.mpr ⟨parts.1.2, parts.2⟩)]
    have kinds := parts.1.1
    simp only [ofKinds_eq_some_iff]
    cases leftKind <;> cases rightKind <;> simp only [TypeExpr.sameKind, Bool.false_eq_true] at kinds
    case array.array left right =>
      have same : (left == right) = true := kinds
      obtain ⟨pairs, isPaired, inside⟩ := ofTypes_of_beq same
      exact ⟨pairs, .array isPaired, inside⟩
    case map.map left right =>
      have same : (left == right) = true := kinds
      obtain ⟨pairs, isPaired, inside⟩ := ofTypes_of_beq same
      exact ⟨pairs, .map isPaired, inside⟩
    case named.named left right => exact ⟨_, .named left right, by simpa using kinds⟩
    case primitive.primitive base format _ _ =>
      obtain ⟨bases, formats⟩ := Bool.and_eq_true_iff.mp kinds
      cases eq_of_beq bases
      cases eq_of_beq formats
      exact ⟨[], .primitive base format, by simp⟩
    case any.any => exact ⟨[], .any, by simp⟩
    case null.null => exact ⟨[], .null, by simp⟩

/-- Equal kinds are equivalent, as the names in them are the same. -/
theorem ofKinds_of_beq {left right : TypeKind TypeExpr} (same : (left == right) = true) :
    ∃ pairs, ofKinds left right = some pairs ∧ ∀ pair ∈ pairs, pair.1 = pair.2 := by
  have kinds : TypeExpr.sameKind left right = true := same
  have types : ((⟨left, false, {}⟩ : TypeExpr) == ⟨right, false, {}⟩) = true := by
    change TypeExpr.same _ _ = true
    simp only [TypeExpr.same, kinds, Bool.true_and]
    decide
  rw [← ofTypes_of_kinds]
  exact ofTypes_of_beq types

end Equivalence

namespace Registry

variable {registry : Registry}

/-- Names are taken to be equivalent: no pair to which they lead has declarations that differ. -/
def Alike (registry : Registry) (pair : NamePair) : Prop :=
  ∀ other, Relation.ReflTransGen (Search.Leads registry.namePairs) pair other →
    (registry.namePairs other).isSome = true

/-- Kinds are equivalent if they are of one form and the names in them are alike. -/
theorem equivalent_iff (left right : TypeKind TypeExpr) : registry.equivalent left right = true ↔
    ∃ pairs, Equivalence.ofKinds left right = some pairs ∧ ∀ pair ∈ pairs, registry.Alike pair := by
  unfold equivalent
  split
  · rename_i differ
    simp [differ]
  · rename_i pairs isPaired
    rw [Search.isSome_explore_iff fun _ _ => namePairs_of_unknown]
    simp [isPaired, Alike]

/-- The names are alike in all pairs of a property that is passed on to the pairs that follow. -/
theorem Alike.of_closed (holds : NamePair → Prop)
    (closed : ∀ pair, holds pair → ∃ next, registry.namePairs pair = some next ∧
      ∀ other ∈ next, holds other) {pair : NamePair} (isHeld : holds pair) : registry.Alike pair := by
  intro other leads
  -- The property holds of every pair that is reached, and such a pair is followed by something.
  have reached : holds other := by
    induction leads with
    | refl => exact isHeld
    | tail _ step ih =>
      obtain ⟨more, isNext, isMember⟩ := step
      obtain ⟨next, follows, held⟩ := closed _ ih
      cases isNext.symm.trans follows
      exact held _ isMember
  obtain ⟨next, follows, _⟩ := closed other reached
  exact Option.isSome_of_eq_some follows

/-- The names to which alike names lead are alike. -/
theorem Alike.next {pair : NamePair} (alike : registry.Alike pair) :
    ∃ next, registry.namePairs pair = some next ∧ ∀ other ∈ next, registry.Alike other := by
  obtain ⟨next, follows⟩ := Option.isSome_iff_exists.mp (alike pair .refl)
  exact ⟨next, follows, fun other isNext last leads => alike last (.head ⟨next, follows, isNext⟩ leads)⟩

/-- A name is like itself. -/
theorem alike_self (name : String) : registry.Alike (name, name) :=
  Alike.of_closed (fun pair => pair.1 = pair.2)
    (fun pair same => ⟨[], by simp [namePairs, same], nofun⟩) rfl

/-- Names that follow two follow them the other way round as well. -/
theorem namePairs_swap {left right : String} {next : List NamePair}
    (follows : registry.namePairs (left, right) = some next) :
    registry.namePairs (right, left) = some (next.map Prod.swap) := by
  rw [namePairs_eq_some_iff] at follows ⊢
  rcases follows with ⟨same, rfl⟩ | ⟨different, first, second, isFirst, isSecond, shapes⟩
  · exact .inl ⟨same.symm, rfl⟩
  · exact .inr ⟨different.symm, second, first, isSecond, isFirst, shapes.symm⟩

/-- Names are alike in either order. -/
theorem Alike.symm {pair : NamePair} (alike : registry.Alike pair) : registry.Alike pair.swap := by
  refine Alike.of_closed (fun pair => registry.Alike pair.swap) (fun pair swapped => ?_)
    (by simpa using alike)
  obtain ⟨next, follows, inside⟩ := swapped.next
  refine ⟨next.map Prod.swap, by simpa using namePairs_swap follows, fun other isNext => ?_⟩
  obtain ⟨source, isSource, rfl⟩ := List.mem_map.mp isNext
  simpa using inside source isSource

/-- What follows two names follows from what they and a name in between are followed by. -/
theorem namePairs_trans {left middle right : String} {first second : List NamePair}
    (one : registry.namePairs (left, middle) = some first)
    (two : registry.namePairs (middle, right) = some second) :
    ∃ next, registry.namePairs (left, right) = some next ∧
      (next = [] ∨ left = middle ∧ next = second ∨ middle = right ∧ next = first ∨
        Composes first second next) := by
  -- Between equal names the other pair decides, and equal names at the ends lead to nothing.
  rcases namePairs_eq_some_iff.mp one with ⟨rfl, _⟩ | ⟨_, source, between, isSource, isBetween, shapes⟩
  · exact ⟨second, two, .inr (.inl ⟨rfl, rfl⟩)⟩
  rcases namePairs_eq_some_iff.mp two with ⟨rfl, _⟩ | ⟨_, also, target, isAlso, isTarget, alsoShapes⟩
  · exact ⟨first, one, .inr (.inr (.inl ⟨rfl, rfl⟩))⟩
  by_cases same : left = right
  · exact ⟨[], namePairs_eq_some_iff.mpr (.inl ⟨same, rfl⟩), .inl rfl⟩
  · cases isBetween.symm.trans isAlso
    obtain ⟨next, arePaired, composes⟩ := shapes.trans alsoShapes
    exact ⟨next, namePairs_eq_some_iff.mpr
      (.inr ⟨same, source, target, isSource, isTarget, arePaired⟩), .inr (.inr (.inr composes))⟩

/-- Names are alike if both are like a name in between. -/
theorem Alike.trans {left middle right : String} (one : registry.Alike (left, middle))
    (two : registry.Alike (middle, right)) : registry.Alike (left, right) := by
  -- What follows two names with an alike name in between has alike names in between again.
  refine Alike.of_closed (fun pair => ∃ middle,
    registry.Alike (pair.1, middle) ∧ registry.Alike (middle, pair.2)) ?_ ⟨middle, one, two⟩
  rintro ⟨left, right⟩ ⟨middle, one, two⟩
  obtain ⟨first, isFirst, insideFirst⟩ := one.next
  obtain ⟨second, isSecond, insideSecond⟩ := two.next
  obtain ⟨next, follows, cases⟩ := namePairs_trans isFirst isSecond
  refine ⟨next, follows, fun pair isNext => ?_⟩
  rcases cases with rfl | ⟨-, rfl⟩ | ⟨-, rfl⟩ | composes
  · cases isNext
  · exact ⟨pair.1, alike_self _, insideSecond pair isNext⟩
  · exact ⟨pair.2, insideFirst pair isNext, alike_self _⟩
  · obtain ⟨between, inFirst, inSecond⟩ := composes pair isNext
    exact ⟨between, insideFirst _ inFirst, insideSecond _ inSecond⟩

/-- Types that are compared through their declarations are so by an equivalence. -/
theorem isEquivalence_equivalent (registry : Registry) :
    TypeKind.IsEquivalence registry.equivalent where
  -- The pairs of names below two types decide; each law is that of the relation between names.
  of_beq same := by
    obtain ⟨pairs, isPaired, inside⟩ := Equivalence.ofKinds_of_beq same
    refine (equivalent_iff _ _).mpr ⟨pairs, isPaired, fun pair isPair => ?_⟩
    obtain ⟨name, other⟩ := pair
    cases inside _ isPair
    exact alike_self name
  symm equivalent := by
    obtain ⟨pairs, isPaired, inside⟩ := (equivalent_iff _ _).mp equivalent
    refine (equivalent_iff _ _).mpr ⟨_, Equivalence.ofKinds_symm isPaired, fun pair isPair => ?_⟩
    obtain ⟨source, isSource, rfl⟩ := List.mem_map.mp isPair
    exact (inside source isSource).symm
  trans one two := by
    obtain ⟨first, isFirst, insideFirst⟩ := (equivalent_iff _ _).mp one
    obtain ⟨second, isSecond, insideSecond⟩ := (equivalent_iff _ _).mp two
    obtain ⟨pairs, isPaired, composes⟩ := Equivalence.ofKinds_trans isFirst isSecond
    refine (equivalent_iff _ _).mpr ⟨pairs, isPaired, fun pair isPair => ?_⟩
    obtain ⟨middle, inFirst, inSecond⟩ := composes pair isPair
    exact (insideFirst _ inFirst).trans (insideSecond _ inSecond)

end Registry

end ApiTypes
