import ApiTypes.Proofs.Declaration
import ApiTypes.Proofs.Registry.PartialEquivalence
import Mathlib.Data.List.Forall2
import Mathlib.Data.Option.Basic

/-!
Types are equivalent exactly if some relation of names matches all that has to be compared, and the
names that are equivalent are the largest such relation. The comparison assumes every pair of names at
most once, so it comes to an end however declarations refer to each other.
-/

namespace ApiTypes

/-- A number equals itself exactly if it is defined. -/
theorem Binary64.beq_self_iff {value : Binary64} : (value == value) = true ↔ value ≠ .nan := by
  refine ⟨fun same isNan => ?_, Binary64.beq_self⟩
  subst isNan
  cases same

/-- A bound that may be absent equals itself only if its number is defined. -/
theorem Bound.ne_nan_of_beq {bound? : Option Bound} (same : (bound? == bound?) = true) :
    .nan ∉ bound?.map Bound.value := by
  intro isNan
  obtain ⟨bound, rfl, undefined⟩ := Option.map_eq_some_iff.mp isNan
  have parts : (bound.value == bound.value && bound.exclusive == bound.exclusive) = true := same
  exact Binary64.beq_self_iff.mp (Bool.and_eq_true_iff.mp parts).1 undefined

/-- Constraints equal themselves exactly if their numbers are defined. -/
theorem Constraints.beq_self_iff {constraints : Constraints} :
    (constraints == constraints) = true ↔ .nan ∉ constraints.numbers := by
  refine ⟨fun same isNan => ?_, Constraints.beq_self⟩
  unfold BEq.beq instBEqConstraints instBEqConstraints.beq at same
  simp only [Bool.and_eq_true] at same
  simp only [numbers, List.mem_append, Option.mem_toList] at isNan
  rcases isNan with (isLeast | isGreatest) | isDivisor
  · exact Bound.ne_nan_of_beq same.1 isLeast
  · exact Bound.ne_nan_of_beq same.2.1 isGreatest
  · have divisors := same.2.2.1
    rw [Option.mem_def.mp isDivisor] at divisors
    cases divisors

/-- The numbers in the constraints of the types inside a kind. -/
def TypeKind.numbers (kind : TypeKind TypeExpr) : List Binary64 :=
  (⟨kind, false, {}⟩ : TypeExpr).numbers

mutual

/-- Types match if they are alike in what is said besides their kinds, and these match. -/
inductive TypeExpr.Matches (related : String → String → Prop) : TypeExpr → TypeExpr → Prop
  | intro {left right : TypeExpr} (nulls : left.nullable = right.nullable)
    (constraints : (left.constraints == right.constraints) = true)
    (kinds : TypeKind.Matches related left.kind right.kind) : TypeExpr.Matches related left right

/-- Kinds match if they are of one form, and names in the same place are the same or related. -/
inductive TypeKind.Matches (related : String → String → Prop) :
    TypeKind TypeExpr → TypeKind TypeExpr → Prop
  | array {left right : TypeExpr} (items : TypeExpr.Matches related left right) :
    TypeKind.Matches related (.array left) (.array right)
  | map {left right : TypeExpr} (values : TypeExpr.Matches related left right) :
    TypeKind.Matches related (.map left) (.map right)
  | named {left right : String} (names : left = right ∨ related left right) :
    TypeKind.Matches related (.named left) (.named right)
  | primitive (base : PrimitiveBase) (format : Option String) :
    TypeKind.Matches related (.primitive base format) (.primitive base format)
  | any : TypeKind.Matches related .any .any
  | null : TypeKind.Matches related .null .null

end

/-- Fields match if they have one name and are both required or both not, and their types match. -/
structure Field.Matches (related : String → String → Prop) (left right : Field) : Prop where
  names : left.name = right.name
  flags : left.required = right.required
  types : left.type.Matches related right.type

/-- Shapes match if they are of one form and what they consist of matches one by one. -/
inductive Shape.Matches (related : String → String → Prop) : Shape → Shape → Prop
  | record {left right : RecordShape}
    (further : Option.Rel (TypeExpr.Matches related) left.additional right.additional)
    (fields : List.Forall₂ (Field.Matches related) left.fields right.fields) :
    Shape.Matches related (.record left) (.record right)
  | alias {left right : TypeExpr} (types : left.Matches related right) :
    Shape.Matches related (.alias left) (.alias right)
  | union {left right : UnionShape} (kinds : (left.kind == right.kind) = true)
    (nulls : left.nullable = right.nullable)
    (discriminators : (left.discriminator == right.discriminator) = true)
    (members : List.Forall₂ (fun one other => one = other ∨ related one other)
      left.members right.members) :
    Shape.Matches related (.union left) (.union right)
  | enum (base : PrimitiveBase) {left right : List Data} (values : (left == right) = true) :
    Shape.Matches related (.enum base left) (.enum base right)

/-- A relation of names that are declared with shapes that match again. -/
def Registry.IsBisimulation (registry : Registry) (related : String → String → Prop) : Prop :=
  ∀ left right, related left right → ∃ first second, registry.get? left = some first ∧
    registry.get? right = some second ∧ first.shape.Matches related second.shape

namespace Equivalence

variable {related : String → String → Prop}

/-- Pairs of names that are the same or related. -/
def Within (related : String → String → Prop) (pairs : List NamePair) : Prop :=
  ∀ pair ∈ pairs, pair.1 = pair.2 ∨ related pair.1 pair.2

/-- Pairs are related together exactly if they are so apart. -/
theorem within_append_iff {first second : List NamePair} :
    Within related (first ++ second) ↔ Within related first ∧ Within related second :=
  List.forall_mem_append

/-- Types match exactly if the names in them are the same or related. -/
theorem matches_ofTypes_iff : ∀ {left right : TypeExpr}, left.Matches related right ↔
    ∃ pairs, ofTypes left right = some pairs ∧ Within related pairs
  | ⟨leftKind, _, _⟩, ⟨rightKind, _, _⟩ => by
    constructor
    -- Arrays and maps go on with the type inside; a name is the only pair of another type.
    · rintro ⟨nulls, constraints, kinds⟩
      simp only [ofTypes_eq_some_iff]
      cases kinds with
      | array items | map items =>
        obtain ⟨pairs, isPaired, inside⟩ := matches_ofTypes_iff.mp items
        exact ⟨pairs, ⟨nulls, constraints, by constructor; exact isPaired⟩, inside⟩
      | named names => exact ⟨_, ⟨nulls, constraints, .named _ _⟩, by simpa [Within] using names⟩
      | primitive base format => exact ⟨[], ⟨nulls, constraints, .primitive base format⟩, nofun⟩
      | any => exact ⟨[], ⟨nulls, constraints, .any⟩, nofun⟩
      | null => exact ⟨[], ⟨nulls, constraints, .null⟩, nofun⟩
    · rintro ⟨pairs, isPaired, inside⟩
      obtain ⟨nulls, constraints, kinds⟩ := ofTypes_eq_some_iff.mp isPaired
      refine ⟨nulls, constraints, ?_⟩
      cases kinds with
      | array isPaired => exact .array (matches_ofTypes_iff.mpr ⟨pairs, isPaired, inside⟩)
      | map isPaired => exact .map (matches_ofTypes_iff.mpr ⟨pairs, isPaired, inside⟩)
      | named left right => exact .named (inside _ List.mem_cons_self)
      | primitive base format => exact .primitive base format
      | any => exact .any
      | null => exact .null

/-- Kinds match exactly if the names in them are the same or related. -/
theorem matches_ofKinds_iff {left right : TypeKind TypeExpr} : left.Matches related right ↔
    ∃ pairs, ofKinds left right = some pairs ∧ Within related pairs := by
  rw [← ofTypes_of_kinds, ← matches_ofTypes_iff]
  have none : (({} : Constraints) == {}) = true := by decide
  exact ⟨fun kinds => .intro rfl none kinds, fun | .intro _ _ kinds => kinds⟩

/-- Types that may be absent match exactly if the names in them are the same or related. -/
theorem matches_ofOptions_iff {left right : Option TypeExpr} :
    Option.Rel (TypeExpr.Matches related) left right ↔
      ∃ pairs, ofOptions left right = some pairs ∧ Within related pairs := by
  cases left <;> cases right
  case some.some => simp only [Option.rel_some_some, matches_ofTypes_iff, ofOptions]
  case none.none => exact ⟨fun _ => ⟨[], rfl, nofun⟩, fun _ => .none⟩
  all_goals exact ⟨nofun, fun ⟨_, isPaired, _⟩ => by cases isPaired⟩

/-- Lists of fields match exactly if the names in them are the same or related. -/
theorem matches_pairsFields_iff {left right : List Field} :
    List.Forall₂ (Field.Matches related) left right ↔
      ∃ pairs, PairsFields left right pairs ∧ Within related pairs := by
  constructor
  · intro fields
    induction fields with
    | nil => exact ⟨[], .nil, nofun⟩
    | cons first _ ih =>
      obtain ⟨types, areTypes, inside⟩ := matches_ofTypes_iff.mp first.types
      obtain ⟨later, areLater, further⟩ := ih
      exact ⟨_, .cons first.names first.flags areTypes areLater,
        within_append_iff.mpr ⟨inside, further⟩⟩
  · rintro ⟨pairs, arePaired, inside⟩
    induction arePaired with
    | nil => exact .nil
    | cons names flags areTypes _ ih =>
      have ⟨first, rest⟩ := within_append_iff.mp inside
      exact .cons ⟨names, flags, matches_ofTypes_iff.mpr ⟨_, areTypes, first⟩⟩ (ih rest)

/-- Members match exactly if there are as many, and those in one place are the same or related. -/
theorem matches_zip_iff {left right : List String} :
    List.Forall₂ (fun one other => one = other ∨ related one other) left right ↔
      left.length = right.length ∧ Within related (left.zip right) := by
  rw [List.forall₂_iff_zip]
  exact and_congr_right fun _ =>
    ⟨fun inside pair isPair => inside isPair, fun inside _ _ isPair => inside _ isPair⟩

/-- Shapes match exactly if the names in them are the same or related. -/
theorem matches_pairsShapes_iff {left right : Shape} : left.Matches related right ↔
    ∃ pairs, PairsShapes left right pairs ∧ Within related pairs := by
  constructor
  · intro shapes
    cases shapes with
    | record further fields =>
      obtain ⟨others, areOthers, insideOthers⟩ := matches_ofOptions_iff.mp further
      obtain ⟨pairs, arePaired, inside⟩ := matches_pairsFields_iff.mp fields
      exact ⟨_, .record areOthers arePaired, within_append_iff.mpr ⟨insideOthers, inside⟩⟩
    | «alias» types =>
      obtain ⟨pairs, isPaired, inside⟩ := matches_ofTypes_iff.mp types
      exact ⟨pairs, .alias isPaired, inside⟩
    | union kinds nulls discriminators members =>
      have ⟨lengths, inside⟩ := matches_zip_iff.mp members
      exact ⟨_, .union kinds nulls discriminators lengths, inside⟩
    | enum base values => exact ⟨[], .enum base values, nofun⟩
  · rintro ⟨pairs, arePaired, inside⟩
    cases arePaired with
    | record areFurther areFields =>
      have ⟨further, fields⟩ := within_append_iff.mp inside
      exact .record (matches_ofOptions_iff.mpr ⟨_, areFurther, further⟩)
        (matches_pairsFields_iff.mpr ⟨_, areFields, fields⟩)
    | «alias» isPaired => exact .alias (matches_ofTypes_iff.mpr ⟨_, isPaired, inside⟩)
    | union kinds nulls discriminators lengths =>
      exact .union kinds nulls discriminators (matches_zip_iff.mpr ⟨lengths, inside⟩)
    | enum base values => exact .enum base values

/-- A type that shows no difference from itself has no number that is undefined. -/
theorem not_mem_numbers_of_ofTypes : ∀ {type : TypeExpr} {pairs : List NamePair},
    ofTypes type type = some pairs → .nan ∉ type.numbers
  | ⟨kind, nullable, constraints⟩, pairs, isPaired => by
    obtain ⟨-, same, kinds⟩ := ofTypes_eq_some_iff.mp isPaired
    have isDefined := Constraints.beq_self_iff.mp same
    cases kinds with
    | array isPaired | map isPaired =>
      have inside := not_mem_numbers_of_ofTypes isPaired
      simp only [TypeExpr.numbers, List.mem_append, not_or]
      exact ⟨isDefined, inside⟩
    | named | primitive | any | null => exact isDefined

end Equivalence

namespace Registry

variable {registry : Registry}

/--
One step of a comparison: of two names that are not the same and have not been assumed to be equivalent,
that is assumed, and what follows them is compared before the rest. Nothing is left once types differ.
-/
def compareNext (registry : Registry) :
    Option (List NamePair × List NamePair) → Option (List NamePair × List NamePair)
  | none => none
  | some (assumed, []) => some (assumed, [])
  | some (assumed, pair :: waiting) =>
    if pair.1 == pair.2 || assumed.contains pair then some (assumed, waiting)
    else (registry.namePairs pair).map fun next => (pair :: assumed, next ++ waiting)

/-- The pairs of different names. -/
def different (pairs : List NamePair) : List NamePair := pairs.filter fun pair => pair.1 ≠ pair.2

/-- A pair is skipped if its names are the same or are assumed to be equivalent. -/
theorem compareNext_skip {seen waiting : List NamePair} {pair : NamePair}
    (isSeen : pair.1 = pair.2 ∨ pair ∈ seen) :
    registry.compareNext (some (different seen, pair :: waiting)) =
      some (different seen, waiting) := by
  refine if_pos ?_
  rw [Bool.or_eq_true, beq_iff_eq, List.contains_iff_mem]
  by_cases same : pair.1 = pair.2
  · exact .inl same
  · exact .inr (List.mem_filter.mpr ⟨isSeen.resolve_left same, by simpa using same⟩)

/-- A pair of different names is followed unless it has been seen. -/
theorem compareNext_follow {seen waiting : List NamePair} {pair : NamePair}
    (differ : pair.1 ≠ pair.2) (fresh : pair ∉ seen) :
    registry.compareNext (some (different seen, pair :: waiting)) =
      (registry.namePairs pair).map fun next => (different (pair :: seen), next ++ waiting) := by
  have notAssumed : pair ∉ different seen := fun isAssumed => fresh (List.mem_filter.mp isAssumed).1
  have added : different (pair :: seen) = pair :: different seen := by
    simp [different, differ]
  rw [compareNext, if_neg (by simp [differ, notAssumed]), added]

/-- A comparison takes finitely many steps, after which types differ or nothing waits. -/
theorem exists_steps_compareNext (registry : Registry) (seen waiting : List NamePair) :
    ∃ steps, registry.compareNext^[steps] (some (different seen, waiting)) =
      (Search.explore registry.knownPairs registry.namePairs seen waiting).map
        fun found => (different found, []) := by
  -- Every step of the search is one of the comparison, which need not see equal names.
  fun_induction Search.explore registry.knownPairs registry.namePairs seen waiting with
  | case1 seen => exact ⟨0, rfl⟩
  | case2 seen pair rest visited ih =>
    obtain ⟨steps, ends⟩ := ih
    refine ⟨steps + 1, ?_⟩
    rw [Function.iterate_succ_apply, compareNext_skip (.inr (by simpa using visited)), ends]
  | case3 seen pair rest fresh differs =>
    have differ : pair.1 ≠ pair.2 := fun same => by simp [namePairs, same] at differs
    refine ⟨1, ?_⟩
    rw [Function.iterate_one, compareNext_follow differ (by simpa using fresh), differs]
    rfl
  | case4 seen pair rest fresh next follows _ _ ih =>
    obtain ⟨steps, ends⟩ := ih
    refine ⟨steps + 1, ?_⟩
    by_cases same : pair.1 = pair.2
    · have last : next = [] := by simpa [namePairs, same] using follows.symm
      have skipped : different (pair :: seen) = different seen := by simp [different, same]
      rw [last, List.nil_append, skipped] at ends
      rw [Function.iterate_succ_apply, compareNext_skip (.inl same), ends, last, List.nil_append]
    · rw [Function.iterate_succ_apply, compareNext_follow same (by simpa using fresh), follows,
        Option.map_some, ends]
  | case5 seen pair rest fresh next follows unknown ih =>
    obtain ⟨steps, ends⟩ := ih
    refine ⟨steps + 1, ?_⟩
    -- A pair that is not known is followed by something only if its names are the same.
    have same : pair.1 = pair.2 :=
      (pairs_of_settled (.inr ⟨unknown, Option.isSome_of_eq_some follows⟩)).resolve_right
        List.not_mem_nil
    rw [Function.iterate_succ_apply, compareNext_skip (.inl same), ends]

/-- Pairs of different declared names, none of them twice. -/
structure Assumes (registry : Registry) (assumed : List NamePair) : Prop where
  once : assumed.Nodup
  differ : ∀ pair ∈ assumed, pair.1 ≠ pair.2
  declared : ∀ pair ∈ assumed, registry.isDeclared pair.1 = true ∧ registry.isDeclared pair.2 = true

/-- A step assumes another pair of different declared names, or none. -/
theorem Assumes.compareNext {assumed waiting found rest : List NamePair}
    (assumes : registry.Assumes assumed)
    (step : registry.compareNext (some (assumed, waiting)) = some (found, rest)) :
    registry.Assumes found := by
  cases waiting with
  | nil =>
    cases step
    exact assumes
  | cons pair waiting =>
    simp only [Registry.compareNext] at step
    split at step
    · cases step
      exact assumes
    · rename_i fresh
      rw [Bool.or_eq_true, beq_iff_eq, List.contains_iff_mem] at fresh
      obtain ⟨differ, notAssumed⟩ := not_or.mp fresh
      obtain ⟨next, follows, equal⟩ := Option.map_eq_some_iff.mp step
      cases equal
      -- Names that are not the same are followed by something only if both are declared.
      rcases namePairs_eq_some_iff.mp follows with
        ⟨same, -⟩ | ⟨-, first, second, isFirst, isSecond, -⟩
      · exact absurd same differ
      · exact ⟨List.nodup_cons.mpr ⟨notAssumed, assumes.once⟩,
          List.forall_mem_cons.mpr ⟨differ, assumes.differ⟩,
          List.forall_mem_cons.mpr
            ⟨⟨Option.isSome_of_eq_some isFirst, Option.isSome_of_eq_some isSecond⟩,
              assumes.declared⟩⟩

/-- A comparison assumes each pair at most once, and only pairs of different declared names. -/
theorem assumes_iterate_compareNext {start found waiting : List NamePair} {steps : Nat}
    (reached : registry.compareNext^[steps] (some ([], start)) = some (found, waiting)) :
    registry.Assumes found := by
  induction steps generalizing found waiting with
  | zero =>
    cases reached
    exact ⟨.nil, nofun, nofun⟩
  | succ steps ih =>
    rw [Function.iterate_succ_apply'] at reached
    generalize before : registry.compareNext^[steps] (some ([], start)) = state at reached
    match state with
    | none => cases reached
    | some (assumed, others) => exact (ih before).compareNext reached

/-- What is left of a comparison of kinds after a number of steps. -/
def compared (registry : Registry) (left right : TypeKind TypeExpr) (steps : Nat) :
    Option (List NamePair × List NamePair) :=
  registry.compareNext^[steps] ((Equivalence.ofKinds left right).map fun pairs => ([], pairs))

/-- A comparison of kinds ends, either because they differ or with nothing that waits. -/
theorem compared_ends (left right : TypeKind TypeExpr) : ∃ steps,
    registry.compared left right steps = none ∧ registry.equivalent left right = false ∨
      ∃ assumed, registry.compared left right steps = some (assumed, []) ∧
        registry.Assumes assumed ∧ registry.equivalent left right = true := by
  unfold compared equivalent
  cases Equivalence.ofKinds left right with
  | none => exact ⟨0, .inl ⟨rfl, rfl⟩⟩
  | some pairs =>
    obtain ⟨steps, ends⟩ := registry.exists_steps_compareNext [] pairs
    refine ⟨steps, ?_⟩
    have same : registry.compareNext^[steps] (some ([], pairs)) = _ := ends
    simp only [Option.map_some, same]
    cases searched : Search.explore registry.knownPairs registry.namePairs [] pairs with
    | none => exact .inl ⟨rfl, rfl⟩
    | some found =>
      rw [searched] at same
      exact .inr ⟨_, rfl, assumes_iterate_compareNext same, rfl⟩

/-- Names are equivalent exactly if they are alike. -/
theorem equivalent_named_iff (left right : String) :
    registry.equivalent (.named left) (.named right) = true ↔ registry.Alike (left, right) := by
  rw [equivalent_iff]
  constructor
  · rintro ⟨pairs, isPaired, alike⟩
    cases isPaired
    exact alike _ List.mem_cons_self
  · intro alike
    exact ⟨[(left, right)], rfl, by simpa using alike⟩

/-- Different names that are equivalent. -/
def Interchangeable (registry : Registry) (left right : String) : Prop :=
  left ≠ right ∧ registry.equivalent (.named left) (.named right) = true

/-- Pairs of alike names are pairs of names that are the same or interchangeable. -/
theorem within_interchangeable {pairs : List NamePair}
    (alike : ∀ pair ∈ pairs, registry.Alike pair) :
    Equivalence.Within registry.Interchangeable pairs := by
  intro pair isPair
  by_cases same : pair.1 = pair.2
  · exact .inl same
  · exact .inr ⟨same, (equivalent_named_iff _ _).mpr (alike pair isPair)⟩

/-- Interchangeable names are declared, and their shapes match. -/
theorem isBisimulation_interchangeable (registry : Registry) :
    registry.IsBisimulation registry.Interchangeable := by
  rintro left right ⟨differ, equivalent⟩
  obtain ⟨next, follows, inside⟩ := ((equivalent_named_iff _ _).mp equivalent).next
  rcases namePairs_eq_some_iff.mp follows with
    ⟨same, -⟩ | ⟨-, first, second, isFirst, isSecond, shapes⟩
  · exact absurd same differ
  · exact ⟨first, second, isFirst, isSecond,
      Equivalence.matches_pairsShapes_iff.mpr ⟨next, shapes, within_interchangeable inside⟩⟩

/-- Names that are the same or related are alike if related names have shapes that match. -/
theorem IsBisimulation.alike {related : String → String → Prop}
    (closed : registry.IsBisimulation related) {pair : NamePair}
    (isHeld : pair.1 = pair.2 ∨ related pair.1 pair.2) : registry.Alike pair := by
  refine Alike.of_closed (fun pair => pair.1 = pair.2 ∨ related pair.1 pair.2) ?_ isHeld
  rintro ⟨left, right⟩ isHeld
  by_cases same : left = right
  · exact ⟨[], namePairs_eq_some_iff.mpr (.inl ⟨same, rfl⟩), nofun⟩
  · -- Names that are not the same are related, so that what their shapes pair is held again.
    obtain ⟨first, second, isFirst, isSecond, shapes⟩ := closed left right (isHeld.resolve_left same)
    obtain ⟨next, arePaired, inside⟩ := Equivalence.matches_pairsShapes_iff.mp shapes
    exact ⟨next, namePairs_eq_some_iff.mpr
      (.inr ⟨same, first, second, isFirst, isSecond, arePaired⟩), inside⟩

/-- Kinds are equivalent exactly if they match by some relation of names whose shapes match again. -/
theorem equivalent_iff_matches (left right : TypeKind TypeExpr) :
    registry.equivalent left right = true ↔
      ∃ related, registry.IsBisimulation related ∧ left.Matches related right := by
  rw [equivalent_iff]
  constructor
  · rintro ⟨pairs, isPaired, alike⟩
    exact ⟨registry.Interchangeable, registry.isBisimulation_interchangeable,
      Equivalence.matches_ofKinds_iff.mpr ⟨pairs, isPaired, within_interchangeable alike⟩⟩
  · rintro ⟨related, closed, kinds⟩
    obtain ⟨pairs, isPaired, inside⟩ := Equivalence.matches_ofKinds_iff.mp kinds
    exact ⟨pairs, isPaired, fun pair isPair => closed.alike (inside pair isPair)⟩

/-- Kinds that are equivalent stay so when more is declared. -/
theorem equivalent_mono {registry more : Registry}
    (kept : ∀ name declaration, registry.get? name = some declaration →
      more.get? name = some declaration) {left right : TypeKind TypeExpr}
    (equivalent : registry.equivalent left right = true) : more.equivalent left right = true := by
  obtain ⟨related, closed, kinds⟩ := (equivalent_iff_matches left right).mp equivalent
  refine (equivalent_iff_matches left right).mpr ⟨related, fun one other isRelated => ?_, kinds⟩
  obtain ⟨first, second, isFirst, isSecond, shapes⟩ := closed one other isRelated
  exact ⟨first, second, kept _ _ isFirst, kept _ _ isSecond, shapes⟩

/-- A kind is equivalent to itself exactly if it says no number that is undefined. -/
theorem equivalent_self_iff (kind : TypeKind TypeExpr) :
    registry.equivalent kind kind = true ↔ .nan ∉ kind.numbers := by
  constructor
  · intro equivalent
    obtain ⟨pairs, isPaired, -⟩ := (equivalent_iff _ _).mp equivalent
    rw [← Equivalence.ofTypes_of_kinds] at isPaired
    exact Equivalence.not_mem_numbers_of_ofTypes isPaired
  · intro isDefined
    have same : ((⟨kind, false, {}⟩ : TypeExpr) == ⟨kind, false, {}⟩) = true :=
      TypeExpr.same_self isDefined
    exact registry.isEquivalence_equivalent.of_beq (TypeExpr.kind_beq_of_beq same)

/--
Comparing kinds ends, after assuming each pair of different declared names at most once. It finds them
equivalent exactly if they match by some relation of names that are declared with matching shapes, of
which the different names that it finds equivalent are the largest. So it is symmetric and transitive,
and a kind is equivalent to itself exactly if it says no number that is undefined.
-/
theorem equivalent_isLargestBisimulation (registry : Registry) :
    (∀ left right, ∃ steps,
      registry.compared left right steps = none ∧ registry.equivalent left right = false ∨
        ∃ assumed, registry.compared left right steps = some (assumed, []) ∧
          registry.Assumes assumed ∧ registry.equivalent left right = true) ∧
    (∀ left right, registry.equivalent left right = true ↔
      ∃ related, registry.IsBisimulation related ∧ left.Matches related right) ∧
    registry.IsBisimulation registry.Interchangeable ∧
    (∀ related, registry.IsBisimulation related → ∀ left right, related left right →
      left = right ∨ registry.Interchangeable left right) ∧
    (∀ kind, registry.equivalent kind kind = true ↔ .nan ∉ kind.numbers) ∧
    (∀ left right, registry.equivalent left right = true →
      registry.equivalent right left = true) ∧
    (∀ left middle right, registry.equivalent left middle = true →
      registry.equivalent middle right = true → registry.equivalent left right = true) := by
  have laws := registry.isEquivalence_equivalent
  refine ⟨compared_ends, equivalent_iff_matches, registry.isBisimulation_interchangeable, ?_,
    equivalent_self_iff, fun _ _ => laws.symm, fun _ _ _ => laws.trans⟩
  intro related closed left right isRelated
  by_cases same : left = right
  · exact .inl same
  · have alike : registry.Alike (left, right) := closed.alike (.inr isRelated)
    exact .inr ⟨same, (equivalent_named_iff left right).mpr alike⟩

/-- An array of numbers with a minimum that is no number. -/
def boundless : TypeKind TypeExpr :=
  .array ⟨.primitive .number none, false, { minimum := some (.inclusive .nan) }⟩

/-- Equivalence is not reflexive, even where no declaration says a number that is undefined: an array
of numbers whose minimum is no number is not equivalent to itself. -/
theorem not_equivalent_boundless :
    (∀ name declaration, (ofConfig {}).get? name = some declaration →
      .nan ∉ declaration.shape.numbers) ∧
    (ofConfig {}).equivalent boundless boundless = false := by
  refine ⟨nofun, ?_⟩
  rw [← Bool.not_eq_true, equivalent_self_iff, not_not]
  exact List.mem_cons_self

end Registry

end ApiTypes
