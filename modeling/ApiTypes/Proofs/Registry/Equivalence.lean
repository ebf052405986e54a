import ApiTypes.Proofs.Composition
import ApiTypes.Proofs.Registry.Pairing
import ApiTypes.Proofs.Registry.Support

/-!
Equal shapes mention the same types. Equivalent types are supported together: whatever stands for a
supported type is supported by declarations that show no difference.
-/

namespace ApiTypes

/-- Types of equal kinds mention the same types. -/
theorem TypeExpr.mentions_eq_of_kind_beq : ∀ {left right : TypeExpr},
    (left.kind == right.kind) = true → left.mentions = right.mentions
  | ⟨leftKind, _, _⟩, ⟨rightKind, _, _⟩, same => by
    have sameKind : TypeExpr.sameKind leftKind rightKind = true := same
    cases leftKind <;> cases rightKind <;>
      simp only [TypeExpr.sameKind, Bool.false_eq_true] at sameKind <;> simp only [mentions]
    case array.array => exact mentions_eq_of_kind_beq (kind_beq_of_beq sameKind)
    case map.map => exact mentions_eq_of_kind_beq (kind_beq_of_beq sameKind)
    case named.named => rw [eq_of_beq sameKind]

/-- Equal types mention the same types. -/
theorem TypeExpr.mentions_eq_of_beq {left right : TypeExpr} (same : (left == right) = true) :
    left.mentions = right.mentions := mentions_eq_of_kind_beq (kind_beq_of_beq same)

/-- Every value of a table is one of a table that includes it. -/
theorem Table.mem_values_of_isIncludedIn {table other : Table String}
    (included : table.isIncludedIn other = true) {value : String}
    (isValue : value ∈ table.values) : value ∈ other.values := by
  -- The value stands under the same key in the table that includes the other.
  obtain ⟨entry, isEntry, rfl⟩ := List.mem_map.mp isValue
  have found := List.all_eq_true.mp included entry isEntry
  obtain ⟨same, found, isSame⟩ := (Option.any_eq_true _ _).mp found
  rw [eq_of_beq isSame]
  exact List.mem_map_of_mem (Table.mem_entries_of_get? found)

/-- The names to which a discriminator leads, if there is one. -/
def mappedNames (discriminator : Option Discriminator) : List String :=
  (discriminator.map fun found => found.mapping.values).getD []

/-- Equal discriminators lead to the same names. -/
theorem mem_mappedNames_of_beq {left right : Option Discriminator} (same : (left == right) = true)
    (name : String) : name ∈ mappedNames right ↔ name ∈ mappedNames left := by
  cases left <;> cases right
  case some.some left right =>
    have parts : (left == right) = true := same
    simp only [BEq.beq, instBEqDiscriminator.beq, Bool.and_eq_true] at parts
    exact ⟨Table.mem_values_of_isIncludedIn parts.2.2, Table.mem_values_of_isIncludedIn parts.2.1⟩
  case none.none => exact Iff.rfl
  all_goals cases same

/-- Equal fields mention the same types. -/
theorem mentions_eq_of_fields_beq {left right : List Field} (same : (left == right) = true) :
    left.flatMap (fun field => field.type.mentions) =
      right.flatMap (fun field => field.type.mentions) := by
  induction left generalizing right with
  | nil => cases right with
    | nil => rfl
    | cons => cases same
  | cons first rest ih => cases right with
    | nil => cases same
    | cons other others =>
      have ⟨sameFirst, sameRest⟩ := Bool.and_eq_true_iff.mp same
      have sameType : (first.type == other.type) = true := by
        simp only [BEq.beq, instBEqField.beq, Bool.and_eq_true] at sameFirst
        exact sameFirst.2.1
      rw [List.flatMap_cons, List.flatMap_cons, ih sameRest, TypeExpr.mentions_eq_of_beq sameType]

namespace Shape

/-- Equal shapes mention the same types. -/
theorem mem_mentions_of_beq {left right : Shape} (same : (left == right) = true) (name : String) :
    name ∈ right.mentions ↔ name ∈ left.mentions := by
  -- Equal shapes have the same form, and each part mentions what its counterpart does.
  cases left <;> cases right
  case record.record left right =>
    have ⟨fields, additional⟩ := Bool.and_eq_true_iff.mp
      (show (left.fields == right.fields && left.additional == right.additional) = true from same)
    have further : left.additional.map TypeExpr.mentions = right.additional.map TypeExpr.mentions := by
      cases isLeft : left.additional <;> cases isRight : right.additional <;>
        rw [isLeft, isRight] at additional
      case some.some => exact congrArg some (TypeExpr.mentions_eq_of_beq additional)
      all_goals first | rfl | cases additional
    simp only [mentions, mentions_eq_of_fields_beq fields, further]
  case union.union left right =>
    have parts : (left == right) = true := same
    simp only [BEq.beq, instBEqUnionShape.beq, Bool.and_eq_true] at parts
    obtain ⟨_, members, _, discriminator⟩ := parts
    have sameMembers : left.members = right.members := eq_of_beq members
    have sameMapped : name ∈ mappedNames right.discriminator ↔ name ∈ mappedNames left.discriminator :=
      mem_mappedNames_of_beq discriminator name
    change name ∈ right.members ++ mappedNames right.discriminator ↔
      name ∈ left.members ++ mappedNames left.discriminator
    rw [List.mem_append, List.mem_append, sameMembers, sameMapped]
  case alias.alias left right =>
    have sameType := TypeExpr.mentions_eq_of_beq (show (left == right) = true from same)
    simp only [mentions, sameType]
  case enum.enum => exact Iff.rfl
  all_goals cases same

end Shape

namespace Equivalence

/-- Whatever a type mentions is paired with something that an equivalent type mentions. -/
theorem paired_of_ofTypes : ∀ {left right : TypeExpr} {pairs : List NamePair},
    ofTypes left right = some pairs → ∀ name ∈ right.mentions, ∃ other ∈ left.mentions,
      (other, name) ∈ pairs
  | ⟨leftKind, _, _⟩, ⟨rightKind, _, _⟩, pairs, isPaired, name, isMentioned => by
    obtain ⟨_, _, kinds⟩ := ofTypes_eq_some_iff.mp isPaired
    cases kinds with
    | array isPaired | map isPaired =>
      simpa only [TypeExpr.mentions] using paired_of_ofTypes isPaired name isMentioned
    | named => simpa [TypeExpr.mentions] using isMentioned
    | primitive | any | null => cases isMentioned

/-- Whatever a kind mentions is paired with something that an equivalent kind mentions. -/
theorem paired_of_ofKinds {left right : TypeExpr} {pairs : List NamePair}
    (isPaired : ofKinds left.kind right.kind = some pairs) :
    ∀ name ∈ right.mentions, ∃ other ∈ left.mentions, (other, name) ∈ pairs := by
  -- Only the kinds of types mention names.
  have sameLeft : left.mentions = (⟨left.kind, false, {}⟩ : TypeExpr).mentions :=
    TypeExpr.mentions_eq_of_kind rfl
  have sameRight : right.mentions = (⟨right.kind, false, {}⟩ : TypeExpr).mentions :=
    TypeExpr.mentions_eq_of_kind rfl
  rw [sameLeft, sameRight]
  exact paired_of_ofTypes ((ofTypes_of_kinds _ _).trans isPaired)

/-- Whatever fields mention is paired with something that equivalent fields mention. -/
theorem PairsFields.paired {left right : List Field} {pairs : List NamePair}
    (arePaired : PairsFields left right pairs) :
    ∀ name ∈ right.flatMap fun field => field.type.mentions,
      ∃ other ∈ left.flatMap fun field => field.type.mentions, (other, name) ∈ pairs := by
  -- A name in a field is paired within that field.
  induction arePaired with
  | nil => simp
  | cons _ _ areTypes _ ih =>
    intro name isMentioned
    rw [List.flatMap_cons] at isMentioned ⊢
    rcases List.mem_append.mp isMentioned with inFirst | inRest
    · obtain ⟨other, isOther, isPair⟩ := paired_of_ofTypes areTypes name inFirst
      exact ⟨other, List.mem_append_left _ isOther, List.mem_append_left _ isPair⟩
    · obtain ⟨other, isOther, isPair⟩ := ih name inRest
      exact ⟨other, List.mem_append_right _ isOther, List.mem_append_right _ isPair⟩

/-- In a list of the same length, some name is in the position of a name. -/
theorem exists_mem_zip {left right : List String} (lengths : left.length = right.length)
    {name : String} (isName : name ∈ right) : ∃ other ∈ left, (other, name) ∈ left.zip right := by
  -- The name has an index, and the other list has something at that index too.
  obtain ⟨index, inRight, rfl⟩ := List.getElem_of_mem isName
  have inLeft : index < left.length := lengths ▸ inRight
  have inZip : index < (left.zip right).length := by
    rw [List.length_zip]
    exact lt_min inLeft inRight
  refine ⟨left[index], List.getElem_mem inLeft, ?_⟩
  rw [← List.getElem_zip (h := inZip)]
  exact List.getElem_mem inZip

/-- Whatever a shape mentions an equivalent shape mentions too, or something paired with it. -/
theorem PairsShapes.paired {left right : Shape} {pairs : List NamePair}
    (arePaired : PairsShapes left right pairs) :
    ∀ name ∈ right.mentions, name ∈ left.mentions ∨
      ∃ other ∈ left.mentions, (other, name) ∈ pairs := by
  intro name isMentioned
  cases arePaired with
  | @record left right _ _ areFurther areFields =>
    right
    rcases List.mem_append.mp isMentioned with inFields | inFurther
    · obtain ⟨other, isOther, isPair⟩ := areFields.paired name inFields
      exact ⟨other, List.mem_append_left _ isOther, List.mem_append_right _ isPair⟩
    · cases isLeft : left.additional <;> cases isRight : right.additional <;>
        rw [isLeft, isRight] at areFurther <;> simp only [isRight] at inFurther
      case some.some =>
        obtain ⟨other, isOther, isPair⟩ := paired_of_ofTypes areFurther name inFurther
        refine ⟨other, List.mem_append_right _ ?_, List.mem_append_left _ isPair⟩
        simpa [isLeft] using isOther
      case none.some | some.none => cases areFurther
      case none.none => cases inFurther
  | «alias» isPaired => exact .inr (paired_of_ofTypes isPaired name isMentioned)
  | union _ _ discriminators lengths =>
    rcases List.mem_append.mp isMentioned with isMember | isMapped
    · -- Members are paired by their positions.
      obtain ⟨other, isOther, isPair⟩ := exists_mem_zip lengths isMember
      exact .inr ⟨other, List.mem_append_left _ isOther, isPair⟩
    · exact .inl (List.mem_append_right _ ((mem_mappedNames_of_beq discriminators _).mp isMapped))
  | enum => cases isMentioned

end Equivalence

namespace Registry

/-- Two names are the same, or a search has found that they have to be equivalent. -/
def Pairs (found : List NamePair) (left right : String) : Prop := left = right ∨ (left, right) ∈ found

/-- A pair that a search settles is one that it found, or one of equal names. -/
theorem pairs_of_settled {registry : Registry} {found : List NamePair} {left right : String}
    (settled : Search.Settled registry.knownPairs registry.namePairs found (left, right)) :
    Pairs found left right := by
  rcases settled with isFound | ⟨unknown, follows⟩
  · exact .inr isFound
  obtain ⟨next, follows⟩ := Option.isSome_iff_exists.mp follows
  rcases namePairs_eq_some_iff.mp follows with ⟨same, _⟩ | ⟨_, first, second, isFirst, isSecond, _⟩
  · exact .inl same
  · -- Names with declarations are known.
    have taken : ∀ {name declaration}, registry.get? name = some declaration →
        name ∈ registry.slots.keys := by
      intro name declaration isDeclared
      obtain ⟨slot, isSlot, _⟩ := Option.bind_eq_some_iff.mp isDeclared
      exact (Table.mem_keys_iff _ _).mpr ⟨slot, isSlot⟩
    refine absurd ?_ unknown
    simp only [knownPairs, List.mem_flatMap, List.mem_map]
    exact ⟨left, taken isFirst, right, taken isSecond, rfl⟩

/-- Nothing follows a pair of names that are not both taken. -/
theorem namePairs_of_unknown {registry : Registry} {pair : NamePair} {more : List NamePair}
    (unknown : pair ∉ registry.knownPairs) (follows : registry.namePairs pair = some more) :
    more = [] := by
  -- Such a pair is settled without a search, and that is so only of equal names.
  have settled : Search.Settled registry.knownPairs registry.namePairs [] pair :=
    .inr ⟨unknown, by simp [follows]⟩
  rcases pairs_of_settled settled with same | isFound
  · simpa [namePairs, same] using follows.symm
  · cases isFound

/-- Which types are equivalent depends on nothing but what is declared. -/
theorem equivalent_congr {one other : Registry} (same : other.get? = one.get?) :
    other.equivalent = one.equivalent := by
  -- The search itself depends on the registry only by what follows each pair.
  have samePairs : other.namePairs = one.namePairs := by
    funext pair
    rw [namePairs, namePairs, same]
  funext left right
  unfold equivalent
  split
  · rfl
  · rw [Bool.eq_iff_iff, Search.isSome_explore_iff fun _ _ => namePairs_of_unknown,
      Search.isSome_explore_iff fun _ _ => namePairs_of_unknown, samePairs]

variable {earlier later : Registry}

/--
What stands for a supported type is supported: the names that a search found beside supported ones
can be added to these, for their declarations mention only such names.
-/
theorem supported_of_found
    (kept : ∀ name declaration, earlier.get? name = some declaration →
      later.get? name = some declaration)
    {pairs found : List NamePair}
    (searched : Search.explore earlier.knownPairs earlier.namePairs [] pairs = some found)
    {left right : String} (supported : left ∈ later.supported) (related : Pairs found left right) :
    right ∈ later.supported := by
  -- The names that were found beside supported ones are closed together with these: whatever such a
  -- name mentions is mentioned by a supported one or found beside what that mentions.
  rcases related with rfl | isFound
  · exact supported
  refine ⟨later.supported ∪ { name | ∃ other ∈ later.supported, (other, name) ∈ found }, ?_,
    .inr ⟨left, supported, isFound⟩⟩
  have closed := later.isClosed_supported
  rintro name (isSupported | ⟨other, otherSupported, isPair⟩)
  · obtain ⟨declaration, isDeclared, inside⟩ := closed name isSupported
    exact ⟨declaration, isDeclared, fun mentioned isMentioned => .inl (inside mentioned isMentioned)⟩
  · obtain ⟨declaration, isDeclared, inside⟩ := closed other otherSupported
    obtain ⟨more, follows, settled⟩ := (Search.explore_closed searched isPair).resolve_left (by simp)
    rcases namePairs_eq_some_iff.mp follows with ⟨same, _⟩ | ⟨_, first, second, isFirst, isSecond, shapes⟩
    · subst same
      exact ⟨declaration, isDeclared, fun mentioned isMentioned =>
        .inl (inside mentioned isMentioned)⟩
    · cases (kept _ _ isFirst).symm.trans isDeclared
      refine ⟨second, kept _ _ isSecond, fun mentioned isMentioned => ?_⟩
      rcases shapes.paired mentioned isMentioned with inFirst | ⟨source, isSource, isNext⟩
      · exact .inl (inside mentioned inFirst)
      · rcases pairs_of_settled (settled _ isNext) with rfl | alsoFound
        · exact .inl (inside _ isSource)
        · exact .inr ⟨source, inside source isSource, alsoFound⟩

/-- A type mentions only supported names if an equivalent type does, even by later declarations. -/
theorem supported_of_equivalent
    (kept : ∀ name declaration, earlier.get? name = some declaration →
      later.get? name = some declaration)
    {left right : TypeExpr} (equivalent : earlier.equivalent left.kind right.kind = true)
    (supported : ∀ name ∈ left.mentions, name ∈ later.supported) :
    ∀ name ∈ right.mentions, name ∈ later.supported := by
  -- The name is found beside one that the other type mentions.
  intro name isMentioned
  unfold Registry.equivalent at equivalent
  split at equivalent
  · cases equivalent
  · rename_i pairs isPaired
    obtain ⟨found, searched⟩ := Option.isSome_iff_exists.mp equivalent
    obtain ⟨other, isOther, isPair⟩ := Equivalence.paired_of_ofKinds isPaired name isMentioned
    exact supported_of_found kept searched (supported other isOther)
      (pairs_of_settled ((Search.explore_settles searched).2 _ isPair))

/-- A type mentions only supported names if a type that is kept in its place does. -/
theorem supported_of_agrees
    (kept : ∀ name declaration, earlier.get? name = some declaration →
      later.get? name = some declaration)
    {left right : TypeExpr} (agrees : Intersection.Agrees earlier.equivalent left.kind right.kind)
    (supported : ∀ name ∈ left.mentions, name ∈ later.supported) :
    ∀ name ∈ right.mentions, name ∈ later.supported := by
  rcases agrees with same | same | equivalent
  · rwa [TypeExpr.mentions_eq_of_kind same.symm]
  · rwa [← TypeExpr.mentions_eq_of_kind_beq same]
  · exact supported_of_equivalent kept equivalent supported

end Registry

end ApiTypes
