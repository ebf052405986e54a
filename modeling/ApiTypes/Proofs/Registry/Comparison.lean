import ApiTypes.Proofs.Registry.Equivalence

/-!
What the comparison of types depends on. It looks at the declarations of the names that the types mention,
and of those that these mention in turn, and at nothing else.
-/

namespace ApiTypes

namespace Equivalence

/-- Types are paired by names that they mention. -/
theorem mentioned_of_ofTypes : ∀ {left right : TypeExpr} {pairs : List NamePair},
    ofTypes left right = some pairs → ∀ pair ∈ pairs, pair.1 ∈ left.mentions ∧ pair.2 ∈ right.mentions
  | ⟨leftKind, _, _⟩, ⟨rightKind, _, _⟩, pairs, isPaired, pair, isPair => by
    obtain ⟨_, _, kinds⟩ := ofTypes_eq_some_iff.mp isPaired
    cases kinds with
    | array isPaired | map isPaired =>
      simpa only [TypeExpr.mentions] using mentioned_of_ofTypes isPaired pair isPair
    | named =>
      cases List.mem_singleton.mp isPair
      exact ⟨List.mem_singleton_self _, List.mem_singleton_self _⟩
    | primitive | any | null => cases isPair

/-- Kinds are paired by names that types of these kinds mention. -/
theorem mentioned_of_ofKinds {left right : TypeExpr} {pairs : List NamePair}
    (isPaired : ofKinds left.kind right.kind = some pairs) :
    ∀ pair ∈ pairs, pair.1 ∈ left.mentions ∧ pair.2 ∈ right.mentions := by
  have sameLeft : left.mentions = (⟨left.kind, false, {}⟩ : TypeExpr).mentions :=
    TypeExpr.mentions_eq_of_kind rfl
  have sameRight : right.mentions = (⟨right.kind, false, {}⟩ : TypeExpr).mentions :=
    TypeExpr.mentions_eq_of_kind rfl
  rw [sameLeft, sameRight]
  exact mentioned_of_ofTypes ((ofTypes_of_kinds _ _).trans isPaired)

/-- Fields are paired by names that their types mention. -/
theorem PairsFields.mentioned {left right : List Field} {pairs : List NamePair}
    (arePaired : PairsFields left right pairs) : ∀ pair ∈ pairs,
      pair.1 ∈ left.flatMap (fun field => field.type.mentions) ∧
        pair.2 ∈ right.flatMap fun field => field.type.mentions := by
  -- A pair comes of the types of two fields in the same position.
  induction arePaired with
  | nil => simp
  | cons _ _ areTypes _ ih =>
    intro pair isPair
    rw [List.flatMap_cons, List.flatMap_cons]
    rcases List.mem_append.mp isPair with inTypes | inFields
    · have ⟨inLeft, inRight⟩ := mentioned_of_ofTypes areTypes pair inTypes
      exact ⟨List.mem_append_left _ inLeft, List.mem_append_left _ inRight⟩
    · have ⟨inLeft, inRight⟩ := ih pair inFields
      exact ⟨List.mem_append_right _ inLeft, List.mem_append_right _ inRight⟩

/-- Types that may be absent are paired by names that they mention. -/
theorem mentioned_of_ofOptions {left right : Option TypeExpr} {pairs : List NamePair}
    (isPaired : ofOptions left right = some pairs) : ∀ pair ∈ pairs,
      pair.1 ∈ (left.map TypeExpr.mentions).getD [] ∧
        pair.2 ∈ (right.map TypeExpr.mentions).getD [] := by
  cases left <;> cases right
  case none.none =>
    cases isPaired
    simp
  case some.some => exact mentioned_of_ofTypes isPaired
  all_goals cases isPaired

/-- Shapes are paired by names that they mention. -/
theorem PairsShapes.mentioned {left right : Shape} {pairs : List NamePair}
    (arePaired : PairsShapes left right pairs) :
    ∀ pair ∈ pairs, pair.1 ∈ left.mentions ∧ pair.2 ∈ right.mentions := by
  intro pair isPair
  cases arePaired with
  | record areFurther areFields =>
    rcases List.mem_append.mp isPair with inFurther | inFields
    · have ⟨inLeft, inRight⟩ := mentioned_of_ofOptions areFurther pair inFurther
      exact ⟨List.mem_append_right _ inLeft, List.mem_append_right _ inRight⟩
    · have ⟨inLeft, inRight⟩ := areFields.mentioned pair inFields
      exact ⟨List.mem_append_left _ inLeft, List.mem_append_left _ inRight⟩
  | «alias» isPaired => exact mentioned_of_ofTypes isPaired pair isPair
  | union =>
    have ⟨inLeft, inRight⟩ := List.of_mem_zip isPair
    exact ⟨List.mem_append_left _ inLeft, List.mem_append_left _ inRight⟩
  | enum => cases isPair

end Equivalence

namespace Registry

variable {first other : Registry}

/-- Some names stand for the same shapes in two registries, and these shapes mention only such names. -/
structure AgreesOn (first other : Registry) (names : String → Prop) : Prop where
  same : ∀ {name}, names name →
    (other.get? name).map Declaration.shape = (first.get? name).map Declaration.shape
  closed : ∀ {name declaration}, names name → first.get? name = some declaration →
    ∀ mention ∈ declaration.mentions, names mention

namespace AgreesOn

variable {names : String → Prop} (agrees : first.AgreesOn other names)

include agrees

/-- Pairs of such names are followed in the same way. -/
theorem namePairs_eq {pair : NamePair} (left : names pair.1) (right : names pair.2) :
    other.namePairs pair = first.namePairs pair := by
  -- Pairs are followed by the shapes of their names alone.
  have compares (registry : Registry) : registry.namePairs pair =
      if pair.1 = pair.2 then some []
      else ((registry.get? pair.1).map Declaration.shape).bind fun one =>
        ((registry.get? pair.2).map Declaration.shape).bind fun also =>
          Equivalence.ofShapes one also := by
    unfold namePairs
    cases registry.get? pair.1 <;> cases registry.get? pair.2 <;> rfl
  rw [compares, compares, agrees.same left, agrees.same right]

/-- A pair of such names leads to pairs of such names only. -/
theorem closed_pairs {pair next : NamePair} (left : names pair.1) (right : names pair.2)
    (leads : Relation.ReflTransGen (Search.Leads first.namePairs) pair next) :
    names next.1 ∧ names next.2 := by
  -- Each step stays inside: what follows a pair is mentioned by the shapes of its names.
  induction leads with
  | refl => exact ⟨left, right⟩
  | tail _ step ih =>
    obtain ⟨more, follows, isNext⟩ := step
    rcases namePairs_eq_some_iff.mp follows with ⟨_, rfl⟩ | ⟨_, one, also, isOne, isAlso, shapes⟩
    · cases isNext
    · have ⟨inOne, inAlso⟩ := shapes.mentioned _ isNext
      exact ⟨agrees.closed ih.1 isOne _ inOne, agrees.closed ih.2 isAlso _ inAlso⟩

/-- A pair of such names leads to the same pairs in both registries. -/
theorem leads_iff {pair next : NamePair} (left : names pair.1) (right : names pair.2) :
    Relation.ReflTransGen (Search.Leads other.namePairs) pair next ↔
      Relation.ReflTransGen (Search.Leads first.namePairs) pair next := by
  -- As all pairs on the way are of such names, every step is one in both registries.
  have step {one also : NamePair}
      (leads : Relation.ReflTransGen (Search.Leads first.namePairs) pair one) :
      Search.Leads other.namePairs one also ↔ Search.Leads first.namePairs one also := by
    have ⟨isLeft, isRight⟩ := agrees.closed_pairs left right leads
    rw [Search.Leads, Search.Leads, agrees.namePairs_eq isLeft isRight]
  constructor <;> intro leads
  · induction leads with
    | refl => exact .refl
    | tail _ isNext ih => exact ih.tail ((step ih).mp isNext)
  · induction leads with
    | refl => exact .refl
    | tail before isNext ih => exact ih.tail ((step before).mpr isNext)

/-- Types that mention only such names are equivalent in both registries or in none. -/
theorem equivalent_eq {left right : TypeExpr} (inLeft : ∀ mention ∈ left.mentions, names mention)
    (inRight : ∀ mention ∈ right.mentions, names mention) :
    other.equivalent left.kind right.kind = first.equivalent left.kind right.kind := by
  -- The search succeeds if no pair that is reached fails, and both registries reach the same pairs.
  unfold equivalent
  split
  · rfl
  · rename_i pairs isPaired
    rw [Bool.eq_iff_iff, Search.isSome_explore_iff fun _ _ => namePairs_of_unknown,
      Search.isSome_explore_iff fun _ _ => namePairs_of_unknown]
    refine forall₂_congr fun pair isPair => forall_congr' fun next => ?_
    have ⟨isLeft, isRight⟩ := Equivalence.mentioned_of_ofKinds isPaired pair isPair
    rw [agrees.leads_iff (inLeft _ isLeft) (inRight _ isRight)]
    refine imp_congr_right fun leads => ?_
    have ⟨inside, alsoInside⟩ := agrees.closed_pairs (inLeft _ isLeft) (inRight _ isRight) leads
    rw [agrees.namePairs_eq inside alsoInside]

end AgreesOn

end Registry

end ApiTypes
