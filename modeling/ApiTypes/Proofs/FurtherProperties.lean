import ApiTypes.Proofs.RecordMerge
import ApiTypes.Proofs.Satisfaction.Equivalence

/-!
Types of further properties of merged records. The first type is kept as it is, and it is compared with
the others by its kind alone, so what it admits besides is said by its own constraints and its own null.
-/

namespace ApiTypes

namespace StrictDialect

variable {dialect : StrictDialect} {shapes : String → Option Shape}

variable (dialect shapes) in
/--
What one type says besides its kind is as strict as what another one says: null is admitted only if the
other one admits it, and of the values of that kind, only those that are within its constraints.
-/
structure IsAsStrict (type own : TypeExpr) : Prop where
  null : type.nullable = true → dialect.Conforms shapes own .null
  within : own.kind.isBounded = true → ∀ value, dialect.Conforms shapes ⟨own.kind, false, {}⟩ value →
    dialect.Within type.constraints value → dialect.Within own.constraints value

/-- A type admits no more than another one with the same values of its kind exactly if it is as strict. -/
theorem admitsNoMore_iff {type own : TypeExpr} (bounded : type.kind.isBounded = own.kind.isBounded)
    (kinds : ∀ value, dialect.Conforms shapes ⟨type.kind, false, {}⟩ value ↔
      dialect.Conforms shapes ⟨own.kind, false, {}⟩ value) :
    (∀ value, dialect.Conforms shapes type value → dialect.Conforms shapes own value) ↔
      dialect.IsAsStrict shapes type own := by
  constructor
  · intro admits
    -- What is of the kind and within the one constraints conforms to the one type, and so to the other.
    refine ⟨fun nullable => admits .null (.null nullable), fun isBounded value inside within => ?_⟩
    have conforms : dialect.Conforms shapes type value :=
      (conforms_iff type value).mpr (.inr ⟨(kinds value).mpr inside, fun _ => within⟩)
    rcases (conforms_iff own value).mp (admits value conforms) with ⟨_, rfl⟩ | ⟨_, also⟩
    · -- Constraints say nothing of null.
      exact within_null _
    · exact also isBounded
  · intro isAsStrict value conforms
    rcases (conforms_iff type value).mp conforms with ⟨nullable, rfl⟩ | ⟨inside, within⟩
    · exact isAsStrict.null nullable
    · -- A value of the one kind is of the other kind, where it is within the other constraints too.
      have alsoInside := (kinds value).mp inside
      exact (conforms_iff own value).mpr (.inr ⟨alsoInside, fun isBounded =>
        isAsStrict.within isBounded value alsoInside (within (bounded.trans isBounded))⟩)

end StrictDialect

namespace Intersection

variable {equivalent : TypeKind TypeExpr → TypeKind TypeExpr → Bool}

/-- Of the types of further properties, a merge of records keeps the first, with which the others agree. -/
theorem further_of_mergeRecords (isEquivalence : TypeKind.IsEquivalence equivalent)
    {members : List IntersectionMember} {shape : RecordShape} {notes : List MergeNote}
    (isMerged : mergeRecords equivalent members ({}, []) = .ok (shape, notes)) :
    shape.additional = (furtherTypes members).head? ∧
      AgreeWithFirst equivalent (furtherTypes members) := by
  have merges := Progress.start.exists_mergeRecords_iff isEquivalence .nil trivial members
  exact ⟨(progress_of_mergeRecords isMerged).additional, (merges.mp ⟨_, isMerged⟩).2.2⟩

/-- Whatever members merge into a record, the first type of further properties is kept. -/
theorem further_of_mergeAllOf (isEquivalence : TypeKind.IsEquivalence equivalent)
    {members : List IntersectionMember} {shape : RecordShape} {notes : List MergeNote}
    (isMerged : mergeAllOf members equivalent = .ok ⟨.record shape, notes⟩) :
    shape.additional = (furtherTypes members).head? ∧
      AgreeWithFirst equivalent (furtherTypes members) := by
  rw [← (parts_filter_isTyped members).2]
  obtain ⟨_, ⟨few, _, isSingle⟩ | ⟨_, whole, more, isWhole, isRecord⟩⟩ := mergeAllOf_cases isMerged
  · -- A single member stands for itself: a record only if it is one, and not a reference to one.
    generalize members.filter isTyped = typed at few isSingle
    match typed, few with
    | [], _ => cases isSingle
    | [⟨label, reference, contribution⟩], _ =>
      cases reference with
      | some target => cases isSingle
      | none =>
        cases contribution with
        | record own =>
          -- The only member is the record itself.
          cases isSingle
          cases isOwn : shape.additional <;>
            simp [furtherTypes, MemberShape.additional, AgreeWithFirst, isOwn]
        | required | unconstrained | scalar | union => cases isSingle
  · -- Making names required changes no type of further properties.
    obtain ⟨isFirst, agree⟩ := further_of_mergeRecords isEquivalence isWhole
    cases isRecord
    exact ⟨isFirst, agree⟩

/-- A type that agrees with the first one of a list is that one or has an equivalent kind. -/
theorem AgreeWithFirst.cases {types : List TypeExpr} (agree : AgreeWithFirst equivalent types)
    {own : TypeExpr} (isOwn : own ∈ types) :
    ∃ first, types.head? = some first ∧ (own = first ∨ equivalent first.kind own.kind = true) := by
  cases types with
  | nil => cases isOwn
  | cons first rest =>
    exact ⟨first, rfl, (List.mem_cons.mp isOwn).imp_right fun isLater => agree own isLater⟩

/--
A merged record keeps the first type that members give to further properties, and that admits no more than
the type of a member exactly if what it says besides its kind is as strict: the kinds of both are
equivalent, so that the same values are of both.
-/
theorem furtherProperties_admitNoMore_iff {registry : Registry} {shapes : String → Option Shape}
    (kept : ∀ name declaration, registry.get? name = some declaration →
      shapes name = some declaration.shape) (dialect : StrictDialect)
    {members : List IntersectionMember} {shape : RecordShape} {notes : List MergeNote}
    (isMerged : mergeAllOf members registry.equivalent = .ok ⟨.record shape, notes⟩)
    {member : IntersectionMember} (isMember : member ∈ members) {own : TypeExpr}
    (isOwn : member.shape.additional = some own) :
    ∃ type, shape.additional = some type ∧ (furtherTypes members).head? = some type ∧
      ((∀ value, dialect.Conforms shapes type value → dialect.Conforms shapes own value) ↔
        dialect.IsAsStrict shapes type own) := by
  obtain ⟨isFirst, agree⟩ := further_of_mergeAllOf registry.isEquivalence_equivalent isMerged
  have isGiven : own ∈ furtherTypes members :=
    List.mem_flatMap.mpr ⟨member, isMember, by simp [isOwn]⟩
  obtain ⟨type, isHead, sameOrAlike⟩ := agree.cases isGiven
  refine ⟨type, isFirst.trans isHead, isHead, ?_⟩
  rcases sameOrAlike with rfl | alike
  · exact StrictDialect.admitsNoMore_iff rfl fun _ => .rfl
  · -- Types of equivalent kinds are compared as far as their kinds go, so the rest decides.
    exact StrictDialect.admitsNoMore_iff (TypeKind.isBounded_of_agrees (.inr (.inr alike)))
      fun value => StrictDialect.conforms_iff_of_equivalent kept alike value

/-- Every text matches, every value is of any format, and only equal items are the same. -/
def plainDialect : StrictDialect :=
  { Matches := fun _ _ => True, HasFormat := fun _ _ => True, Distinct := List.Nodup }

/-- Texts of at most as many characters as are given. -/
def shortText (most : Option Nat) : TypeExpr := ⟨.primitive .string none, false, { maxLength := most }⟩

/-- Records of which all further properties are short texts. -/
def textRecords (limits : List (Option Nat)) : List IntersectionMember :=
  limits.map fun most => { label := "record", shape := .record { additional := some (shortText most) } }

/-- Of short texts, records keep what the first one says, whatever it is. -/
theorem mergeAllOf_textRecords (first second : Option Nat) :
    mergeAllOf (textRecords [first, second]) (Registry.ofConfig {}).equivalent =
      .ok ⟨.record { additional := some (shortText first) }, []⟩ := by
  -- The kinds are equal, since the limits are no part of them.
  have alike : (Registry.ofConfig {}).equivalent (shortText first).kind (shortText second).kind = true :=
    (Registry.ofConfig {}).isEquivalence_equivalent.of_beq rfl
  have noUnion : ∀ member ∈ textRecords [first, second], isUnion member = false := by
    simp [textRecords, isUnion]
  have several : ¬StandsAlone (textRecords [first, second]) := fun alone => Nat.lt_irrefl 1 alone.1
  refine mergeAllOf_eq_ok_iff.mpr ⟨noUnion, .inr ⟨several, { additional := some (shortText first) }, [],
    ?_, rfl⟩⟩
  refine mergeRecords_cons_eq_ok_iff.mpr ⟨_, _, _, rfl, rfl, nofun, ?_⟩
  refine mergeRecords_cons_eq_ok_iff.mpr ⟨_, _, _, rfl, rfl, fun kept isKept given isGiven => ?_, rfl⟩
  cases isKept
  cases isGiven
  exact .inr alike

/-- Texts of at most three characters are texts of at most five, so these admit all that is kept. -/
theorem furtherProperties_admitNoMore_shortTexts :
    mergeAllOf (textRecords [some 3, some 5]) (Registry.ofConfig {}).equivalent =
        .ok ⟨.record { additional := some (shortText (some 3)) }, []⟩ ∧
      ∀ value, plainDialect.Conforms (fun _ => none) (shortText (some 3)) value →
        plainDialect.Conforms (fun _ => none) (shortText (some 5)) value := by
  -- Nothing is declared, so any shapes keep what the registry has.
  have kept : ∀ name declaration, (Registry.ofConfig {}).get? name = some declaration →
      (none : Option Shape) = some declaration.shape := by
    intro name declaration isDeclared
    cases isDeclared
  obtain ⟨type, isKept, _, admitsNoMore_iff⟩ := furtherProperties_admitNoMore_iff kept plainDialect
    (mergeAllOf_textRecords (some 3) (some 5)) (List.mem_cons_of_mem _ List.mem_cons_self) rfl
  cases isKept
  refine ⟨mergeAllOf_textRecords (some 3) (some 5), admitsNoMore_iff.mpr ⟨nofun, ?_⟩⟩
  rintro - value inside within
  cases inside with
  | null isNullable => cases isNullable
  | primitive isPrimitive =>
    cases value with
    | text value =>
      have ⟨_, most, _⟩ := within.admits
      refine ⟨⟨nofun, fun limit isLimit => ?_, nofun⟩, nofun⟩
      cases isLimit
      exact (most 3 rfl).trans (by decide)
    | null | bool | number | list | object => exact absurd isPrimitive.2 id

/--
Texts of more than five characters are admitted by what two records keep, of which the second one admits at
most five.
-/
theorem not_furtherProperties_admitNoMore_longText :
    ∃ shape, mergeAllOf (textRecords [none, some 5]) (Registry.ofConfig {}).equivalent =
        .ok ⟨.record shape, []⟩ ∧
      shape.additional = some (shortText none) ∧
      plainDialect.Conforms (fun _ => none) (shortText none) (.text "abcdef") ∧
      ¬plainDialect.Conforms (fun _ => none) (shortText (some 5)) (.text "abcdef") := by
  refine ⟨_, mergeAllOf_textRecords none (some 5), rfl, ?_, fun conforms => ?_⟩
  · -- Without a limit nothing is asked of the text.
    exact .primitive ⟨nofun, trivial⟩ ⟨⟨nofun, nofun, nofun⟩, nofun⟩
  · -- The text has six characters.
    cases conforms with
    | primitive _ within => exact absurd (within.admits.2.1 5 rfl) (by decide)

end Intersection

end ApiTypes
