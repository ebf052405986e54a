import ApiTypes.Proofs.MergedMembers
import ApiTypes.Proofs.Satisfaction.Divisors
import ApiTypes.Proofs.Satisfaction.Ranges

/-!
What merged constraints admit. They narrow those of all fields of a name, of which it is noted once if
they leave a range without a value between them.
-/

namespace ApiTypes

/-- The name of a field of which a note says that a range is left without a value. -/
def MergeNote.emptyRange? : MergeNote → Option String
  | emptyRange field => some field
  | patternDropped .. | multipleOfDropped .. | unknownRequired _ => none

namespace Constraints

/--
Constraints ask for what two sets of constraints ask for: their ranges and whether items are unique always.
It is noted that a divisor is dropped exactly if there are two, neither with a rounded quotient that is
whole nor both naturals. Otherwise the divisor divides just what both do, exactly if one of two is a multiple
of the other one, or their least common multiple is computed and not rounded; so it is for naturals with a
small common multiple.
-/
structure Combine (left right merged : Constraints) (notes : List MergeNote) (field : String) : Prop where
  ranges : merged.Narrows [left, right]
  uniqueItems : merged.uniqueItems = true ↔ left.uniqueItems = true ∨ right.uniqueItems = true
  dropped : (∃ kept dropped, .multipleOfDropped field kept dropped ∈ notes) ↔
    LackMultiple left.multipleOf right.multipleOf
  divisors : ¬LackMultiple left.multipleOf right.multipleOf →
    (DividesAsBoth merged.multipleOf left.multipleOf right.multipleOf ↔
      ∀ divisor ∈ left.multipleOf, ∀ other ∈ right.multipleOf, HaveExactMultiple divisor other)
  small : HaveSmallMultiple left.multipleOf right.multipleOf →
    DividesAsBoth merged.multipleOf left.multipleOf right.multipleOf

/-- The intersection of two sets of constraints combines them. -/
theorem combine_intersect {left right : Constraints} (leftBounded : left.Bounded)
    (rightBounded : right.Bounded) (divisible : Divisible left.multipleOf right.multipleOf)
    (field : String) :
    Combine left right (left.intersect field right).1 (left.intersect field right).2 field where
  ranges := leftBounded.narrows.intersect rightBounded field
  uniqueItems := Bool.or_eq_true_iff
  dropped := dropped_iff divisible field
  divisors := dividesAsBoth_iff divisible field
  small small := (dividesAsBoth_iff divisible field small.not_lackMultiple).mpr
    (small.haveExactMultiple divisible)

end Constraints

namespace Intersection

open Constraints (Satisfiable)

/-- The constraints of the fields of a name. -/
def constraintsOf (key : String) (fields : List Field) : List Constraints :=
  (fieldsNamed key fields).map fun field => field.type.constraints

/-- How often it is noted that a range of a field is left without a value. -/
def emptyRanges (key : String) (notes : List MergeNote) : Nat :=
  (notes.filterMap MergeNote.emptyRange?).count key

/-- It is noted once if constraints that are given for a field leave a range without a value. -/
structure NotesEmptied (key : String) (given : List Constraints) (notes : List MergeNote) : Prop where
  never : Satisfiable given → emptyRanges key notes = 0
  once : ¬Satisfiable given → emptyRanges key notes = 1

section

variable (key : String)

@[simp] theorem emptyRanges_nil : emptyRanges key [] = 0 := rfl

@[simp] theorem emptyRanges_append (notes more : List MergeNote) :
    emptyRanges key (notes ++ more) = emptyRanges key notes + emptyRanges key more := by
  simp [emptyRanges]

@[simp] theorem constraintsOf_append (fields more : List Field) :
    constraintsOf key (fields ++ more) = constraintsOf key fields ++ constraintsOf key more := by
  simp [constraintsOf]

theorem constraintsOf_singleton (field : Field) :
    constraintsOf key [field] = if field.key = key then [field.type.constraints] else [] := by
  rw [constraintsOf, fieldsNamed_cons]
  split <;> rfl

/-- That a name is unknown says nothing of its ranges. -/
theorem emptyRanges_unknownRequired (names : List String) :
    emptyRanges key (names.map .unknownRequired) = 0 := by
  -- The two kinds of notes have nothing in common.
  have none : (names.map .unknownRequired).filterMap MergeNote.emptyRange? = [] := by
    rw [List.filterMap_map]
    exact List.filterMap_eq_nil_iff.mpr fun _ _ => rfl
  rw [emptyRanges, none, List.count_nil]

/-- Of two merged fields it is noted that a range is empty if that is so of neither of them alone. -/
theorem emptyRanges_mergedField (existing incoming : Field) :
    emptyRanges key (mergedField existing incoming).2 =
      if incoming.key = key ∧ (mergedField existing incoming).1.type.constraints.hasEmptyRange = true ∧
          existing.type.constraints.hasEmptyRange = false ∧
          incoming.type.constraints.hasEmptyRange = false then 1 else 0 := by
  -- What is noted of the constraints themselves is of divisors and patterns.
  rw [notes_mergedField, emptyRanges, List.filterMap_append,
    Constraints.filterMap_notes_intersect _ _ (fun _ _ => rfl) fun _ _ => rfl, List.nil_append]
  generalize (mergedField existing incoming).1.type.constraints.hasEmptyRange = merged
  cases merged <;> cases existing.type.constraints.hasEmptyRange <;>
    cases incoming.type.constraints.hasEmptyRange <;>
    simp [MergeNote.emptyRange?, List.count_singleton]

end

/-- The first field of a name narrows the constraints that are given for it, if there is one. -/
def Covers (given : List Constraints) : Option Field → Prop
  | none => given = []
  | some field => field.type.constraints.Narrows given

/-- What a merge has made of the ranges of a field. -/
structure Tallies (key : String) (seen : List Field) (fields : List Field) (notes : List MergeNote) :
    Prop where
  covers : Covers (constraintsOf key seen) (fields.find? fun field => field.key == key)
  noted : NotesEmptied key (constraintsOf key seen) notes

namespace Tallies

variable {equivalent : TypeKind TypeExpr → TypeKind TypeExpr → Bool} {key : String}
  {seen fields result : List Field} {notes more : List MergeNote} {incoming : Field}

/-- A field of another name leaves the ranges as they are. -/
theorem other (tallies : Tallies key seen fields notes) (isOther : incoming.key ≠ key)
    (adds : AddsField equivalent incoming fields (result, more)) :
    Tallies key (seen ++ [incoming]) result (notes ++ more) := by
  have sameGiven : constraintsOf key (seen ++ [incoming]) = constraintsOf key seen := by
    simp [constraintsOf_singleton, isOther]
  -- Wherever the field goes, the first field of the other name stays where it is.
  have sameFirst : result.find? (fun field => field.key == key) =
      fields.find? fun field => field.key == key := by
    cases adds with
    | last fresh => simp [List.find?_append, isOther]
    | merged before fresh sameKey => simp [List.find?_append, sameKey, isOther]
  have noNote : emptyRanges key more = 0 := by
    cases adds with
    | last => rfl
    | merged before => rw [emptyRanges_mergedField, if_neg fun noted => isOther noted.1]
  refine ⟨by rw [sameGiven, sameFirst]; exact tallies.covers, ?_⟩
  rw [sameGiven]
  exact ⟨fun some => by simp [tallies.noted.never some, noNote],
    fun none => by simp [tallies.noted.once none, noNote]⟩

/-- A field of the name narrows the ranges, and it is noted if that empties one. -/
theorem add (tallies : Tallies incoming.key seen fields notes)
    (ranged : incoming.type.constraints.HasRanges)
    (adds : AddsField equivalent incoming fields (result, more)) :
    Tallies incoming.key (seen ++ [incoming]) result (notes ++ more) := by
  have grown : constraintsOf incoming.key (seen ++ [incoming]) =
      constraintsOf incoming.key seen ++ [incoming.type.constraints] := by
    simp [constraintsOf_singleton]
  cases adds with
  | last fresh =>
    -- The first field of the name: its own ranges have values, and nothing is noted.
    have noField : fields.find? (fun field => field.key == incoming.key) = none :=
      List.find?_eq_none.mpr fun field isField => by simpa using fresh field isField
    have isFirst : constraintsOf incoming.key seen = [] := by
      have covers := tallies.covers
      rwa [noField] at covers
    -- No constraints have been given so far, and these always leave values.
    have noNote : emptyRanges incoming.key notes = 0 :=
      tallies.noted.never (isFirst ▸ .nil)
    rw [isFirst, List.nil_append] at grown
    refine ⟨?_, ?_⟩
    · rw [grown]
      simpa [List.find?_append, noField, Covers] using ranged.bounded.narrows
    · rw [grown]
      exact ⟨fun _ => by simp [noNote], fun isEmpty => absurd ranged.satisfiable isEmpty⟩
  | @merged before after existing fresh same =>
    -- The field that is there narrows all before, and what it is merged into narrows this one too.
    have noField : before.find? (fun field => field.key == incoming.key) = none :=
      List.find?_eq_none.mpr fun field isField => by simpa using fresh field isField
    have covers : existing.type.constraints.Narrows (constraintsOf incoming.key seen) := by
      simpa [List.find?_append, noField, same, Covers] using tallies.covers
    have narrows := covers.intersect ranged.bounded incoming.key
    rw [← grown] at narrows
    refine ⟨?_, ?_⟩
    · simpa [List.find?_append, noField, same, Covers] using narrows
    · have incomingEmpty : incoming.type.constraints.hasEmptyRange = false :=
        ranged.bounded.narrows.hasEmptyRange_iff.mpr ranged.satisfiable
      have noted := emptyRanges_mergedField incoming.key existing incoming
      rw [constraints_mergedField] at noted
      constructor
      · intro some
        -- What all leave, those before leave too, so nothing has been noted and nothing is now.
        have before : Satisfiable (constraintsOf incoming.key seen) := (grown ▸ some).left
        rw [emptyRanges_append, tallies.noted.never before, noted, narrows.hasEmptyRange_iff.mpr some]
        simp
      · intro none
        -- What was empty before has been noted, and it is not noted again.
        by_cases before : Satisfiable (constraintsOf incoming.key seen)
        · have merged := mt narrows.hasEmptyRange_iff.mp none
          rw [emptyRanges_append, tallies.noted.never before, noted, covers.hasEmptyRange_iff.mpr before]
          simpa [incomingEmpty] using merged
        · have existingEmpty := mt covers.hasEmptyRange_iff.mp before
          rw [emptyRanges_append, tallies.noted.once before, noted]
          simp [existingEmpty]

end Tallies

variable {equivalent : TypeKind TypeExpr → TypeKind TypeExpr → Bool} {members : List IntersectionMember}
  {key : String}

/-- After all fields are merged, their ranges are tallied. -/
theorem tallies_mergeRecords {shape : RecordShape} {notes : List MergeNote}
    (isMerged : mergeRecords equivalent members ({}, []) = .ok (shape, notes))
    (ranged : ∀ constraints ∈ constraintsOf key (occurrences members), constraints.HasRanges) :
    Tallies key (occurrences members) shape.fields notes := by
  have start : Tallies key [] [] [] := ⟨rfl, fun _ => rfl, fun none => absurd .nil none⟩
  -- Each field has to have ranges only once it is seen, so that stands inside the motive.
  refine @mergeRecords_induction equivalent
    (fun seen _ shape notes => (∀ constraints ∈ constraintsOf key seen, constraints.HasRanges) →
      Tallies key seen shape.fields notes)
    ?field (fun tallies _ => tallies) members [] [] {} shape [] notes (fun _ => start) isMerged ranged
  intro seen _ _ _ incoming _ _ tallies adds ranged
  rw [constraintsOf_append, List.forall_mem_append] at ranged
  by_cases isKey : incoming.key = key
  · subst isKey
    exact (tallies ranged.1).add (ranged.2 _ (by simp [constraintsOf_singleton])) adds
  · exact (tallies ranged.1).other isKey adds

/-- Among the fields of at most one record with distinct names, at most one has a given name. -/
theorem length_constraintsOf_le_one (few : (members.filter isTyped).length ≤ 1)
    (distinct : ∀ member ∈ members, (member.shape.fields.map Field.key).Nodup) (key : String) :
    (constraintsOf key (occurrences members)).length ≤ 1 := by
  -- Only typed members have fields.
  rw [← (parts_filter_isTyped members).1]
  cases isFiltered : members.filter isTyped with
  | nil => exact Nat.zero_le 1
  | cons member rest =>
    obtain rfl : rest = [] := by simpa [isFiltered] using few
    have isMember : member ∈ members :=
      List.mem_of_mem_filter (isFiltered ▸ List.mem_singleton_self member)
    -- In a record with distinct names, no name is counted twice.
    have counted := List.nodup_iff_count_le_one.mp (distinct member isMember) key
    rw [List.count, List.countP_map, List.countP_eq_length_filter] at counted
    simpa [constraintsOf, fieldsNamed, occurrences, Function.comp_def] using counted

/--
Whatever members merge into, it is noted once of a field if the constraints that they all give for it leave
a range without a value, and never otherwise.
-/
theorem notesEmptied_mergeAllOf {merged : Merged}
    (isMerged : mergeAllOf members equivalent = .ok merged)
    (distinct : ∀ member ∈ members, (member.shape.fields.map Field.key).Nodup)
    (ranged : ∀ constraints ∈ constraintsOf key (occurrences members), constraints.HasRanges) :
    NotesEmptied key (constraintsOf key (occurrences members)) merged.notes := by
  obtain ⟨_, ⟨alone, rfl⟩ | ⟨_, whole, notes, isWhole, rfl⟩⟩ := mergeAllOf_eq_ok_iff.mp isMerged
  · -- A single member is kept as it is, so nothing is noted but unknown names.
    exact ⟨fun _ => emptyRanges_unknownRequired key _,
      fun none => absurd (Satisfiable.of_length_le_one ranged
        (length_constraintsOf_le_one alone.1 distinct key)) none⟩
  · -- What is noted of ranges is noted while the typed members are merged.
    rw [← (parts_filter_isTyped members).1] at ranged ⊢
    have noted := (tallies_mergeRecords isWhole ranged).noted
    have unknown : emptyRanges key (requireFields (requiredNames members) whole.fields).2 = 0 := by
      rw [requireFields_eq]
      exact emptyRanges_unknownRequired key _
    exact ⟨fun some => by rw [emptyRanges_append, noted.never some, unknown],
      fun none => by rw [emptyRanges_append, noted.once none, unknown]⟩

/--
For every field, the intersection of two sets of constraints with finite bounds and positive divisors
combines them; and whatever members merge into, it is noted of the field once if the constraints that they
all give for it leave a range without a value, and never otherwise.
-/
theorem combine_and_notesEmptied (key : String) (members : List IntersectionMember)
    (equivalent : TypeKind TypeExpr → TypeKind TypeExpr → Bool) :
    (∀ left right : Constraints, left.Bounded → right.Bounded →
      Constraints.Divisible left.multipleOf right.multipleOf →
        left.Combine right (left.intersect key right).1 (left.intersect key right).2 key) ∧
    ∀ merged, mergeAllOf members equivalent = .ok merged →
      (∀ member ∈ members, (member.shape.fields.map Field.key).Nodup) →
      (∀ constraints ∈ constraintsOf key (occurrences members), constraints.HasRanges) →
        NotesEmptied key (constraintsOf key (occurrences members)) merged.notes :=
  ⟨fun _ _ leftBounded rightBounded divisible =>
      Constraints.combine_intersect leftBounded rightBounded divisible key,
    fun _ isMerged distinct ranged => notesEmptied_mergeAllOf isMerged distinct ranged⟩

/-- Constraints that ask for multiples of a natural. -/
def multiples (natural : Nat) : Constraints := { multipleOf := some (.ofInt natural) }

/-- Constraints that ask for numbers from three on, for multiples of four, and for numbers below three. -/
def aroundThree : List Constraints :=
  [{ minimum := some ⟨.ofInt 3, false⟩ }, multiples 4, { maximum := some ⟨.ofInt 3, true⟩ }]

/-- Records that share a field, of which each has constraints of its own. -/
def sharingRecords (given : List Constraints) : List IntersectionMember :=
  given.map fun constraints =>
    { label := "record"
      shape := .record { fields := [.ofType "n" ⟨.primitive .integer none, false, constraints⟩] } }

/-- Constraints that ask for multiples of a natural have no bounds. -/
theorem bounded_multiples (natural : Nat) : (multiples natural).Bounded :=
  ⟨by simp [multiples], by simp [multiples]⟩

/-- A natural that is small enough is a divisor. -/
theorem isDivisor_ofInt {natural : Nat} (positive : 0 < natural) (small : natural ≤ 2 ^ 53) :
    (Binary64.ofInt natural).IsDivisor :=
  ⟨natural, Binary64.rational?_ofInt positive small, by exact_mod_cast positive⟩

/-- Constraints on multiples of two divisors are divisible if the product of these fits. -/
theorem divisible_multiples {first second : Nat} (isFirst : (Binary64.ofInt first).IsDivisor)
    (isSecond : (Binary64.ofInt second).IsDivisor)
    (fits : Constraints.ProductFits (.ofInt first) (.ofInt second)) :
    Constraints.Divisible (multiples first).multipleOf (multiples second).multipleOf := by
  -- Only the two given divisors have to be looked at.
  refine ⟨fun divisor isGiven => ?_, fun divisor isLeft other isRight => ?_⟩
  · rcases isGiven with isGiven | isGiven <;> cases isGiven
    · exact isFirst
    · exact isSecond
  · cases isLeft
    cases isRight
    exact fits

/-- The bounds around three are finite, and no range is empty by itself. -/
theorem hasRanges_aroundThree : ∀ constraints ∈ aroundThree, constraints.HasRanges := by
  have ⟨three, isThree, _⟩ : (Binary64.ofInt (3 : Nat)).IsDivisor :=
    isDivisor_ofInt (by decide) (by decide)
  have finite : ∃ value, (Binary64.ofInt 3).rational? = some value := ⟨three, isThree⟩
  have bounded : ∀ constraints ∈ aroundThree, constraints.Bounded := by
    simp only [aroundThree, List.forall_mem_cons]
    exact ⟨⟨by simpa [Bound.IsFinite] using finite, by simp⟩, bounded_multiples 4,
      ⟨by simp, by simpa [Bound.IsFinite] using finite⟩, by simp⟩
  -- By itself, each of the three bounds or divisors leaves a number.
  have notEmpty : ∀ constraints ∈ aroundThree, constraints.hasEmptyRange = false := by decide
  exact fun constraints isGiven => ⟨bounded constraints isGiven,
    (bounded constraints isGiven).narrows.hasEmptyRange_iff.mp (notEmpty constraints isGiven)⟩

/-- No number is around three. -/
theorem not_satisfiable_aroundThree : ¬Satisfiable aroundThree := by
  have three : (Binary64.ofInt 3).rational? = some ((3 : Nat) : ℚ) :=
    Binary64.rational?_ofInt (by decide) (by decide)
  rintro ⟨⟨number, within⟩, _, _⟩
  -- A number would be at least three by the first set, and below three by the last.
  have least := (within _ List.mem_cons_self).least _ rfl
  have greatest := (within { maximum := some ⟨.ofInt 3, true⟩ } (by simp [aroundThree])).greatest _ rfl
  rw [Bound.isBelow_iff three] at least
  rw [Bound.isAbove_iff three] at greatest
  grind

/--
The multiples of four that are multiples of six are those of the divisor that comes of both; and of a field
that three records leave without a number around three, it is noted once.
-/
theorem combine_and_notesEmptied_aroundThree :
    Constraints.DividesAsBoth ((multiples 4).intersect "n" (multiples 6)).1.multipleOf
        (multiples 4).multipleOf (multiples 6).multipleOf ∧
      ∃ merged, mergeAllOf (sharingRecords aroundThree) (fun _ _ => false) = .ok merged ∧
        emptyRanges "n" merged.notes = 1 := by
  constructor
  · have divisible : Constraints.Divisible (multiples 4).multipleOf (multiples 6).multipleOf :=
      divisible_multiples (isDivisor_ofInt (by decide) (by decide))
        (isDivisor_ofInt (by decide) (by decide)) fun _ _ => by decide
    have ⟨combine, _⟩ := combine_and_notesEmptied "n" [] fun _ _ => false
    -- The least common multiple of four and six is twelve, far below the limit.
    refine (combine (multiples 4) (multiples 6) (bounded_multiples 4) (bounded_multiples 6)
      divisible).small fun divisor isLeft other isRight => ?_
    cases isLeft
    cases isRight
    exact ⟨4, 6, Binary64.rational?_ofInt (by decide) (by decide),
      Binary64.rational?_ofInt (by decide) (by decide), by decide⟩
  · obtain ⟨merged, isMerged⟩ :
        ∃ merged, mergeAllOf (sharingRecords aroundThree) (fun _ _ => false) = .ok merged := ⟨_, rfl⟩
    have ⟨_, notesEmptied⟩ := combine_and_notesEmptied "n" (sharingRecords aroundThree) fun _ _ => false
    have noted := notesEmptied merged isMerged (by decide) hasRanges_aroundThree
    exact ⟨merged, isMerged, noted.once not_satisfiable_aroundThree⟩

/--
The rounded quotient of `10 ^ 17` by three is whole, so that `10 ^ 17` is taken for the divisor of both: it
divides itself, and three does not.
-/
theorem not_dividesAsBoth_roundedQuotient :
    Constraints.Divisible (multiples 3).multipleOf (multiples (10 ^ 17)).multipleOf ∧
      ((multiples 3).intersect "n" (multiples (10 ^ 17))).2 = [] ∧
      ¬Constraints.DividesAsBoth ((multiples 3).intersect "n" (multiples (10 ^ 17))).1.multipleOf
        (multiples 3).multipleOf (multiples (10 ^ 17)).multipleOf := by
  have three : (Binary64.ofInt 3).rational? = some ((3 : Nat) : ℚ) :=
    Binary64.rational?_ofInt (by decide) (by decide)
  -- The number itself is exact, though its quotient is not.
  have rounded : Binary64.ofInt (10 ^ 17 : Nat) = .finite false (10 ^ 17 / 2 ^ 4) 4 (by decide) := by
    decide
  have large : (Binary64.ofInt (10 ^ 17 : Nat)).rational? = some (10 ^ 17) := by
    rw [rounded]
    norm_num [Binary64.rational?, Binary64.signed]
  have found : ((multiples 3).intersect "n" (multiples (10 ^ 17))).1.multipleOf =
      some (.ofInt (10 ^ 17 : Nat)) := by decide +kernel
  refine ⟨divisible_multiples (isDivisor_ofInt (by decide) (by decide)) ⟨_, large, by norm_num⟩
    fun _ _ => by decide +kernel, by decide +kernel, ?_⟩
  intro stands
  rw [found] at stands
  -- What is found divides itself, so three would have to divide it too.
  obtain ⟨byThree, _⟩ := (stands (10 ^ 17)).mp fun divisor isDivisor => by
    cases isDivisor
    exact Binary64.divides_self large
  obtain ⟨factor, isMultiple⟩ := (Binary64.divides_iff three _).mp (byThree _ rfl)
  have whole : (10 : ℤ) ^ 17 = factor * 3 := by exact_mod_cast isMultiple
  omega

end Intersection

end ApiTypes
