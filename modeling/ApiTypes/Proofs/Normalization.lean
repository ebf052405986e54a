import ApiTypes.Proofs.Satisfaction.Ranges
import ApiTypes.Proofs.SchemaNodes

/-!
Constraints brought together. What the keywords of a schema amount to is the same in every version, and of
that just what applies to the schema is kept; each constraint that goes is reported once, and so is each
range in which the kept bounds leave no value.
-/

namespace ApiTypes

/-- A computation gives a value and adds diagnostics to those that were reported before. -/
def Reporting.Adds {α : Type} (computation : Reporting α) (value : α) (reports : List Diagnostic) :
    Prop :=
  ∀ before, computation.run before = (value, before ++ reports)

namespace Reporting.Adds

variable {α β : Type} {computation : Reporting α} {value : α} {reports : List Diagnostic}

/-- A value adds nothing. -/
theorem pure (value : α) : Adds (pure value) value [] := fun before => by
  rw [List.append_nil]
  rfl

/-- A report adds itself. -/
theorem report (path : String) (cause : Cause) : Adds (report path cause) () [⟨path, cause⟩] :=
  fun _ => rfl

/-- What computations add that follow each other comes in their order. -/
theorem bind {next : α → Reporting β} {result : β} {more : List Diagnostic}
    (first : Adds computation value reports) (later : Adds (next value) result more) :
    Adds (computation >>= next) result (reports ++ more) := by
  intro before
  change (next (computation before).1) (computation before).2 = _
  rw [show computation before = (value, before ++ reports) from first before]
  exact (later _).trans (by rw [List.append_assoc])

/-- A computation that goes through a list adds what each of its steps adds, in order. -/
theorem forIn {entries : List β} {body : β → Reporting (ForInStep PUnit)}
    {added : β → List Diagnostic}
    (each : ∀ entry ∈ entries, Adds (body entry) (.yield ⟨⟩) (added entry)) :
    Adds (forIn entries PUnit.unit fun entry _ => body entry) ⟨⟩ (entries.flatMap added) := by
  induction entries with
  | nil => exact pure _
  | cons entry rest ih =>
    have ⟨first, later⟩ := List.forall_mem_cons.mp each
    rw [List.forIn_cons, List.flatMap_cons]
    exact first.bind (ih later)

/-- What is given does not depend on what was reported before. -/
theorem gives (adds : Adds computation value reports) : computation.Gives value :=
  fun before => congrArg Prod.fst (adds before)

/-- What is collected is what is added. -/
theorem collect_eq (adds : Adds computation value reports) : computation.collect = (value, reports) :=
  (adds []).trans (by rw [List.nil_append])

end Reporting.Adds

/-- A diagnostic is about the spelling of keywords, and not about what they ask. -/
def Diagnostic.IsOfSpelling (diagnostic : Diagnostic) : Prop :=
  diagnostic.cause.code ∈ ["version_mismatch", "nullable_conflict", "dangling_exclusive_flag"]

/-- A computation gives a value and adds only diagnostics about the spelling of keywords. -/
def Reporting.Spells {α : Type} (computation : Reporting α) (value : α) : Prop :=
  ∃ reports, computation.Adds value reports ∧ ∀ diagnostic ∈ reports, diagnostic.IsOfSpelling

namespace Reporting.Spells

variable {α β : Type} {computation : Reporting α} {value : α}

/-- A value adds nothing. -/
theorem pure (value : α) : Spells (pure value) value := ⟨[], Adds.pure value, by simp⟩

/-- Computations may follow each other. -/
theorem bind {next : α → Reporting β} {result : β} (first : Spells computation value)
    (later : Spells (next value) result) : Spells (computation >>= next) result := by
  obtain ⟨reports, adds, ofSpelling⟩ := first
  obtain ⟨more, alsoAdds, alsoOfSpelling⟩ := later
  exact ⟨reports ++ more, adds.bind alsoAdds, List.forall_mem_append.mpr ⟨ofSpelling, alsoOfSpelling⟩⟩

/-- A report about spelling may be made before a computation, under a condition. -/
theorem reportIf {condition : Prop} [Decidable condition] {path : String} {cause : Cause}
    {next : Unit → Reporting α} (isOfSpelling : Diagnostic.IsOfSpelling ⟨path, cause⟩)
    (later : Spells (next ()) value) :
    Spells (if condition then report path cause >>= next else next ()) value := by
  split
  · exact bind ⟨_, .report path cause, by simpa using isOfSpelling⟩ later
  · exact later

end Reporting.Spells

namespace Normalization

/-- The bound that two keywords at one end of a range amount to. -/
def boundOf (rangeEnd : RangeEnd) (inclusive : Option Binary64) :
    Option ExclusiveBound → Option Bound
  | none => inclusive.map .inclusive
  | some (.flag flag) => inclusive.map fun value => ⟨value, flag⟩
  | some (.value value) => some (match inclusive with
    | none => .exclusively value
    | some inclusive => tighter rangeEnd inclusive value)

/-- All constraints that keywords amount to, whatever they apply to. -/
def constraintsOf (keywords : PlainKeywords) : Constraints where
  minimum := boundOf .lower keywords.minimum keywords.exclusiveMinimum
  maximum := boundOf .upper keywords.maximum keywords.exclusiveMaximum
  multipleOf := keywords.multipleOf
  minLength := keywords.minLength
  maxLength := keywords.maxLength
  pattern := keywords.pattern
  minItems := keywords.minItems
  maxItems := keywords.maxItems
  uniqueItems := keywords.uniqueItems.getD false

/-- Whether keywords admit null: types that can express null win over the flag. -/
def admitsNull (keywords : PlainKeywords) : Bool :=
  ((keywords.type.filter TypeKeyword.isMultiForm).map TypeKeyword.containsNull).getD
    (keywords.nullable.getD false)

open Reporting (Spells)

/-- Whether null is admitted is found with reports about its two spellings. -/
theorem spells_nullable (keywords : PlainKeywords) (version : SpecVersion) (path : String) :
    Spells (nullable keywords version path) (admitsNull keywords) := by
  unfold nullable admitsNull
  refine .reportIf (by simp [Diagnostic.IsOfSpelling, Cause.code]) ?_
  refine .reportIf (by simp [Diagnostic.IsOfSpelling, Cause.code]) ?_
  cases keywords.type.filter TypeKeyword.isMultiForm with
  | none => exact .pure _
  | some types =>
    cases keywords.nullable with
    | none => exact (Spells.pure _).bind (.pure _)
    | some flag => exact .reportIf (by simp [Diagnostic.IsOfSpelling, Cause.code]) (.pure _)

/-- A bound is found with reports about its two spellings. -/
theorem spells_bound (rangeEnd : RangeEnd) (inclusive : Option Binary64)
    (exclusive : Option ExclusiveBound) (version : SpecVersion) (path : String) :
    Spells (bound rangeEnd inclusive exclusive version path)
      (boundOf rangeEnd inclusive exclusive) := by
  unfold bound boundOf
  rcases exclusive with _ | (flag | value)
  · exact .pure _
  · refine .reportIf (by simp [Diagnostic.IsOfSpelling, Cause.code]) ?_
    exact .reportIf (by simp [Diagnostic.IsOfSpelling, Cause.code]) (.pure _)
  · exact .reportIf (by simp [Diagnostic.IsOfSpelling, Cause.code]) (.pure _)

/-- The stated constraints are found with reports about the spellings of their bounds. -/
theorem spells_stated (keywords : PlainKeywords) (version : SpecVersion) (path : String) :
    Spells (stated keywords version path) (constraintsOf keywords) :=
  (spells_bound _ _ _ _ _).bind ((spells_bound _ _ _ _ _).bind (.pure _))

/-- The reports of the stated constraints that a target does not accept. -/
def mismatches (keywords : PlainKeywords) (target : ConstraintTarget) (kind path : String) :
    List Diagnostic :=
  ((constraintsOf keywords).rejectedBy target).map fun keyword => ⟨path, .inapplicable keyword kind⟩

/-- The reports of the families in which constraints leave no value. -/
def inversions (constraints : Constraints) (path : String) : List Diagnostic :=
  [ConstraintFamily.numeric, .string, .array].flatMap fun family =>
    if constraints.isEmptyRange family then [⟨path, .invertedRange family⟩] else []

end Normalization

open Normalization

section
variable {σ : Type} (keywords : Keywords σ) (target : ConstraintTarget) (version : SpecVersion)
  (path : String)

/-- Keywords are normalized to the constraints that apply and to the admission of null. Reported are first
the spellings, then the constraints that do not apply, and then the ranges without values. -/
theorem adds_normalize : ∃ spellings,
    (∀ diagnostic ∈ spellings, diagnostic.IsOfSpelling) ∧
      (normalize keywords target version path).Adds
        ⟨(constraintsOf keywords.toPlainKeywords).restrictedTo target,
          admitsNull keywords.toPlainKeywords⟩
        (spellings ++
          (mismatches keywords.toPlainKeywords target
              (describe keywords.toPlainKeywords !keywords.properties.isEmpty) path ++
            inversions ((constraintsOf keywords.toPlainKeywords).restrictedTo target) path)) := by
  obtain ⟨ofNull, addsNull, spellsNull⟩ := spells_nullable keywords.toPlainKeywords version path
  obtain ⟨ofBounds, addsBounds, spellsBounds⟩ := spells_stated keywords.toPlainKeywords version path
  refine ⟨ofNull ++ ofBounds, List.forall_mem_append.mpr ⟨spellsNull, spellsBounds⟩, ?_⟩
  rw [List.append_assoc]
  -- Behind the two that spell follow the loops over the rejected constraints and over the families.
  refine addsNull.bind (addsBounds.bind (.bind (?_ : Reporting.Adds _ PUnit.unit _) ?_))
  · rw [mismatches, List.map_eq_flatMap]
    exact .forIn fun _ _ => (Reporting.Adds.report _ _).bind (.pure _)
  · rw [← List.append_nil (inversions _ path)]
    refine Reporting.Adds.bind (.forIn fun family _ => ?_) (.pure _)
    split
    · exact (Reporting.Adds.report _ _).bind (.pure _)
    · exact .pure _

/-- What keywords are normalized to does not depend on the version or the place. -/
theorem gives_normalize : (normalize keywords target version path).Gives
    ⟨(constraintsOf keywords.toPlainKeywords).restrictedTo target,
      admitsNull keywords.toPlainKeywords⟩ := by
  obtain ⟨_, _, adds⟩ := adds_normalize keywords target version path
  exact adds.gives

end

namespace Constraints

variable (constraints : Constraints)

/-- A constraint is kept by a target that accepts its family. -/
theorem has_restrictedTo (target : ConstraintTarget) (keyword : ConstraintKeyword) :
    (constraints.restrictedTo target).has keyword =
      (target.accepts keyword.family && constraints.has keyword) := by
  obtain ⟨numeric, string, array⟩ := target
  cases keyword <;> cases numeric <;> cases string <;> cases array <;> rfl

/-- A target that accepts every family keeps everything. -/
theorem restrictedTo_every : constraints.restrictedTo .every = constraints := rfl

/-- Rejected is what a target does not keep. -/
theorem rejectedBy_eq (target : ConstraintTarget) :
    constraints.rejectedBy target = ConstraintKeyword.all.filter fun keyword =>
      constraints.has keyword && !(constraints.restrictedTo target).has keyword := by
  rw [rejectedBy, present, List.filter_filter]
  refine List.filter_congr fun keyword _ => ?_
  rw [has_restrictedTo]
  cases constraints.has keyword <;> cases target.accepts keyword.family <;> rfl

end Constraints

namespace RangeEnd

/-- A number is on the inner side of a bound at an end of a range, or on the bound. -/
def Reaches : RangeEnd → ℚ → ℚ → Prop
  | .lower, bound, number => bound ≤ number
  | .upper, bound, number => number ≤ bound

/-- A number is on the inner side of a bound at an end of a range. -/
def Passes : RangeEnd → ℚ → ℚ → Prop
  | .lower, bound, number => bound < number
  | .upper, bound, number => number < bound

/-- What the two keywords at an end of a range ask of a number, in exact values: it reaches the inclusive
bound, it passes that bound if a flag says so, and it passes an exclusive bound of its own besides. -/
@[mk_iff]
structure Asks (rangeEnd : RangeEnd) (inclusive : Option Binary64)
    (exclusive : Option ExclusiveBound) (number : ℚ) : Prop where
  reaches : ∀ value ∈ inclusive, ∀ bound ∈ value.rational?, rangeEnd.Reaches bound number
  flagged : exclusive = some (.flag true) →
    ∀ value ∈ inclusive, ∀ bound ∈ value.rational?, rangeEnd.Passes bound number
  passes : ∀ value, exclusive = some (.value value) →
    ∀ bound ∈ value.rational?, rangeEnd.Passes bound number

/-- The two keywords at an end of a range are finite numbers as far as they are numbers. -/
structure Exact (inclusive : Option Binary64) (exclusive : Option ExclusiveBound) : Prop where
  inclusive : ∀ value ∈ inclusive, ∃ bound, value.rational? = some bound
  exclusive : ∀ value, exclusive = some (.value value) → ∃ bound, value.rational? = some bound

/-- A number meets a bound at an end of a range. -/
def Meets : RangeEnd → Bound → ℚ → Prop
  | .lower => Bound.IsBelow
  | .upper => Bound.IsAbove

variable {rangeEnd : RangeEnd}

/-- A finite bound is passed, or reached unless it is exclusive. -/
theorem meets_iff {value : Binary64} {bound : ℚ} (isBound : value.rational? = some bound)
    (flag : Bool) (number : ℚ) :
    rangeEnd.Meets ⟨value, flag⟩ number ↔
      if flag then rangeEnd.Passes bound number else rangeEnd.Reaches bound number := by
  cases rangeEnd with
  | lower => rw [Meets, Bound.IsBelow, isBound]; rfl
  | upper => rw [Meets, Bound.IsAbove, isBound]; rfl

/-- Of finite bounds the exclusive one is the tighter where it reaches the inclusive one. -/
theorem tighter_cases (rangeEnd : RangeEnd) {inclusive exclusive : Binary64} {first second : ℚ}
    (isFirst : inclusive.rational? = some first) (isSecond : exclusive.rational? = some second) :
    rangeEnd.Reaches first second ∧ tighter rangeEnd inclusive exclusive = .exclusively exclusive ∨
      ¬rangeEnd.Reaches first second ∧ tighter rangeEnd inclusive exclusive = .inclusive inclusive := by
  have ordered {left right : Binary64} {low high : ℚ} (isLow : left.rational? = some low)
      (isHigh : right.rational? = some high) : Binary64.le left right = true ↔ low ≤ high := by
    rw [Binary64.le, Bool.or_eq_true, Binary64.lt_iff isLow isHigh,
      Binary64.beq_iff_of_rational isLow isHigh, le_iff_lt_or_eq]
  have wins : (match rangeEnd with
      | .lower => Binary64.le inclusive exclusive
      | .upper => Binary64.le exclusive inclusive) = true ↔ rangeEnd.Reaches first second := by
    cases rangeEnd with
    | lower => exact ordered isFirst isSecond
    | upper => exact ordered isSecond isFirst
  by_cases reaches : rangeEnd.Reaches first second
  · exact .inl ⟨reaches, if_pos (wins.mpr reaches)⟩
  · exact .inr ⟨reaches, if_neg (mt wins.mp reaches)⟩

/-- A number that passes a bound reaches it. -/
theorem Passes.reaches {bound number : ℚ} (passes : rangeEnd.Passes bound number) :
    rangeEnd.Reaches bound number := by
  cases rangeEnd with
  | lower => exact le_of_lt passes
  | upper => exact le_of_lt passes

/-- A number that passes a bound reaches everything that the bound reaches. -/
theorem Reaches.trans_passes {first second number : ℚ} (reaches : rangeEnd.Reaches first second)
    (passes : rangeEnd.Passes second number) : rangeEnd.Reaches first number := by
  cases rangeEnd with
  | lower => exact (lt_of_le_of_lt reaches passes).le
  | upper => exact (lt_of_lt_of_le passes reaches).le

/-- A number that reaches a bound passes everything that does not reach the bound. -/
theorem Reaches.passes_of_not_reaches {first second number : ℚ}
    (notReaches : ¬rangeEnd.Reaches first second) (reaches : rangeEnd.Reaches first number) :
    rangeEnd.Passes second number := by
  cases rangeEnd with
  | lower => exact lt_of_lt_of_le (not_le.mp notReaches) reaches
  | upper => exact lt_of_le_of_lt reaches (not_le.mp notReaches)

/-- The bound that two keywords amount to asks of a number what they ask. -/
theorem meets_boundOf_iff {inclusive : Option Binary64} {exclusive : Option ExclusiveBound}
    (exact : Exact inclusive exclusive) (number : ℚ) :
    (∀ bound ∈ boundOf rangeEnd inclusive exclusive, rangeEnd.Meets bound number) ↔
      rangeEnd.Asks inclusive exclusive number := by
  cases inclusive with
  | none =>
    rcases exclusive with _ | (flag | value)
    · simp [boundOf, asks_iff]
    · simp [boundOf, asks_iff]
    · obtain ⟨bound, isBound⟩ := exact.exclusive value rfl
      simp [boundOf, asks_iff, Bound.exclusively, meets_iff isBound, isBound]
  | some least =>
    obtain ⟨bound, isBound⟩ := exact.inclusive least rfl
    rcases exclusive with _ | (flag | value)
    · simp [boundOf, asks_iff, Bound.inclusive, meets_iff isBound, isBound]
    · cases flag with
      | false => simp [boundOf, asks_iff, meets_iff isBound, isBound]
      | true => simpa [boundOf, asks_iff, meets_iff isBound, isBound] using Passes.reaches
    · -- The bound that is not taken asks nothing that the other one does not ask.
      obtain ⟨other, isOther⟩ := exact.exclusive value rfl
      rcases rangeEnd.tighter_cases isBound isOther with
        ⟨reaches, isTighter⟩ | ⟨notReaches, isTighter⟩
      · simpa [boundOf, asks_iff, isTighter, Bound.exclusively, meets_iff isOther, isBound, isOther]
          using reaches.trans_passes
      · simpa [boundOf, asks_iff, isTighter, Bound.inclusive, meets_iff isBound, isBound, isOther]
          using Reaches.passes_of_not_reaches notReaches

/-- The bound that two keywords amount to is one of theirs, so it is finite if theirs are. -/
theorem isFinite_of_mem_boundOf {inclusive : Option Binary64} {exclusive : Option ExclusiveBound}
    (exact : Exact inclusive exclusive) {bound : Bound}
    (isBound : bound ∈ boundOf rangeEnd inclusive exclusive) : bound.IsFinite := by
  rcases exclusive with _ | (flag | value)
  · obtain ⟨value, isValue, rfl⟩ := Option.map_eq_some_iff.mp isBound
    exact exact.inclusive value isValue
  · obtain ⟨value, isValue, rfl⟩ := Option.map_eq_some_iff.mp isBound
    exact exact.inclusive value isValue
  · obtain rfl := Option.some.inj isBound
    cases inclusive with
    | none => exact exact.exclusive value rfl
    | some least =>
      -- Whichever is the tighter, it is one of the two.
      have isOne : tighter rangeEnd least value = .exclusively value ∨
          tighter rangeEnd least value = .inclusive least := ite_eq_or_eq _ _ _
      rcases isOne with isOne | isOne <;> simp only [isOne]
      · exact exact.exclusive value rfl
      · exact exact.inclusive least rfl

end RangeEnd

/-- The bounds on numbers are finite. -/
structure PlainKeywords.HasExactBounds (keywords : PlainKeywords) : Prop where
  lower : RangeEnd.Exact keywords.minimum keywords.exclusiveMinimum
  upper : RangeEnd.Exact keywords.maximum keywords.exclusiveMaximum

/-- Some value lies within the bounds on a family, in exact numbers. -/
def Constraints.LeavesValue (constraints : Constraints) : ConstraintFamily → Prop
  | .numeric => ∃ number, WithinBounds constraints.minimum constraints.maximum number
  | .string => ∃ length, WithinCounts constraints.minLength constraints.maxLength length
  | .array => ∃ count, WithinCounts constraints.minItems constraints.maxItems count

/-- The range of a family is taken to be empty if no value lies within its bounds. -/
theorem Constraints.isEmptyRange_iff (constraints : Constraints) (family : ConstraintFamily)
    (bounded : family = .numeric → constraints.Bounded) :
    constraints.isEmptyRange family = true ↔ ¬constraints.LeavesValue family := by
  -- What is known of ranges is when they are not taken to be empty.
  rw [← Bool.not_eq_false, not_iff_not]
  cases family with
  | numeric =>
    have bounded := bounded rfl
    exact excludesNumbers_eq_false_iff bounded.minimum bounded.maximum
  | string => exact excludesCounts_eq_false_iff _ _
  | array => exact excludesCounts_eq_false_iff _ _

namespace Normalization

/-- Finite keywords amount to finite bounds, and what a target keeps of these is finite. -/
theorem bounded_restrictedTo {keywords : PlainKeywords} (exact : keywords.HasExactBounds)
    (target : ConstraintTarget) : ((constraintsOf keywords).restrictedTo target).Bounded where
  minimum bound isBound := by
    simp only [Constraints.restrictedTo] at isBound
    split at isBound
    · exact RangeEnd.isFinite_of_mem_boundOf exact.lower isBound
    · cases isBound
  maximum bound isBound := by
    simp only [Constraints.restrictedTo] at isBound
    split at isBound
    · exact RangeEnd.isFinite_of_mem_boundOf exact.upper isBound
    · cases isBound

/-- The bounds that keywords amount to admit a number if the keywords at both ends do. -/
theorem withinBounds_constraintsOf_iff {keywords : PlainKeywords} (exact : keywords.HasExactBounds)
    (number : ℚ) :
    WithinBounds (constraintsOf keywords).minimum (constraintsOf keywords).maximum number ↔
      RangeEnd.lower.Asks keywords.minimum keywords.exclusiveMinimum number ∧
        RangeEnd.upper.Asks keywords.maximum keywords.exclusiveMaximum number := by
  rw [← RangeEnd.meets_boundOf_iff exact.lower, ← RangeEnd.meets_boundOf_iff exact.upper]
  exact ⟨fun ⟨least, greatest⟩ => ⟨least, greatest⟩, fun ⟨least, greatest⟩ => ⟨least, greatest⟩⟩

/-- What is reported of empty ranges is one report for each family. -/
theorem mem_inversions_iff {constraints : Constraints} {path : String} {report : Diagnostic} :
    report ∈ inversions constraints path ↔
      ∃ family, constraints.isEmptyRange family = true ∧ report = ⟨path, .invertedRange family⟩ := by
  simp only [inversions, List.mem_flatMap, List.mem_ite_nil_right, List.mem_singleton]
  refine exists_congr fun family => and_iff_right ?_
  cases family <;> simp

/-- A diagnostic of spellings has none of the other codes of normalization. -/
theorem code_ne_of_isOfSpelling {diagnostic : Diagnostic} (isOfSpelling : diagnostic.IsOfSpelling) :
    diagnostic.cause.code ≠ "constraint_type_mismatch" ∧
      diagnostic.cause.code ≠ "inverted_range" := by
  simp only [Diagnostic.IsOfSpelling, List.mem_cons, List.not_mem_nil, or_false] at isOfSpelling
  rcases isOfSpelling with isCode | isCode | isCode <;> rw [isCode] <;> decide

end Normalization

/--
Of `whole`, the constraints that keywords amount to where every family is accepted, those that apply are
kept, and what is reported says what went.
-/
structure KeepsApplicable {σ : Type} (keywords : Keywords σ) (target : ConstraintTarget)
    (path : String) (whole kept : Constraints) (reports : List Diagnostic) : Prop where
  restricts : kept = whole.restrictedTo target
  asks : keywords.HasExactBounds → ∀ number,
    WithinBounds whole.minimum whole.maximum number ↔
      RangeEnd.lower.Asks keywords.minimum keywords.exclusiveMinimum number ∧
        RangeEnd.upper.Asks keywords.maximum keywords.exclusiveMaximum number
  /-- One warning for each constraint that is not kept, in order, and no other of its code. -/
  mismatches : (reports.filter fun report => report.cause.code = "constraint_type_mismatch") =
    (ConstraintKeyword.all.filter fun keyword => whole.has keyword && !kept.has keyword).map
      fun keyword =>
        ⟨path, .inapplicable keyword
          (describe keywords.toPlainKeywords !keywords.properties.isEmpty)⟩
  inversions : ∀ family, (family = .numeric → keywords.HasExactBounds) →
    ((⟨path, .invertedRange family⟩ : Diagnostic) ∈ reports ↔ ¬kept.LeavesValue family)

/-- In every version, normalization keeps of what keywords ask just what applies, and reports what goes
and where no value is left. -/
theorem normalize_keepsApplicable {σ : Type} (keywords : Keywords σ) (target : ConstraintTarget)
    (version : SpecVersion) (path : String) :
    KeepsApplicable keywords target path
      (normalize keywords .every version path).collect.1.constraints
      (normalize keywords target version path).collect.1.constraints
      (normalize keywords target version path).collect.2 := by
  obtain ⟨spellings, ofSpelling, adds⟩ := adds_normalize keywords target version path
  have notOther := fun diagnostic isReport => code_ne_of_isOfSpelling (ofSpelling diagnostic isReport)
  rw [(gives_normalize keywords .every version path).collect_eq, adds.collect_eq,
    Constraints.restrictedTo_every]
  refine ⟨rfl, fun exact => withinBounds_constraintsOf_iff exact, ?_, fun family exact => ?_⟩
  · -- Reports of the other stages have other codes.
    have noSpelling : (spellings.filter fun report =>
        report.cause.code = "constraint_type_mismatch") = [] := by
      simpa using fun report isReport => (notOther report isReport).1
    have noInversion : ((inversions ((constraintsOf keywords.toPlainKeywords).restrictedTo target)
        path).filter fun report => report.cause.code = "constraint_type_mismatch") = [] := by
      rw [List.filter_eq_nil_iff]
      intro report isReport
      obtain ⟨family, _, rfl⟩ := mem_inversions_iff.mp isReport
      simp [Cause.code]
    rw [List.filter_append, List.filter_append, noSpelling, noInversion, List.nil_append,
      List.append_nil, mismatches, ← Constraints.rejectedBy_eq]
    exact List.filter_eq_self.mpr (by simp [Cause.code])
  · rw [← Constraints.isEmptyRange_iff _ family fun isNumeric =>
      bounded_restrictedTo (exact isNumeric) target, List.mem_append, List.mem_append,
      mem_inversions_iff]
    constructor
    · rintro (isSpelling | isMismatch | ⟨other, isEmpty, isSame⟩)
      · exact absurd rfl (notOther _ isSpelling).2
      · simp [mismatches] at isMismatch
      · cases isSame
        exact isEmpty
    · exact fun isEmpty => .inr (.inr ⟨family, isEmpty, rfl⟩)

/-- Keywords of integers above five and up to five, with a pattern. -/
def aboveFiveToFive : Keywords Schema where
  type := some (.single .integer)
  minimum := some (.ofInt 5)
  exclusiveMinimum := some (.flag true)
  maximum := some (.ofInt 5)
  pattern := some "a"

/-- Of keywords for integers the pattern does not apply, which is reported once, and no number is left of
those above five and up to five, which is reported as well. -/
theorem normalize_keepsApplicable_aboveFiveToFive :
    let reports := (normalize aboveFiveToFive (.only .numeric) .v31 "#").collect.2
    (reports.filter fun report => report.cause.code = "constraint_type_mismatch") =
        [⟨"#", .inapplicable .pattern "integer"⟩] ∧
      (⟨"#", .invertedRange .numeric⟩ : Diagnostic) ∈ reports := by
  have five : (Binary64.ofInt 5).rational? = some ((5 : Nat) : ℚ) :=
    Binary64.rational?_ofInt (by decide) (by decide)
  have exact : aboveFiveToFive.HasExactBounds := by
    constructor <;> refine ⟨fun value isValue => ?_, fun _ isValue => by cases isValue⟩ <;>
      exact ⟨5, Option.some.inj isValue ▸ five⟩
  have keeps := normalize_keepsApplicable aboveFiveToFive (.only .numeric) .v31 "#"
  constructor
  · refine keeps.mismatches.trans ?_
    rw [show (ConstraintKeyword.all.filter _) = [ConstraintKeyword.pattern] by decide]
    rfl
  · refine (keeps.inversions .numeric fun _ => exact).mpr ?_
    rintro ⟨number, within⟩
    -- A number would be above five by the keywords of one end, and at most five by the other.
    rw [keeps.restricts] at within
    have ⟨lower, upper⟩ := (keeps.asks exact number).mp ⟨within.least, within.greatest⟩
    exact absurd (lower.flagged rfl _ rfl _ five) (not_lt.mpr (upper.reaches _ rfl _ five))

end ApiTypes
