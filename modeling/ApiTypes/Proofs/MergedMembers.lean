import ApiTypes.Proofs.Composition

/-!
What of its members a merge depends on: neither on what messages call them, nor on those that place no
restriction, and on the equivalence of types only as far as their own types go. A field that only one of
them declares keeps its type.
-/

namespace ApiTypes

/-- A contribution places no restriction. -/
def MemberShape.isUnconstrained : MemberShape → Bool
  | .unconstrained => true
  | .record _ | .required _ | .scalar _ | .union => false

namespace Intersection

/-- A member that messages do not call anything. -/
def unlabelled (member : IntersectionMember) : IntersectionMember := { member with label := "" }

/-- The members that place some restriction, whatever messages call them. -/
def bare (members : List IntersectionMember) : List IntersectionMember :=
  (members.filter fun member => !member.shape.isUnconstrained).map unlabelled

/-- The first member is bare or left out. -/
theorem bare_cons (member : IntersectionMember) (rest : List IntersectionMember) :
    bare (member :: rest) =
      if member.shape.isUnconstrained then bare rest else unlabelled member :: bare rest := by
  unfold bare
  rw [List.filter_cons]
  cases member.shape.isUnconstrained <;> rfl

/-- A member that places no restriction is left out. -/
@[simp] theorem bare_cons_unconstrained (label : String) (reference : Option String)
    (rest : List IntersectionMember) : bare (⟨label, reference, .unconstrained⟩ :: rest) = bare rest :=
  bare_cons _ _

/-- Members are bare one by one. -/
theorem bare_append (members others : List IntersectionMember) :
    bare (members ++ others) = bare members ++ bare others := by
  rw [bare, List.filter_append, List.map_append, ← bare, ← bare]

/-- A choice among members is one among the bare members. -/
theorem any_isUnion_bare (members : List IntersectionMember) :
    (bare members).any isUnion = members.any isUnion := by
  -- A member without a restriction is no choice.
  induction members with
  | nil => rfl
  | cons member rest ih =>
    obtain ⟨label, reference, shape⟩ := member
    rw [bare_cons, List.any_cons, ← ih]
    cases shape <;> simp [MemberShape.isUnconstrained, isUnion, unlabelled]

/-- Bare members require the same names. -/
theorem requiredNames_bare (members : List IntersectionMember) :
    requiredNames (bare members) = requiredNames members := by
  -- A member without a restriction requires no names, whatever has been found before.
  unfold requiredNames
  suffices general : ∀ found : List String, (bare members).foldl _ found = members.foldl _ found from
    general []
  induction members with
  | nil => exact fun _ => rfl
  | cons member rest ih =>
    intro found
    obtain ⟨label, reference, shape⟩ := member
    rw [bare_cons, List.foldl_cons, ← ih]
    cases shape <;> rfl

/-- The typed ones among the bare members are the typed members. -/
theorem filter_isTyped_bare (members : List IntersectionMember) :
    (bare members).filter isTyped = (members.filter isTyped).map unlabelled := by
  induction members with
  | nil => rfl
  | cons member rest ih =>
    obtain ⟨label, reference, shape⟩ := member
    rw [bare_cons]
    cases shape <;>
      simp [MemberShape.isUnconstrained, List.filter_cons, isTyped, unlabelled, ih]

/-- A single member is a record whatever it is called. -/
theorem isSingleRecord_unlabelled (members : List IntersectionMember) :
    isSingleRecord (members.map unlabelled) = isSingleRecord members := by
  match members with
  | [] => rfl
  | [⟨_, _, shape⟩] => cases shape <;> rfl
  | _ :: _ :: _ => simp [isSingleRecord]

/-- A single member stands for itself whatever it is called. -/
theorem single_unlabelled (members : List IntersectionMember) :
    single (members.map unlabelled) = single members := by
  match members with
  | [] => rfl
  | [⟨_, reference, shape⟩] => cases reference <;> cases shape <;> rfl
  | _ :: _ :: _ => simp [single]

variable {equivalent also : TypeKind TypeExpr → TypeKind TypeExpr → Bool}

/-- Records merge into the same whatever they are called. -/
theorem toOption_mergeRecords_unlabelled (members : List IntersectionMember)
    (merged : RecordShape × List MergeNote) :
    (mergeRecords equivalent (members.map unlabelled) merged).toOption =
      (mergeRecords equivalent members merged).toOption := by
  -- Labels are used only in the errors of members that are no records.
  induction members generalizing merged with
  | nil => rfl
  | cons member rest ih =>
    obtain ⟨label, reference, shape⟩ := member
    cases shape with
    | required | unconstrained | scalar | union => rfl
    | record shape =>
      simp only [List.map_cons, unlabelled, mergeRecords]
      cases addFields equivalent shape.fields merged with
      | error error => rfl
      | ok whole =>
        simp only [bind, Except.bind]
        cases mergeAdditional equivalent whole.1.additional shape.additional with
        | error error => rfl
        | ok additional => exact ih _

/-- A type that is merged mentions what it did before. -/
theorem Stable.of_mentions (holds : String → Prop) :
    Stable equivalent fun type => ∀ mention ∈ type.mentions, holds mention := by
  -- A merged type keeps its kind, and only that mentions names.
  intro old new key nullable _ inOld _
  have sameMentions : ({ old with
      nullable, constraints := (old.constraints.intersect key new.constraints).1 } :
        TypeExpr).mentions = old.mentions := TypeExpr.mentions_eq_of_kind rfl
  rwa [sameMentions]

/-- Some kinds are equivalent in two senses or in none. -/
def SameOn (holds : TypeExpr → Prop) (equivalent also : TypeKind TypeExpr → TypeKind TypeExpr → Bool) :
    Prop :=
  ∀ {left right : TypeExpr}, holds left → holds right →
    also left.kind right.kind = equivalent left.kind right.kind

section

variable {holds : TypeExpr → Prop} (same : SameOn holds equivalent also)

include same

/-- A field is merged into another one in the same way. -/
theorem mergeField_congr {existing incoming : Field} (old : holds existing.type)
    (new : holds incoming.type) :
    mergeField also existing incoming = mergeField equivalent existing incoming := by
  have sameKinds := same old new
  simp only [mergeField, sameKinds]

/-- A field is added to others in the same way. -/
theorem addField_congr {incoming : Field} {fields : List Field}
    (old : ∀ field ∈ fields, holds field.type) (new : holds incoming.type) :
    addField also incoming fields = addField equivalent incoming fields := by
  induction fields with
  | nil => rfl
  | cons existing rest ih =>
    have ⟨first, later⟩ := List.forall_mem_cons.mp old
    rw [addField, addField, mergeField_congr same first new, ih later]

/-- Types of further properties are merged in the same way. -/
theorem mergeAdditional_congr {current extra : Option TypeExpr} (old : ∀ type ∈ current, holds type)
    (new : ∀ type ∈ extra, holds type) :
    mergeAdditional also current extra = mergeAdditional equivalent current extra := by
  cases current with
  | none => rfl
  | some current => cases extra with
    | none => rfl
    | some extra => rw [mergeAdditional, mergeAdditional, same (old current rfl) (new extra rfl)]

variable (stable : Stable equivalent holds)

include stable

/-- Fields are added to others in the same way. -/
theorem addFields_congr {incoming : List Field} {shape : RecordShape} {notes : List MergeNote}
    (old : ∀ type ∈ shape.types, holds type) (new : ∀ field ∈ incoming, holds field.type) :
    addFields also incoming (shape, notes) = addFields equivalent incoming (shape, notes) := by
  -- The fields of the record keep the property, so the induction may go on with the grown record.
  induction incoming generalizing shape notes with
  | nil => rfl
  | cons field rest ih =>
    have ⟨first, later⟩ := List.forall_mem_cons.mp new
    have ⟨fields, additional⟩ := shape.forall_types_iff.mp old
    rw [addFields, addFields, addField_congr same fields first]
    cases isAdded : addField equivalent field shape.fields with
    | error error => rfl
    | ok found =>
      refine ih ((RecordShape.forall_types_iff _).mpr ⟨?_, additional⟩) later
      exact stable.addsField fields first (addField_eq_ok_iff.mp isAdded)

/-- Records are merged in the same way. -/
theorem mergeRecords_congr {members : List IntersectionMember} {shape : RecordShape}
    {notes : List MergeNote} (old : ∀ type ∈ shape.types, holds type)
    (new : ∀ member ∈ members, ∀ type ∈ member.shape.types, holds type) :
    mergeRecords also members (shape, notes) = mergeRecords equivalent members (shape, notes) := by
  -- Fields and further properties are merged alike, and what comes of them has the property again.
  induction members generalizing shape notes with
  | nil => rfl
  | cons member rest ih =>
    obtain ⟨first, later⟩ := List.forall_mem_cons.mp new
    obtain ⟨label, reference, contribution⟩ := member
    cases contribution with
    | required | unconstrained | scalar | union => rfl
    | record incoming =>
      obtain ⟨fields, additional⟩ := incoming.forall_types_iff.mp first
      rw [mergeRecords, mergeRecords, addFields_congr same stable old fields]
      cases isAdded : addFields equivalent incoming.fields (shape, notes) with
      | error error => rfl
      | ok whole =>
        obtain ⟨added, further⟩ :=
          (RecordShape.forall_types_iff _).mp (stable.addFields old fields isAdded)
        simp only [bind, Except.bind, mergeAdditional_congr same further additional]
        cases isFurther : mergeAdditional equivalent whole.1.additional incoming.additional with
        | error error => rfl
        | ok merged =>
          obtain ⟨_, rfl⟩ := mergeAdditional_eq_ok_iff.mp isFurther
          refine ih ((RecordShape.forall_types_iff _).mpr ⟨added, fun type isType => ?_⟩) later
          exact (Option.or_eq_some_iff.mp isType).elim (further type) fun isNew => additional type isNew.2

/-- Members are merged in the same way. -/
theorem mergeAllOf_congr {members : List IntersectionMember}
    (inside : ∀ member ∈ members, ∀ type ∈ member.shape.types, holds type) :
    mergeAllOf members also = mergeAllOf members equivalent := by
  have sameRecord : mergeRecords also (members.filter isTyped) ({}, []) =
      mergeRecords equivalent (members.filter isTyped) ({}, []) :=
    mergeRecords_congr same stable (by simp [RecordShape.types]) fun member isMember =>
      inside member (List.mem_filter.mp isMember).1
  simp only [mergeAllOf, sameRecord]

end

/-- A merge gives something or fails by its typed members and the names that are required. -/
theorem toOption_mergeAllOf (members : List IntersectionMember) :
    (mergeAllOf members equivalent).toOption =
      if members.any isUnion then none
      else if (members.filter isTyped).length ≤ 1 &&
          !(isSingleRecord (members.filter isTyped) && !(requiredNames members).isEmpty) then
        some ⟨single (members.filter isTyped), (requiredNames members).map .unknownRequired⟩
      else (mergeRecords equivalent (members.filter isTyped) ({}, [])).toOption.map fun found =>
        ⟨.record { found.1 with
            fields := (requireFields (requiredNames members) found.1.fields).1 },
          found.2 ++ (requireFields (requiredNames members) found.1.fields).2⟩ := by
  -- Which choice is found first matters only for the error.
  unfold mergeAllOf
  cases isChoice : members.find? isUnion with
  | some union =>
    have isAny : members.any isUnion = true :=
      List.any_eq_true.mpr ⟨union, List.mem_of_find?_eq_some isChoice, List.find?_some isChoice⟩
    rw [if_pos isAny]
    rfl
  | none =>
    have notAny : ¬members.any isUnion = true := by
      simpa using List.find?_eq_none.mp isChoice
    rw [if_neg notAny]
    simp only [bind, Except.bind, pure, Except.pure]
    split
    · rfl
    · cases mergeRecords equivalent (members.filter isTyped) ({}, []) <;> rfl

/-- A merge gives the same, or fails, with the bare members alone. -/
theorem toOption_mergeAllOf_bare (members : List IntersectionMember) :
    (mergeAllOf (bare members) equivalent).toOption = (mergeAllOf members equivalent).toOption := by
  rw [toOption_mergeAllOf, toOption_mergeAllOf, any_isUnion_bare, requiredNames_bare,
    filter_isTyped_bare, List.length_map, isSingleRecord_unlabelled, single_unlabelled,
    toOption_mergeRecords_unlabelled]

/-- Members of which only one places a restriction merge into the type that it names. -/
theorem mergeAllOf_eq_of_bare {members : List IntersectionMember} {label name : String}
    {shape : MemberShape} (isBare : bare members = [⟨label, some name, shape⟩])
    (typed : isTyped ⟨label, some name, shape⟩ = true)
    (notUnion : isUnion ⟨label, some name, shape⟩ = false) :
    (mergeAllOf members equivalent).toOption = some ⟨.alias (.named name), []⟩ := by
  rw [← toOption_mergeAllOf_bare, isBare]
  cases shape with
  | record | scalar => rfl
  | required | unconstrained => cases typed
  | union => cases notUnion

end Intersection


/-- The fields of a name, of which a record that lists its fields once has at most one. -/
def fieldsNamed (key : String) (fields : List Field) : List Field :=
  fields.filter fun field => field.key == key

section

variable (key : String)

/-- Fields are looked for in one list after the other. -/
@[simp] theorem fieldsNamed_append (first last : List Field) :
    fieldsNamed key (first ++ last) = fieldsNamed key first ++ fieldsNamed key last :=
  List.filter_append _ _

/-- The fields of a name are looked for one after the other. -/
theorem fieldsNamed_cons (field : Field) (rest : List Field) :
    fieldsNamed key (field :: rest) =
      if field.key = key then field :: fieldsNamed key rest else fieldsNamed key rest := by
  simp [fieldsNamed, List.filter_cons]

end

namespace Intersection

variable {equivalent : TypeKind TypeExpr → TypeKind TypeExpr → Bool}

section

variable {also : TypeKind TypeExpr → TypeKind TypeExpr → Bool}
  (agree : ∀ kept given, equivalent kept given = true → also kept given = true)

include agree

/-- The fields of a record are added as they are if more types agree. -/
theorem addFields_mono {incoming : List Field} {shape : RecordShape} {notes : List MergeNote}
    {result : RecordShape × List MergeNote}
    (isAdded : addFields equivalent incoming (shape, notes) = .ok result) :
    addFields also incoming (shape, notes) = .ok result := by
  -- Kinds that are compatible in one sense are so in the other one.
  induction incoming generalizing shape notes with
  | nil => exact isAdded
  | cons field rest ih =>
    obtain ⟨fields, more, adds, isLater⟩ := addFields_cons_eq_ok_iff.mp isAdded
    exact addFields_cons_eq_ok_iff.mpr
      ⟨fields, more, adds.imp fun kept given => Or.imp_right (agree kept given), ih isLater⟩

/-- Records merge as they do if more types agree. -/
theorem mergeRecords_mono {members : List IntersectionMember}
    {merged result : RecordShape × List MergeNote}
    (isMerged : mergeRecords equivalent members merged = .ok result) :
    mergeRecords also members merged = .ok result := by
  induction members generalizing merged with
  | nil => exact isMerged
  | cons member rest ih =>
    obtain ⟨incoming, whole, notes, isRecord, isAdded, further, isLater⟩ :=
      mergeRecords_cons_eq_ok_iff.mp isMerged
    exact mergeRecords_cons_eq_ok_iff.mpr ⟨incoming, whole, notes, isRecord,
      addFields_mono agree isAdded,
      fun kept isKept given isGiven => (further kept isKept given isGiven).imp_right (agree _ _),
      ih isLater⟩

/-- Members that merge do so, into the same, if more types agree. -/
theorem mergeAllOf_mono {members : List IntersectionMember} {merged : Merged}
    (isMerged : mergeAllOf members equivalent = .ok merged) : mergeAllOf members also = .ok merged := by
  -- The sense of being equivalent matters only while records are merged.
  obtain ⟨noUnion, merges⟩ := mergeAllOf_eq_ok_iff.mp isMerged
  refine mergeAllOf_eq_ok_iff.mpr ⟨noUnion, merges.imp_right ?_⟩
  rintro ⟨several, whole, notes, isWhole, isMerge⟩
  exact ⟨several, whole, notes, mergeRecords_mono agree isWhole, isMerge⟩

end

/-- Whichever types agree, members that merge do so into the same. -/
theorem mergeAllOf_unique {other : TypeKind TypeExpr → TypeKind TypeExpr → Bool}
    {members : List IntersectionMember} {first second : Merged}
    (isFirst : mergeAllOf members equivalent = .ok first)
    (isSecond : mergeAllOf members other = .ok second) : first = second := by
  -- Both are what the members merge into if all types agree.
  have isAlsoFirst : mergeAllOf members (fun _ _ => true) = .ok first :=
    mergeAllOf_mono (fun _ _ _ => rfl) isFirst
  have isAlsoSecond : mergeAllOf members (fun _ _ => true) = .ok second :=
    mergeAllOf_mono (fun _ _ _ => rfl) isSecond
  exact Except.ok.inj (isAlsoFirst.symm.trans isAlsoSecond)

variable {key : String}

/-- A field that is added to fields of other names stands beside them as it is. -/
theorem fieldsNamed_addsField {incoming : Field} {fields result : List Field} {notes : List MergeNote}
    (single : (fieldsNamed key (fields ++ [incoming])).length ≤ 1)
    (adds : AddsField equivalent incoming fields (result, notes)) :
    fieldsNamed key result = fieldsNamed key (fields ++ [incoming]) := by
  cases adds with
  | last => rfl
  | @merged before after existing _ same _ =>
    -- The two fields have one name, so it is not the one that is looked for.
    have isOther : existing.key ≠ key := by
      intro isKey
      simp only [fieldsNamed_append, fieldsNamed_cons, ← same, isKey, if_true, List.length_append,
        List.length_cons] at single
      omega
    simp [fieldsNamed, ← same, isOther]

/-- A field of which no other record has the name is merged as it is. -/
theorem fieldsNamed_mergeRecords {members : List IntersectionMember} {shape : RecordShape}
    {notes : List MergeNote}
    (single : (fieldsNamed key (occurrences members)).length ≤ 1)
    (isMerged : mergeRecords equivalent members ({}, []) = .ok (shape, notes)) :
    fieldsNamed key shape.fields = fieldsNamed key (occurrences members) := by
  -- A field is merged into another one only where there would be two of its name.
  refine @mergeRecords_induction equivalent
    (fun seen _ shape _ => (fieldsNamed key seen).length ≤ 1 →
      fieldsNamed key shape.fields = fieldsNamed key seen)
    ?_ (fun same _ => same) members [] [] {} shape [] notes (fun _ => rfl) isMerged single
  intro seen _ shape _ incoming fields _ same adds single
  have earlier : fieldsNamed key shape.fields = fieldsNamed key seen :=
    same (Nat.le_trans (by simp) single)
  have also : fieldsNamed key (shape.fields ++ [incoming]) = fieldsNamed key (seen ++ [incoming]) := by
    rw [fieldsNamed_append, fieldsNamed_append, earlier]
  rw [← also] at single ⊢
  exact fieldsNamed_addsField single adds

/-- Making fields required changes neither their names nor their types. -/
theorem types_fieldsNamed_requireFields (names : List String) (fields : List Field) :
    (fieldsNamed key (requireFields names fields).1).map Field.type =
      (fieldsNamed key fields).map Field.type := by
  rw [requireFields_eq, fieldsNamed, List.filter_map, List.map_map]
  rfl

end Intersection

/-- Where members merge into a record, a field of which only one of them has the name keeps its type. -/
theorem types_fieldsNamed_mergeAllOf {members : List IntersectionMember} {merged : Merged}
    {equivalent : TypeKind TypeExpr → TypeKind TypeExpr → Bool} {shape : RecordShape} {key : String}
    (isMerged : mergeAllOf members equivalent = .ok merged) (isRecord : merged.shape = .record shape)
    (single : (fieldsNamed key (members.flatMap fun member => member.shape.fields)).length ≤ 1) :
    (fieldsNamed key shape.fields).map Field.type =
      (fieldsNamed key (members.flatMap fun member => member.shape.fields)).map Field.type := by
  -- Only typed members have fields.
  have typed : (members.filter Intersection.isTyped).flatMap (fun member => member.shape.fields) =
      members.flatMap fun member => member.shape.fields :=
    (Intersection.parts_filter_isTyped members).1
  rw [← typed] at single ⊢
  obtain ⟨_, ⟨few, _, isSingle⟩ | ⟨_, whole, notes, isWhole, isShape⟩⟩ :=
    Intersection.mergeAllOf_cases isMerged
  · rw [isSingle] at isRecord
    generalize members.filter Intersection.isTyped = typed at few isRecord
    cases typed with
    | nil => cases isRecord
    | cons member rest =>
      have isOnly : rest = [] := by simpa using few
      subst isOnly
      obtain ⟨label, reference, contribution⟩ := member
      cases reference <;> cases contribution <;> cases isRecord
      simp [MemberShape.fields]
  · rw [isShape] at isRecord
    cases isRecord
    rw [Intersection.types_fieldsNamed_requireFields,
      Intersection.fieldsNamed_mergeRecords single isWhole]
    rfl

end ApiTypes
