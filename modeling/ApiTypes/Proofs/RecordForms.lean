import ApiTypes.Proofs.JsonTrees

/-!
Records whose fields are known, read from members under names. What setting each field keeps holds of the
record, a required field cannot be missing, and members are read in any order, each into its field.
-/

namespace ApiTypes

namespace RecordForm

open Source (underNames)

/-- The names of the fields. -/
def names (form : RecordForm) : List String := form.fields.map Prod.fst

variable {α ν : Type} {form : RecordForm} {text : ν → Source} {set : String → ν → α → Reading α}

/-- A member is passed over if its name is not that of a field, and else its field is set once. -/
theorem readMembers_cons (member : String × ν) (rest : List (String × ν)) (seen : List String)
    (value : α) : form.readMembers .whole text set (underNames (member :: rest)) seen value =
      if member.1 ∈ form.names then
        if member.1 ∈ seen then .error (.duplicateField member.1)
        else set member.1 member.2 value >>=
          form.readMembers .whole text set (underNames rest) (member.1 :: seen)
      else (text member.2).skip >>= fun _ =>
        form.readMembers .whole text set (underNames rest) seen value := by
  obtain ⟨name, part⟩ := member
  have named : (form.fields.any fun field => field.1 == name) = true ↔ name ∈ form.names := by
    simp [names]
  have isField : form.fieldOf .whole (.scalar (.text name)) =
      .ok (if name ∈ form.names then some name else none) := by
    simp only [← named]
    rfl
  simp only [underNames, List.map_cons, readMembers, isField, bind, Except.bind]
  by_cases isName : name ∈ form.names
  · by_cases isSeen : name ∈ seen <;> simp [isName, isSeen, throw, throwThe, MonadExceptOf.throw]
  · simp [isName]

/-- What setting each field keeps holds of what is read from members. -/
theorem holds_of_readMembers (holds : α → Prop) {members : List (String × ν)}
    (sets : ∀ member ∈ members, member.1 ∈ form.names → ∀ {value next}, holds value →
      set member.1 member.2 value = .ok next → holds next)
    {seen : List String} {value result : α} (start : holds value)
    (reads : form.readMembers .whole text set (underNames members) seen value = .ok result) :
    holds result := by
  -- Unknown members are skipped, and a second one of a name ends the reading with a fault.
  induction members generalizing seen value with
  | nil =>
    obtain ⟨_, _, isResult⟩ := Reading.bind_eq_ok_iff.mp reads
    cases isResult
    exact start
  | cons member rest ih =>
    have ⟨first, later⟩ := List.forall_mem_cons.mp sets
    rw [readMembers_cons] at reads
    split at reads
    · rename_i isKnown
      split at reads
      · cases reads
      · obtain ⟨next, isSet, goesOn⟩ := Reading.bind_eq_ok_iff.mp reads
        exact ih later (first isKnown start isSet) goesOn
    · obtain ⟨_, _, goesOn⟩ := Reading.bind_eq_ok_iff.mp reads
      exact ih later start goesOn

/-- What setting each field keeps holds of what is read from a list of fields. -/
theorem holds_of_readItems (holds : α → Prop) {fields : List (String × Presence)} {parts : List ν}
    (sets : ∀ part ∈ parts, ∀ name ∈ fields.map Prod.fst, ∀ {value next}, holds value →
      set name part value = .ok next → holds next)
    {count : Nat} {value result : α} (start : holds value)
    (reads : form.readItems text set fields parts count value = .ok result) : holds result := by
  induction fields generalizing parts count value with
  | nil =>
    cases parts with
    | nil =>
      cases reads
      exact start
    | cons => cases reads
  | cons field fields ih =>
    obtain ⟨name, presence⟩ := field
    cases parts with
    | nil =>
      -- Behind the last item only fields are left that may be missing.
      simp only [readItems] at reads
      split at reads
      · exact ih (fun part isPart => absurd isPart List.not_mem_nil) start reads
      · cases reads
    | cons part rest =>
      have ⟨first, later⟩ := List.forall_mem_cons.mp sets
      obtain ⟨next, isSet, goesOn⟩ := Reading.bind_eq_ok_iff.mp reads
      refine ih (fun part isPart name isName => ?_) (first name List.mem_cons_self start isSet) goesOn
      exact later part isPart name (List.mem_cons_of_mem _ isName)

/-- What setting each field keeps holds of what is read from a JSON value. -/
theorem holds_of_read {set : String → Source → α → Reading α} (holds : α → Prop) {source : Source}
    (isJson : source.isJson = true)
    (sets : ∀ part : Source, part.isJson = true → ∀ name ∈ form.names, ∀ {value next}, holds value →
      set name part value = .ok next → holds next)
    {unset result : α} (start : holds unset) (reads : form.read .whole unset set source = .ok result) :
    holds result := by
  cases source with
  | list items =>
    have areJson := (Source.isJsonItems_iff items).mp (by simpa [Source.isJson] using isJson)
    exact holds_of_readItems holds
      (fun part isPart name isName => sets part (areJson part isPart) name isName) start reads
  | record members =>
    obtain ⟨parts, rfl, areJson⟩ :=
      (Source.isJsonMembers_iff members).mp (by simpa [Source.isJson] using isJson)
    exact holds_of_readMembers holds (fun member isMember isName =>
      sets member.2 (areJson member isMember) member.1 isName) start reads
  | scalar => cases reads
  | word | sealed | misplaced | fault => cases isJson

/-- Nothing is read from members among which a required field is missing. -/
theorem readMembers_ne_ok {name : String} (isRequired : (name, .required) ∈ form.fields)
    {members : List (String × ν)} (isMissing : name ∉ members.map Prod.fst) {seen : List String}
    (isUnseen : name ∉ seen) (value result : α) :
    form.readMembers .whole text set (underNames members) seen value ≠ .ok result := by
  intro reads
  -- No member adds the name to those that have been met, and in the end it is missed.
  induction members generalizing seen value with
  | nil =>
    obtain ⟨_, complete, _⟩ := Reading.bind_eq_ok_iff.mp reads
    unfold checkRequired at complete
    split at complete
    · cases complete
    · rename_i isComplete
      have isSeen := List.find?_eq_none.mp isComplete _ isRequired
      simp [isUnseen] at isSeen
  | cons member rest ih =>
    simp only [List.map_cons, List.mem_cons, not_or] at isMissing
    rw [readMembers_cons] at reads
    split at reads
    · split at reads
      · cases reads
      · obtain ⟨next, _, goesOn⟩ := Reading.bind_eq_ok_iff.mp reads
        exact ih isMissing.2 (by simp [isMissing.1, isUnseen]) next goesOn
    · obtain ⟨_, _, goesOn⟩ := Reading.bind_eq_ok_iff.mp reads
      exact ih isMissing.2 isUnseen value goesOn

/-- Members with the names of distinct fields are read one after the other, each into its field. -/
theorem exists_readMembers (holds : List String → α → Prop) {members : List (String × ν)}
    (known : ∀ member ∈ members, member.1 ∈ form.names) (distinct : (members.map Prod.fst).Nodup)
    {seen : List String} (fresh : ∀ member ∈ members, member.1 ∉ seen)
    (required : ∀ name, (name, .required) ∈ form.fields → name ∈ seen ∨ name ∈ members.map Prod.fst)
    (sets : ∀ member ∈ members, ∀ seen value, member.1 ∉ seen → holds seen value →
      ∃ next, set member.1 member.2 value = .ok next ∧ holds (member.1 :: seen) next)
    {value : α} (start : holds seen value) :
    ∃ result, form.readMembers .whole text set (underNames members) seen value = .ok result ∧
      holds ((members.map Prod.fst).reverse ++ seen) result := by
  -- The induction is on the members that are left, with the names of all before them met.
  induction members generalizing seen value with
  | nil =>
    have complete : form.checkRequired seen = .ok () := by
      unfold checkRequired
      split
      · rename_i name presence isMissing
        have isField := List.mem_of_find?_eq_some isMissing
        have isUnseen := List.find?_some isMissing
        simp only [Bool.and_eq_true, decide_eq_true_eq, Bool.not_eq_true', List.contains_eq_mem,
          decide_eq_false_iff_not] at isUnseen
        have isSeen := required name (isUnseen.1 ▸ isField)
        simp [isUnseen.2] at isSeen
      · rfl
    exact ⟨value, by simp [underNames, readMembers, complete], start⟩
  | cons member rest ih =>
    obtain ⟨isKnown, laterKnown⟩ := List.forall_mem_cons.mp known
    obtain ⟨isFresh, laterFresh⟩ := List.forall_mem_cons.mp fresh
    obtain ⟨first, later⟩ := List.forall_mem_cons.mp sets
    rw [List.map_cons, List.nodup_cons] at distinct
    have stillFresh : ∀ other ∈ rest, other.1 ∉ member.1 :: seen := fun other isOther => by
      have isDifferent : other.1 ≠ member.1 := fun same =>
        distinct.1 (same ▸ List.mem_map_of_mem isOther)
      simp [isDifferent, laterFresh other isOther]
    have stillRequired : ∀ name, (name, .required) ∈ form.fields →
        name ∈ member.1 :: seen ∨ name ∈ rest.map Prod.fst := fun name isRequired => by
      have isNamed := required name isRequired
      simp only [List.map_cons, List.mem_cons] at isNamed ⊢
      exact or_assoc.mpr (or_left_comm.mp isNamed)
    obtain ⟨next, isSet, holdsNext⟩ := first seen value isFresh start
    obtain ⟨result, reads, holdsResult⟩ :=
      ih laterKnown distinct.2 stillFresh stillRequired later holdsNext
    refine ⟨result, ?_, by simpa using holdsResult⟩
    rw [readMembers_cons, if_pos isKnown, if_neg isFresh, isSet]
    exact reads

end RecordForm

end ApiTypes
