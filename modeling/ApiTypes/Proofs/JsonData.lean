import ApiTypes.Proofs.Declaration
import ApiTypes.Proofs.JsonTrees

/-!
Data as JSON values. What is read as data from a JSON value has its members in the order of their names, and
whoever writes it as a JSON value again may choose another order: the same data is read from it.
-/

namespace ApiTypes.Data

/-- A tree says what data says, with the members of records in any order. -/
inductive Spells : Data → Source → Prop
  | null : Spells .null (.scalar .null)
  | bool (value : Bool) : Spells (.bool value) (.scalar (.bool value))
  | integer {value : Int} (fits : fitsWord value = true) :
    Spells (.integer value) (.scalar (.integer value))
  | real {value : Binary64} (isFinite : value.isFinite = true) :
    Spells (.real value) (.scalar (.real value))
  | text (value : String) : Spells (.text value) (.scalar (.text value))
  | list {items : List Data} {parts : List Source} (sameLength : items.length = parts.length)
    (each : ∀ pair ∈ items.zip parts, Spells pair.1 pair.2) : Spells (.list items) (.list parts)
  | record {members ordered : List (String × Data)} {parts : List (String × Source)}
    (isOrder : members.Perm ordered) (sameLength : ordered.length = parts.length)
    (sameNames : ∀ pair ∈ ordered.zip parts, pair.1.1 = pair.2.1)
    (each : ∀ pair ∈ ordered.zip parts, Spells pair.1.2 pair.2.2) :
    Spells (.record members) (.record (Source.underNames parts))
  /-- An alternative is a record from its name to its content. -/
  | variant {tag : String} {content : Data} {part : Source} (spells : Spells content part) :
    Spells (.variant tag content) (.record (Source.underNames [(tag, part)]))

/-- Data in the form in which it is read from JSON values. -/
inductive FitsJson : Data → Prop
  | null : FitsJson .null
  | bool (value : Bool) : FitsJson (.bool value)
  | integer {value : Int} (fits : fitsWord value = true) : FitsJson (.integer value)
  | real {value : Binary64} (isFinite : value.isFinite = true) : FitsJson (.real value)
  | text (value : String) : FitsJson (.text value)
  | list {items : List Data} (each : ∀ item ∈ items, FitsJson item) : FitsJson (.list items)
  | record {members : List (String × Data)}
    (isSorted : members.Pairwise fun first second => first.1 < second.1)
    (each : ∀ member ∈ members, FitsJson member.2) : FitsJson (.record members)

/-- A list is spelled item by item. -/
theorem spells_list_iff {items : List Data} {source : Source} :
    Spells (.list items) source ↔
      ∃ parts, source = .list parts ∧ List.Forall₂ Spells items parts := by
  constructor
  · rintro (_ | _ | _ | _ | _ | ⟨sameLength, each⟩)
    exact ⟨_, rfl, List.forall₂_iff_zip.mpr ⟨sameLength, each _⟩⟩
  · rintro ⟨parts, rfl, spells⟩
    have ⟨sameLength, each⟩ := List.forall₂_iff_zip.mp spells
    exact .list sameLength fun _ isPair => each isPair

/-- A record is spelled member by member, in some order. -/
theorem spells_record_iff {members : List (String × Data)} {source : Source} :
    Spells (.record members) source ↔
      ∃ ordered parts, members.Perm ordered ∧ source = .record (Source.underNames parts) ∧
        List.Forall₂ (fun member part => member.1 = part.1 ∧ Spells member.2 part.2) ordered parts := by
  constructor
  · rintro (_ | _ | _ | _ | _ | _ | ⟨isOrder, sameLength, sameNames, each⟩)
    exact ⟨_, _, isOrder, rfl, List.forall₂_iff_zip.mpr
      ⟨sameLength, fun isPair => ⟨sameNames _ isPair, each _ isPair⟩⟩⟩
  · rintro ⟨ordered, parts, isOrder, rfl, spells⟩
    have ⟨sameLength, each⟩ := List.forall₂_iff_zip.mp spells
    exact .record isOrder sameLength (fun _ isPair => (each isPair).1) fun _ isPair => (each isPair).2

/-- What spells data is a JSON value. -/
theorem Spells.isJson {data : Data} {source : Source} (spells : Spells data source) :
    source.isJson = true := by
  induction spells with
  | null | bool | text => rfl
  | integer fits => exact fits
  | real isFinite => exact isFinite
  | @list items parts sameLength _ ih =>
    refine (Source.isJsonItems_iff parts).mpr fun part isPart => ?_
    have areJson := List.forall₂_iff_zip.mpr ⟨sameLength, fun isPair => ih _ isPair⟩
    exact (exists_of_mem_right areJson isPart).elim fun _ isJson => isJson.2
  | @record _ ordered parts _ sameLength _ _ ih =>
    refine (Source.isJsonMembers_iff _).mpr ⟨parts, rfl, fun part isPart => ?_⟩
    have areJson := List.forall₂_iff_zip.mpr ⟨sameLength, fun isPair => ih _ isPair⟩
    exact (exists_of_mem_right areJson isPart).elim fun _ isJson => isJson.2
  | variant _ ih => simp [Source.isJson, Source.underNames, Source.isJsonMembers, Source.isName, ih]

/-- If each item of a list can be written as a JSON value, the list can. -/
theorem exists_spells_list {items : List Data} (each : ∀ item ∈ items, ∃ part, Spells item part) :
    ∃ source, Spells (.list items) source := by
  obtain ⟨parts, spells⟩ := exists_forall₂ each
  exact ⟨_, spells_list_iff.mpr ⟨parts, rfl, spells⟩⟩

/-- If each member of a record can be written as a JSON value, the record can. -/
theorem exists_spells_record {members : List (String × Data)}
    (each : ∀ member ∈ members, ∃ part, Spells member.2 part) :
    ∃ source, Spells (.record members) source := by
  have named : ∀ member ∈ members, ∃ part : String × Source,
      member.1 = part.1 ∧ Spells member.2 part.2 := fun member isMember =>
    let ⟨part, spells⟩ := each member isMember
    ⟨(member.1, part), rfl, spells⟩
  obtain ⟨parts, spells⟩ := exists_forall₂ named
  exact ⟨_, spells_record_iff.mpr ⟨members, parts, .refl _, rfl, spells⟩⟩

/-- Data that is read from JSON values can be written as one. -/
theorem FitsJson.exists_spells {data : Data} (fits : data.FitsJson) :
    ∃ source, Spells data source := by
  induction fits with
  | null => exact ⟨_, .null⟩
  | bool value => exact ⟨_, .bool value⟩
  | integer fits => exact ⟨_, .integer fits⟩
  | real isFinite => exact ⟨_, .real isFinite⟩
  | text value => exact ⟨_, .text value⟩
  | list _ ih => exact exists_spells_list ih
  | record _ _ ih => exact exists_spells_record ih

section

variable (name : String) (value : Data) {members : List (String × Data)}

/-- What is in order with a member added to it is that member or was there before. -/
theorem mem_insertSorted {member : String × Data} (isMember : member ∈ insertSorted name value members) :
    member = (name, value) ∨ member ∈ members := by
  induction members with
  | nil => simpa [insertSorted] using isMember
  | cons first rest ih =>
    unfold insertSorted at isMember
    split at isMember
    · simpa using isMember
    · split at isMember
      · exact (List.mem_cons.mp isMember).imp_right (List.mem_cons_of_mem _)
      · rcases List.mem_cons.mp isMember with isFirst | isLater
        · exact .inr (isFirst ▸ List.mem_cons_self)
        · exact (ih isLater).imp_right (List.mem_cons_of_mem _)

/-- A member is added at its place. -/
theorem pairwise_insertSorted (isSorted : members.Pairwise fun first second => first.1 < second.1) :
    (insertSorted name value members).Pairwise fun first second => first.1 < second.1 := by
  -- The member goes in front of the first one, in its place, or somewhere behind it.
  induction members with
  | nil => simp [insertSorted]
  | cons first rest ih =>
    have ⟨isFirst, restSorted⟩ := List.pairwise_cons.mp isSorted
    unfold insertSorted
    split
    · rename_i isBefore
      refine List.pairwise_cons.mpr ⟨fun other isOther => ?_, isSorted⟩
      rcases List.mem_cons.mp isOther with rfl | isLater
      · exact isBefore
      · exact String.lt_trans isBefore (isFirst other isLater)
    · rename_i notBefore
      split
      · rename_i isSame
        exact List.pairwise_cons.mpr ⟨fun other isOther => isSame ▸ isFirst other isOther, restSorted⟩
      · rename_i notSame
        refine List.pairwise_cons.mpr ⟨fun other isOther => ?_, ih restSorted⟩
        rcases mem_insertSorted name value isOther with rfl | isLater
        · exact String.not_le.mp fun isAfter =>
            notSame (String.le_antisymm isAfter (String.not_lt.mp notBefore))
        · exact isFirst other isLater

/-- A member with a new name is added to the others. -/
theorem perm_insertSorted (isNew : name ∉ members.map Prod.fst) :
    (insertSorted name value members).Perm ((name, value) :: members) := by
  induction members with
  | nil => exact .refl _
  | cons first rest ih =>
    simp only [List.map_cons, List.mem_cons, not_or] at isNew
    unfold insertSorted
    split
    · exact .refl _
    · rw [if_neg isNew.1]
      exact ((ih isNew.2).cons first).trans (.swap ..)

end

/-- Members with new names that are added one after the other are put in order. -/
theorem foldl_insertSorted {ordered sorted : List (String × Data)}
    (isSorted : sorted.Pairwise fun first second => first.1 < second.1)
    (distinct : ((ordered ++ sorted).map Prod.fst).Nodup) :
    let added := ordered.foldl (fun sorted member => insertSorted member.1 member.2 sorted) sorted
    (added.Pairwise fun first second => first.1 < second.1) ∧ added.Perm (ordered ++ sorted) := by
  induction ordered generalizing sorted with
  | nil => exact ⟨isSorted, .refl _⟩
  | cons member rest ih =>
    have isPerm : (insertSorted member.1 member.2 sorted).Perm (member :: sorted) := by
      refine perm_insertSorted member.1 member.2 fun isOld => ?_
      rw [List.cons_append, List.map_cons, List.nodup_cons, List.map_append] at distinct
      exact distinct.1 (List.mem_append_right _ isOld)
    have moved : (rest ++ insertSorted member.1 member.2 sorted).Perm (member :: rest ++ sorted) :=
      (isPerm.append_left rest).trans List.perm_middle
    have ⟨stillSorted, added⟩ := ih (pairwise_insertSorted member.1 member.2 isSorted)
      ((moved.map Prod.fst).nodup_iff.mpr distinct)
    exact ⟨stillSorted, added.trans moved⟩

/-- Members in the order of their names are put in that order again from any other. -/
theorem foldl_insertSorted_of_perm {members ordered : List (String × Data)}
    (isSorted : members.Pairwise fun first second => first.1 < second.1)
    (isOrder : members.Perm ordered) :
    ordered.foldl (fun sorted member => insertSorted member.1 member.2 sorted) [] = members := by
  have distinct : (members.map Prod.fst).Nodup := by
    refine List.pairwise_map.mpr (isSorted.imp ?_)
    intro first second isBefore same
    exact String.lt_irrefl _ (same ▸ isBefore)
  have ⟨stillSorted, added⟩ := @foldl_insertSorted ordered [] .nil
    (by simpa using (isOrder.map Prod.fst).nodup_iff.mp distinct)
  rw [List.append_nil] at added
  -- Two lists in order with the same members are one.
  exact List.Perm.eq_of_pairwise (fun _ _ _ _ before after =>
    absurd after (String.lt_asymm before)) stillSorted isSorted (added.trans isOrder.symm)

/-- The items of a list are read as data one by one. -/
theorem readDataItems_eq (items : List Source) :
    Source.readDataItems .whole items = items.mapM (Source.readData .whole) := by
  induction items with
  | nil => rfl
  | cons item rest ih => rw [List.mapM_cons, ← ih]; rfl

/-- Members that are read go to their places among those in order. -/
theorem of_readDataMembers {members : List (String × Source)}
    (areRead : ∀ member ∈ members, ∀ data, member.2.readData .whole = .ok data → data.FitsJson)
    {sorted found : List (String × Data)}
    (isSorted : sorted.Pairwise fun first second => first.1 < second.1)
    (fits : ∀ member ∈ sorted, member.2.FitsJson)
    (reads : Source.readDataMembers .whole (Source.underNames members) sorted = .ok found) :
    (Data.record found).FitsJson := by
  induction members generalizing sorted with
  | nil =>
    cases reads
    exact .record isSorted fits
  | cons member rest ih =>
    have ⟨first, later⟩ := List.forall_mem_cons.mp areRead
    obtain ⟨name, _, goesOn⟩ := Reading.bind_eq_ok_iff.mp reads
    obtain ⟨value, isValue, goesOn⟩ := Reading.bind_eq_ok_iff.mp goesOn
    refine ih later (pairwise_insertSorted name value isSorted) (fun other isOther => ?_) goesOn
    rcases mem_insertSorted name value isOther with rfl | isOld
    · exact first value isValue
    · exact fits other isOld

/-- What is read as data from a JSON value is in the form in which data is read. -/
theorem fitsJson_of_readData {source : Source} (isJson : source.isJson = true) :
    ∀ data, source.readData .whole = .ok data → data.FitsJson := by
  -- Reading keeps the kind of a value, except that a number that is not finite becomes null.
  refine Source.jsonInduction isJson (fun value isJson data reads => ?_)
    (fun items areJson data reads => ?_) fun members areJson data reads => ?_
  · cases reads
    unfold Source.scalarData
    split
    · exact .null
    · exact .bool _
    · exact .integer isJson
    · split
      · exact .real rfl
      · exact .null
    · exact .text _
  · obtain ⟨found, isFound, isData⟩ := Reading.bind_eq_ok_iff.mp reads
    cases isData
    rw [readDataItems_eq, Source.mapM_eq_ok_iff] at isFound
    refine .list fun item isItem => ?_
    obtain ⟨part, isPart, isRead⟩ := exists_of_mem_right isFound isItem
    exact (areJson part isPart).2 item isRead
  · obtain ⟨found, isFound, isData⟩ := Reading.bind_eq_ok_iff.mp reads
    cases isData
    exact of_readDataMembers (fun member isMember => (areJson member isMember).2) .nil (by simp) isFound

/-- Members that are read one after the other are put in order. -/
theorem readDataMembers_eq {ordered : List (String × Data)} {parts : List (String × Source)}
    (reads : List.Forall₂ (fun member part => member.1 = part.1 ∧
      part.2.readData .whole = .ok member.2) ordered parts) (sorted : List (String × Data)) :
    Source.readDataMembers .whole (Source.underNames parts) sorted =
      .ok (ordered.foldl (fun sorted member => insertSorted member.1 member.2 sorted) sorted) := by
  induction reads generalizing sorted with
  | nil => rfl
  | @cons member part _ _ isFirst _ ih =>
    obtain ⟨name, value⟩ := member
    obtain ⟨rfl, isRead⟩ := isFirst
    refine Reading.bind_eq_ok_iff.mpr ⟨_, rfl, Reading.bind_eq_ok_iff.mpr ⟨value, isRead, ?_⟩⟩
    exact ih _

/-- Data is read again from whatever spells it. -/
theorem FitsJson.readData_of_spells {data : Data} (fits : data.FitsJson) {source : Source}
    (spells : data.Spells source) : source.readData .whole = .ok data := by
  induction fits generalizing source with
  | null | bool | integer | text =>
    cases spells
    rfl
  | @real value _ =>
    cases spells with
    | real isFinite =>
      cases value with
      | finite => rfl
      | nan | infinite => cases isFinite
  | list _ ih =>
    -- Lists keep the order of their items.
    obtain ⟨parts, isSource, each⟩ := spells_list_iff.mp spells
    have reads := forall₂_imp_of_mem each fun item isItem _ spells => ih item isItem spells
    rw [isSource]
    refine Reading.bind_eq_ok_iff.mpr ⟨_, ?_, rfl⟩
    rw [readDataItems_eq, Source.mapM_eq_ok_iff]
    exact reads.flip
  | record isSorted _ ih =>
    -- Whatever order the members are met in, they are put in that of their names.
    obtain ⟨ordered, parts, isOrder, isSource, each⟩ := spells_record_iff.mp spells
    have reads := forall₂_imp_of_mem each fun member isMember _ both =>
      And.intro both.1 (ih member (isOrder.mem_iff.mpr isMember) both.2)
    rw [isSource]
    refine Reading.bind_eq_ok_iff.mpr ⟨_, readDataMembers_eq reads [], ?_⟩
    rw [foldl_insertSorted_of_perm isSorted isOrder]
    rfl

/-- All numbers in data that is read from JSON values are defined. -/
theorem FitsJson.isDefined {data : Data} (fits : data.FitsJson) : .nan ∉ data.reals := by
  induction fits with
  | null | bool | integer | text => simp [reals]
  | @real value isFinite =>
    rw [reals, List.mem_singleton]
    rintro rfl
    cases isFinite
  | list _ ih => simpa [reals, realsOfItems_eq] using ih
  | record _ _ ih => simpa [reals, realsOfMembers_eq] using ih

/-- Data that is read from JSON values is equal to itself. -/
theorem FitsJson.beq_self {data : Data} (fits : data.FitsJson) : (data == data) = true :=
  same_self fits.isDefined

end ApiTypes.Data
