import Mathlib.Data.List.Forall2
import ApiTypes.Proofs.Table
import ApiTypes.Reading.RecordForm

/-!
Trees of JSON values. Their numbers are finite, their records have names for keys, and nothing in them
keeps a reader from taking them in whole.
-/

namespace ApiTypes

section

-- Powers are computed, whatever structure of numbers they are also part of.
attribute [local instance (high)] instPowNat

/-- Whether an integer is kept as it is when it is read as a JSON number. -/
def fitsWord (value : Int) : Bool :=
  decide (-((2 ^ (63 : Nat) : Nat) : Int) ≤ value) && decide (value < ((2 ^ (64 : Nat) : Nat) : Int))

namespace Binary64

/-- Whether a number is finite. -/
def isFinite : Binary64 → Bool
  | .finite .. => true
  | .nan | .infinite _ => false

/-- A quotient is rounded to a natural between two others if it lies between them. -/
theorem divNearest_mem {least most numerator denominator : Nat} (positive : 0 < denominator)
    (atLeast : least * denominator ≤ numerator) (below : numerator < most * denominator) :
    least ≤ divNearest numerator denominator ∧ divNearest numerator denominator ≤ most := by
  have notLess : least ≤ numerator / denominator := (Nat.le_div_iff_mul_le positive).mpr atLeast
  have notMore : numerator / denominator < most := (Nat.div_lt_iff_lt_mul positive).mpr below
  unfold divNearest
  dsimp only
  split <;> omega

/-- A significand of 53 bits, or what it is rounded up to, gives a finite number. -/
theorem isFinite_ofRounded (negative : Bool) {significand : Nat} {exponent : Int}
    (atLeast : 2 ^ (52 : Nat) ≤ significand) (atMost : significand ≤ 2 ^ (53 : Nat))
    (notLow : -1074 ≤ exponent) (notHigh : exponent < 971) :
    (ofRounded negative significand exponent).isFinite = true := by
  unfold ofRounded
  -- A significand that has been rounded up to 54 bits is halved, and the exponent raised.
  by_cases full : significand = 2 ^ (53 : Nat)
  · have canonical : Canonical (2 ^ (52 : Nat)) (exponent + 1) :=
      ⟨by decide, by omega, by omega, .inl (Nat.le_refl _)⟩
    simp only [if_pos full, dif_pos canonical]
    rfl
  · have canonical : Canonical significand exponent :=
      ⟨by omega, notLow, by omega, .inl atLeast⟩
    simp only [if_neg full, dif_pos canonical]
    rfl

/-- On the grid that its length gives, a natural is counted with 53 bits. -/
theorem quotientOnGrid_log2 {natural : Nat} (notZero : natural ≠ 0) {top bottom : Nat}
    (counted : quotientOnGrid natural 1 ((natural.log2 : Int) - 52) = (top, bottom)) :
    0 < bottom ∧ 2 ^ (52 : Nat) * bottom ≤ top ∧ top < 2 ^ (53 : Nat) * bottom := by
  have lower := Nat.log2_self_le notZero
  have upper := @Nat.lt_log2_self natural
  cases counted
  rcases Nat.le_total natural.log2 52 with isShort | isLong
  · -- What is missing to 53 bits is added on the right.
    obtain ⟨shift, isShift⟩ := Nat.exists_eq_add_of_le isShort
    have up : (-((natural.log2 : Int) - 52)).toNat = shift := by omega
    have down : ((natural.log2 : Int) - 52).toNat = 0 := by omega
    have full : 2 ^ natural.log2 * 2 ^ shift = 2 ^ (52 : Nat) := by rw [← Nat.pow_add, isShift]
    have atLeast := Nat.mul_le_mul_right (2 ^ shift) lower
    have below := Nat.mul_lt_mul_of_pos_right upper (Nat.two_pow_pos shift)
    rw [Nat.pow_succ, Nat.mul_right_comm, full] at below
    simp only [up, down, Nat.pow_zero, Nat.mul_one]
    omega
  · -- What is beyond 53 bits is divided away.
    obtain ⟨shift, isShift⟩ := Nat.exists_eq_add_of_le isLong
    have up : (-((natural.log2 : Int) - 52)).toNat = 0 := by omega
    have down : ((natural.log2 : Int) - 52).toNat = shift := by omega
    have full : 2 ^ (52 : Nat) * 2 ^ shift = 2 ^ natural.log2 := by rw [← Nat.pow_add, isShift]
    have positive := Nat.two_pow_pos shift
    rw [Nat.pow_succ] at upper
    simp only [up, down, Nat.pow_zero, Nat.mul_one, Nat.one_mul]
    omega

/-- A natural of 64 bits is rounded to a finite number. -/
theorem isFinite_ofRatio (negative : Bool) {natural : Nat} (small : natural < 2 ^ (65 : Nat)) :
    (ofRatio negative natural 1).isFinite = true := by
  unfold ofRatio
  split
  · rfl
  · rename_i notZero
    have length : natural.log2 < 65 := (Nat.log2_lt notZero).mpr small
    -- The length of the natural gives the grid on which the quotient has 53 bits.
    cases counted : quotientOnGrid natural 1 ((natural.log2 : Int) - 52) with
    | mk top bottom =>
      have ⟨positive, atLeast, below⟩ := quotientOnGrid_log2 notZero counted
      have notLess : ¬top / bottom < 2 ^ (52 : Nat) :=
        Nat.not_lt.mpr ((Nat.le_div_iff_mul_le positive).mpr atLeast)
      have isGrid : gridOf natural 1 = (natural.log2 : Int) - 52 := by
        have one : Nat.log2 1 = 0 := by decide
        simp only [gridOf, one, Int.natCast_zero, Int.sub_zero, counted, if_neg notLess]
        omega
      have ⟨isLeast, isMost⟩ := divNearest_mem positive atLeast below
      simp only [isGrid, counted]
      exact isFinite_ofRounded negative isLeast isMost (by omega) (by omega)

/-- An integer that a JSON number is kept as is rounded to a finite number. -/
theorem isFinite_ofInt {value : Int} (fits : fitsWord value = true) :
    (ofInt value).isFinite = true := by
  simp only [fitsWord, Bool.and_eq_true, decide_eq_true_eq] at fits
  exact isFinite_ofRatio _ (by omega)

end Binary64

end

/-- Whether a scalar is a JSON value. -/
def Scalar.isJson : Scalar → Bool
  | .integer value => fitsWord value
  | .real value => value.isFinite
  | .null | .bool _ | .text _ => true

section

variable {α β : Type} {related implied : α → β → Prop} {items : List α} {others : List β}

/-- If each item of a list is related to something, the list is related to a list. -/
theorem exists_forall₂ (each : ∀ item ∈ items, ∃ other, related item other) :
    ∃ others, List.Forall₂ related items others := by
  induction items with
  | nil => exact ⟨[], .nil⟩
  | cons item rest ih =>
    have ⟨first, later⟩ := List.forall_mem_cons.mp each
    obtain ⟨other, isOther⟩ := first
    obtain ⟨others, areOthers⟩ := ih later
    exact ⟨other :: others, .cons isOther areOthers⟩

/-- Each item of a list is related to one of those to which another list is related. -/
theorem exists_of_mem_right (areRelated : List.Forall₂ related items others) {other : β}
    (isOther : other ∈ others) : ∃ item ∈ items, related item other := by
  -- What stands in the second list stands in some pair of the two lists side by side.
  rw [← List.map_snd_zip (Nat.le_of_eq areRelated.length_eq.symm)] at isOther
  obtain ⟨pair, isPair, rfl⟩ := List.mem_map.mp isOther
  exact ⟨pair.1, (List.of_mem_zip isPair).1, (List.forall₂_iff_zip.mp areRelated).2 isPair⟩

/-- What follows from the relation for the items of a list relates the list. -/
theorem forall₂_imp_of_mem (areRelated : List.Forall₂ related items others)
    (implies : ∀ item ∈ items, ∀ other, related item other → implied item other) :
    List.Forall₂ implied items others := by
  have ⟨sameLength, each⟩ := List.forall₂_iff_zip.mp areRelated
  exact List.forall₂_iff_zip.mpr ⟨sameLength, fun isPair =>
    implies _ (List.of_mem_zip isPair).1 _ (each isPair)⟩

/-- Lists of members that are related under the same names have the same names. -/
theorem names_eq_of_forall₂ {related : String × α → String × β → Prop} {members : List (String × α)}
    {others : List (String × β)} (areRelated : List.Forall₂ related members others)
    (sameName : ∀ member other, related member other → member.1 = other.1) :
    members.map Prod.fst = others.map Prod.fst := by
  induction areRelated with
  | nil => rfl
  | cons isFirst _ ih => rw [List.map_cons, List.map_cons, sameName _ _ isFirst, ih]

end

/-- A value under a new key is stored behind all others. -/
theorem Table.insert_of_notMem {α : Type} {table : Table α} {key : String} (isNew : key ∉ table.keys)
    (value : α) : table.insert key value = ⟨table.entries ++ [(key, value)]⟩ := by
  obtain ⟨entries⟩ := table
  induction entries with
  | nil => rfl
  | cons first rest ih =>
    simp only [keys, List.map_cons, List.mem_cons, not_or] at isNew
    have later := ih isNew.2
    simp only [insert, Table.mk.injEq] at later ⊢
    simp [insertEntry, Ne.symm isNew.1, later]

/-- Two readings one after the other give something if both of them do. -/
theorem Reading.bind_eq_ok_iff {α β : Type} {reading : Reading α} {next : α → Reading β} {value : β} :
    reading >>= next = .ok value ↔ ∃ first, reading = .ok first ∧ next first = .ok value := by
  cases reading <;> simp [bind, Except.bind]

/-- What a transformed reading gives is the transformation of something that is read. -/
theorem Reading.map_eq_ok_iff {α β : Type} {reading : Reading α} {transform : α → β} {value : β} :
    reading.map transform = .ok value ↔ ∃ found, reading = .ok found ∧ transform found = value := by
  cases reading <;> simp [Except.map]

namespace Source

/-- Whether a key is a name. -/
def isName : Source → Bool
  | .scalar (.text _) => true
  | _ => false

mutual

/-- Whether a tree is that of a JSON value. -/
def isJson : Source → Bool
  | .scalar value => value.isJson
  | .list items => isJsonItems items
  | .record members => isJsonMembers members
  | .word _ | .sealed _ | .misplaced _ | .fault _ => false

/-- Whether all items are JSON values. -/
def isJsonItems : List Source → Bool
  | [] => true
  | item :: rest => isJson item && isJsonItems rest

/-- Whether all members are JSON values under names. -/
def isJsonMembers : List (Source × Source) → Bool
  | [] => true
  | (key, value) :: rest => isName key && isJson value && isJsonMembers rest

end

/-- Members of a record whose keys are names. -/
def underNames {ν : Type} (members : List (String × ν)) : List (Source × ν) :=
  members.map fun member => (.scalar (.text member.1), member.2)

/-- Items are JSON values if each of them is. -/
theorem isJsonItems_iff (items : List Source) :
    isJsonItems items = true ↔ ∀ item ∈ items, item.isJson = true := by
  induction items with
  | nil => simp [isJsonItems]
  | cons item rest ih => simp [isJsonItems, ih]

/-- Members are JSON values if they stand under names and each of them is one. -/
theorem isJsonMembers_iff (members : List (Source × Source)) :
    isJsonMembers members = true ↔
      ∃ named, members = underNames named ∧ ∀ member ∈ named, member.2.isJson = true := by
  constructor
  · intro isJson
    -- Names are told from other keys member by member.
    induction members with
    | nil => exact ⟨[], rfl, by simp⟩
    | cons member rest ih =>
      obtain ⟨key, value⟩ := member
      simp only [isJsonMembers, Bool.and_eq_true] at isJson
      obtain ⟨⟨isName, isValue⟩, isRest⟩ := isJson
      obtain ⟨named, rfl, areJson⟩ := ih isRest
      obtain ⟨name, rfl⟩ : ∃ name, key = .scalar (.text name) := by
        unfold Source.isName at isName
        split at isName
        · exact ⟨_, rfl⟩
        · cases isName
      exact ⟨(name, value) :: named, rfl, List.forall_mem_cons.mpr ⟨isValue, areJson⟩⟩
  · rintro ⟨named, rfl, areJson⟩
    induction named with
    | nil => rfl
    | cons member rest ih =>
      have ⟨isFirst, areRest⟩ := List.forall_mem_cons.mp areJson
      simpa [underNames, isJsonMembers, isName, isFirst] using ih areRest

/-- The items of a list are read if each of them is. -/
theorem mapM_eq_ok_iff {α ν : Type} {read : ν → Reading α} {parts : List ν} {values : List α} :
    parts.mapM read = .ok values ↔
      List.Forall₂ (fun part value => read part = .ok value) parts values := by
  induction parts generalizing values with
  | nil => cases values <;> simp [pure, Except.pure]
  | cons part rest ih =>
    rw [List.mapM_cons, Reading.bind_eq_ok_iff]
    constructor
    · rintro ⟨first, isFirst, goesOn⟩
      obtain ⟨others, areOthers, isValue⟩ := Reading.bind_eq_ok_iff.mp goesOn
      cases isValue
      exact .cons isFirst (ih.mp areOthers)
    · rintro (_ | ⟨isFirst, areOthers⟩)
      exact ⟨_, isFirst, Reading.bind_eq_ok_iff.mpr ⟨_, ih.mpr areOthers, rfl⟩⟩

section

variable {α ν : Type} {read : ν → Reading α} {parts : List (String × ν)}

/-- Entries under distinct names are read in their order behind those of a table. -/
theorem readEntries_underNames {entries : List (String × α)}
    (reads : List.Forall₂ (fun part entry => part.1 = entry.1 ∧ read part.2 = .ok entry.2) parts
      entries) {table : Table α}
    (distinct : ((table.entries ++ entries).map Prod.fst).Nodup) :
    readEntries .whole read (underNames parts) table = .ok ⟨table.entries ++ entries⟩ := by
  induction reads generalizing table with
  | nil => simp [underNames, readEntries]
  | @cons part entry rest others isFirst _ ih =>
    obtain ⟨name, part⟩ := part
    obtain ⟨rfl, isRead⟩ := isFirst
    -- As the keys are distinct, no entry takes the place of an earlier one.
    have isNew : entry.1 ∉ table.keys := fun isKey => by
      rw [List.map_append, List.map_cons, List.nodup_append] at distinct
      exact distinct.2.2 _ isKey _ List.mem_cons_self rfl
    have appended : table.insert entry.1 entry.2 = ⟨table.entries ++ [entry]⟩ :=
      Table.insert_of_notMem isNew entry.2
    have stillDistinct :
        (((table.insert entry.1 entry.2).entries ++ others).map Prod.fst).Nodup := by
      simpa [appended] using distinct
    have goesOn := ih stillDistinct
    rw [appended, List.append_assoc, List.singleton_append] at goesOn
    refine Reading.bind_eq_ok_iff.mpr ⟨entry.1, rfl, Reading.bind_eq_ok_iff.mpr ⟨entry.2, isRead, ?_⟩⟩
    rw [appended]
    exact goesOn

/-- The keys of a table that is read are distinct, and each of its values is read. -/
theorem of_readEntries {table result : Table α}
    (reads : readEntries .whole read (underNames parts) table = .ok result)
    (distinct : table.keys.Nodup) : result.keys.Nodup ∧
      ∀ value ∈ result.values, value ∈ table.values ∨ ∃ part ∈ parts, read part.2 = .ok value := by
  -- A value that is in the table after an entry has been read was there before, or is that entry.
  induction parts generalizing table with
  | nil =>
    cases reads
    exact ⟨distinct, fun _ isValue => .inl isValue⟩
  | cons part rest ih =>
    obtain ⟨name, isName, goesOn⟩ := Reading.bind_eq_ok_iff.mp reads
    obtain ⟨entry, isEntry, goesOn⟩ := Reading.bind_eq_ok_iff.mp goesOn
    have ⟨stillDistinct, isRead⟩ := ih goesOn (Table.nodup_keys_insert distinct _ _)
    refine ⟨stillDistinct, fun value isValue => ?_⟩
    rcases isRead value isValue with isStored | ⟨later, isLater, isRead⟩
    · rcases Table.mem_values_insert isStored with rfl | isOld
      · exact .inr ⟨part, List.mem_cons_self, isEntry⟩
      · exact .inl isOld
    · exact .inr ⟨later, List.mem_cons_of_mem _ isLater, isRead⟩

end

/-- What holds of a JSON value if it does of the values inside it holds of every JSON value. -/
@[elab_as_elim] theorem jsonInduction {motive : Source → Prop} {source : Source}
    (isJson : source.isJson = true)
    (scalar : ∀ value : Scalar, value.isJson = true → motive (.scalar value))
    (list : ∀ items : List Source, (∀ item ∈ items, item.isJson = true ∧ motive item) →
      motive (.list items))
    (record : ∀ members : List (String × Source),
      (∀ member ∈ members, member.2.isJson = true ∧ motive member.2) →
        motive (.record (underNames members))) : motive source := by
  have general : source.isJson = true → motive source :=
    -- A list and a record hold what each of their values needs.
    @Source.rec (fun source => source.isJson = true → motive source)
      (fun items => ∀ item ∈ items, item.isJson = true → motive item)
      (fun members => ∀ member ∈ members, member.2.isJson = true → motive member.2)
      (fun member => member.2.isJson = true → motive member.2)
      scalar
      (fun _ isJson => by simp [Source.isJson] at isJson)
      (fun items holds isJson => by
        have areJson := (isJsonItems_iff items).mp (by simpa [Source.isJson] using isJson)
        exact list items fun item isItem => ⟨areJson item isItem, holds item isItem (areJson item isItem)⟩)
      (fun members holds isJson => by
        obtain ⟨named, rfl, areJson⟩ :=
          (isJsonMembers_iff members).mp (by simpa [Source.isJson] using isJson)
        refine record named fun member isMember => ⟨areJson member isMember, ?_⟩
        exact holds _ (List.mem_map_of_mem isMember) (areJson member isMember))
      (fun _ _ isJson => by simp [Source.isJson] at isJson)
      (fun _ _ isJson => by simp [Source.isJson] at isJson)
      (fun _ isJson => by simp [Source.isJson] at isJson)
      (fun _ isMember => absurd isMember List.not_mem_nil)
      (fun _ _ first rest => List.forall_mem_cons.mpr ⟨first, rest⟩)
      (fun _ isMember => absurd isMember List.not_mem_nil)
      (fun _ _ first rest => List.forall_mem_cons.mpr ⟨first, rest⟩)
      (fun _ _ _ holds => holds) source
  exact general isJson

/-- A list is taken in whole if its items are. -/
theorem readFaultOfItems_eq_none {items : List Source}
    (faultless : ∀ item ∈ items, item.readFault? = none) : readFaultOfItems items = none := by
  induction items with
  | nil => rfl
  | cons item rest ih =>
    have ⟨first, later⟩ := List.forall_mem_cons.mp faultless
    simp [readFaultOfItems, first, ih later]

/-- A record is taken in whole if what stands under its names is. -/
theorem readFaultOfMembers_eq_none {members : List (String × Source)}
    (faultless : ∀ member ∈ members, member.2.readFault? = none) :
    readFaultOfMembers (underNames members) = none := by
  induction members with
  | nil => rfl
  | cons member rest ih =>
    have ⟨first, later⟩ := List.forall_mem_cons.mp faultless
    have isRest := ih later
    simp only [underNames] at isRest
    simp [underNames, readFaultOfMembers, readFault?, first, isRest]

/-- Nothing in a JSON value keeps it from being taken in whole. -/
theorem readFault?_of_isJson {source : Source} (isJson : source.isJson = true) :
    source.readFault? = none := by
  refine jsonInduction isJson (fun _ _ => rfl) (fun items areJson => ?_) fun members areJson => ?_
  · exact readFaultOfItems_eq_none fun item isItem => (areJson item isItem).2
  · exact readFaultOfMembers_eq_none fun member isMember => (areJson member isMember).2

/-- From a JSON value the first of several readings is taken that succeeds. -/
theorem tryAll_of_isJson {α : Type} {source : Source} (isJson : source.isJson = true) (name : String)
    (readings : List (Reading α)) :
    source.tryAll name readings = match readings.findSome? Except.toOption with
      | some value => .ok value
      | none => .error (.noAlternative name) := by
  unfold tryAll takeWhole
  rw [readFault?_of_isJson isJson]
  rfl

section

variable {α : Type} {read : Source → Reading α} {source : Source}

/-- What is read in one of two ways is read in the first or in the second. -/
theorem of_tryAll {name : String} {first second : Reading α} {value : α}
    (reads : source.tryAll name [first, second] = .ok value) :
    first = .ok value ∨ second = .ok value := by
  obtain ⟨_, _, tries⟩ := Reading.bind_eq_ok_iff.mp reads
  cases first with
  | ok => exact .inl tries
  | error =>
    cases second with
    | ok => exact .inr tries
    | error => cases tries

/-- A JSON value that is read in the first of several ways is not read in another. -/
theorem tryAll_of_first (isJson : source.isJson = true) {name : String} {first : Reading α}
    {others : List (Reading α)} {value : α} (reads : first = .ok value) :
    source.tryAll name (first :: others) = .ok value := by
  rw [tryAll_of_isJson isJson, reads]
  rfl

/-- A JSON value that is not read in the first of two ways is read in the second. -/
theorem tryAll_of_second (isJson : source.isJson = true) {name : String} {first second : Reading α}
    {value : α} (fails : ∀ other, first ≠ .ok other) (reads : second = .ok value) :
    source.tryAll name [first, second] = .ok value := by
  rw [tryAll_of_isJson isJson]
  cases first with
  | ok other => exact absurd rfl (fails other)
  | error =>
    rw [reads]
    rfl

/-- A value that may be absent and is read is one that is there. -/
theorem of_readOption {value : Option α} (reads : source.readOption .whole read = .ok value) {present : α}
    (isPresent : present ∈ value) :
    source.isAbsent .whole = .ok false ∧ read source = .ok present := by
  obtain ⟨isAbsent, absent, goesOn⟩ := Reading.bind_eq_ok_iff.mp reads
  cases isAbsent with
  | true =>
    cases goesOn
    cases isPresent
  | false =>
    obtain ⟨found, isRead, isValue⟩ := Reading.bind_eq_ok_iff.mp goesOn
    cases isValue
    cases isPresent
    exact ⟨absent, isRead⟩

/-- A table is read from a record. -/
theorem of_readTable (isJson : source.isJson = true) {table : Table α}
    (reads : source.readTable .whole read = .ok table) :
    ∃ parts, source = .record (underNames parts) ∧
      readEntries .whole read (underNames parts) {} = .ok table := by
  cases source with
  | record members =>
    obtain ⟨parts, rfl, _⟩ := (isJsonMembers_iff members).mp (by simpa [Source.isJson] using isJson)
    exact ⟨parts, rfl, reads⟩
  | scalar | list => cases reads
  | word | sealed | misplaced | fault => cases isJson

/-- A list is read from a list. -/
theorem of_readList (isJson : source.isJson = true) {values : List α}
    (reads : source.readList .whole read = .ok values) :
    ∃ parts, source = .list parts ∧ List.Forall₂ (fun part value => read part = .ok value) parts values := by
  cases source with
  | list parts => exact ⟨parts, rfl, mapM_eq_ok_iff.mp reads⟩
  | scalar | record => cases reads
  | word | sealed | misplaced | fault => cases isJson

end

end Source

end ApiTypes
