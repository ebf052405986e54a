import ApiTypes.Table

/-! Laws of tables: what a look-up finds after a value is stored, and in which order keys stand. -/

namespace ApiTypes.Table

variable {α : Type}

/-- Nothing is found in the table without entries. -/
@[simp] theorem get?_empty (key : String) : (∅ : Table α).get? key = none := rfl

/-- The table without entries has no values. -/
@[simp] theorem values_empty : (∅ : Table α).values = [] := rfl

/-- The value stored under a key is the one of the first entry that carries it. -/
theorem get?_cons (first : String × α) (rest : List (String × α)) (key : String) :
    (⟨first :: rest⟩ : Table α).get? key =
      if first.1 = key then some first.2 else (⟨rest⟩ : Table α).get? key := by
  -- The search stops at the first entry or goes on behind it.
  by_cases same : first.1 = key <;> simp [get?, same]

/-- A look-up finds the value stored last under its key, and other keys as before. -/
theorem get?_insert (table : Table α) (stored key : String) (value : α) :
    (table.insert stored value).get? key = if key = stored then some value else table.get? key := by
  obtain ⟨entries⟩ := table
  -- The entries in front of the stored one are passed over on both sides.
  induction entries with
  | nil => by_cases same : key = stored <;> simp [insert, insertEntry, get?, same, Ne.symm]
  | cons first rest ih =>
    simp only [insert, insertEntry] at ih ⊢
    by_cases here : first.1 = stored
    · by_cases same : key = stored
      · simp [here, get?_cons, same]
      · simp [here, get?_cons, same, Ne.symm same]
    · by_cases same : first.1 = key
      · have other : key ≠ stored := fun equal => here (same.trans equal)
        simp [get?_cons, same, other]
      · simp [here, get?_cons, same, ih]

/-- The keys of a table are those under which a look-up finds something. -/
theorem mem_keys_iff (table : Table α) (key : String) :
    key ∈ table.keys ↔ ∃ value, table.get? key = some value := by
  obtain ⟨entries⟩ := table
  -- Every entry is either the one that is found or stands behind it.
  induction entries with
  | nil => simp [keys, get?]
  | cons first rest ih =>
    simp only [get?_cons]
    by_cases same : first.1 = key
    · simp [keys, same]
    · simpa [keys, same, Ne.symm same] using ih

/-- A look-up that finds nothing is one of no key. -/
theorem get?_eq_none_iff (table : Table α) (key : String) :
    table.get? key = none ↔ key ∉ table.keys := by
  -- Both say that the look-up has no result.
  rw [mem_keys_iff]
  cases table.get? key <;> simp

/-- A stored key keeps its place, and a new one stands at the end. -/
theorem keys_insert (table : Table α) (stored : String) (value : α) :
    (table.insert stored value).keys =
      if stored ∈ table.keys then table.keys else table.keys ++ [stored] := by
  obtain ⟨entries⟩ := table
  -- The key is found at the first entry, behind it, or not at all.
  induction entries with
  | nil => rfl
  | cons first rest ih =>
    simp only [insert, insertEntry, keys] at ih ⊢
    by_cases here : first.1 = stored
    · simp [here]
    · by_cases later : stored ∈ rest.map Prod.fst
      · simp [here, later, ih]
      · simp [here, later, ih, Ne.symm here]

/-- Storing a value keeps the keys distinct. -/
theorem nodup_keys_insert {table : Table α} (distinct : table.keys.Nodup) (stored : String)
    (value : α) : (table.insert stored value).keys.Nodup := by
  -- A key is added only where it was not there.
  rw [keys_insert]
  split
  · exact distinct
  · rename_i fresh
    exact List.nodup_append.mpr ⟨distinct, by simp, by
      intro key isKey other isStored same
      simp only [List.mem_singleton] at isStored
      exact fresh (isStored ▸ same ▸ isKey)⟩

/-- Every value after storing one is that value or was there before. -/
theorem mem_values_insert {table : Table α} {stored : String} {value other : α}
    (isMember : other ∈ (table.insert stored value).values) :
    other = value ∨ other ∈ table.values := by
  obtain ⟨entries⟩ := table
  -- The value goes to the place of its key, or to the end.
  induction entries with
  | nil => simpa [insert, insertEntry, values] using isMember
  | cons first rest ih =>
    simp only [insert, insertEntry, values] at ih isMember ⊢
    by_cases here : first.1 = stored
    · simp only [here, beq_self_eq_true, if_true, List.map_cons, List.mem_cons] at isMember ⊢
      exact isMember.imp_right .inr
    · simp only [beq_iff_eq, here, if_false, List.map_cons, List.mem_cons] at isMember ⊢
      rcases isMember with isFirst | isLater
      · exact .inr (.inl isFirst)
      · exact (ih isLater).imp_right .inr

/-- What a look-up finds is one of the entries. -/
theorem mem_entries_of_get? {table : Table α} {key : String} {value : α}
    (found : table.get? key = some value) : (key, value) ∈ table.entries := by
  -- The search returns a member of the list whose key is the requested one.
  obtain ⟨entry, isEntry, isValue⟩ := Option.map_eq_some_iff.mp found
  have same : entry.1 = key := by simpa using List.find?_some isEntry
  have member := List.mem_of_find?_eq_some isEntry
  simpa [← same, ← isValue] using member

/-- Where no key is repeated, every entry is the one that is found under its key. -/
theorem get?_of_mem_entries {table : Table α} (distinct : table.keys.Nodup) {entry : String × α}
    (isEntry : entry ∈ table.entries) : table.get? entry.1 = some entry.2 := by
  obtain ⟨entries⟩ := table
  induction entries with
  | nil => cases isEntry
  | cons first rest ih =>
    simp only [keys, List.map_cons, List.nodup_cons] at distinct
    rw [get?_cons]
    rcases List.mem_cons.mp isEntry with rfl | isLater
    · exact if_pos rfl
    · -- A later entry has another key than the first one.
      rw [if_neg, ih distinct.2 isLater]
      intro same
      exact distinct.1 (same ▸ List.mem_map_of_mem isLater)

/-- Storing entries leaves what is stored under other keys. -/
theorem get?_foldl_insert_of_not_mem {entries : List (String × α)} {key : String}
    (isOther : key ∉ entries.map Prod.fst) (table : Table α) :
    (entries.foldl (fun table entry => table.insert entry.1 entry.2) table).get? key =
      table.get? key := by
  induction entries generalizing table with
  | nil => rfl
  | cons entry rest ih =>
    obtain ⟨isNotFirst, isNotLater⟩ := not_or.mp (mt List.mem_cons.mpr isOther)
    rw [List.foldl_cons, ih isNotLater, get?_insert, if_neg isNotFirst]

/-- A table of entries has distinct keys. -/
theorem nodup_keys_ofEntries (entries : List (String × α)) : (ofEntries entries).keys.Nodup := by
  have stored (table : Table α) (distinct : table.keys.Nodup) :
      (entries.foldl (fun table entry => table.insert entry.1 entry.2) table).keys.Nodup := by
    induction entries generalizing table with
    | nil => exact distinct
    | cons entry rest ih => exact ih _ (nodup_keys_insert distinct _ _)
  exact stored empty List.nodup_nil

/-- In the table of entries with distinct keys all of them are found. -/
theorem get?_ofEntries {entries : List (String × α)} (distinct : (entries.map Prod.fst).Nodup)
    {key : String} {value : α} (isEntry : (key, value) ∈ entries) :
    (ofEntries entries).get? key = some value := by
  unfold ofEntries
  generalize empty = table
  induction entries generalizing table with
  | nil => cases isEntry
  | cons entry rest ih =>
    obtain ⟨isNotLater, distinct⟩ := List.nodup_cons.mp distinct
    rcases List.mem_cons.mp isEntry with rfl | isLater
    · rw [List.foldl_cons, get?_foldl_insert_of_not_mem isNotLater, get?_insert, if_pos rfl]
    · exact ih distinct isLater _

/-- Filtering a table with distinct keys filters what look-ups find. -/
theorem get?_filter {table : Table α} (distinct : table.keys.Nodup) (keep : String → α → Bool)
    (key : String) : (table.filter keep).get? key = (table.get? key).filter (keep key) := by
  obtain ⟨entries⟩ := table
  -- An entry that is dropped has no later one with its key that could be found instead.
  induction entries with
  | nil => rfl
  | cons first rest ih =>
    obtain ⟨name, value⟩ := first
    simp only [keys, List.map_cons, List.nodup_cons] at distinct
    have tail := ih distinct.2
    simp only [filter, List.filter_cons, get?_cons] at tail ⊢
    by_cases same : name = key
    · subst same
      have absent : (⟨rest⟩ : Table α).get? name = none := by
        rw [get?_eq_none_iff]
        exact distinct.1
      by_cases kept : keep name value
      · simp [kept, get?_cons, Option.filter]
      · simp [kept, tail, absent, Option.filter]
    · by_cases kept : keep name value <;> simp [kept, get?_cons, same, tail]

/-- Filtering a table drops keys and changes no order. -/
theorem keys_filter_sublist (table : Table α) (keep : String → α → Bool) :
    (table.filter keep).keys.Sublist table.keys :=
  -- The kept entries are a sublist, and so are their keys.
  (List.filter_sublist (l := table.entries)).map Prod.fst

section

variable {β : Type} (transform : α → β) (table : Table α)

/-- Transforming values leaves a table empty or not. -/
@[simp] theorem isEmpty_map : (table.map transform).isEmpty = table.isEmpty :=
  List.isEmpty_map

/-- Transforming values keeps the keys that are stored. -/
@[simp] theorem contains_map (key : String) :
    (table.map transform).contains key = table.contains key := by
  simp [contains, map, Function.comp_def]

/-- A transformed value is found under the key of the value. -/
theorem get?_map (key : String) : (table.map transform).get? key = (table.get? key).map transform := by
  simp [get?, map, List.find?_map, Function.comp_def]

end

end ApiTypes.Table
