/-! Tables keyed by text, in the order in which their keys first appeared. -/

namespace ApiTypes

/-- Entries in order of first appearance; the operations below never store a key twice. -/
structure Table (α : Type) where
  entries : List (String × α)

namespace Table

variable {α β : Type}

/-- The table without entries. -/
def empty : Table α := ⟨[]⟩

instance : EmptyCollection (Table α) := ⟨empty⟩

instance : Inhabited (Table α) := ⟨empty⟩

/-- The keys in order. -/
def keys (table : Table α) : List String := table.entries.map Prod.fst

/-- The values in order of their keys. -/
def values (table : Table α) : List α := table.entries.map Prod.snd

/-- How many keys the table holds. -/
def size (table : Table α) : Nat := table.entries.length

/-- Whether the table holds no key. -/
def isEmpty (table : Table α) : Bool := table.entries.isEmpty

/-- The value stored under a key. -/
def get? (table : Table α) (key : String) : Option α :=
  (table.entries.find? fun entry => entry.1 == key).map Prod.snd

/-- A key with a value is one of the keys. -/
theorem mem_keys_of_get?_eq_some {table : Table α} {key : String} {value : α}
    (found : table.get? key = some value) : key ∈ table.keys := by
  -- The entry that is found carries the key.
  obtain ⟨entry, isEntry, _⟩ := Option.map_eq_some_iff.mp found
  have same : entry.1 = key := by simpa using List.find?_some isEntry
  exact same ▸ List.mem_map_of_mem (List.mem_of_find?_eq_some isEntry)

/-- Whether a key is stored. -/
def contains (table : Table α) (key : String) : Bool :=
  table.entries.any fun entry => entry.1 == key

/-- Stores a value in a list of entries: in the place of the key, or else at the end. -/
def insertEntry (key : String) (value : α) : List (String × α) → List (String × α)
  | [] => [(key, value)]
  | entry :: rest =>
    if entry.1 == key then (entry.1, value) :: rest else entry :: insertEntry key value rest

/-- Stores a value; a key that is already there keeps its place and gets the new value. -/
def insert (table : Table α) (key : String) (value : α) : Table α :=
  ⟨insertEntry key value table.entries⟩

/-- The table that results from storing the entries one after the other. -/
def ofEntries (entries : List (String × α)) : Table α :=
  entries.foldl (fun table entry => table.insert entry.1 entry.2) empty

/-- The same keys with every value transformed. -/
def map (transform : α → β) (table : Table α) : Table β :=
  ⟨table.entries.map fun entry => (entry.1, transform entry.2)⟩

/-- The entries that satisfy a condition, in order. -/
def filter (keep : String → α → Bool) (table : Table α) : Table α :=
  ⟨table.entries.filter fun entry => keep entry.1 entry.2⟩

/-- Whether every entry of a table is one of another. -/
def isIncludedIn [BEq α] (table other : Table α) : Bool :=
  table.entries.all fun entry => (other.get? entry.1).any fun value => entry.2 == value

/-- Two tables are equal when they hold the same entries, in whatever order. -/
instance [BEq α] : BEq (Table α) where
  beq left right := left.isIncludedIn right && right.isIncludedIn left

end Table

end ApiTypes
