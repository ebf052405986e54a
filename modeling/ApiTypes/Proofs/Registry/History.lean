import Mathlib.Logic.Relation
import ApiTypes.Proofs.Declaration
import ApiTypes.Proofs.Registry

/-!
Histories of a registry. Whatever is done to it, and in whatever order, what is declared stands in order
under its own name, and a name that has been taken is never given out for something else.
-/

namespace ApiTypes

open Relation

/-- Something that has been done to a registry, with the name that it is about. -/
inductive Event where
  | reserved (schema name : String)
  | registered (name : String)
  | filled (name : String)
  | removed (name : String)

/-- A registry and what has been done to it, the latest event first. -/
structure History where
  events : List Event
  registry : Registry

namespace History

/-- Nothing has been done. -/
def start (config : Config) : History := ⟨[], Registry.ofConfig config⟩

/--
One thing more is done. A name is filled for the schema for which it was reserved, and that only once;
and only what is declared is removed.
-/
inductive Step : History → History → Prop
  | reserve (history : History) (schema : String) :
    Step history
      ⟨.reserved schema (history.registry.reserve schema).1 :: history.events,
        (history.registry.reserve schema).2⟩
  | register (history : History) (candidate : String) (shape : Shape) (doc : Option String)
    (deprecated : Bool) (origin : Origin) :
    Step history
      ⟨.registered (history.registry.register candidate shape doc deprecated origin).1 ::
          history.events,
        (history.registry.register candidate shape doc deprecated origin).2⟩
  | fill {history : History} {schema name : String}
    (isReserved : .reserved schema name ∈ history.events)
    (unfilled : .filled name ∉ history.events) (shape : Shape) (doc : Option String)
    (deprecated : Bool) :
    Step history
      ⟨.filled name :: history.events,
        history.registry.fill name schema shape doc deprecated⟩
  | remove {history : History} {name : String}
    (isDeclared : history.registry.isDeclared name = true) :
    Step history ⟨.removed name :: history.events, history.registry.remove name⟩

/-- What holds of a registry at any time of its history. -/
structure Sound (history : History) : Prop where
  wellFormed : history.registry.WellFormed
  nodup_components : history.registry.components.keys.Nodup
  reserved_iff : ∀ schema name, .reserved schema name ∈ history.events ↔
    history.registry.components.get? schema = some name
  injective : ∀ {schema other name}, history.registry.components.get? schema = some name →
    history.registry.components.get? other = some name → schema = other
  taken : ∀ {schema name}, history.registry.components.get? schema = some name →
    history.registry.slots.get? name ≠ none
  /-- Until a reserved name is filled, nothing is declared under it. -/
  unfilled : ∀ {schema name}, history.registry.components.get? schema = some name →
    .filled name ∉ history.events → history.registry.slots.get? name = some .reserved

/-- Before anything is done there is nothing to hold. -/
theorem Sound.start (config : Config) : (start config).Sound where
  wellFormed := Registry.wellFormed_ofConfig config
  nodup_components := List.nodup_nil
  reserved_iff schema name := by simp [History.start, Registry.ofConfig]
  injective isReserved := by cases isReserved
  taken isReserved := by cases isReserved
  unfilled isReserved := by cases isReserved

namespace Sound

variable {history next : History}

/-- Reserving a name that is reserved already finds it again. -/
theorem reserve_again (sound : history.Sound) {schema name : String}
    (isReserved : .reserved schema name ∈ history.events) :
    history.registry.reserve schema = (name, history.registry) := by
  simp [Registry.reserve, (sound.reserved_iff schema name).mp isReserved]

/-- A reserved name is a free one, and nothing else changes. -/
theorem reserve (sound : history.Sound) (schema : String) :
    Sound ⟨.reserved schema (history.registry.reserve schema).1 :: history.events,
      (history.registry.reserve schema).2⟩ := by
  cases isReserved : history.registry.components.get? schema with
  | some name =>
    -- The name is found again, and the event has happened before.
    have again := sound.reserve_again ((sound.reserved_iff schema name).mpr isReserved)
    rw [again]
    refine ⟨sound.wellFormed, sound.nodup_components, fun other another => ?_, sound.injective,
      sound.taken, fun held unfilled => sound.unfilled held (by simpa using unfilled)⟩
    rw [List.mem_cons, sound.reserved_iff]
    constructor
    · rintro (isHead | isEarlier)
      · cases isHead
        exact isReserved
      · exact isEarlier
    · exact .inr
  | none =>
    have free := history.registry.get?_freeName (history.registry.typeName schema)
    generalize isName : history.registry.freeName (history.registry.typeName schema) = name at free
    have reserves : history.registry.reserve schema =
        (name, { history.registry with
          slots := history.registry.slots.insert name .reserved
          components := history.registry.components.insert schema name }) := by
      simp [Registry.reserve, isReserved, isName]
    rw [reserves]
    -- A name of another schema is taken, and so it is not the free one.
    have ne_name {other another : String}
        (held : history.registry.components.get? other = some another) : another ≠ name := by
      rintro rfl
      exact sound.taken held free
    have same (other : String) : Registry.get? { history.registry with
        slots := history.registry.slots.insert name .reserved
        components := history.registry.components.insert schema name } other =
          history.registry.get? other := by
      simp only [Registry.get?, Table.get?_insert]
      split
      · rename_i isFree
        rw [isFree, free]
        rfl
      · rfl
    constructor
    · exact ⟨sound.wellFormed.nodup_order,
        fun other => by simpa only [Registry.isDeclared, same] using sound.wellFormed.mem_order_iff other,
        fun found => sound.wellFormed.name_eq (same _ ▸ found)⟩
    · exact Table.nodup_keys_insert sound.nodup_components _ _
    · intro other another
      rw [List.mem_cons, sound.reserved_iff, Table.get?_insert]
      by_cases isSchema : other = schema
      · subst isSchema
        simp [isReserved, eq_comm]
      · simp [isSchema]
    · intro first second another held also
      rw [Table.get?_insert] at held also
      split at held <;> split at also
      · simp_all
      · cases held
        exact absurd rfl (ne_name also)
      · cases also
        exact absurd rfl (ne_name held)
      · exact sound.injective held also
    · intro other another held
      rw [Table.get?_insert] at held ⊢
      split at held
      · cases held
        simp
      · rw [if_neg (ne_name held)]
        exact sound.taken held
    · intro other another held unfilled
      simp only [Table.get?_insert] at held ⊢
      split at held
      · cases held
        exact if_pos rfl
      · rw [if_neg (ne_name held)]
        exact sound.unfilled held (by simpa using unfilled)

/-- Declaring something under a name that is free, or reserved and now filled, changes no reservation. -/
theorem declare (sound : history.Sound) {declaration : Declaration} {event : Event}
    (isOther : ∀ schema name, event ≠ .reserved schema name)
    (fills : ∀ schema, history.registry.components.get? schema = some declaration.name →
      event = .filled declaration.name) :
    Sound ⟨event :: history.events, history.registry.declare declaration⟩ where
  wellFormed := sound.wellFormed.declare declaration
  nodup_components := sound.nodup_components
  reserved_iff schema name := by
    rw [List.mem_cons, sound.reserved_iff]
    exact or_iff_right (isOther schema name).symm
  injective := sound.injective
  taken held := by
    rw [Registry.declare, Table.get?_insert]
    split
    · simp
    · exact sound.taken held
  -- Declaring a name that is held is the event that fills it, so this is another one.
  unfilled {schema name} held unfilled := by
    simp only [List.mem_cons, not_or] at unfilled
    rw [Registry.declare, Table.get?_insert, if_neg]
    · exact sound.unfilled held unfilled.2
    · rintro rfl
      exact unfilled.1 (fills schema held).symm

/-- Registering a shape uses no reserved name. -/
theorem register (sound : history.Sound) (candidate : String) (shape : Shape) (doc : Option String)
    (deprecated : Bool) (origin : Origin) :
    Sound ⟨.registered (history.registry.register candidate shape doc deprecated origin).1 ::
        history.events,
      (history.registry.register candidate shape doc deprecated origin).2⟩ := by
  rcases history.registry.register_cases candidate shape doc deprecated origin with
    ⟨_, name, _, _, isSame⟩ | ⟨name, free, isDeclared⟩
  · rw [isSame]
    exact ⟨sound.wellFormed, sound.nodup_components,
      fun schema name => by simpa using sound.reserved_iff schema name, sound.injective, sound.taken,
      fun held unfilled => sound.unfilled held (by simpa using unfilled)⟩
  · rw [isDeclared]
    exact sound.declare (by simp) fun schema held => absurd free (sound.taken held)

/-- A withdrawn name stays taken. -/
theorem remove (sound : history.Sound) (name : String) :
    Sound ⟨.removed name :: history.events, history.registry.remove name⟩ where
  wellFormed := sound.wellFormed.removeAll [name]
  nodup_components := sound.nodup_components
  reserved_iff schema other := by
    rw [List.mem_cons, sound.reserved_iff]
    exact or_iff_right (by simp)
  injective := sound.injective
  taken held := by
    rw [Registry.remove, Table.get?_insert]
    split
    · simp
    · exact sound.taken held
  unfilled held unfilled := by
    rw [Registry.remove, Table.get?_insert]
    split
    · rfl
    · exact sound.unfilled held (by simpa using unfilled)

/-- Whatever is done to it, a registry stays sound. -/
theorem step (sound : history.Sound) (step : Step history next) : next.Sound := by
  cases step with
  | reserve schema => exact sound.reserve schema
  | register candidate shape doc deprecated origin =>
    exact sound.register candidate shape doc deprecated origin
  | @fill schema name isReserved unfilled shape doc deprecated =>
    exact sound.declare (by simp) fun _ _ => rfl
  | @remove name isDeclared => exact sound.remove name

end Sound

/--
What a history keeps of an earlier one: no name is free again, and no declaration changes unless
removed.
-/
def Keeps (earlier later : History) : Prop :=
  ∃ more, later.events = more ++ earlier.events ∧
    (∀ name, earlier.registry.slots.get? name ≠ none → later.registry.slots.get? name ≠ none) ∧
    ∀ name declaration, earlier.registry.get? name = some declaration → .removed name ∉ more →
      later.registry.get? name = some declaration

/-- Declaring something under a name that nothing is declared under keeps all else. -/
theorem keeps_declare {history : History} {declaration : Declaration}
    (undeclared : history.registry.get? declaration.name = none) (event : Event) :
    history.Keeps ⟨event :: history.events, history.registry.declare declaration⟩ := by
  refine ⟨[event], rfl, fun name isTaken => ?_, fun name found isFound _ => ?_⟩
  · rw [Registry.declare, Table.get?_insert]
    split
    · simp
    · exact isTaken
  · rw [Registry.get?_declare, if_neg, isFound]
    rintro rfl
    simp [undeclared] at isFound

/-- Every step keeps what was there before it. -/
theorem Sound.keeps {history next : History} (sound : history.Sound) (step : Step history next) :
    history.Keeps next := by
  cases step with
  | reserve schema =>
    refine ⟨[_], rfl, fun name isTaken => ?_, fun name declaration isFound _ => ?_⟩ <;>
      unfold Registry.reserve
    · split
      · exact isTaken
      · rw [Table.get?_insert]
        split
        · simp
        · exact isTaken
    · split
      · exact isFound
      · -- The reserved name was free, so the declared one is another.
        simp only [Registry.get?, Table.get?_insert]
        rw [if_neg]
        · exact isFound
        · rintro rfl
          simp [Registry.get?, Registry.get?_freeName] at isFound
  | register candidate shape doc deprecated origin =>
    rcases history.registry.register_cases candidate shape doc deprecated origin with
      ⟨_, _, _, _, isSame⟩ | ⟨name, free, isDeclared⟩
    · rw [isSame]
      exact ⟨[_], rfl, fun _ => id, fun _ _ isFound _ => isFound⟩
    · rw [isDeclared]
      exact keeps_declare (Registry.get?_eq_none_of_slot free) _
  | @fill schema name isReserved unfilled shape doc deprecated =>
    have held := sound.unfilled ((sound.reserved_iff schema name).mp isReserved) unfilled
    exact keeps_declare (by simp [Registry.get?, held, Slot.declaration?]) _
  | @remove name isDeclared =>
    refine ⟨[_], rfl, fun other isTaken => ?_, fun other declaration isFound isOther => ?_⟩
    · rw [Registry.remove, Table.get?_insert]
      split
      · simp
      · exact isTaken
    · rw [Registry.get?_remove, if_neg, isFound]
      rintro rfl
      simp at isOther

/-- A history keeps what was there at any time of it. -/
theorem Sound.keeps_of_leads {earlier later : History} (sound : earlier.Sound)
    (leads : ReflTransGen Step earlier later) : later.Sound ∧ earlier.Keeps later := by
  induction leads with
  | refl => exact ⟨sound, [], rfl, fun _ => id, fun _ _ isFound _ => isFound⟩
  | tail _ step ih =>
    obtain ⟨between, before, events, isTaken, isFound⟩ := ih
    obtain ⟨last, lastEvents, lastTaken, lastFound⟩ := between.keeps step
    refine ⟨between.step step, last ++ before, by rw [lastEvents, events, List.append_assoc],
      fun name held => lastTaken name (isTaken name held), fun name declaration found kept => ?_⟩
    -- What is not removed at all is removed neither before nor at last.
    simp only [List.mem_append, not_or] at kept
    exact lastFound name declaration (isFound name declaration found kept.2) kept.1

/-- What a registry promises after whatever has been done to it. -/
structure Lawful (history : History) : Prop where
  nodup_order : history.registry.order.Nodup
  mem_order_iff : ∀ name, name ∈ history.registry.order ↔ history.registry.isDeclared name = true
  name_eq : ∀ name declaration, history.registry.get? name = some declaration →
    declaration.name = name
  /-- The names reserved for two schemas are the same exactly if the schemas are. -/
  reserved_eq_iff : ∀ schema other name another, .reserved schema name ∈ history.events →
    .reserved other another ∈ history.events → (name = another ↔ schema = other)
  reserve_again : ∀ schema name, .reserved schema name ∈ history.events →
    history.registry.reserve schema = (name, history.registry)
  /-- The search for the name of a shape ends at the first one that is free or declares an equal shape. -/
  search_ends : ∀ candidate shape doc deprecated origin, ∃ tried,
    (history.registry.register candidate shape doc deprecated origin).1 =
        Registry.suffixed (history.registry.typeName candidate) tried ∧
      Registry.isReusable shape (history.registry.slots.get?
        (Registry.suffixed (history.registry.typeName candidate) tried)) = true ∧
      ∀ earlier < tried, Registry.isReusable shape (history.registry.slots.get?
        (Registry.suffixed (history.registry.typeName candidate) earlier)) = false
  /-- The name of a shape was not reserved, and declares an equal shape afterwards. -/
  registers : ∀ candidate shape doc deprecated origin, ∃ declaration,
    (history.registry.register candidate shape doc deprecated origin).2.get?
        (history.registry.register candidate shape doc deprecated origin).1 = some declaration ∧
      history.registry.slots.get?
        (history.registry.register candidate shape doc deprecated origin).1 ≠ some .reserved ∧
      (.nan ∉ shape.numbers → (∀ mapping ∈ shape.mapping?, mapping.keys.Nodup) →
        (declaration.shape == shape) = true)
  keeps : ∀ later, ReflTransGen Step history later → history.Keeps later
  /-- What is given out in the end are the declarations in order, and the names of declared schemas. -/
  names_declarations : history.registry.declarations.map Declaration.name = history.registry.order
  mem_declarations_iff : ∀ declaration, declaration ∈ history.registry.declarations ↔
    history.registry.get? declaration.name = some declaration
  names_iff : ∀ schema name, history.registry.names.get? schema = some name ↔
    .reserved schema name ∈ history.events ∧ history.registry.isDeclared name = true

/-- A registered name was free, or stood for an equal shape. -/
theorem registers_register (registry : Registry) (candidate : String) (shape : Shape)
    (doc : Option String) (deprecated : Bool) (origin : Origin) : ∃ declaration,
    (registry.register candidate shape doc deprecated origin).2.get?
        (registry.register candidate shape doc deprecated origin).1 = some declaration ∧
      registry.slots.get? (registry.register candidate shape doc deprecated origin).1 ≠
        some .reserved ∧
      (.nan ∉ shape.numbers → (∀ mapping ∈ shape.mapping?, mapping.keys.Nodup) →
        (declaration.shape == shape) = true) := by
  rcases registry.register_cases candidate shape doc deprecated origin with
    ⟨declaration, name, found, same, isSame⟩ | ⟨name, free, isDeclared⟩
  · rw [isSame]
    refine ⟨declaration, found, fun isReserved => ?_, fun _ _ => same⟩
    simp [Registry.get?, isReserved, Slot.declaration?] at found
  · rw [isDeclared]
    refine ⟨_, by rw [Registry.get?_declare, if_pos rfl], by simp [free], fun isDefined distinct => ?_⟩
    exact Shape.beq_self isDefined distinct

/-- The search for the name of a shape ends at the first one that can be used. -/
theorem exists_register_eq (registry : Registry) (candidate : String) (shape : Shape)
    (doc : Option String) (deprecated : Bool) (origin : Origin) : ∃ tried,
    (registry.register candidate shape doc deprecated origin).1 =
        Registry.suffixed (registry.typeName candidate) tried ∧
      Registry.isReusable shape
        (registry.slots.get? (Registry.suffixed (registry.typeName candidate) tried)) = true ∧
      ∀ earlier < tried, Registry.isReusable shape
        (registry.slots.get? (Registry.suffixed (registry.typeName candidate) earlier)) = false := by
  obtain ⟨tried, isFirst, accepted, rejected⟩ :=
    @Registry.exists_firstName_eq registry (Registry.isReusable shape) rfl
      (registry.typeName candidate)
  refine ⟨tried, ?_, accepted, rejected⟩
  rw [← isFirst, Registry.register]
  -- The name is the one that was searched for, whether it is declared before or now.
  split <;> rfl

/-- Whatever has been done to a registry, it keeps its promises. -/
theorem lawful_of_leads (config : Config) (history : History)
    (leads : ReflTransGen Step (start config) history) : history.Lawful := by
  -- All parts are read off the invariant of the histories that the operations lead to.
  have sound := ((Sound.start config).keeps_of_leads leads).1
  exact {
    nodup_order := sound.wellFormed.nodup_order
    mem_order_iff := sound.wellFormed.mem_order_iff
    name_eq := fun _ _ => sound.wellFormed.name_eq
    reserved_eq_iff := fun schema other name another isReserved alsoReserved => by
      rw [sound.reserved_iff] at isReserved alsoReserved
      constructor
      · rintro rfl
        exact sound.injective isReserved alsoReserved
      · rintro rfl
        exact Option.some.inj (isReserved.symm.trans alsoReserved)
    reserve_again := fun _ _ => sound.reserve_again
    search_ends := exists_register_eq history.registry
    registers := registers_register history.registry
    keeps := fun _ later => (sound.keeps_of_leads later).2
    names_declarations := sound.wellFormed.map_name_declarations
    mem_declarations_iff := sound.wellFormed.mem_declarations_iff
    names_iff := fun schema name => by
      rw [Registry.names, Table.get?_filter sound.nodup_components, sound.reserved_iff,
        Option.filter_eq_some_iff] }

/-- The promises hold after a name was held for a schema, avoided by a shape, filled and withdrawn. -/
theorem lawful_withdrawn_error :
    ∃ history : History, ReflTransGen Step (start {}) history ∧ history.Lawful ∧
      history.registry.order = ["Error2"] ∧
      history.events =
        [.removed "Error", .filled "Error", .registered "Error2", .reserved "Error" "Error"] := by
  have reserves : Step (start {})
      ⟨[.reserved "Error" "Error"], ((start {}).registry.reserve "Error").2⟩ := by
    have isName : ((start {}).registry.reserve "Error").1 = "Error" := by decide
    have step := Step.reserve (start {}) "Error"
    rwa [isName] at step
  generalize isReserved : ((start {}).registry.reserve "Error").2 = reserved at reserves
  -- The shape has no part in the name that is held, and so it takes the next one.
  have registers : Step ⟨[.reserved "Error" "Error"], reserved⟩
      ⟨[.registered "Error2", .reserved "Error" "Error"],
        (reserved.register "Error" (.enum .string []) none false (.inline "")).2⟩ := by
    have isName :
        (reserved.register "Error" (.enum .string []) none false (.inline "")).1 = "Error2" := by
      rw [← isReserved]
      decide
    have step := Step.register ⟨[.reserved "Error" "Error"], reserved⟩ "Error" (.enum .string [])
      none false (.inline "")
    rwa [isName] at step
  generalize isRegistered :
    (reserved.register "Error" (.enum .string []) none false (.inline "")).2 = registered at registers
  have fills := @Step.fill ⟨[.registered "Error2", .reserved "Error" "Error"], registered⟩ "Error" "Error"
    (List.mem_cons_of_mem _ (List.mem_cons_self ..)) (by simp) (.enum .boolean []) none false
  generalize isFilled :
    registered.fill "Error" "Error" (.enum .boolean []) none false = filled at fills
  have isDeclared : filled.isDeclared "Error" = true := by
    rw [← isFilled, Registry.fill, Registry.isDeclared_declare]
    rfl
  have removes := @Step.remove
    ⟨[.filled "Error", .registered "Error2", .reserved "Error" "Error"], filled⟩ "Error" isDeclared
  have leads := (((ReflTransGen.single reserves).tail registers).tail fills).tail removes
  refine ⟨_, leads, lawful_of_leads _ _ leads, ?_, rfl⟩
  rw [← isFilled, ← isRegistered, ← isReserved]
  decide

end History

end ApiTypes
