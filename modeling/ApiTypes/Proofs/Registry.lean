import Mathlib.Data.List.Nodup
import ApiTypes.Proofs.Table
import ApiTypes.Synthesis.Withdrawal

/-! Laws of the registry: which names it gives out, and what stands under a name afterwards. -/

namespace ApiTypes.Registry

/-- What is declared stands in the order once, under its own name. -/
structure WellFormed (registry : Registry) : Prop where
  nodup_order : registry.order.Nodup
  mem_order_iff : ∀ name, name ∈ registry.order ↔ registry.isDeclared name = true
  name_eq : ∀ {name declaration}, registry.get? name = some declaration → declaration.name = name

/-- Different numbers of attempts try different names. -/
theorem suffixed_injective (base : String) : Function.Injective (suffixed base) := by
  -- The digits behind the base give the number back.
  have digits : ∀ {first second : Nat}, toString first = toString second → first = second := by
    intro first second same
    have lists := congrArg String.toList same
    simp only [Nat.toString_eq_repr, Nat.toList_repr] at lists
    simpa using congrArg (Nat.ofDigitChars 10 · 0) lists
  have longer : ∀ tried : Nat, base ++ toString (tried + 2) ≠ base := by
    intro tried same
    have lengths := congrArg String.length same
    simp at lengths
  intro first second same
  match first, second with
  | 0, 0 => rfl
  | 0, second + 1 => exact absurd same.symm (longer second)
  | first + 1, 0 => exact absurd same (longer first)
  | first + 1, second + 1 =>
    have : first + 2 = second + 2 := digits (String.append_right_inj base |>.mp same)
    omega

/-- The first name is one whose slot the condition accepts, if it accepts free slots. -/
theorem accepts_firstName (registry : Registry) (accepts : Option Slot → Bool)
    (acceptsFree : accepts none = true) (base : String) :
    accepts (registry.slots.get? (registry.firstName accepts base)) = true := by
  unfold firstName
  cases found : (List.range registry.slots.size).findSome? fun tried =>
      if accepts (registry.slots.get? (suffixed base tried)) then some (suffixed base tried)
      else none with
  | some name =>
    obtain ⟨tried, _, isName⟩ := List.exists_of_findSome?_eq_some found
    by_cases accepted : accepts (registry.slots.get? (suffixed base tried)) = true
    · simp only [accepted, if_true, Option.some.injEq] at isName
      simpa [← isName] using accepted
    · simp [accepted] at isName
  | none =>
    -- As many different names are taken as there are slots, so one more cannot be.
    simp only [Option.getD_none]
    cases last : registry.slots.get? (suffixed base registry.slots.size) with
    | none => exact acceptsFree
    | some slot =>
      exfalso
      have taken : (List.range (registry.slots.size + 1)).map (suffixed base) ⊆
          registry.slots.keys := by
        intro name isTried
        obtain ⟨tried, inRange, rfl⟩ := List.mem_map.mp isTried
        rw [Table.mem_keys_iff]
        rcases Nat.lt_succ_iff_lt_or_eq.mp (List.mem_range.mp inRange) with before | rfl
        · have refused := List.findSome?_eq_none_iff.mp found tried (List.mem_range.mpr before)
          cases present : registry.slots.get? (suffixed base tried) with
          | none => simp [present, acceptsFree] at refused
          | some slot => exact ⟨slot, rfl⟩
        · exact ⟨slot, last⟩
      have distinct : ((List.range (registry.slots.size + 1)).map (suffixed base)).Nodup :=
        List.nodup_range.map (suffixed_injective base)
      have bound := distinct.length_le_of_subset taken
      simp only [List.length_map, List.length_range, Table.keys, Table.size] at bound
      omega

/-- The first name is the first of those to try whose slot the condition accepts. -/
theorem exists_firstName_eq (registry : Registry) {accepts : Option Slot → Bool}
    (acceptsFree : accepts none = true) (base : String) :
    ∃ tried, registry.firstName accepts base = suffixed base tried ∧
      accepts (registry.slots.get? (suffixed base tried)) = true ∧
      ∀ earlier < tried, accepts (registry.slots.get? (suffixed base earlier)) = false := by
  have accepted := registry.accepts_firstName accepts acceptsFree base
  -- Looking for an accepted name is looking for its number.
  have searches : ∀ numbers : List Nat, (numbers.findSome? fun tried =>
      if accepts (registry.slots.get? (suffixed base tried)) then some (suffixed base tried)
      else none) =
        (numbers.find? fun tried => accepts (registry.slots.get? (suffixed base tried))).map
          (suffixed base) := by
    intro numbers
    induction numbers with
    | nil => rfl
    | cons first rest ih =>
      rw [List.findSome?_cons, List.find?_cons]
      cases accepts (registry.slots.get? (suffixed base first)) <;> simp [ih]
  unfold firstName at accepted ⊢
  simp only [searches] at accepted ⊢
  cases found : (List.range registry.slots.size).find? fun tried =>
      accepts (registry.slots.get? (suffixed base tried)) with
  | some tried =>
    obtain ⟨isAccepted, _, rejected⟩ := List.find?_range_eq_some.mp found
    exact ⟨tried, rfl, isAccepted, by simpa using rejected⟩
  | none =>
    rw [found] at accepted
    refine ⟨registry.slots.size, rfl, accepted, fun earlier isLess => ?_⟩
    simpa using List.find?_eq_none.mp found earlier (List.mem_range.mpr isLess)

/-- The name with a number is the first one if its slot is accepted, and no slot before it. -/
theorem firstName_eq {registry : Registry} {accepts : Option Slot → Bool}
    (acceptsFree : accepts none = true) {base : String} {tried : Nat}
    (accepted : accepts (registry.slots.get? (suffixed base tried)) = true)
    (rejected : ∀ earlier < tried,
      accepts (registry.slots.get? (suffixed base earlier)) = false) :
    registry.firstName accepts base = suffixed base tried := by
  obtain ⟨found, isFirst, isAccepted, isRejected⟩ := registry.exists_firstName_eq acceptsFree base
  -- Neither number can stand before the other.
  rcases Nat.lt_trichotomy found tried with before | rfl | behind
  · simp [rejected found before] at isAccepted
  · exact isFirst
  · simp [isRejected tried behind] at accepted

/-- A free name has no slot. -/
theorem get?_freeName (registry : Registry) (base : String) :
    registry.slots.get? (registry.freeName base) = none := by
  -- The condition accepts nothing but the absence of a slot.
  simpa [freeName] using registry.accepts_firstName (fun slot => slot.isNone) rfl base

/-- A name is declared if a declaration stands under it. -/
theorem isDeclared_iff (registry : Registry) (name : String) :
    registry.isDeclared name = true ↔ ∃ declaration, registry.get? name = some declaration :=
  Option.isSome_iff_exists

/-- A name without a slot is not declared. -/
theorem get?_eq_none_of_slot {registry : Registry} {name : String}
    (free : registry.slots.get? name = none) : registry.get? name = none := by
  simp [get?, free]

/-- A stored declaration is found under its name, and other names stand for what they did. -/
theorem get?_declare (registry : Registry) (declaration : Declaration) (name : String) :
    (registry.declare declaration).get? name =
      if name = declaration.name then some declaration else registry.get? name := by
  -- Storing touches one slot only.
  simp only [get?, declare, Table.get?_insert]
  split <;> rfl

/-- Storing a declaration declares its name and no other. -/
theorem isDeclared_declare (registry : Registry) (declaration : Declaration) (name : String) :
    (registry.declare declaration).isDeclared name =
      (decide (name = declaration.name) || registry.isDeclared name) := by
  simp only [isDeclared, get?_declare]
  split <;> rename_i same <;> simp [same]

/-- A declaration under a new name stands at the end of the order. -/
theorem order_declare (registry : Registry) (declaration : Declaration) :
    (registry.declare declaration).order =
      if registry.isDeclared declaration.name then registry.order
      else registry.order ++ [declaration.name] := rfl

/-- A withdrawn name stands for nothing, and other names stand for what they did. -/
theorem get?_remove (registry : Registry) (removed name : String) :
    (registry.remove removed).get? name =
      if name = removed then none else registry.get? name := by
  -- The slot stays taken, but no declaration is left in it.
  simp only [get?, remove, Table.get?_insert]
  split <;> rfl

/-- Withdrawing several declarations leaves exactly the others. -/
theorem get?_removeAll (registry : Registry) (removed : List String) (name : String) :
    (registry.removeAll removed).get? name =
      if name ∈ removed then none else registry.get? name := by
  -- Every withdrawal takes one more name away.
  induction removed generalizing registry with
  | nil => rfl
  | cons first rest ih =>
    have step : registry.removeAll (first :: rest) = (registry.remove first).removeAll rest := rfl
    rw [step, ih, get?_remove]
    by_cases later : name ∈ rest <;> by_cases same : name = first <;> simp [later, same]

/-- Withdrawing two lists of declarations is withdrawing one after the other. -/
theorem removeAll_append (registry : Registry) (first second : List String) :
    registry.removeAll (first ++ second) = (registry.removeAll first).removeAll second :=
  List.foldl_append

/-- Nothing is declared before any name is taken. -/
theorem wellFormed_ofConfig (config : Config) : (ofConfig config).WellFormed where
  nodup_order := List.nodup_nil
  mem_order_iff name := by
    constructor
    · intro isFirst
      cases isFirst
    · intro declared
      cases declared
  name_eq found := by cases found

/-- Storing a declaration keeps a registry well formed. -/
theorem WellFormed.declare {registry : Registry} (wellFormed : registry.WellFormed)
    (declaration : Declaration) : (registry.declare declaration).WellFormed where
  nodup_order := by
    -- The name is added to the order only if it is not declared, and so not in it.
    rw [order_declare]
    split
    · exact wellFormed.nodup_order
    · rename_i undeclared
      have fresh := mt (wellFormed.mem_order_iff declaration.name).mp undeclared
      exact List.nodup_append.mpr ⟨wellFormed.nodup_order, by simp, by
        intro name isOrdered other isLast same
        simp only [List.mem_singleton] at isLast
        exact fresh (isLast ▸ same ▸ isOrdered)⟩
  mem_order_iff name := by
    have known := wellFormed.mem_order_iff name
    rw [order_declare, isDeclared_declare]
    by_cases same : name = declaration.name
    · subst same
      by_cases declared : registry.isDeclared declaration.name = true
      · simpa [declared] using known.mpr declared
      · simp [declared]
    · simp only [same, decide_false, Bool.false_or]
      split
      · exact known
      · simpa [same] using known
  name_eq {name found} isFound := by
    rw [get?_declare] at isFound
    split at isFound
    · rename_i same
      cases isFound
      exact same.symm
    · exact wellFormed.name_eq isFound

/-- Withdrawing declarations keeps a registry well formed. -/
theorem WellFormed.removeAll {registry : Registry} (wellFormed : registry.WellFormed)
    (removed : List String) : (registry.removeAll removed).WellFormed where
  nodup_order := by
    rw [order_removeAll]
    exact wellFormed.nodup_order.filter _
  mem_order_iff name := by
    -- A name leaves the order exactly if its declaration is withdrawn.
    rw [order_removeAll, isDeclared, get?_removeAll]
    by_cases gone : name ∈ removed
    · simp [gone]
    · simpa [gone, isDeclared] using wellFormed.mem_order_iff name
  name_eq {name found} isFound := by
    rw [get?_removeAll] at isFound
    split at isFound
    · cases isFound
    · exact wellFormed.name_eq isFound

/-- The declarations of a registry are those that stand under their own names. -/
theorem WellFormed.mem_declarations_iff {registry : Registry} (wellFormed : registry.WellFormed)
    (declaration : Declaration) :
    declaration ∈ registry.declarations ↔ registry.get? declaration.name = some declaration := by
  simp only [declarations, List.mem_filterMap]
  constructor
  · rintro ⟨name, _, found⟩
    rwa [wellFormed.name_eq found]
  · intro found
    have declared := (registry.isDeclared_iff _).mpr ⟨declaration, found⟩
    exact ⟨declaration.name, (wellFormed.mem_order_iff _).mpr declared, found⟩

/-- The names of the declarations are the order itself. -/
theorem WellFormed.map_name_declarations {registry : Registry} (wellFormed : registry.WellFormed) :
    registry.declarations.map Declaration.name = registry.order := by
  -- Every name of the order finds a declaration that carries it.
  have general : ∀ names : List String, (∀ name ∈ names, registry.isDeclared name = true) →
      (names.filterMap registry.get?).map Declaration.name = names := by
    intro names declared
    induction names with
    | nil => rfl
    | cons first rest ih =>
      obtain ⟨declaration, found⟩ := (registry.isDeclared_iff _).mp (declared first (by simp))
      have tail := ih fun name isLater => declared name (by simp [isLater])
      simp [found, wellFormed.name_eq found, tail]
  exact general registry.order fun name => (wellFormed.mem_order_iff name).mp

/-- No declaration stands twice in the list of declarations. -/
theorem WellFormed.nodup_declarations {registry : Registry} (wellFormed : registry.WellFormed) :
    registry.declarations.Nodup :=
  -- Even their names are distinct.
  List.Nodup.of_map Declaration.name (wellFormed.map_name_declarations ▸ wellFormed.nodup_order)

/-- Withdrawing declarations filters the list of declarations. -/
theorem WellFormed.declarations_removeAll {registry : Registry} (wellFormed : registry.WellFormed)
    (removed : List String) :
    (registry.removeAll removed).declarations =
      registry.declarations.filter fun declaration => !removed.contains declaration.name := by
  -- Both sides go through the order name by name.
  unfold declarations
  rw [order_removeAll]
  induction registry.order with
  | nil => rfl
  | cons first rest ih =>
    by_cases gone : first ∈ removed
    · cases found : registry.get? first with
      | none => simpa [gone, found] using ih
      | some declaration => simpa [gone, found, wellFormed.name_eq found] using ih
    · cases found : registry.get? first with
      | none => simpa [gone, found, get?_removeAll] using ih
      | some declaration =>
        simpa [gone, found, get?_removeAll, wellFormed.name_eq found] using ih

/-- After a withdrawal, the declarations are those whose names are still declared. -/
theorem WellFormed.declarations_removeAll_eq {registry : Registry}
    (wellFormed : registry.WellFormed) (removed : List String) :
    (registry.removeAll removed).declarations = registry.declarations.filter fun declaration =>
      (registry.removeAll removed).isDeclared declaration.name := by
  rw [wellFormed.declarations_removeAll]
  refine List.filter_congr fun declaration isDeclaration => ?_
  -- The declaration is found under its name unless that is withdrawn.
  have found := (wellFormed.mem_declarations_iff declaration).mp isDeclaration
  by_cases gone : declaration.name ∈ removed <;> simp [isDeclared, get?_removeAll, gone, found]

/-- Withdrawing declarations keeps the names held for component schemas. -/
theorem components_removeAll (registry : Registry) (removed : List String) :
    (registry.removeAll removed).components = registry.components := by
  induction removed generalizing registry with
  | nil => rfl
  | cons name rest ih => exact ih (registry.remove name)

/-- Registering a shape finds an equal one under a name, or declares it under a free name. -/
theorem register_cases (registry : Registry) (candidate : String) (shape : Shape)
    (doc : Option String) (deprecated : Bool) (origin : Origin) :
    (∃ declaration, ∃ name, registry.get? name = some declaration ∧
      (declaration.shape == shape) = true ∧
      registry.register candidate shape doc deprecated origin = (name, registry)) ∨
    (∃ name, registry.slots.get? name = none ∧
      registry.register candidate shape doc deprecated origin =
        (name, registry.declare { name, shape, doc, deprecated, origin })) := by
  -- The name that is chosen is free or declares an equal shape.
  have accepted := registry.accepts_firstName (isReusable shape) rfl
    (registry.typeName candidate)
  unfold register
  generalize registry.firstName (isReusable shape) (registry.typeName candidate) = name at accepted
  cases slot : registry.slots.get? name with
  | none =>
    right
    have undeclared : registry.isDeclared name = false := by
      simp [isDeclared, get?_eq_none_of_slot slot]
    exact ⟨name, slot, by simp [undeclared]⟩
  | some taken =>
    cases taken with
    | reserved => simp [slot, isReusable] at accepted
    | declared declaration =>
      left
      have found : registry.get? name = some declaration := by
        simp [get?, slot, Slot.declaration?]
      have declared : registry.isDeclared name = true := by simp [isDeclared, found]
      exact ⟨declaration, name, found, by simpa [slot, isReusable] using accepted,
        by simp [declared]⟩

end ApiTypes.Registry
