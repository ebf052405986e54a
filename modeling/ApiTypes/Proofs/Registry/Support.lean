import Mathlib.Data.Set.Insert
import Mathlib.Order.Bounds.Defs
import ApiTypes.Proofs.Registry
import ApiTypes.Proofs.Search

/-!
Which declarations can stand. A name is supported if it belongs to names whose declarations mention
nothing outside them; withdrawing unsupported names leaves the supported ones as they are.
-/

namespace ApiTypes.Registry

/-- Every one of the names has a declaration, and it mentions none but them. -/
def IsClosed (registry : Registry) (names : Set String) : Prop :=
  ∀ name ∈ names, ∃ declaration, registry.get? name = some declaration ∧
    ∀ mentioned ∈ declaration.mentions, mentioned ∈ names

/-- The names that belong to any closed set of names. -/
def supported (registry : Registry) : Set String :=
  { name | ∃ names, registry.IsClosed names ∧ name ∈ names }

/-- The declaration of a name mentions another name. -/
def Mentions (registry : Registry) (name mentioned : String) : Prop :=
  ∃ declaration, registry.get? name = some declaration ∧ mentioned ∈ declaration.mentions

/-- The supported names are the largest closed set. -/
theorem isGreatest_supported (registry : Registry) :
    IsGreatest { names | registry.IsClosed names } registry.supported := by
  constructor
  · -- What a supported name mentions lies in the closed set that supports it.
    rintro name ⟨names, closed, isMember⟩
    obtain ⟨declaration, found, inside⟩ := closed name isMember
    exact ⟨declaration, found, fun mentioned isMentioned =>
      ⟨names, closed, inside mentioned isMentioned⟩⟩
  · intro names closed name isMember
    exact ⟨names, closed, isMember⟩

/-- A supported name has a declaration, which mentions only supported names. -/
theorem isClosed_supported (registry : Registry) : registry.IsClosed registry.supported :=
  registry.isGreatest_supported.1

/-- A supported name is declared. -/
theorem isDeclared_of_supported {registry : Registry} {name : String}
    (supported : name ∈ registry.supported) : registry.isDeclared name = true := by
  obtain ⟨declaration, found, _⟩ := registry.isClosed_supported name supported
  exact (registry.isDeclared_iff name).mpr ⟨declaration, found⟩

/-- A name is supported exactly if its declaration mentions only supported names. -/
theorem mem_supported_iff (registry : Registry) (name : String) :
    name ∈ registry.supported ↔ ∃ declaration, registry.get? name = some declaration ∧
      ∀ mentioned ∈ declaration.mentions, mentioned ∈ registry.supported := by
  constructor
  · exact registry.isClosed_supported name
  · -- The supported names stay closed when such a name is added to them.
    rintro ⟨declaration, found, inside⟩
    refine ⟨insert name registry.supported, ?_, Set.mem_insert _ _⟩
    intro other isMember
    rcases Set.mem_insert_iff.mp isMember with rfl | isSupported
    · exact ⟨declaration, found, fun mentioned isMentioned =>
        Set.mem_insert_of_mem _ (inside mentioned isMentioned)⟩
    · obtain ⟨declaration, found, inside⟩ := registry.isClosed_supported other isSupported
      exact ⟨declaration, found, fun mentioned isMentioned =>
        Set.mem_insert_of_mem _ (inside mentioned isMentioned)⟩

/-- What a supported name mentions is supported. -/
theorem supported_of_mentions {registry : Registry} {name mentioned : String}
    (supported : name ∈ registry.supported) (mentions : registry.Mentions name mentioned) :
    mentioned ∈ registry.supported := by
  obtain ⟨declaration, found, inside⟩ := (registry.mem_supported_iff name).mp supported
  obtain ⟨other, isFound, isMentioned⟩ := mentions
  cases found.symm.trans isFound
  exact inside mentioned isMentioned

/-- What a supported name leads to by mentions is supported. -/
theorem supported_of_leads {registry : Registry} {name other : String}
    (supported : name ∈ registry.supported)
    (leads : Relation.ReflTransGen registry.Mentions name other) : other ∈ registry.supported := by
  induction leads with
  | refl => exact supported
  | tail _ mentions ih => exact supported_of_mentions ih mentions

/-- Withdrawing unsupported names changes nothing about which names are supported. -/
theorem supported_removeAll {registry : Registry} {removed : List String}
    (unsupported : ∀ name ∈ removed, name ∉ registry.supported) :
    (registry.removeAll removed).supported = registry.supported := by
  apply Set.Subset.antisymm
  · -- A closed set of what is left was closed before.
    rintro name ⟨names, closed, isMember⟩
    refine ⟨names, fun other inSet => ?_, isMember⟩
    obtain ⟨declaration, found, inside⟩ := closed other inSet
    rw [get?_removeAll] at found
    split at found
    · cases found
    · exact ⟨declaration, found, inside⟩
  · -- The supported names lose none of their declarations.
    intro name isSupported
    refine ⟨registry.supported, fun other inSet => ?_, isSupported⟩
    obtain ⟨declaration, found, inside⟩ := registry.isClosed_supported other inSet
    refine ⟨declaration, ?_, inside⟩
    rw [get?_removeAll, if_neg fun isRemoved => unsupported other isRemoved inSet]
    exact found

/-- A name of several is missing exactly if not all of them are declared. -/
theorem firstMissing?_eq_none_iff (registry : Registry) (names : List String) :
    registry.firstMissing? names = none ↔ ∀ name ∈ names, registry.isDeclared name = true := by
  simp [firstMissing?]

/-- The first missing name is one of the names and is not declared. -/
theorem of_firstMissing? {registry : Registry} {names : List String} {missing : String}
    (found : registry.firstMissing? names = some missing) :
    missing ∈ names ∧ registry.isDeclared missing = false :=
  ⟨List.mem_of_find?_eq_some found, by simpa using List.find?_some found⟩

/-- A declaration dangles exactly if it mentions a missing name, the first of which goes with it. -/
theorem mem_dangling_iff (registry : Registry) (declaration : Declaration) (missing : String) :
    (declaration, missing) ∈ registry.dangling ↔ declaration ∈ registry.declarations ∧
      registry.firstMissing? declaration.mentions = some missing := by
  simp only [dangling, List.mem_filterMap, Option.map_eq_some_iff, Prod.mk.injEq]
  constructor
  · rintro ⟨other, isDeclaration, _, found, rfl, rfl⟩
    exact ⟨isDeclaration, found⟩
  · rintro ⟨isDeclaration, found⟩
    exact ⟨declaration, isDeclaration, missing, found, rfl, rfl⟩

/-- A declaration that mentions a missing name is not supported. -/
theorem WellFormed.not_supported_of_dangling {registry : Registry}
    (wellFormed : registry.WellFormed) {entry : Declaration × String}
    (dangles : entry ∈ registry.dangling) :
    entry.1 ∈ registry.declarations ∧ entry.1.name ∉ registry.supported ∧
      entry.2 ∈ entry.1.mentions ∧ entry.2 ∉ registry.supported := by
  obtain ⟨declaration, missing⟩ := entry
  obtain ⟨isDeclaration, found⟩ := (registry.mem_dangling_iff declaration missing).mp dangles
  obtain ⟨isMentioned, undeclared⟩ := of_firstMissing? found
  have lacking : missing ∉ registry.supported := fun supported => by
    simp [isDeclared_of_supported supported] at undeclared
  have stands := (wellFormed.mem_declarations_iff declaration).mp isDeclaration
  exact ⟨isDeclaration, fun supported =>
    lacking (supported_of_mentions supported ⟨declaration, stands, isMentioned⟩), isMentioned,
    lacking⟩

/-- If no declaration dangles then every declared name is supported. -/
theorem WellFormed.mem_supported_iff_isDeclared {registry : Registry}
    (wellFormed : registry.WellFormed) (settled : registry.dangling = []) (name : String) :
    name ∈ registry.supported ↔ registry.isDeclared name = true := by
  refine ⟨isDeclared_of_supported, fun declared => ?_⟩
  -- The declared names are closed, as none of them mentions a missing one.
  refine ⟨{ other | registry.isDeclared other = true }, fun other isDeclared => ?_, declared⟩
  obtain ⟨declaration, found⟩ := (registry.isDeclared_iff other).mp isDeclared
  refine ⟨declaration, found, ?_⟩
  have isDeclaration := (wellFormed.mem_declarations_iff declaration).mpr
    ((wellFormed.name_eq found).symm ▸ found)
  apply (registry.firstMissing?_eq_none_iff _).mp
  cases missing : registry.firstMissing? declaration.mentions with
  | none => rfl
  | some name =>
    have dangles := (registry.mem_dangling_iff declaration name).mpr ⟨isDeclaration, missing⟩
    simp [settled] at dangles

/-- The names that are reached are the declared ones to which the start leads by mentions. -/
theorem WellFormed.mem_reachable_iff {registry : Registry} (wellFormed : registry.WellFormed)
    (start : List String) (name : String) :
    name ∈ registry.reachable start ↔ registry.isDeclared name = true ∧
      ∃ first ∈ start, Relation.ReflTransGen registry.Mentions first name := by
  have unfolded : registry.reachable start =
    (Search.explore registry.order
      (fun name => some ((registry.get? name).elim [] Declaration.mentions)) [] start).getD [] := rfl
  rw [unfolded]
  generalize isNext : (fun name =>
    some ((registry.get? name).elim [] Declaration.mentions)) = next
  have leads : ∀ {one other}, Search.Leads next one other ↔ registry.Mentions one other := by
    intro one other
    subst isNext
    cases found : registry.get? one <;> simp [Search.Leads, Mentions, found]
  have total : (Search.explore registry.order next [] start).isSome = true :=
    Search.isSome_explore (fun name => by simp [← isNext]) [] start
  obtain ⟨found, searched⟩ := Option.isSome_iff_exists.mp total
  rw [searched, Option.getD_some]
  constructor
  · intro isFound
    obtain ⟨isKnown, first, isFirst, path⟩ :=
      (Search.explore_sound searched isFound).resolve_left (by simp)
    exact ⟨(wellFormed.mem_order_iff name).mp isKnown, first, isFirst,
      Relation.ReflTransGen.mono (fun _ _ => leads.mp) _ _ path⟩
  · rintro ⟨declared, first, isFirst, path⟩
    -- Along the path, every name that is declared has been found.
    have settled := (Search.explore_settles searched).2 first isFirst
    have isKnown := (wellFormed.mem_order_iff name).mpr declared
    suffices last : Search.Settled registry.order next found name from last.mem isKnown
    clear isFirst isKnown
    induction path using Relation.ReflTransGen.head_induction_on with
    | refl => exact settled
    | head mentions _ ih =>
      obtain ⟨declaration, stands, _⟩ := id mentions
      have known := (wellFormed.mem_order_iff _).mpr
        ((registry.isDeclared_iff _).mpr ⟨declaration, stands⟩)
      obtain ⟨more, follows, closed⟩ :=
        (Search.explore_closed searched (settled.mem known)).resolve_left (by simp)
      obtain ⟨_, same, isMember⟩ := leads.mpr mentions
      cases follows.symm.trans same
      exact ih (closed _ isMember)

end ApiTypes.Registry
