import ApiTypes.Proofs.Emission
import ApiTypes.Proofs.Synthesis.Records

/-!
Reserved words among the names of types. A name is escaped once, before a number is put behind it, and
neither the escaped nor the numbered name is compared with the words again.
-/

namespace ApiTypes

/-- A word that no candidate may keep as its name. -/
def IsReserved (words : List String) (word : String) : Prop :=
  word ∈ reservedTypeNames ∨ word ∈ words

/--
The type name for a candidate is not reserved, or it is a reserved word behind which an underscore stands.
-/
theorem typeName_cases (words : List String) (candidate : String) :
    ¬IsReserved words (typeName words candidate) ∨
      ∃ word, IsReserved words word ∧ typeName words candidate = word ++ "_" := by
  unfold typeName
  extract_lets kept named headed name
  split
  · rename_i reserved
    exact .inr ⟨name, by simpa [IsReserved] using reserved, rfl⟩
  · rename_i free
    exact .inl (by simpa [IsReserved] using free)

/-- The built-in names end in letters. -/
theorem getLast?_reservedTypeNames : ∀ name ∈ reservedTypeNames,
    ∃ last, name.toList.getLast? = some last ∧ last ≠ '_' ∧ last.isDigit = false := by
  simp [reservedTypeNames]

namespace Registry

/--
A name is made up from a candidate: it is the type name of the candidate, or that name with a number
where all names before it were taken.
-/
def Coins (registry : Registry) (name : String) : Prop :=
  ∃ candidate tried, name = suffixed (registry.typeName candidate) tried ∧
    ∀ earlier < tried,
      registry.slots.get? (suffixed (registry.typeName candidate) earlier) ≠ none

/-- Every name that is taken is made up from a candidate. -/
def CoinsAll (registry : Registry) : Prop :=
  ∀ name, registry.slots.get? name ≠ none → registry.Coins name

variable {registry : Registry}

/-- A made-up name stays one while more names are taken. -/
theorem Coins.mono {name : String} (coins : registry.Coins name) {other : Registry}
    (sameWords : other.reservedWords = registry.reservedWords)
    (taken : ∀ taken, registry.slots.get? taken ≠ none → other.slots.get? taken ≠ none) :
    other.Coins name := by
  obtain ⟨candidate, tried, rfl, before⟩ := coins
  have sameBase : other.typeName candidate = registry.typeName candidate := by
    rw [typeName, typeName, sameWords]
  refine ⟨candidate, tried, by rw [sameBase], fun earlier isEarlier => ?_⟩
  rw [sameBase]
  exact taken _ (before earlier isEarlier)

/-- Taking one more name keeps all names made up if that name is. -/
theorem CoinsAll.insert (coinsAll : registry.CoinsAll) {other : Registry} {name : String} {slot : Slot}
    (sameWords : other.reservedWords = registry.reservedWords)
    (inserted : other.slots = registry.slots.insert name slot) (coins : registry.Coins name) :
    other.CoinsAll := by
  have taken : ∀ taken, registry.slots.get? taken ≠ none → other.slots.get? taken ≠ none := by
    intro taken isTaken
    rw [inserted, Table.get?_insert]
    split
    · simp
    · exact isTaken
  intro another isTaken
  rw [inserted, Table.get?_insert] at isTaken
  split at isTaken
  · rename_i isName
    exact isName ▸ coins.mono sameWords taken
  · exact (coinsAll another isTaken).mono sameWords taken

/-- The first name for a candidate is made up from it, whatever taken names it may be. -/
theorem coins_firstName {accepts : Option Slot → Bool} (acceptsFree : accepts none = true)
    (candidate : String) :
    registry.Coins (registry.firstName accepts (registry.typeName candidate)) := by
  obtain ⟨tried, isFirst, _, refused⟩ :=
    registry.exists_firstName_eq acceptsFree (registry.typeName candidate)
  refine ⟨candidate, tried, isFirst, fun earlier isEarlier isFree => ?_⟩
  have isRefused := refused earlier isEarlier
  rw [isFree, acceptsFree] at isRefused
  cases isRefused

/-- Holding a name for a schema keeps all names made up. -/
theorem CoinsAll.reserve (coinsAll : registry.CoinsAll) (schema : String) :
    (registry.reserve schema).2.CoinsAll := by
  unfold Registry.reserve
  split
  · exact coinsAll
  · exact coinsAll.insert rfl rfl (coins_firstName rfl schema)

/-- Registering a shape keeps all names made up. -/
theorem CoinsAll.register (coinsAll : registry.CoinsAll) (candidate : String) (shape : Shape)
    (doc : Option String) (deprecated : Bool) (origin : Origin) :
    (registry.register candidate shape doc deprecated origin).2.CoinsAll := by
  simp only [Registry.register]
  split
  · exact coinsAll
  · exact coinsAll.insert rfl rfl (coins_firstName rfl candidate)

/-- A made-up name that is reserved is escaped, or a number stands behind a name that is taken. -/
theorem Coins.cases {name : String} (coins : registry.Coins name) :
    ¬IsReserved registry.reservedWords name ∨
      (∃ word, IsReserved registry.reservedWords word ∧ name = word ++ "_") ∨
      ∃ candidate number, name = registry.typeName candidate ++ toString (number + 2) ∧
        registry.slots.get? (registry.typeName candidate) ≠ none := by
  obtain ⟨candidate, tried, rfl, before⟩ := coins
  cases tried with
  | zero =>
    rcases typeName_cases registry.reservedWords candidate with free | escaped
    · exact .inl free
    · exact .inr (.inl escaped)
  | succ number => exact .inr (.inr ⟨candidate, number, rfl, before 0 (Nat.succ_pos number)⟩)

/-- A name that is tried after another one ends in a digit. -/
theorem isDigit_suffixed (base : String) (tried : Nat) :
    ∃ digit, (suffixed base (tried + 1)).toList.getLast? = some digit ∧ digit.isDigit = true := by
  have isEnd : (suffixed base (tried + 1)).toList.getLast? =
      (Nat.toDigits 10 (tried + 2)).getLast? := by
    rw [suffixed, String.toList_append, Nat.toString_eq_repr, Nat.toList_repr,
      List.getLast?_append_of_ne_nil _ Nat.toDigits_ne_nil]
  rw [isEnd]
  exact ⟨_, List.getLast?_eq_some_getLast Nat.toDigits_ne_nil,
    Nat.isDigit_of_mem_toDigits (by omega) (by omega) (List.getLast_mem _)⟩

/-- A made-up name is none of the built-in ones. -/
theorem Coins.not_mem_reservedTypeNames {name : String} (coins : registry.Coins name) :
    name ∉ reservedTypeNames := by
  intro isBuiltIn
  obtain ⟨last, isLast, notUnderscore, notDigit⟩ := getLast?_reservedTypeNames name isBuiltIn
  rcases coins.cases with free | ⟨word, _, rfl⟩ | ⟨candidate, number, rfl, _⟩
  · exact free (.inl isBuiltIn)
  · rw [String.toList_append, List.getLast?_append_of_ne_nil _ (by simp)] at isLast
    exact notUnderscore (by simpa using isLast.symm)
  · obtain ⟨digit, isDigit, digits⟩ := isDigit_suffixed (registry.typeName candidate) number
    cases isDigit.symm.trans isLast
    cases digits.symm.trans notDigit

end Registry

variable {context : Context} {first last : Workspace}

/-- Before synthesis starts, the names held for component schemas are made up from theirs. -/
theorem Workspace.coinsAll_ofContext (context : Context) :
    (Workspace.ofContext context).registry.CoinsAll :=
  holds_ofContext (fun workspace => workspace.registry.CoinsAll) context
    (fun _ isTaken => absurd rfl isTaken) fun _ schema coinsAll => coinsAll.reserve schema

/-- Runs take made-up names only. -/
theorem Runs.coinsAll (runs : Runs context first last) (consistent : Consistent context first)
    (coinsAll : first.registry.CoinsAll) : last.registry.CoinsAll := by
  induction runs with
  | refl => exact coinsAll
  | register _ candidate shape doc deprecated path _ ih =>
    exact (ih consistent coinsAll).register candidate shape doc deprecated (.inline path)
  | report _ _ _ _ ih => exact ih consistent coinsAll
  | @component _ middle inner earlier name node found pending _ _ _ _ result _ inside ih insideIh =>
    have ⟨before, _⟩ := earlier.consistent consistent
    have begun := before.begin found pending
    have within := insideIh begun (ih consistent coinsAll)
    cases result with
    | error located => exact within
    | ok shape =>
      -- The name of the schema has been taken from the start.
      have isTaken := (inside.consistent begun).1.taken (before.emitted?_eq_scopeOf found)
      exact within.insert rfl rfl (within _ isTaken)

/-- In every workspace of synthesis all names that are taken are made up. -/
theorem Reachable.coinsAll {workspace : Workspace} (reachable : Reachable context workspace) :
    workspace.registry.CoinsAll := by
  induction reachable with
  | initial => exact Workspace.coinsAll_ofContext context
  | runs before runs ih => exact runs.coinsAll before.consistent ih
  | failure _ _ ih => exact ih

namespace Document

/-- A reserved word behind which an underscore stands. -/
def IsEscaped (config : Config) (name : String) : Prop :=
  ∃ word, IsReserved config.reservedWords word ∧ name = word ++ "_"

/-- The type name of a candidate behind which a number stands, as that name itself is taken. -/
def IsNumbered (document : Document) (config : Config) (name : String) : Prop :=
  ∃ candidate number, name = typeName config.reservedWords candidate ++ toString (number + 2) ∧
    (document.unfinished config).registry.slots.get? (typeName config.reservedWords candidate) ≠ none

variable {document : Document} {config : Config}

/--
No emitted name is one of the built-in ones. It is a configured word only if that word is made up by an
underscore behind a reserved one, or by a number behind a name that is taken.
-/
theorem unreserved_of_emitted {declaration : Declaration}
    (isEmitted : declaration ∈ (document.synthesize config).declarations) :
    declaration.name ∉ reservedTypeNames ∧
      (declaration.name ∈ config.reservedWords →
        IsEscaped config declaration.name ∨ document.IsNumbered config declaration.name) := by
  have reachable := (document.binds_unfinished config).reachable
  have sameWords := reachable.spelled.reservedWords_eq
  have found := ((document.mem_declarations_synthesize_iff config declaration).mp isEmitted).1
  have coins := reachable.coinsAll declaration.name fun isFree => by
    simp [Registry.get?_eq_none_of_slot isFree] at found
  refine ⟨coins.not_mem_reservedTypeNames, fun isWord => ?_⟩
  have cases := coins.cases
  simp only [Registry.typeName, sameWords] at cases
  rcases cases with free | escaped | numbered
  · exact absurd (.inr isWord) free
  · exact .inl escaped
  · exact .inr numbered

/-- A schema that is called like a configured word, and another that differs from it in case. -/
def namesakes : Document where
  openapi := "3.1.0"
  info := { title := "Namesakes", version := "1" }
  components := some {
    schemas := ⟨[("Pet", .inline { type := some (.single .object) }),
      ("pet", .inline { type := some (.single .object) })]⟩ }

/-- A word that neither an underscore nor a number makes up is avoided. -/
theorem unreserved_of_emitted_namesakes :
    ∃ declaration ∈ (namesakes.synthesize { reservedWords := ["Pet"] }).declarations,
      declaration.name = "Pet_2" ∧ declaration.name ∉ reservedTypeNames ∧
        (declaration.name ∈ ["Pet"] → IsEscaped { reservedWords := ["Pet"] } declaration.name ∨
          namesakes.IsNumbered { reservedWords := ["Pet"] } declaration.name) := by
  have names : (namesakes.synthesize { reservedWords := ["Pet"] }).declarations.map
      Declaration.name = ["Pet_", "Pet_2"] := by decide +kernel
  have isName : "Pet_2" ∈ (namesakes.synthesize { reservedWords := ["Pet"] }).declarations.map
      Declaration.name := by simp [names]
  obtain ⟨declaration, isEmitted, isPet⟩ := List.mem_map.mp isName
  exact ⟨declaration, isEmitted, isPet, unreserved_of_emitted isEmitted⟩

/-- A number that tells two names apart makes up a configured word. -/
theorem not_unreserved_namesakes :
    ¬∀ (document : Document) (config : Config),
      ∀ declaration ∈ (document.synthesize config).declarations,
        declaration.name ∉ reservedTypeNames ∧ declaration.name ∉ config.reservedWords := by
  intro alwaysUnreserved
  have names : (namesakes.synthesize { reservedWords := ["Pet2"] }).declarations.map
      Declaration.name = ["Pet", "Pet2"] := by decide +kernel
  have isName : "Pet2" ∈ (namesakes.synthesize { reservedWords := ["Pet2"] }).declarations.map
      Declaration.name := by simp [names]
  obtain ⟨declaration, isEmitted, isPet⟩ := List.mem_map.mp isName
  exact (alwaysUnreserved _ _ declaration isEmitted).2 (by simp [isPet])

end Document

end ApiTypes
