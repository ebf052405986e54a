import ApiTypes.Proofs.Registry

/-!
Names as identifiers. Whatever a candidate is made of, its type name is an identifier, and it stays one
with an underscore or a number behind it; so whatever is done to a registry, in whatever order, every name
that it gives out is an identifier.
-/

namespace ApiTypes

/-- A text of ASCII letters, digits and underscores that does not begin with a digit and is not empty. -/
structure IsIdentifier (name : String) : Prop where
  nonempty : name ≠ ""
  plain : ∀ char ∈ name.toList, char.isAlphanum = true ∨ char = '_'
  undigited : ∀ first ∈ name.toList.head?, first.isDigit = false

/-- An identifier goes on with letters, digits and underscores. -/
theorem IsIdentifier.append {name rest : String} (isIdentifier : IsIdentifier name)
    (plain : ∀ char ∈ rest.toList, char.isAlphanum = true ∨ char = '_') : IsIdentifier (name ++ rest) where
  nonempty isEmpty := isIdentifier.nonempty (String.append_eq_empty_iff.mp isEmpty).1
  plain char isChar := by
    rw [String.toList_append, List.mem_append] at isChar
    exact isChar.elim (isIdentifier.plain char) (plain char)
  undigited first isFirst := by
    -- The name has a first character, which is that of the whole.
    have isFilled : name.toList ≠ [] := fun isEmpty =>
      isIdentifier.nonempty (String.toList_eq_nil_iff.mp isEmpty)
    rw [String.toList_append, List.head?_append_of_ne_nil _ isFilled] at isFirst
    exact isIdentifier.undigited first isFirst

/-- Characters of type names are an identifier once no digit stands in front of them. -/
theorem isIdentifier_headed {chars : List Char} (isFilled : chars ≠ [])
    (plain : ∀ char ∈ chars, isTypeNameChar char = true) :
    IsIdentifier (String.ofList
      (if chars.head?.any fun char => char.isDigit then '_' :: chars else chars)) := by
  have plain : ∀ char ∈ chars, char.isAlphanum = true ∨ char = '_' := by
    simpa [isTypeNameChar] using plain
  split
  · exact ⟨by simp, by simpa using plain, by simp⟩
  · rename_i isUndigited
    refine ⟨by simpa using isFilled, by simpa using plain, fun first isFirst => ?_⟩
    rw [String.toList_ofList, Option.mem_def] at isFirst
    simpa [isFirst] using isUndigited

/-- The type name for a candidate is an identifier, whatever words are reserved. -/
theorem isIdentifier_typeName (reserved : List String) (candidate : String) :
    IsIdentifier (typeName reserved candidate) := by
  -- What is dropped leaves characters of type names only, and a word stands in if it leaves none.
  unfold typeName
  extract_lets kept named headed name
  have isIdentifier : IsIdentifier name := by
    have isFilled : named ≠ [] := by
      cases isKept : kept with
      | nil => simp [named, isKept]
      | cons first rest => simp [named, isKept]
    have plain : ∀ char ∈ named, isTypeNameChar char = true := by
      have plain : ∀ char ∈ kept, isTypeNameChar char = true := fun char isChar =>
        (List.mem_filter.mp isChar).2
      cases isEmpty : kept.isEmpty with
      | true =>
        have areLetters : "Unnamed".toList.all isTypeNameChar = true := by decide
        simpa only [named, isEmpty, if_true] using List.all_eq_true.mp areLetters
      | false => simpa [named, isEmpty] using plain
    exact isIdentifier_headed isFilled plain
  split
  · exact isIdentifier.append (by simp)
  · exact isIdentifier

namespace Registry

/-- An identifier with a number behind it is one. -/
theorem isIdentifier_suffixed {base : String} (isIdentifier : IsIdentifier base) (tried : Nat) :
    IsIdentifier (suffixed base tried) := by
  cases tried with
  | zero => exact isIdentifier
  | succ tried =>
    refine isIdentifier.append fun char isChar => .inl ?_
    rw [Nat.toString_eq_repr, Nat.toList_repr] at isChar
    have isDigit : char.isDigit = true := Nat.isDigit_of_mem_toDigits (by omega) (by omega) isChar
    simp [Char.isAlphanum, isDigit]

/-- The first name for a candidate that a condition accepts is an identifier. -/
theorem isIdentifier_firstName (registry : Registry) {accepts : Option Slot → Bool}
    (acceptsFree : accepts none = true) (candidate : String) :
    IsIdentifier (registry.firstName accepts (registry.typeName candidate)) := by
  obtain ⟨tried, isFirst, _⟩ := registry.exists_firstName_eq acceptsFree (registry.typeName candidate)
  rw [isFirst]
  exact isIdentifier_suffixed (isIdentifier_typeName _ candidate) tried

/-- Something that can be done to a registry. -/
inductive Operation where
  | reserve (schema : String)
  | register (candidate : String) (shape : Shape) (doc : Option String) (deprecated : Bool)
    (origin : Origin)
  | fill (name schema : String) (shape : Shape) (doc : Option String) (deprecated : Bool)
  | remove (name : String)

/-- The registry to which something has been done. -/
def perform (registry : Registry) : Operation → Registry
  | .reserve schema => (registry.reserve schema).2
  | .register candidate shape doc deprecated origin =>
    (registry.register candidate shape doc deprecated origin).2
  | .fill name schema shape doc deprecated => registry.fill name schema shape doc deprecated
  | .remove name => registry.remove name

/-- The registry of some settings to which one thing after the other has been done. -/
def after (config : Config) (operations : List Operation) : Registry :=
  operations.foldl perform (ofConfig config)

/-- Every name that is held for a component schema is an identifier. -/
def HoldsIdentifiers (registry : Registry) : Prop :=
  ∀ schema name, registry.components.get? schema = some name → IsIdentifier name

namespace HoldsIdentifiers

variable {registry : Registry} (holds : registry.HoldsIdentifiers)

include holds

/-- The name that is held for a schema, from before or from now on, is an identifier. -/
theorem isIdentifier_reserve (schema : String) : IsIdentifier (registry.reserve schema).1 := by
  unfold Registry.reserve
  split
  · rename_i name isHeld
    exact holds schema name isHeld
  · exact registry.isIdentifier_firstName rfl schema

/-- Whatever is done to a registry, the names that it holds stay identifiers. -/
theorem perform (operation : Operation) : (registry.perform operation).HoldsIdentifiers := by
  cases operation with
  | reserve schema =>
    have isIdentifier := holds.isIdentifier_reserve schema
    simp only [Registry.perform]
    unfold Registry.reserve at isIdentifier ⊢
    split
    · exact holds
    · rename_i isFree
      rw [isFree] at isIdentifier
      intro other name isHeld
      rw [Table.get?_insert] at isHeld
      split at isHeld
      · exact Option.some.inj isHeld ▸ isIdentifier
      · exact holds other name isHeld
  | register candidate shape doc deprecated origin =>
    -- No registration is for a component schema.
    simp only [Registry.perform, Registry.register]
    split <;> exact holds
  | fill name schema shape doc deprecated => exact holds
  | remove name => exact holds

end HoldsIdentifiers

/-- The name under which a shape is registered is an identifier. -/
theorem isIdentifier_register (registry : Registry) (candidate : String) (shape : Shape)
    (doc : Option String) (deprecated : Bool) (origin : Origin) :
    IsIdentifier (registry.register candidate shape doc deprecated origin).1 := by
  have isIdentifier : IsIdentifier
      (registry.firstName (isReusable shape) (registry.typeName candidate)) :=
    registry.isIdentifier_firstName rfl candidate
  unfold Registry.register
  extract_lets name
  split <;> exact isIdentifier

/-- Whatever has been done to a registry, the names that it holds are identifiers. -/
theorem holdsIdentifiers_after (config : Config) (operations : List Operation) :
    (after config operations).HoldsIdentifiers := by
  -- At first no name is held for any schema.
  have start : (ofConfig config).HoldsIdentifiers := fun _ _ isHeld => by simp [ofConfig] at isHeld
  exact List.foldlRecOn operations perform start fun _ holds operation _ => holds.perform operation

/--
Whatever has been done to a registry, and in whatever order, the names that it gives out next for schemas
and for candidates are identifiers.
-/
theorem returned_areIdentifiers (config : Config) (operations : List Operation) :
    (∀ schema, IsIdentifier ((after config operations).reserve schema).1) ∧
      ∀ candidate shape doc deprecated origin,
        IsIdentifier ((after config operations).register candidate shape doc deprecated origin).1 :=
  ⟨(holdsIdentifiers_after config operations).isIdentifier_reserve,
    (after config operations).isIdentifier_register⟩

end Registry

end ApiTypes
