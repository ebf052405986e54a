import ApiTypes.Proofs.AliasCycles
import ApiTypes.Proofs.Invariance

/-!
The order in which names are declared. Where no component schema leads back to itself, whatever a task
mentions has been declared when the task ends, so that everything that an emitted declaration mentions is
emitted before it.
-/

namespace ApiTypes

namespace Registry

/-- Every name is declared after all the names that its declaration mentions. -/
def IsOrdered (registry : Registry) : Prop :=
  ∀ name declaration, registry.get? name = some declaration →
    ∀ mention ∈ declaration.mentions, [mention, name].Sublist registry.order

/-- A new declaration may be added once all that it mentions is declared. -/
theorem IsOrdered.declare {registry : Registry} (ordered : registry.IsOrdered)
    (wellFormed : registry.WellFormed) {declaration : Declaration}
    (undeclared : registry.get? declaration.name = none)
    (mentioned : ∀ mention ∈ declaration.mentions, registry.isDeclared mention = true) :
    (registry.declare declaration).IsOrdered := by
  have order_eq : (registry.declare declaration).order = registry.order ++ [declaration.name] := by
    simp [order_declare, isDeclared, undeclared]
  intro name found isFound mention isMentioned
  rw [order_eq]
  rw [get?_declare] at isFound
  split at isFound
  · rename_i isName
    cases isFound
    have isEarlier := (wellFormed.mem_order_iff mention).mpr (mentioned mention isMentioned)
    rw [isName]
    exact (List.singleton_sublist.mpr isEarlier).append (List.Sublist.refl _)
  · exact (ordered name found isFound mention isMentioned).trans (List.sublist_append_left _ _)

end Registry

namespace Registry.IsOrdered

variable {registry : Registry} (ordered : registry.IsOrdered)

include ordered

/-- In an ordered registry, no declaration mentions itself. -/
theorem not_mentions_self (wellFormed : registry.WellFormed) {name : String} {declaration : Declaration}
    (found : registry.get? name = some declaration) : name ∉ declaration.mentions := fun isMentioned =>
  absurd (idxOf_lt_idxOf_of_sublist wellFormed.nodup_order (ordered name declaration found name isMentioned))
    (lt_irrefl _)

/-- In an ordered registry, no declaration mentions a later one. -/
theorem pairwise (wellFormed : registry.WellFormed) :
    registry.declarations.Pairwise fun earlier later => later.name ∉ earlier.mentions := by
  rw [List.pairwise_iff_getElem]
  intro first second isFirst isSecond before isMentioned
  -- The declarations stand in the order of the registry.
  have position {index : Nat} (isIndex : index < registry.declarations.length) :
      registry.order.idxOf registry.declarations[index].name = index := by
    have isOrder : registry.order[index]? = some registry.declarations[index].name := by
      rw [← wellFormed.map_name_declarations, List.getElem?_map, List.getElem?_eq_getElem isIndex]
      rfl
    obtain ⟨inside, isName⟩ := List.getElem?_eq_some_iff.mp isOrder
    rw [← isName, wellFormed.nodup_order.idxOf_getElem]
  have found := (wellFormed.mem_declarations_iff _).mp (List.getElem_mem isFirst)
  have later := idxOf_lt_idxOf_of_sublist wellFormed.nodup_order
    (ordered _ _ found _ isMentioned)
  rw [position isFirst, position isSecond] at later
  omega

/-- In an ordered registry, every declared name is supported. -/
theorem supported_of_isDeclared (wellFormed : registry.WellFormed) {name : String}
    (isDeclared : registry.isDeclared name = true) : name ∈ registry.supported := by
  refine ⟨{ name | registry.isDeclared name = true }, fun other isDeclared => ?_, isDeclared⟩
  obtain ⟨declaration, found⟩ := (registry.isDeclared_iff other).mp isDeclared
  refine ⟨declaration, found, fun mentioned isMentioned => (wellFormed.mem_order_iff _).mp ?_⟩
  exact (ordered other declaration found mentioned isMentioned).subset List.mem_cons_self

end Registry.IsOrdered

section

variable {context : Context} {expanding : List String} {first last : Workspace}

/-- Without cycles, all that a prepared task has grounded is declared. -/
theorem Prepared.isDeclared {task : Task} {name : String} (acyclic : context.Acyclic)
    (consistent : Consistent context last) (prepared : Prepared context expanding task last)
    (grounded : Grounded context task last name) : last.registry.isDeclared name = true := by
  rcases grounded.isDeclared_or with isDeclared | ⟨schema, emitted, leads, isResolving | isRegistered⟩
  · exact isDeclared
  · -- Whatever is in progress leads to the task, which leads back to it.
    exact absurd (prepared.resolving schema isResolving schema leads) (acyclic schema)
  · obtain ⟨held, declaration, isHeld, stands, _⟩ := consistent.registered isRegistered
    cases isHeld.symm.trans emitted
    exact (Registry.isDeclared_iff _ _).mpr ⟨declaration, stands⟩

/-- Registering a shape keeps the order if all that it mentions is declared. -/
theorem Workspace.Registers.isOrdered {shape : Shape} {name : String}
    (registers : first.Registers shape name last) (wellFormed : first.registry.WellFormed)
    (mentioned : ∀ mention ∈ shape.mentions, first.registry.isDeclared mention = true)
    (ordered : first.registry.IsOrdered) : last.registry.IsOrdered := by
  obtain ⟨candidate, doc, deprecated, path, isRegistered, _⟩ := registers
  rcases first.registry.register_cases candidate shape doc deprecated (.inline path) with
    ⟨_, _, _, _, isSame⟩ | ⟨other, free, isDeclared⟩
  · rw [← (Prod.mk.inj (isSame.symm.trans isRegistered)).2]
    exact ordered
  · rw [← (Prod.mk.inj (isDeclared.symm.trans isRegistered)).2]
    exact Registry.IsOrdered.declare ordered wellFormed (Registry.get?_eq_none_of_slot free) mentioned

/-- Without cycles, every step of a prepared task declares what has been mentioned first. -/
theorem stepInvariant_isOrdered (acyclic : context.Acyclic) :
    StepInvariant context fun workspace => workspace.registry.IsOrdered where
  notes notes ordered := by
    rw [notes.registry_eq]
    exact ordered
  registers consistent prepared _ grounded registers ordered :=
    registers.isOrdered consistent.wellFormed (fun mention isMentioned =>
      prepared.isDeclared acyclic consistent (grounded mention isMentioned)) ordered
  begin _ := id
  conclude begun prepared found emitted concludes ordered := by
    have ⟨after, grows⟩ := (concludes.steps begun).advances begun
    cases concludes with
    | fails | circular => exact ordered
    -- What the shape mentions has been declared by then, while its own name is still free.
    | succeeds declares =>
      have resolving := grows.resolving
      have ready := (prepared.begin found).advance grows
      have undeclared := after.undeclared_of_resolving emitted resolving
      refine Registry.IsOrdered.declare ordered after.wellFormed undeclared fun mention isMentioned => ?_
      exact ready.isDeclared acyclic after ((declares.grounds begun).grounded rfl mention isMentioned)

namespace Workspace

/-- Nothing is in progress, and every name is declared after all that it mentions. -/
structure IsArranged (workspace : Workspace) : Prop where
  settled : ∀ schema, workspace.resolver.state schema ≠ .resolving
  ordered : workspace.registry.IsOrdered

end Workspace

end

namespace Document

variable (document : Document) (config : Config)

/-- Without cycles, the workspace that is finished in the end is arranged. -/
theorem isArranged_unfinished (acyclic : (document.context config).Acyclic) :
    (document.unfinished config).IsArranged := by
  have invariance : Invariance (document.context config) fun workspace =>
      workspace.registry.IsOrdered :=
    { stepInvariant_isOrdered acyclic with
      alike := fun ordered alike => alike.registry ▸ ordered }
  -- In the beginning nothing is declared.
  have entered := document.holds_entered config invariance.toStepInvariant
    fun name declaration found => by simp [Workspace.get?_ofContext] at found
  have ⟨grows, ordered⟩ := document.holds_unfinished config invariance entered
  exact ⟨entered.1.grow grows, ordered⟩

/--
Where no component schema leads back to itself, every name that an emitted declaration mentions is the
name of an earlier one.
-/
theorem mentions_precede (acyclic : (document.context config).Acyclic) {index : Nat}
    {declaration : Declaration}
    (stands : (document.synthesize config).declarations[index]? = some declaration) {name : String}
    (isMentioned : name ∈ declaration.mentions) :
    ∃ earlier < index, ∃ other,
      (document.synthesize config).declarations[earlier]? = some other ∧ other.name = name := by
  have ordered := (document.isArranged_unfinished config acyclic).ordered
  have wellFormed := (document.consistent_unfinished config).wellFormed
  have isEmitted := List.mem_of_getElem? stands
  obtain ⟨other, otherEmitted, rfl⟩ := document.exists_emitted_of_mention config isEmitted isMentioned
  obtain ⟨earlier, otherStands⟩ := List.mem_iff_getElem?.mp otherEmitted
  refine ⟨earlier, ?_, other, otherStands, rfl⟩
  rcases Nat.lt_trichotomy earlier index with before | rfl | after
  · exact before
  · obtain rfl : other = declaration := Option.some.inj (otherStands.symm.trans stands)
    have found := ((document.mem_declarations_synthesize_iff config other).mp otherEmitted).1
    exact absurd isMentioned (ordered.not_mentions_self wellFormed found)
  · -- What is emitted stands in the order of the registry.
    have pairwise : (document.synthesize config).declarations.Pairwise
        fun earlier later => later.name ∉ earlier.mentions := by
      rw [synthesize_eq, Workspace.declarations_finish wellFormed]
      exact (ordered.pairwise wellFormed).filter _
    obtain ⟨isIndex, rfl⟩ := List.getElem?_eq_some_iff.mp stands
    obtain ⟨isEarlier, rfl⟩ := List.getElem?_eq_some_iff.mp otherStands
    exact absurd isMentioned (List.pairwise_iff_getElem.mp pairwise _ _ isIndex isEarlier after)

/-- Schemas of which each refers to the next one, the second of them from a record inside it. -/
def layeredSchemas : Document where
  openapi := "3.1.0"
  info := { title := "Layered schemas", version := "1" }
  components := some {
    schemas := ⟨[
      ("A", .inline { oneOf := [
        .ref "#/components/schemas/B", .inline { type := some (.single .string) }] }),
      ("B", .inline {
        type := some (.single .object)
        properties := ⟨[("part", .inline {
          type := some (.single .object)
          properties := ⟨[("next", .ref "#/components/schemas/C")]⟩ })]⟩ }),
      ("C", .inline {
        type := some (.single .object)
        properties := ⟨[("number", .inline { type := some (.single .integer) })]⟩ })]⟩ }

/-- The first schema is declared last, after both of its cases. -/
theorem mentions_precede_layeredSchemas :
    (layeredSchemas.context {}).Acyclic ∧
      (layeredSchemas.synthesize {}).declarations.map (fun declaration =>
          (declaration.name, declaration.mentions)) =
        [("C", []), ("BPart", ["C"]), ("B", ["BPart"]), ("AString", []), ("A", ["B", "AString"])] ∧
      ∀ declaration ∈ (layeredSchemas.synthesize {}).declarations[4]?,
        ∀ name ∈ declaration.mentions, ∃ earlier < 4, ∃ other,
          (layeredSchemas.synthesize {}).declarations[earlier]? = some other ∧ other.name = name := by
  have acyclic : (layeredSchemas.context {}).Acyclic :=
    Context.acyclic_of_ascending (by decide)
  exact ⟨acyclic, by decide +kernel, fun _ stands _ isMentioned =>
    mentions_precede layeredSchemas {} acyclic stands isMentioned⟩

end Document

end ApiTypes
