import ApiTypes.Proofs.Withdrawal
import ApiTypes.Synthesis

/-!
Finishing a workspace. What is emitted is what component schemas and operations use of the supported
declarations, and each of them that is left out has its diagnostic.
-/

namespace ApiTypes

namespace Registry

/-- Every declared type that an operation mentions can stand. -/
def Stands (registry : Registry) (operation : OperationBinding) : Prop :=
  ∀ mentioned ∈ operation.mentions, mentioned ∈ registry.supported

/-- A name for whose sake declarations are kept. -/
inductive IsRoot (registry : Registry) (operations : List OperationBinding) (name : String) :
    Prop where
  /-- The supported declaration of a component schema. -/
  | component {declaration : Declaration} (found : registry.get? name = some declaration)
    (isComponent : declaration.origin.isComponent = true) (supported : name ∈ registry.supported)
  /-- A type of an operation that stands. -/
  | mention {operation : OperationBinding} (isBound : operation ∈ operations)
    (stands : registry.Stands operation) (isMentioned : name ∈ operation.mentions)

/-- A name to which some root leads by mentions. -/
def Kept (registry : Registry) (operations : List OperationBinding) (name : String) : Prop :=
  ∃ root, registry.IsRoot operations root ∧ Relation.ReflTransGen registry.Mentions root name

/-- Roots are supported. -/
theorem IsRoot.supported {registry : Registry} {operations : List OperationBinding} {name : String}
    (isRoot : registry.IsRoot operations name) : name ∈ registry.supported := by
  cases isRoot with
  | component _ _ supported => exact supported
  | mention _ stands isMentioned => exact stands name isMentioned

/-- What is kept is supported. -/
theorem Kept.supported {registry : Registry} {operations : List OperationBinding} {name : String}
    (kept : registry.Kept operations name) : name ∈ registry.supported := by
  obtain ⟨root, isRoot, leads⟩ := kept
  exact supported_of_leads isRoot.supported leads

/-- The declared types that something kept mentions are kept. -/
theorem Kept.of_mentions {registry : Registry} {operations : List OperationBinding}
    {name mentioned : String} (kept : registry.Kept operations name)
    (mentions : registry.Mentions name mentioned) : registry.Kept operations mentioned := by
  obtain ⟨root, isRoot, leads⟩ := kept
  exact ⟨root, isRoot, leads.tail mentions⟩

/-- The diagnostic of an operation that mentions a name without a declaration, if it does. -/
def omission? (registry : Registry) (operation : OperationBinding) : Option Diagnostic :=
  (registry.firstMissing? operation.mentions).map fun missing =>
    ⟨"#/paths/" ++ Pointer.escape operation.path, .operationDropped operation.name.given missing⟩

/-- A diagnostic says for want of which unsupported name an operation is left out. -/
def ReportsOmission (registry : Registry) (operation : OperationBinding)
    (diagnostic : Diagnostic) : Prop :=
  ∃ missing ∈ operation.mentions, missing ∉ registry.supported ∧
    diagnostic = ⟨"#/paths/" ++ Pointer.escape operation.path,
      .operationDropped operation.name.given missing⟩

end Registry

namespace Workspace

/-- Operations are kept in order if all their types are declared; the others are reported. -/
theorem keepOperations_eq (workspace : Workspace) (operations : List OperationBinding) :
    workspace.keepOperations operations =
      (operations.filter fun operation =>
          (workspace.registry.firstMissing? operation.mentions).isNone,
        { workspace with
          diagnostics :=
            workspace.diagnostics ++ operations.filterMap workspace.registry.omission? }) := by
  -- Reports in front of an operation change nothing about what is declared.
  induction operations generalizing workspace with
  | nil => simp [keepOperations]
  | cons operation rest ih =>
    cases missing : workspace.registry.firstMissing? operation.mentions with
    | none => simp [keepOperations, missing, ih, Registry.omission?]
    | some name => simp [keepOperations, missing, ih, Registry.omission?, report]

variable {workspace : Workspace} (wellFormed : workspace.registry.WellFormed)
  (version : SpecVersion) (operations : List OperationBinding) (lowering : List Diagnostic)

include wellFormed

/-- An operation misses nothing after withdrawal exactly if it stands. -/
theorem firstMissing?_withdrawDangling_eq_none_iff (operation : OperationBinding) :
    workspace.withdrawDangling.registry.firstMissing? operation.mentions = none ↔
      workspace.registry.Stands operation := by
  simp only [Registry.firstMissing?_eq_none_iff, Registry.Stands,
    isDeclared_withdrawDangling wellFormed]

/-- From a supported name, mentions lead to the same names before and after withdrawal. -/
theorem leads_withdrawDangling_iff {first : String} (supported : first ∈ workspace.registry.supported)
    (name : String) :
    Relation.ReflTransGen workspace.withdrawDangling.registry.Mentions first name ↔
      Relation.ReflTransGen workspace.registry.Mentions first name := by
  constructor <;> intro leads
  · -- What is declared after withdrawal was declared before.
    refine Relation.ReflTransGen.mono (fun one other mentions => ?_) _ _ leads
    obtain ⟨declaration, found, isMentioned⟩ := mentions
    by_cases oneSupported : one ∈ workspace.registry.supported
    · exact ⟨declaration,
        (get?_withdrawDangling wellFormed one).1 oneSupported ▸ found, isMentioned⟩
    · rw [(get?_withdrawDangling wellFormed one).2 oneSupported] at found
      cases found
  · -- Everything on the way is supported, and so it keeps its declaration.
    induction leads with
    | refl => exact .refl
    | tail before mentions ih =>
      obtain ⟨declaration, found, isMentioned⟩ := mentions
      have isSupported := Registry.supported_of_leads supported before
      exact ih.tail ⟨declaration,
        ((get?_withdrawDangling wellFormed _).1 isSupported).trans found, isMentioned⟩

open scoped Classical in
/-- The operations that are returned are those that stand. -/
theorem operations_finish :
    (workspace.finish version operations lowering).operations =
      operations.filter fun operation => decide (workspace.registry.Stands operation) := by
  simp only [finish, keepOperations_eq]
  congr 1
  funext operation
  rw [Bool.eq_iff_iff, Option.isNone_iff_eq_none, decide_eq_true_iff,
    firstMissing?_withdrawDangling_eq_none_iff wellFormed]

/-- What the declarations and operations left after withdrawal start from are the roots. -/
theorem mem_starts_iff (name : String) :
    (∃ declaration ∈ workspace.withdrawDangling.registry.declarations,
        declaration.origin.isComponent = true ∧ declaration.name = name) ∨
      (∃ operation ∈ operations,
        workspace.withdrawDangling.registry.firstMissing? operation.mentions = none ∧
          name ∈ operation.mentions) ↔
      workspace.registry.IsRoot operations name := by
  have leftWellFormed := wellFormed_withdrawDangling wellFormed
  simp only [firstMissing?_withdrawDangling_eq_none_iff wellFormed]
  constructor
  · rintro (⟨declaration, isDeclaration, isComponent, rfl⟩ | ⟨_, isBound, stands, isMentioned⟩)
    · have found := (leftWellFormed.mem_declarations_iff declaration).mp isDeclaration
      have supported := (isDeclared_withdrawDangling wellFormed declaration.name).mp
        ((Registry.isDeclared_iff _ _).mpr ⟨declaration, found⟩)
      rw [(get?_withdrawDangling wellFormed _).1 supported] at found
      exact .component found isComponent supported
    · exact .mention isBound stands isMentioned
  · intro isRoot
    cases isRoot with
    | component found isComponent supported =>
      have sameName := wellFormed.name_eq found
      rw [← (get?_withdrawDangling wellFormed name).1 supported, ← sameName] at found
      exact .inl ⟨_, (leftWellFormed.mem_declarations_iff _).mpr found, isComponent, sameName⟩
    | mention isBound stands isMentioned => exact .inr ⟨_, isBound, stands, isMentioned⟩

/-- The last search gives up the supported names that are not kept. -/
theorem mem_unreachable_iff (name : String) :
    name ∈ workspace.withdrawDangling.registry.unreachable
        ((workspace.withdrawDangling.keepOperations operations).1.flatMap
          OperationBinding.mentions) ↔
      name ∈ workspace.registry.supported ∧ ¬workspace.registry.Kept operations name := by
  have leftWellFormed := wellFormed_withdrawDangling wellFormed
  -- What is reached are the kept names, since it starts from the roots.
  have reached : name ∈ workspace.withdrawDangling.registry.reachable
      ((workspace.withdrawDangling.registry.declarations.filter fun declaration =>
          declaration.origin.isComponent).map Declaration.name ++
        (workspace.withdrawDangling.keepOperations operations).1.flatMap
          OperationBinding.mentions) ↔ workspace.registry.Kept operations name := by
    rw [leftWellFormed.mem_reachable_iff, isDeclared_withdrawDangling wellFormed,
      keepOperations_eq]
    simp only [List.mem_append, List.mem_map, List.mem_filter, List.mem_flatMap,
      Option.isNone_iff_eq_none, and_assoc, mem_starts_iff wellFormed, Registry.Kept]
    constructor
    · rintro ⟨_, root, isRoot, leads⟩
      exact ⟨root, isRoot, (leads_withdrawDangling_iff wellFormed isRoot.supported name).mp leads⟩
    · rintro ⟨root, isRoot, leads⟩
      exact ⟨Registry.supported_of_leads isRoot.supported leads, root, isRoot,
        (leads_withdrawDangling_iff wellFormed isRoot.supported name).mpr leads⟩
  rw [Registry.unreachable, List.mem_filter, leftWellFormed.map_name_declarations,
    leftWellFormed.mem_order_iff, isDeclared_withdrawDangling wellFormed, Bool.not_eq_true',
    ← Bool.not_eq_true, List.contains_iff_mem, reached]

/-- A finished workspace has lost declarations, and what is left is what is kept. -/
theorem exists_registry_finish :
    ∃ removed,
      (workspace.finish version operations lowering).declarations =
        (workspace.registry.removeAll removed).declarations ∧
      (workspace.finish version operations lowering).names =
        (workspace.registry.removeAll removed).names ∧
      ∀ name, (workspace.registry.removeAll removed).isDeclared name = true ↔
        workspace.registry.Kept operations name := by
  obtain ⟨withdrawn, withdraws, _⟩ := workspace.withdrawDangling_withdraws wellFormed
  let dropped := workspace.withdrawDangling.registry.unreachable
    ((workspace.withdrawDangling.keepOperations operations).1.flatMap OperationBinding.mentions)
  have registry_eq : workspace.registry.removeAll
      ((withdrawn.map fun entry => entry.1.name) ++ dropped) =
        workspace.withdrawDangling.registry.removeAll dropped := by
    rw [Registry.removeAll_append, withdraws.registry_eq]
  -- What is withdrawn for what it mentions, and then what nothing that is left leads to.
  refine ⟨(withdrawn.map fun entry => entry.1.name) ++ dropped, ?_, ?_, fun name => ?_⟩
  · rw [registry_eq]
    simp only [finish, keepOperations_eq, dropUnreachable, dropped]
  · rw [registry_eq]
    simp only [finish, keepOperations_eq, dropUnreachable, dropped]
  · have left := isDeclared_withdrawDangling wellFormed name
    have isDropped := mem_unreachable_iff wellFormed operations name
    rw [registry_eq, Registry.isDeclared, Registry.get?_removeAll]
    split
    · rename_i unreached
      simpa using (isDropped.mp unreached).2
    · rename_i reached
      rw [← Registry.isDeclared, left]
      exact ⟨fun supported => not_not.mp fun unkept => reached (isDropped.mpr ⟨supported, unkept⟩),
        Registry.Kept.supported⟩

open scoped Classical in
/-- The declarations that are returned are those that are kept. -/
theorem declarations_finish :
    (workspace.finish version operations lowering).declarations =
      workspace.registry.declarations.filter fun declaration =>
        decide (workspace.registry.Kept operations declaration.name) := by
  obtain ⟨removed, declarations_eq, _, declared⟩ :=
    exists_registry_finish wellFormed version operations lowering
  rw [declarations_eq, wellFormed.declarations_removeAll_eq]
  congr 1
  funext declaration
  rw [Bool.eq_iff_iff, declared, decide_eq_true_iff]

open scoped Classical in
/-- The names that are returned are those of component schemas that are kept. -/
theorem names_finish :
    (workspace.finish version operations lowering).names =
      workspace.registry.components.filter fun _ name =>
        decide (workspace.registry.Kept operations name) := by
  obtain ⟨removed, _, names_eq, declared⟩ :=
    exists_registry_finish wellFormed version operations lowering
  rw [names_eq, Registry.names, Registry.components_removeAll]
  congr 1
  funext _ name
  rw [Bool.eq_iff_iff, declared, decide_eq_true_iff]

open scoped Classical in
/--
The returned diagnostics are those before, then one for each component schema that is withdrawn, and
then one for each operation that does not stand.
-/
theorem diagnostics_finish :
    ∃ lost losses omissions,
      lost.Perm (workspace.registry.declarations.filter fun declaration =>
        declaration.origin.isComponent &&
          decide (declaration.name ∉ workspace.registry.supported)) ∧
      List.Forall₂ workspace.registry.ReportsLoss lost losses ∧
      List.Forall₂ workspace.registry.ReportsOmission
        (operations.filter fun operation => decide (¬workspace.registry.Stands operation))
        omissions ∧
      (workspace.finish version operations lowering).diagnostics =
        lowering ++ (workspace.diagnostics ++ losses ++ omissions) := by
  obtain ⟨withdrawn, withdraws, settled⟩ := workspace.withdrawDangling_withdraws wellFormed
  refine ⟨_, _, operations.filterMap workspace.withdrawDangling.registry.omission?, ?_,
    withdraws.reports, ?_, ?_⟩
  · rw [← List.filter_filter]
    exact (withdraws.perm wellFormed settled).filter _
  · -- An operation is reported exactly if it misses something, which is never supported.
    induction operations with
    | nil => exact .nil
    | cons operation rest ih =>
      have stands := firstMissing?_withdrawDangling_eq_none_iff wellFormed operation
      cases found : workspace.withdrawDangling.registry.firstMissing? operation.mentions with
      | none => simpa [Registry.omission?, found, stands.mp found] using ih
      | some missing =>
        obtain ⟨isMentioned, undeclared⟩ := Registry.of_firstMissing? found
        have lacking := mt (isDeclared_withdrawDangling wellFormed missing).mpr (by simpa using undeclared)
        have falls : ¬workspace.registry.Stands operation := fun all => by
          simp [stands.mpr all] at found
        simpa [Registry.omission?, found, falls] using
          List.Forall₂.cons ⟨missing, isMentioned, lacking, rfl⟩ ih
  · simp only [finish, keepOperations_eq, dropUnreachable, withdraws.diagnostics_eq]

end Workspace

end ApiTypes
