import ApiTypes.Binding
import ApiTypes.Synthesis.Workspace

/-!
Leaving out what cannot stand: declarations and operations that mention names without a declaration,
and then the declarations that nothing leads to.
-/

namespace ApiTypes

namespace Registry

/-- The first name among several that is not declared. -/
def firstMissing? (registry : Registry) (names : List String) : Option String :=
  names.find? fun name => !registry.isDeclared name

/-- The declarations that mention a name without a declaration, each with the first such name. -/
def dangling (registry : Registry) : List (Declaration × String) :=
  registry.declarations.filterMap fun declaration =>
    (registry.firstMissing? declaration.mentions).map fun missing => (declaration, missing)

/-- Withdraws several declarations. -/
def removeAll (registry : Registry) (names : List String) : Registry :=
  names.foldl remove registry

/-- Withdrawing declarations takes their names out of the order and nothing else. -/
theorem order_removeAll (registry : Registry) (names : List String) :
    (registry.removeAll names).order = registry.order.filter fun name => !names.contains name := by
  -- Every withdrawal filters the order once more.
  induction names generalizing registry with
  | nil => exact (List.filter_eq_self.mpr (by simp)).symm
  | cons name rest ih =>
    have step : registry.removeAll (name :: rest) = (registry.remove name).removeAll rest := rfl
    rw [step, ih]
    simp only [remove, List.filter_filter]
    congr 1
    funext other
    by_cases same : other = name <;> simp [same]

/-- The names that are reached from some names through the mentions of their declarations. -/
def reachable (registry : Registry) (start : List String) : List String :=
  let next (name : String) : Option (List String) :=
    some ((registry.get? name).elim [] Declaration.mentions)
  (Search.explore registry.order next [] start).getD []

/-- The declared names that neither a component schema nor one of the given names leads to. -/
def unreachable (registry : Registry) (used : List String) : List String :=
  let components := (registry.declarations.filter fun declaration =>
    declaration.origin.isComponent).map Declaration.name
  let reached := registry.reachable (components ++ used)
  (registry.declarations.map Declaration.name).filter fun name => !reached.contains name

end Registry

namespace Workspace

/-- Marks a component schema as failed because of a missing name. Others are dropped silently. -/
def markWithdrawn (workspace : Workspace) (declaration : Declaration) (missing : String) :
    Workspace :=
  match declaration.origin with
  | .inline _ => workspace
  | .component schema =>
    { workspace with resolver := workspace.resolver.markFailed schema }.reportFailure
      ⟨Pointer.ofSchema schema, .dependencyFailed missing⟩

/-- Withdraws declarations that mention missing names. -/
def withdraw (workspace : Workspace) (dangling : List (Declaration × String)) : Workspace :=
  let names := dangling.map fun entry => entry.1.name
  dangling.foldl (fun workspace entry => workspace.markWithdrawn entry.1 entry.2)
    { workspace with registry := workspace.registry.removeAll names }

/-- Withdraws declarations until none mentions a missing name. -/
def withdrawDangling (workspace : Workspace) : Workspace :=
  let next := workspace.withdraw workspace.registry.dangling
  -- Fewer names in the order are left exactly if something was withdrawn.
  if next.registry.order.length < workspace.registry.order.length then next.withdrawDangling
  else workspace
termination_by workspace.registry.order.length

/-- The operations whose types are all declared. The others are left out with a diagnostic. -/
def keepOperations (workspace : Workspace) :
    List OperationBinding → List OperationBinding × Workspace
  | [] => ([], workspace)
  | operation :: rest =>
    match workspace.registry.firstMissing? operation.mentions with
    | none =>
      let (kept, workspace) := keepOperations workspace rest
      (operation :: kept, workspace)
    | some missing =>
      keepOperations
        (workspace.report ("#/paths/" ++ Pointer.escape operation.path)
          (.operationDropped operation.name.given missing))
        rest

/-- Drops the declarations that neither component schemas nor operations lead to. -/
def dropUnreachable (workspace : Workspace) (operations : List OperationBinding) : Workspace :=
  let used := operations.flatMap OperationBinding.mentions
  { workspace with
    registry := workspace.registry.removeAll (workspace.registry.unreachable used) }

end Workspace

end ApiTypes
