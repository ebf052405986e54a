import ApiTypes.Proofs.Registry.Support

/-!
Withdrawal of declarations. It ends with exactly the supported ones, and reports one error for every
component schema that loses its declaration.
-/

namespace ApiTypes

/-- The diagnostic of a declaration that is withdrawn for want of a name, if it gets one. -/
def Declaration.loss? (declaration : Declaration) (missing : String) : Option Diagnostic :=
  match declaration.origin with
  | .inline _ => none
  | .component schema => some ⟨Pointer.ofSchema schema, .failed (.dependencyFailed missing)⟩

namespace Workspace

/-- Marking a declaration as withdrawn reports its loss. -/
theorem diagnostics_markWithdrawn (workspace : Workspace) (declaration : Declaration)
    (missing : String) : (workspace.markWithdrawn declaration missing).diagnostics =
      workspace.diagnostics ++ (declaration.loss? missing).toList := by
  unfold markWithdrawn Declaration.loss?
  cases declaration.origin with
  | inline path => simp
  | component schema => rfl

/-- Marking a declaration as withdrawn leaves the registry alone. -/
theorem registry_markWithdrawn (workspace : Workspace) (declaration : Declaration)
    (missing : String) :
    (workspace.markWithdrawn declaration missing).registry = workspace.registry := by
  unfold markWithdrawn
  cases declaration.origin <;> rfl

/-- Withdrawing declarations takes their names out of the registry. -/
theorem registry_withdraw (workspace : Workspace) (dangling : List (Declaration × String)) :
    (workspace.withdraw dangling).registry =
      workspace.registry.removeAll (dangling.map fun entry => entry.1.name) := by
  unfold withdraw
  generalize dangling.map (fun entry => entry.1.name) = names
  -- The marks that follow the removal do not touch the registry.
  have marks : ∀ start : Workspace, (dangling.foldl
      (fun workspace entry => workspace.markWithdrawn entry.1 entry.2) start).registry =
        start.registry := by
    induction dangling with
    | nil => exact fun _ => rfl
    | cons entry rest ih => exact fun start => (ih _).trans (registry_markWithdrawn start _ _)
  exact marks _

/-- Withdrawing declarations reports the loss of each of them in order. -/
theorem diagnostics_withdraw (workspace : Workspace) (dangling : List (Declaration × String)) :
    (workspace.withdraw dangling).diagnostics =
      workspace.diagnostics ++ dangling.filterMap fun entry => entry.1.loss? entry.2 := by
  unfold withdraw
  generalize dangling.map (fun entry => entry.1.name) = names
  have marks : ∀ start : Workspace, (dangling.foldl
      (fun workspace entry => workspace.markWithdrawn entry.1 entry.2) start).diagnostics =
        start.diagnostics ++ dangling.filterMap fun entry => entry.1.loss? entry.2 := by
    induction dangling with
    | nil => exact fun start => (List.append_nil _).symm
    | cons entry rest ih =>
      intro start
      rw [List.foldl_cons, ih, diagnostics_markWithdrawn, List.append_assoc]
      cases loss : entry.1.loss? entry.2 <;> simp [loss]
  exact marks _

/-- How a workspace changes when unsupported declarations are withdrawn, each with its loss. -/
structure Withdraws (before after : Workspace) (withdrawn : List (Declaration × String)) :
    Prop where
  registry_eq : after.registry =
    before.registry.removeAll (withdrawn.map fun entry => entry.1.name)
  diagnostics_eq : after.diagnostics =
    before.diagnostics ++ withdrawn.filterMap fun entry => entry.1.loss? entry.2
  unsupported : ∀ entry ∈ withdrawn, entry.1 ∈ before.registry.declarations ∧
    entry.1.name ∉ before.registry.supported ∧ entry.2 ∈ entry.1.mentions ∧
    entry.2 ∉ before.registry.supported
  distinct : (withdrawn.map fun entry => entry.1.name).Nodup

/-- Nothing has to be withdrawn for a workspace to stay as it is. -/
theorem Withdraws.refl (workspace : Workspace) : Withdraws workspace workspace [] where
  registry_eq := rfl
  diagnostics_eq := (List.append_nil _).symm
  unsupported := by simp
  distinct := List.nodup_nil

/-- Withdrawing unsupported declarations changes nothing about what is supported. -/
theorem Withdraws.supported_eq {before after : Workspace} {withdrawn : List (Declaration × String)}
    (withdraws : Withdraws before after withdrawn) :
    after.registry.supported = before.registry.supported := by
  rw [withdraws.registry_eq]
  apply Registry.supported_removeAll
  intro name isRemoved
  obtain ⟨entry, isEntry, rfl⟩ := List.mem_map.mp isRemoved
  exact (withdraws.unsupported entry isEntry).2.1

/-- Withdrawing in two rounds withdraws what either of them does. -/
theorem Withdraws.trans {first second third : Workspace}
    {early late : List (Declaration × String)} (wellFormed : first.registry.WellFormed)
    (earlier : Withdraws first second early) (later : Withdraws second third late) :
    Withdraws first third (early ++ late) where
  registry_eq := by
    rw [later.registry_eq, earlier.registry_eq, List.map_append, Registry.removeAll_append]
  diagnostics_eq := by
    rw [later.diagnostics_eq, earlier.diagnostics_eq, List.filterMap_append, List.append_assoc]
  unsupported entry isEntry := by
    rcases List.mem_append.mp isEntry with isEarly | isLate
    · exact earlier.unsupported entry isEarly
    · -- What is left after the first round was there before it.
      obtain ⟨isDeclaration, rest⟩ := later.unsupported entry isLate
      rw [earlier.supported_eq] at rest
      rw [earlier.registry_eq, wellFormed.declarations_removeAll] at isDeclaration
      exact ⟨(List.mem_filter.mp isDeclaration).1, rest⟩
  distinct := by
    rw [List.map_append]
    refine List.nodup_append.mpr ⟨earlier.distinct, later.distinct, ?_⟩
    -- A name that the first round removes is not declared in the second.
    rintro name isEarly other isLate rfl
    obtain ⟨entry, isEntry, isName⟩ := List.mem_map.mp isLate
    have left := (later.unsupported entry isEntry).1
    rw [earlier.registry_eq, wellFormed.declarations_removeAll] at left
    have kept := (List.mem_filter.mp left).2
    simp only [isName, Bool.not_eq_true', ← Bool.not_eq_true, List.contains_iff_mem] at kept
    exact kept isEarly

/-- One round of withdrawal withdraws the declarations that mention missing names. -/
theorem withdraws_withdraw {workspace : Workspace} (wellFormed : workspace.registry.WellFormed) :
    Withdraws workspace (workspace.withdraw workspace.registry.dangling)
      workspace.registry.dangling where
  registry_eq := registry_withdraw _ _
  diagnostics_eq := diagnostics_withdraw _ _
  unsupported _ := wellFormed.not_supported_of_dangling
  distinct := by
    -- The dangling declarations are some of the declarations, whose names are distinct.
    have names : (workspace.registry.declarations.map Declaration.name).Nodup := by
      rw [wellFormed.map_name_declarations]
      exact wellFormed.nodup_order
    unfold Registry.dangling
    generalize workspace.registry.declarations = declarations at names ⊢
    induction declarations with
    | nil => exact List.nodup_nil
    | cons declaration rest ih =>
      have tail := ih (List.nodup_cons.mp names).2
      rw [List.filterMap_cons]
      cases missing : workspace.registry.firstMissing? declaration.mentions with
      | none => simpa using tail
      | some name =>
        refine List.nodup_cons.mpr ⟨fun again => ?_, tail⟩
        obtain ⟨entry, isEntry, sameName⟩ := List.mem_map.mp again
        obtain ⟨other, isLater, found⟩ := List.mem_filterMap.mp isEntry
        obtain ⟨_, _, rfl⟩ := Option.map_eq_some_iff.mp found
        exact (List.nodup_cons.mp names).1 (List.mem_map.mpr ⟨other, isLater, sameName⟩)

/-- A round of withdrawal shortens the order exactly if some declaration dangles. -/
theorem withdraw_shortens_iff {workspace : Workspace} (wellFormed : workspace.registry.WellFormed) :
    (workspace.withdraw workspace.registry.dangling).registry.order.length <
      workspace.registry.order.length ↔ workspace.registry.dangling ≠ [] := by
  rw [registry_withdraw, Registry.order_removeAll, List.length_filter_lt_length_iff_exists]
  constructor
  · rintro ⟨name, _, isRemoved⟩ settled
    simp [settled] at isRemoved
  · intro unsettled
    obtain ⟨entry, isEntry⟩ := List.exists_mem_of_ne_nil _ unsettled
    have isDeclaration := (wellFormed.not_supported_of_dangling isEntry).1
    have isName := List.mem_map_of_mem (f := Declaration.name) isDeclaration
    rw [wellFormed.map_name_declarations] at isName
    have isRemoved : entry.1.name ∈ workspace.registry.dangling.map fun entry => entry.1.name :=
      List.mem_map.mpr ⟨entry, isEntry, rfl⟩
    exact ⟨entry.1.name, isName, by simpa using isRemoved⟩

/-- Withdrawal takes away unsupported declarations until none dangles. -/
theorem withdrawDangling_withdraws (workspace : Workspace)
    (wellFormed : workspace.registry.WellFormed) :
    ∃ withdrawn, Withdraws workspace workspace.withdrawDangling withdrawn ∧
      workspace.withdrawDangling.registry.dangling = [] := by
  -- Every round withdraws something unsupported, or nothing dangles and the rounds end.
  induction workspace using withdrawDangling.induct with
  | case1 workspace next shorter ih =>
    have round := withdraws_withdraw wellFormed
    have nextWellFormed : next.registry.WellFormed :=
      round.registry_eq ▸ wellFormed.removeAll _
    obtain ⟨withdrawn, rounds, settled⟩ := ih nextWellFormed
    rw [withdrawDangling, if_pos shorter]
    exact ⟨_, round.trans wellFormed rounds, settled⟩
  | case2 workspace next notShorter =>
    have settled := mt (withdraw_shortens_iff wellFormed).mpr notShorter
    rw [withdrawDangling, if_neg notShorter]
    exact ⟨[], Withdraws.refl workspace, not_not.mp settled⟩

/-- After withdrawal, what is declared is what was supported. -/
theorem isDeclared_withdrawDangling {workspace : Workspace}
    (wellFormed : workspace.registry.WellFormed) (name : String) :
    workspace.withdrawDangling.registry.isDeclared name = true ↔
      name ∈ workspace.registry.supported := by
  obtain ⟨withdrawn, withdraws, settled⟩ := workspace.withdrawDangling_withdraws wellFormed
  have leftWellFormed : workspace.withdrawDangling.registry.WellFormed :=
    withdraws.registry_eq ▸ wellFormed.removeAll _
  rw [← withdraws.supported_eq, leftWellFormed.mem_supported_iff_isDeclared settled]

/-- Withdrawal keeps the registry well formed. -/
theorem wellFormed_withdrawDangling {workspace : Workspace}
    (wellFormed : workspace.registry.WellFormed) :
    workspace.withdrawDangling.registry.WellFormed := by
  obtain ⟨withdrawn, withdraws, _⟩ := workspace.withdrawDangling_withdraws wellFormed
  exact withdraws.registry_eq ▸ wellFormed.removeAll _

/-- Withdrawal leaves what is supported as it was, and takes everything else away. -/
theorem get?_withdrawDangling {workspace : Workspace}
    (wellFormed : workspace.registry.WellFormed) (name : String) :
    (name ∈ workspace.registry.supported →
      workspace.withdrawDangling.registry.get? name = workspace.registry.get? name) ∧
    (name ∉ workspace.registry.supported →
      workspace.withdrawDangling.registry.get? name = none) := by
  constructor
  · intro supported
    obtain ⟨withdrawn, withdraws, _⟩ := workspace.withdrawDangling_withdraws wellFormed
    rw [withdraws.registry_eq, Registry.get?_removeAll, if_neg]
    intro isRemoved
    obtain ⟨entry, isEntry, rfl⟩ := List.mem_map.mp isRemoved
    exact (withdraws.unsupported entry isEntry).2.1 supported
  · intro unsupported
    have undeclared := mt (isDeclared_withdrawDangling wellFormed name).mp unsupported
    simpa [Registry.isDeclared] using undeclared

end Workspace

open scoped Classical in
/-- Withdrawal until nothing dangles withdraws every declaration that is not supported. -/
theorem Workspace.Withdraws.perm {before after : Workspace}
    {withdrawn : List (Declaration × String)} (wellFormed : before.registry.WellFormed)
    (withdraws : Withdraws before after withdrawn) (settled : after.registry.dangling = []) :
    (withdrawn.map Prod.fst).Perm
      (before.registry.declarations.filter fun declaration =>
        decide (declaration.name ∉ before.registry.supported)) := by
  have afterWellFormed : after.registry.WellFormed :=
    withdraws.registry_eq ▸ wellFormed.removeAll _
  have distinctNames : ((withdrawn.map Prod.fst).map Declaration.name).Nodup := by
    simpa [List.map_map, Function.comp_def] using withdraws.distinct
  -- Neither list repeats a declaration, so it is enough that they have the same members.
  refine (List.perm_ext_iff_of_nodup distinctNames.of_map
    (wellFormed.nodup_declarations.filter _)).mpr fun declaration => ?_
  rw [List.mem_filter, decide_eq_true_iff]
  constructor
  · intro isWithdrawn
    obtain ⟨entry, isEntry, rfl⟩ := List.mem_map.mp isWithdrawn
    obtain ⟨isDeclaration, unsupported, _⟩ := withdraws.unsupported entry isEntry
    exact ⟨isDeclaration, unsupported⟩
  · -- A declaration that was not withdrawn is still there, and so it is supported.
    rintro ⟨isDeclaration, unsupported⟩
    rw [← withdraws.supported_eq, afterWellFormed.mem_supported_iff_isDeclared settled,
      Registry.isDeclared, withdraws.registry_eq, Registry.get?_removeAll,
      (wellFormed.mem_declarations_iff declaration).mp isDeclaration] at unsupported
    have isRemoved : declaration.name ∈ withdrawn.map fun entry => entry.1.name := by
      by_contra kept
      simp [kept] at unsupported
    obtain ⟨entry, isEntry, sameName⟩ := List.mem_map.mp isRemoved
    have other := (withdraws.unsupported entry isEntry).1
    rw [wellFormed.mem_declarations_iff] at other isDeclaration
    rw [sameName, isDeclaration] at other
    exact List.mem_map.mpr ⟨entry, isEntry, (Option.some.inj other).symm⟩

/-- A diagnostic says for want of which unsupported name a component schema is withdrawn. -/
def Registry.ReportsLoss (registry : Registry) (declaration : Declaration)
    (diagnostic : Diagnostic) : Prop :=
  ∃ schema missing, declaration.origin = .component schema ∧ missing ∈ declaration.mentions ∧
    missing ∉ registry.supported ∧
    diagnostic = ⟨Pointer.ofSchema schema, .failed (.dependencyFailed missing)⟩

/-- Every withdrawn component schema is reported once, and nothing else is. -/
theorem Workspace.Withdraws.reports {before after : Workspace}
    {withdrawn : List (Declaration × String)} (withdraws : Withdraws before after withdrawn) :
    List.Forall₂ before.registry.ReportsLoss
      ((withdrawn.map Prod.fst).filter fun declaration => declaration.origin.isComponent)
      (withdrawn.filterMap fun entry => entry.1.loss? entry.2) := by
  have unsupported := withdraws.unsupported
  clear withdraws
  induction withdrawn with
  | nil => exact .nil
  | cons entry rest ih =>
    have tail := ih fun other isLater => unsupported other (List.mem_cons_of_mem _ isLater)
    obtain ⟨_, _, isMentioned, lacking⟩ := unsupported entry List.mem_cons_self
    cases origin : entry.1.origin with
    | inline path => simpa [Declaration.loss?, Origin.isComponent, origin] using tail
    | component schema =>
      simpa [Declaration.loss?, Origin.isComponent, origin] using
        List.Forall₂.cons ⟨schema, entry.2, origin, isMentioned, lacking, rfl⟩ tail

end ApiTypes
