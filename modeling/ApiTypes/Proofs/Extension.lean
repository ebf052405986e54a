import ApiTypes.Proofs.Finish

/-!
Registries that extend others. Whatever a registry declares beyond another one, the declarations of the
other one are kept, withdrawn and reported as they are without it.
-/

namespace ApiTypes

namespace Registry

/--
A registry declares all that another one declares, and that first. What the other one mentions without
declaring it, it does not declare either.
-/
structure Extends (more base : Registry) : Prop where
  get?_eq : ∀ {name declaration}, base.get? name = some declaration →
    more.get? name = some declaration
  order : base.order <+: more.order
  undeclared : ∀ {name mentioned}, base.Mentions name mentioned →
    base.isDeclared mentioned = false → more.isDeclared mentioned = false

namespace Extends

variable {more base : Registry}

/-- What is declared is declared in the extension. -/
theorem isDeclared (extension : more.Extends base) {name : String}
    (declared : base.isDeclared name = true) : more.isDeclared name = true := by
  obtain ⟨declaration, found⟩ := (base.isDeclared_iff name).mp declared
  exact (more.isDeclared_iff name).mpr ⟨declaration, extension.get?_eq found⟩

/-- What a declaration mentions is declared in the extension only if it was before. -/
theorem isDeclared_eq (extension : more.Extends base) {name mentioned : String}
    (mentions : base.Mentions name mentioned) :
    more.isDeclared mentioned = base.isDeclared mentioned := by
  cases declared : base.isDeclared mentioned with
  | true => exact extension.isDeclared declared
  | false => exact extension.undeclared mentions declared

/-- What extends a registry extends every other one that declares the same in the same order. -/
theorem congr (extension : more.Extends base) {other : Registry} (same : other.get? = base.get?)
    (sameOrder : other.order = base.order) : more.Extends other where
  get?_eq found := extension.get?_eq (same ▸ found)
  order := sameOrder ▸ extension.order
  undeclared mentions undeclared := by
    rw [Mentions, same] at mentions
    rw [Registry.isDeclared, same] at undeclared
    exact extension.undeclared mentions undeclared

/-- The declarations come first in the extension. -/
theorem declarations (extension : more.Extends base) (wellFormed : base.WellFormed) :
    base.declarations <+: more.declarations := by
  obtain ⟨further, order_eq⟩ := extension.order
  refine ⟨further.filterMap more.get?, ?_⟩
  unfold Registry.declarations
  rw [← order_eq, List.filterMap_append]
  congr 1
  -- Every name of the shorter order stands for the same declaration in both.
  refine List.filterMap_congr fun name isOrdered => ?_
  obtain ⟨declaration, found⟩ := (base.isDeclared_iff name).mp ((wellFormed.mem_order_iff name).mp isOrdered)
  rw [found, extension.get?_eq found]

/-- A declaration misses the same name in the extension. -/
theorem firstMissing?_eq (extension : more.Extends base) {name : String} {declaration : Declaration}
    (found : base.get? name = some declaration) :
    more.firstMissing? declaration.mentions = base.firstMissing? declaration.mentions := by
  -- The searches agree on each mention, and so at every prefix of the mentions.
  have agrees : ∀ names : List String, names ⊆ declaration.mentions →
      more.firstMissing? names = base.firstMissing? names := by
    intro names included
    induction names with
    | nil => rfl
    | cons first rest ih =>
      have ⟨isFirst, areLater⟩ := List.cons_subset.mp included
      have same := extension.isDeclared_eq ⟨declaration, found, isFirst⟩
      have later := ih areLater
      unfold firstMissing? at later ⊢
      rw [List.find?_cons, List.find?_cons, same, later]
  exact agrees _ (List.Subset.refl _)

/-- What dangles comes first among what dangles in the extension. -/
theorem dangling (extension : more.Extends base) (wellFormed : base.WellFormed) :
    base.dangling <+: more.dangling := by
  obtain ⟨further, declarations_eq⟩ := extension.declarations wellFormed
  have same : base.dangling = base.declarations.filterMap fun declaration =>
      (more.firstMissing? declaration.mentions).map fun missing => (declaration, missing) := by
    refine List.filterMap_congr fun declaration isDeclaration => ?_
    rw [extension.firstMissing?_eq ((wellFormed.mem_declarations_iff declaration).mp isDeclaration)]
  rw [same, Registry.dangling, ← declarations_eq, List.filterMap_append]
  exact List.prefix_append _ _

/-- A declared name dangles in the extension exactly if it does without it. -/
theorem mem_dangling_iff (extension : more.Extends base) (wellFormed : base.WellFormed)
    (moreWellFormed : more.WellFormed) {name : String} (declared : base.isDeclared name = true) :
    name ∈ more.dangling.map (fun entry => entry.1.name) ↔
      name ∈ base.dangling.map fun entry => entry.1.name := by
  refine ⟨fun isDangling => ?_, fun isDangling =>
    ((extension.dangling wellFormed).map _).subset isDangling⟩
  obtain ⟨⟨declaration, missing⟩, isEntry, rfl⟩ := List.mem_map.mp isDangling
  obtain ⟨isDeclaration, misses⟩ := (more.mem_dangling_iff declaration missing).mp isEntry
  -- The declaration under the name is the same one.
  obtain ⟨other, found⟩ := (base.isDeclared_iff declaration.name).mp declared
  have same := extension.get?_eq found
  rw [(moreWellFormed.mem_declarations_iff declaration).mp isDeclaration] at same
  cases same
  have isMember := (base.mem_dangling_iff declaration missing).mpr
    ⟨(wellFormed.mem_declarations_iff declaration).mpr found,
      (extension.firstMissing?_eq found).symm.trans misses⟩
  exact List.mem_map.mpr ⟨_, isMember, rfl⟩

/-- Withdrawing what dangles in either registry leaves an extension. -/
theorem removeAll (extension : more.Extends base) (wellFormed : base.WellFormed)
    (moreWellFormed : more.WellFormed) :
    (more.removeAll (more.dangling.map fun entry => entry.1.name)).Extends
      (base.removeAll (base.dangling.map fun entry => entry.1.name)) where
  get?_eq {name declaration} found := by
    rw [get?_removeAll] at found ⊢
    split at found
    · cases found
    · rename_i isLeft
      have declared := (base.isDeclared_iff name).mpr ⟨declaration, found⟩
      rw [if_neg fun isRemoved =>
        isLeft ((extension.mem_dangling_iff wellFormed moreWellFormed declared).mp isRemoved)]
      exact extension.get?_eq found
  order := by
    obtain ⟨further, order_eq⟩ := extension.order
    rw [order_removeAll, order_removeAll, ← order_eq, List.filter_append]
    -- On the names of the shorter order, both withdraw the same.
    rw [List.filter_congr fun name isOrdered => ?_]
    · exact List.prefix_append _ _
    · have same := extension.mem_dangling_iff wellFormed moreWellFormed
        ((wellFormed.mem_order_iff name).mp isOrdered)
      rw [Bool.not_inj_iff, Bool.eq_iff_iff, List.contains_iff_mem, List.contains_iff_mem]
      exact same.symm
  undeclared {name mentioned} mentions undeclared := by
    obtain ⟨declaration, found, isMentioned⟩ := mentions
    simp only [Registry.isDeclared, get?_removeAll] at found undeclared ⊢
    split at found
    · cases found
    · split
      · rfl
      · rename_i _ isLeft
        rw [if_neg fun isRemoved =>
          isLeft (((extension.dangling wellFormed).map _).subset isRemoved)] at undeclared
        exact extension.undeclared ⟨declaration, found, isMentioned⟩ undeclared

/-- A declared name is supported in the extension exactly if it is without it. -/
theorem mem_supported_iff (extension : more.Extends base) {name : String}
    (declared : base.isDeclared name = true) : name ∈ more.supported ↔ name ∈ base.supported := by
  constructor
  · -- What is supported and declared before mentions nothing that is not.
    intro isSupported
    refine ⟨{ other | base.isDeclared other = true ∧ other ∈ more.supported }, ?_,
      declared, isSupported⟩
    rintro other ⟨isDeclared, supported⟩
    obtain ⟨declaration, found⟩ := (base.isDeclared_iff other).mp isDeclared
    refine ⟨declaration, found, fun mentioned isMentioned => ?_⟩
    have mentions : base.Mentions other mentioned := ⟨declaration, found, isMentioned⟩
    have further := supported_of_mentions supported ⟨declaration, extension.get?_eq found, isMentioned⟩
    exact ⟨(extension.isDeclared_eq mentions) ▸ isDeclared_of_supported further, further⟩
  · -- The names supported before stay closed.
    intro isSupported
    refine ⟨base.supported, fun other supported => ?_, isSupported⟩
    obtain ⟨declaration, found, inside⟩ := base.isClosed_supported other supported
    exact ⟨declaration, extension.get?_eq found, inside⟩

/-- What is kept for the sake of component schemas is kept in the extension. -/
theorem kept (extension : more.Extends base) (operations : List OperationBinding) {name : String}
    (kept : base.Kept [] name) : more.Kept operations name := by
  obtain ⟨root, isRoot, leads⟩ := kept
  cases isRoot with
  | mention isBound => cases isBound
  | component found isComponent supported =>
    refine ⟨root, .component (extension.get?_eq found) isComponent
      ((extension.mem_supported_iff (isDeclared_of_supported supported)).mpr supported), ?_⟩
    refine Relation.ReflTransGen.mono (fun one other => ?_) _ _ leads
    rintro ⟨declaration, isFound, isMentioned⟩
    exact ⟨declaration, extension.get?_eq isFound, isMentioned⟩

end Extends

end Registry

namespace Workspace

open Registry

/-- What is lost by withdrawal is lost in the same order from an extension. -/
theorem losses_extend (base : Workspace) : ∀ more : Workspace, more.registry.Extends base.registry →
    base.registry.WellFormed → more.registry.WellFormed → ∃ lost losses,
      base.withdrawDangling.diagnostics = base.diagnostics ++ lost ∧
      more.withdrawDangling.diagnostics = more.diagnostics ++ losses ∧ lost.Sublist losses := by
  induction base using withdrawDangling.induct with
  | case1 base next shorter ih =>
    intro more extension wellFormed moreWellFormed
    -- A round that withdraws something does so in the extension.
    have dangles := (withdraw_shortens_iff wellFormed).mp shorter
    have alsoDangles : more.registry.dangling ≠ [] := fun settled => by
      obtain ⟨further, isWhole⟩ := extension.dangling wellFormed
      rw [settled] at isWhole
      exact dangles (List.append_eq_nil_iff.mp isWhole).1
    have alsoShorter := (withdraw_shortens_iff moreWellFormed).mpr alsoDangles
    have round := extension.removeAll wellFormed moreWellFormed
    rw [← registry_withdraw, ← registry_withdraw] at round
    obtain ⟨lost, losses, isLost, areLosses, isSublist⟩ := ih _ round
      (by rw [registry_withdraw]; exact wellFormed.removeAll _)
      (by rw [registry_withdraw]; exact moreWellFormed.removeAll _)
    have baseRound : base.withdrawDangling = next.withdrawDangling := by
      rw [withdrawDangling, if_pos shorter]
    have moreRound : more.withdrawDangling =
        (more.withdraw more.registry.dangling).withdrawDangling := by
      rw [withdrawDangling, if_pos alsoShorter]
    rw [baseRound, moreRound, isLost, areLosses, diagnostics_withdraw, diagnostics_withdraw,
      List.append_assoc, List.append_assoc]
    have first := (extension.dangling wellFormed).sublist.filterMap
      fun entry => entry.1.loss? entry.2
    exact ⟨_, _, rfl, rfl, first.append isSublist⟩
  | case2 base next notShorter =>
    intro more _ _ moreWellFormed
    -- Nothing is lost, whatever the extension loses.
    rw [withdrawDangling, if_neg notShorter]
    obtain ⟨withdrawn, withdraws, _⟩ := more.withdrawDangling_withdraws moreWellFormed
    exact ⟨[], _, (List.append_nil _).symm, withdraws.diagnostics_eq, List.nil_sublist _⟩

section

variable {base more : Workspace} (extension : more.registry.Extends base.registry)
  (wellFormed : base.registry.WellFormed) (moreWellFormed : more.registry.WellFormed)
  (version another : SpecVersion) (operations : List OperationBinding)
  (lowering others : List Diagnostic)

include extension wellFormed moreWellFormed

/-- The declarations that are returned are returned by an extension, in the same order. -/
theorem declarations_finish_extends :
    (base.finish version [] lowering).declarations.Sublist
      (more.finish another operations others).declarations := by
  classical
  rw [declarations_finish wellFormed, declarations_finish moreWellFormed]
  obtain ⟨further, declarations_eq⟩ := extension.declarations wellFormed
  rw [← declarations_eq, List.filter_append]
  -- What is kept of the first declarations is kept, and perhaps more for the sake of operations.
  refine List.Sublist.trans ?_ (List.sublist_append_left _ _)
  refine List.monotone_filter_right _ fun declaration isKept => ?_
  exact decide_eq_true (extension.kept operations (of_decide_eq_true isKept))

/-- The declarations of component schemas are the same if the extension declares no others. -/
theorem components_finish_extends
    (inner : ∀ declaration ∈ more.registry.declarations, declaration.origin.isComponent = true →
      declaration ∈ base.registry.declarations) :
    (more.finish another operations others).declarations.filter (fun declaration =>
        declaration.origin.isComponent) =
      (base.finish version [] lowering).declarations.filter fun declaration =>
        declaration.origin.isComponent := by
  classical
  rw [declarations_finish wellFormed, declarations_finish moreWellFormed]
  obtain ⟨further, declarations_eq⟩ := extension.declarations wellFormed
  have distinct := moreWellFormed.nodup_declarations
  rw [← declarations_eq] at distinct inner ⊢
  rw [List.filter_append, List.filter_append]
  -- A further declaration is none of the first ones, and so none of a component schema.
  have others_nil : (further.filter fun declaration =>
      decide (more.registry.Kept operations declaration.name)).filter (fun declaration =>
        declaration.origin.isComponent) = [] := by
    refine List.filter_eq_nil_iff.mpr fun declaration isKept isComponent => ?_
    have isFurther := (List.mem_filter.mp isKept).1
    have isFirst := inner declaration (List.mem_append_right _ isFurther) isComponent
    exact (List.nodup_append.mp distinct).2.2 _ isFirst _ isFurther rfl
  rw [others_nil, List.append_nil, List.filter_filter, List.filter_filter]
  -- The declaration of a component schema is kept exactly if it is supported.
  refine List.filter_congr fun declaration isDeclaration => ?_
  rw [Bool.eq_iff_iff, Bool.and_eq_true_iff, Bool.and_eq_true_iff, decide_eq_true_iff,
    decide_eq_true_iff]
  refine and_congr_right fun isComponent => ?_
  have found := (wellFormed.mem_declarations_iff declaration).mp isDeclaration
  have declared := (Registry.isDeclared_iff _ _).mpr ⟨declaration, found⟩
  refine ⟨fun isKept => ⟨_, .component found isComponent ?_, .refl⟩, extension.kept operations⟩
  exact (extension.mem_supported_iff declared).mp isKept.supported

/-- The names that are returned are the same if the extension holds no others. -/
theorem names_finish_extends (same : more.registry.components = base.registry.components)
    (held : ∀ entry ∈ base.registry.components.entries, ∀ declaration,
      more.registry.get? entry.2 = some declaration →
        declaration.origin.isComponent = true ∧ base.registry.get? entry.2 = some declaration) :
    (more.finish another operations others).names = (base.finish version [] lowering).names := by
  classical
  rw [names_finish wellFormed, names_finish moreWellFormed, same, Table.filter, Table.filter]
  congr 1
  refine List.filter_congr fun entry isEntry => ?_
  rw [Bool.eq_iff_iff, decide_eq_true_iff, decide_eq_true_iff]
  refine ⟨fun isKept => ?_, extension.kept operations⟩
  -- A name that is kept in the extension is declared, and so it was before.
  obtain ⟨declaration, found⟩ := (Registry.isDeclared_iff _ _).mp (isDeclared_of_supported isKept.supported)
  obtain ⟨isComponent, isFound⟩ := held entry isEntry declaration found
  have declared := (Registry.isDeclared_iff _ _).mpr ⟨declaration, isFound⟩
  exact ⟨_, .component isFound isComponent
    ((extension.mem_supported_iff declared).mp isKept.supported), .refl⟩

/-- The diagnostics that are returned are returned by an extension, in the same order. -/
theorem diagnostics_finish_extends (reported : base.diagnostics.Sublist more.diagnostics)
    (lowered : lowering.Sublist others) :
    (base.finish version [] lowering).diagnostics.Sublist
      (more.finish another operations others).diagnostics := by
  obtain ⟨lost, losses, isLost, areLosses, isSublist⟩ :=
    losses_extend base more extension wellFormed moreWellFormed
  simp only [finish, keepOperations_eq, dropUnreachable, isLost, areLosses, List.filterMap_nil,
    List.append_nil]
  refine lowered.append ?_
  exact (reported.append isSublist).trans (List.sublist_append_left _ _)

end

end Workspace

end ApiTypes
