import ApiTypes.Proofs.Finish
import ApiTypes.Proofs.Synthesis.Adequacy
import ApiTypes.Proofs.Synthesis.Traversal

/-!
Agreement of runs. What is found does not depend on the version of the document, nor on what has been
reported before: from workspaces that differ only in reports, synthesis comes to such workspaces again.
-/

namespace ApiTypes

/-- The same nodes in a document of a version. -/
def SchemaModel.inVersion (model : SchemaModel) (version : SpecVersion) : SchemaModel :=
  { model with version }

/-- The same nodes and settings for a document of a version. -/
def Context.inVersion (context : Context) (version : SpecVersion) : Context :=
  { context with model := context.model.inVersion version }

/-- The same nodes and limits, which is all of a context that the synthesis of component schemas reads. -/
structure Context.Same (context other : Context) : Prop where
  node?_eq : other.model.node? = context.model.node?
  maxArrayDepth_eq : other.config.maxArrayDepth = context.config.maxArrayDepth
  maxItems_eq : other.config.maxItems = context.config.maxItems

/-- The version is not read. -/
theorem Context.same_inVersion (context : Context) (version : SpecVersion) :
    context.Same (context.inVersion version) := ⟨rfl, rfl, rfl⟩

/-- The same nodes are choices. -/
theorem Context.Same.isUnion_eq {context other : Context} (same : context.Same other) :
    other.model.isUnion = context.model.isUnion := by
  funext node
  rw [Bool.eq_iff_iff, SchemaModel.isUnion_iff, SchemaModel.isUnion_iff, same.node?_eq]

namespace Surroundings

/-- The same surroundings with another context. -/
def inContext (outside : Surroundings) (context : Context) : Surroundings := { outside with context }

/-- The same surroundings in a document of a version. -/
def inVersion (outside : Surroundings) (version : SpecVersion) : Surroundings :=
  outside.inContext (outside.context.inVersion version)

variable {outside : Surroundings} {context : Context} (same : outside.context.Same context)

include same

/-- References come to the same. -/
theorem reference_inContext : (outside.inContext context).reference = outside.reference := by
  have resolves : (outside.inContext context).resolve = outside.resolve := by
    funext target path
    simp only [resolve, Resolver.resolve, inContext, same.node?_eq]
  funext target scope
  unfold reference
  rw [resolves]
  simp only [inContext, same.node?_eq]

/-- In the same surroundings every step of a walk is the same action. -/
theorem correspondence_inContext :
    Correspondence outside (outside.inContext context) (fun _ => True) (fun _ => True)
      (fun _ => True) (fun _ => True) fun _ action also => action = also where
  maxArrayDepth_eq := same.maxArrayDepth_eq
  maxItems_eq := same.maxItems_eq
  leadsToChoice_eq _ := by rw [inContext, same.node?_eq, same.isUnion_eq]
  below _ := id
  pure _ := rfl
  bind earlier later := by rw [earlier, funext later]
  fail _ _ _ := rfl
  register _ _ _ _ _ := rfl
  nameCase _ used later := by rw [used, funext fun type => funext (later type)]
  combine _ _ _ := rfl
  undeclared _ _ _ := rfl
  notes _ _ _ := rfl
  reference _ _ := by rw [reference_inContext same]
  merge _ _ _ later := by
    rw [reference_inContext same, funext fun type => funext (later type)]
    rfl
  take _ _ _ intersects := by
    rw [intersects]
    rfl

/-- The walk of a node comes to the same. -/
theorem walk_inContext (node : SchemaNode) :
    (outside.inContext context).walk node = outside.walk node := by
  have corresponds := correspondence_inContext same
  have walks := corresponds.walk node (fun _ _ => trivial) fun _ _ => trivial
  have expands (scope : Scope) :=
    @Correspondence.expand _ _ _ _ _ _ _ scope corresponds node (fun _ _ => trivial)
      (fun _ _ => trivial) (fun _ _ => trivial) trivial fun _ _ => trivial
  -- A walk is what it does in each of its four uses.
  generalize (outside.inContext context).walk node = also at walks expands ⊢
  cases walk : outside.walk node
  rw [walk] at walks expands
  cases also
  congr 1
  · exact funext fun scope => funext fun depth => (walks.declare depth trivial fun _ _ => trivial).symm
  · exact funext fun scope => funext fun depth => (walks.expression depth trivial fun _ _ => trivial).symm
  · exact funext fun scope => funext fun depth => (walks.contribute depth trivial fun _ _ => trivial).symm
  · exact funext fun scope => (expands scope).symm

omit same in
/-- The walk of a node does not depend on the version. -/
theorem walk_inVersion (outside : Surroundings) (version : SpecVersion) (node : SchemaNode) :
    (outside.inVersion version).walk node = outside.walk node :=
  walk_inContext (outside.context.same_inVersion version) node

end Surroundings

namespace Synthesis

variable {context : Context} {active expanding : List String} {name : String} {node : SchemaNode}

/-- Nothing is entered under a name without a node. -/
theorem enterWithin_of_undefined (undefined : context.model.node? name = none) :
    enterWithin context active expanding name = pure () := by
  rw [enterWithin]
  split
  · rfl
  · rename_i found
    cases undefined.symm.trans found

/-- A schema that is not in progress is declared if it is pending. -/
theorem enterWithin_of_defined (found : context.model.node? name = some node) :
    enterWithin context active expanding name =
      if active.contains name then pure ()
      else (do
        if (← get).resolver.state name = .pending then
          declareComponent name node
            (shapeWithin (within context (!expanding.isEmpty) (name :: active) expanding) node)) := by
  rw [enterWithin]
  split
  · rename_i undefined
    cases undefined.symm.trans found
  · rename_i other alsoFound
    cases found.symm.trans alsoFound
    split <;> rfl

/-- What a component schema contributes is cyclic, undefined, a choice, or the expansion of its node. -/
theorem expandWithin_eq (path : String) :
    expandWithin context active expanding name path =
      if expanding.contains name then failComposition path (.cyclicIntersection name)
      else match context.model.node? name with
        | none => fail path (.undefinedReference name)
        | some node =>
          if context.model.isUnion node then return .union
          else (do
            let workspace ← get
            ((within context true active (name :: expanding)).walk node).expand
              ⟨emittedName workspace name name, Pointer.ofSchema name⟩) := by
  rw [expandWithin]
  split
  · rfl
  · split
    · rename_i undefined
      rw [undefined]
    · rename_i found
      simp only [found]
      rfl

/-- The shape of a component schema comes to the same with the same nodes and limits. -/
theorem shapeWithin_inContext {outside : Surroundings} {other : Context}
    (same : outside.context.Same other) (node : SchemaNode) :
    shapeWithin (outside.inContext other) node = shapeWithin outside node := by
  funext scope
  unfold shapeWithin
  rw [Surroundings.walk_inContext same]
  simp only [checkAlias, Surroundings.inContext, same.node?_eq]

/-- With the same nodes and limits, the same is entered and expanded. -/
theorem within_same {context other : Context} (same : context.Same other)
    (active expanding : List String) :
    enterWithin other active expanding = enterWithin context active expanding ∧
      expandWithin other active expanding = expandWithin context active expanding := by
  -- Entering a schema and expanding it each go one level further inside, where the contexts agree.
  induction active, expanding using withinInduction context.model with
  | step active expanding inside expansion =>
    constructor
    · funext name
      cases found : context.model.node? name with
      | none =>
        have alsoUndefined : other.model.node? name = none := by rw [same.node?_eq, found]
        rw [enterWithin_of_undefined found, enterWithin_of_undefined alsoUndefined]
      | some node =>
        have alsoFound : other.model.node? name = some node := by rw [same.node?_eq, found]
        rw [enterWithin_of_defined found, enterWithin_of_defined alsoFound]
        split
        · rfl
        · rename_i fresh
          have ⟨enters, expands⟩ := inside name node found (by simpa using fresh)
          have outside : within other (!expanding.isEmpty) (name :: active) expanding =
              (within context (!expanding.isEmpty) (name :: active) expanding).inContext other := by
            simp only [within, enters, expands, Surroundings.inContext]
          rw [outside, shapeWithin_inContext same]
    · funext name path
      rw [expandWithin_eq, expandWithin_eq, same.node?_eq, same.isUnion_eq]
      split
      · rfl
      · rename_i fresh
        cases found : context.model.node? name with
        | none => rfl
        | some node =>
          have ⟨enters, expands⟩ := expansion name node found (by simpa using fresh)
          have outside : within other true active (name :: expanding) =
              (within context true active (name :: expanding)).inContext other := by
            simp only [within, enters, expands, Surroundings.inContext]
          have walks :
              ((within context true active (name :: expanding)).inContext other).walk node =
                (within context true active (name :: expanding)).walk node :=
            Surroundings.walk_inContext same node
          simp only [outside, walks]

/-- With the same nodes and limits, a component schema comes to the same. -/
theorem enter_same {context other : Context} (same : context.Same other) :
    enter other = enter context :=
  funext fun name => congrFun (within_same same [] []).1 name

/-- What a component schema comes to does not depend on the version. -/
theorem enter_inVersion (context : Context) (version : SpecVersion) :
    enter (context.inVersion version) = enter context := enter_same (context.same_inVersion version)

/-- The surroundings of the schemas of operations differ in the version alone. -/
theorem surroundings_inVersion (context : Context) (version : SpecVersion) :
    surroundings (context.inVersion version) = (surroundings context).inVersion version := by
  simp only [surroundings, enter_inVersion, (within_same (context.same_inVersion version) [] []).2]
  rfl

end Synthesis

/-- Workspaces that differ at most in what has been reported. -/
structure Workspace.Alike (one other : Workspace) : Prop where
  resolver : one.resolver = other.resolver
  registry : one.registry = other.registry

/-- Actions that give the same in alike workspaces, and leave alike workspaces behind. -/
def Agree {α : Type} (left right : StateM Workspace α) : Prop :=
  ∀ ⦃one other : Workspace⦄, one.Alike other →
    (left.run one).1 = (right.run other).1 ∧ (left.run one).2.Alike (right.run other).2

namespace Agree

variable {α β : Type}

/-- Returning the same value agrees. -/
theorem pure (value : α) : Agree (pure value) (pure value) := fun _ _ alike => ⟨rfl, alike⟩

/-- Agreeing actions may go on with agreeing ones. -/
theorem bind {left right : StateM Workspace α} {leftNext rightNext : α → StateM Workspace β}
    (first : Agree left right) (later : ∀ value, Agree (leftNext value) (rightNext value)) :
    Agree (left >>= leftNext) (right >>= rightNext) := by
  intro one other alike
  obtain ⟨same, after⟩ := first alike
  have goesOn := later (left.run one).1 after
  have isNext : (right >>= rightNext).run other =
      (rightNext (left.run one).1).run (right.run other).2 := by
    rw [same]
    rfl
  rw [isNext]
  exact goesOn

/-- Synthesis may go on with agreeing actions, and ends with the same failures. -/
theorem bindResult {left right : Synthesis α} {leftNext rightNext : α → Synthesis β}
    (first : Agree left.run right.run)
    (later : ∀ value, Agree (leftNext value).run (rightNext value).run) :
    Agree (left >>= leftNext).run (right >>= rightNext).run := by
  rw [ExceptT.run_bind, ExceptT.run_bind]
  refine first.bind fun result => ?_
  cases result with
  | ok value => exact later value
  | error located => exact pure _

/-- What is done may depend on all of a workspace but the reports. -/
theorem reads {leftNext rightNext : Workspace → StateM Workspace α}
    (later : ∀ {one other : Workspace}, one.Alike other → Agree (leftNext one) (rightNext other)) :
    Agree (get >>= leftNext) (get >>= rightNext) :=
  fun _ _ alike => later alike alike

/-- What is synthesized may depend on all of a workspace but the reports. -/
theorem readsResult {leftNext rightNext : Workspace → Synthesis α}
    (later : ∀ {one other : Workspace}, one.Alike other →
      Agree (leftNext one).run (rightNext other).run) :
    Agree (get >>= leftNext : Synthesis α).run (get >>= rightNext : Synthesis α).run :=
  fun _ _ alike => later alike alike

/-- Workspaces may be changed into alike ones. -/
theorem modifies {left right : Workspace → Workspace}
    (alike : ∀ {one other : Workspace}, one.Alike other → (left one).Alike (right other)) :
    Agree (modify left : StateM Workspace PUnit) (modify right) :=
  fun _ _ before => ⟨rfl, alike before⟩

/-- What is done for all schemas may be part of the synthesis of one. -/
theorem lift {left right : StateM Workspace α} (agree : Agree left right) :
    Agree (liftM left : Synthesis α).run (liftM right : Synthesis α).run := fun _ _ alike =>
  have ⟨same, after⟩ := agree alike
  ⟨congrArg Except.ok same, after⟩

/-- Reports make no difference. -/
theorem reports {action : Synthesis Unit}
    (notes : ∀ {first last result}, action.Ends first result last →
      result = .ok () ∧ first.Notes last) : Agree action.run action.run := by
  intro one other alike
  obtain ⟨gives, changed⟩ : (action.outcome one).1 = .ok () ∧ one.Notes (action.outcome one).2 :=
    notes rfl
  obtain ⟨alsoGives, alsoChanged⟩ : (action.outcome other).1 = .ok () ∧
      other.Notes (action.outcome other).2 := notes rfl
  refine ⟨gives.trans alsoGives.symm, ?_, ?_⟩
  · exact changed.resolver_eq.trans (alike.resolver.trans alsoChanged.resolver_eq.symm)
  · exact changed.registry_eq.trans (alike.registry.trans alsoChanged.registry_eq.symm)

end Agree

namespace Surroundings

variable {outside : Surroundings}

/-- Component schemas are entered and expanded in the same way from alike workspaces. -/
structure Settled (outside : Surroundings) : Prop where
  enter : ∀ target, Agree (outside.enter target) (outside.enter target)
  expand : ∀ target path, Agree (outside.expand target path).run (outside.expand target path).run

/-- A look-up finds the same in alike workspaces. -/
theorem agree_resolve (outside : Surroundings) (target path : String) :
    Agree (outside.resolve target path).run (outside.resolve target path).run := by
  refine .readsResult fun alike => ?_
  rw [alike.resolver]
  split <;> exact .pure _

/-- A reference finds the same in alike workspaces. -/
theorem Settled.reference (settled : outside.Settled) (target : String) (scope : Scope) :
    Agree (outside.reference target scope).run (outside.reference target scope).run := by
  unfold Surroundings.reference
  refine (outside.agree_resolve target scope.path).bindResult fun lookup => ?_
  split
  · refine (settled.enter target).lift.bindResult fun _ => ?_
    refine (outside.agree_resolve target scope.path).bindResult fun lookup => ?_
    dsimp only
    split <;> exact .pure _
  · simp only [pure_bind]
    split <;> exact .pure _

/-- In settled surroundings, everything that is asked of a node agrees with itself. -/
theorem Settled.traversal (settled : outside.Settled) (uses merges : String → Prop) :
    Traversal outside (fun _ => True) uses merges fun _ action => Agree action.run action.run where
  below _ := id
  pure value := .pure _
  bind := .bindResult
  registry later := .readsResult fun alike => by
    rw [alike.registry]
    exact later _
  fail _ _ _ := .pure _
  -- A registration depends on nothing but the registry, which is the same in both.
  register candidate shape doc deprecated path := by
    intro one other alike
    have registers : ∀ workspace : Workspace, (Synthesis.register candidate shape doc deprecated
        (.inline path)).run.run workspace =
          let registered := workspace.registry.register candidate shape doc deprecated (.inline path)
          (.ok registered.1, { workspace with registry := registered.2 }) := fun _ => rfl
    rw [registers, registers, alike.registry]
    exact ⟨rfl, alike.resolver, rfl⟩
  undeclared traits _ _ := .reports ends_reportUndeclared
  notes notes _ _ := .reports notes_of_reportNotes
  reference _ _ := settled.reference _ _
  merge _ _ _ later := (settled.reference _ _).bindResult fun type =>
    (settled.expand _ _).bindResult fun shape => later type shape
  take _ _ _ intersects := intersects.bindResult fun shape => by
    cases shape with
    | record | enum | union => exact .pure _
    | «alias» target =>
      refine .readsResult fun alike => ?_
      rw [alike.resolver]
      dsimp only
      split
      · exact settled.expand _ _
      · exact .pure _
      · exact .pure _

end Surroundings

namespace Synthesis

/-- The shape of a component schema agrees with itself in settled surroundings. -/
theorem agree_shapeWithin {outside : Surroundings} (settled : outside.Settled) (node : SchemaNode)
    (scope : Scope) :
    Agree (shapeWithin outside node scope).run (shapeWithin outside node scope).run := by
  -- The check for aliases reads the states, which are the same.
  have walks := (settled.traversal (fun _ => True) fun _ => True).walk node (fun _ _ => trivial)
    fun _ _ => trivial
  refine (walks.declare 0 trivial).bindResult fun shape => ?_
  have checks : Agree (checkAlias outside.context scope shape).run
      (checkAlias outside.context scope shape).run := by
    refine .readsResult fun alike => ?_
    rw [alike.resolver]
    cases shape with
    | record | enum | union => exact .pure _
    | «alias» target =>
      dsimp only
      split
      · split <;> exact .pure _
      · exact .pure _
  exact checks.bindResult fun _ => .pure _

/-- Declaring a component schema agrees with itself if its shape does. -/
theorem agree_declareComponent {name : String} {node : SchemaNode}
    {action : Scope → Synthesis Shape} (shapes : ∀ scope, Agree (action scope).run (action scope).run) :
    Agree (declareComponent name node action) (declareComponent name node action) := by
  unfold declareComponent
  refine (Agree.modifies fun alike => ?_).bind fun _ => .reads fun alike => ?_
  · exact ⟨congrArg (·.start name) alike.resolver, alike.registry⟩
  · simp only [emittedName, alike.resolver, alike.registry]
    refine (shapes _).bind fun result => ?_
    cases result with
    | ok shape =>
      exact .modifies fun alike =>
        ⟨congrArg (·.finish name .registered) alike.resolver, by simp only [alike.registry]⟩
    | error located =>
      exact .modifies fun alike =>
        ⟨congrArg (·.finish name .failed) alike.resolver, alike.registry⟩

/-- Surroundings inside schemas in progress and expansions are settled. -/
theorem settled_within (context : Context) (muted : Bool) (active expanding : List String) :
    (within context muted active expanding).Settled := by
  -- Diagnostics are only added to, so whatever else is read is the same.
  induction active, expanding using withinInduction context.model generalizing muted with
  | step active expanding inside expansion =>
    refine ⟨fun target => ?_, fun target path => ?_⟩
    · change Agree (enterWithin context active expanding target)
        (enterWithin context active expanding target)
      cases found : context.model.node? target with
      | none =>
        rw [enterWithin_of_undefined found]
        exact .pure _
      | some node =>
        rw [enterWithin_of_defined found]
        split
        · exact .pure _
        · rename_i fresh
          have settled := inside target node found (by simpa using fresh) (!expanding.isEmpty)
          refine .reads fun alike => ?_
          rw [alike.resolver]
          split
          · exact agree_declareComponent (agree_shapeWithin settled node)
          · exact .pure _
    · change Agree (expandWithin context active expanding target path).run
        (expandWithin context active expanding target path).run
      rw [expandWithin_eq]
      split
      · exact .pure _
      · rename_i fresh
        cases found : context.model.node? target with
        | none => exact .pure _
        | some node =>
          have settled := expansion target node found (by simpa using fresh) true
          dsimp only
          split
          · exact .pure _
          · refine .readsResult fun alike => ?_
            rw [emittedName, emittedName, alike.resolver]
            exact (settled.traversal (fun _ => True) fun _ => True).expand node (fun _ _ => trivial)
              (fun _ _ => trivial) (fun _ _ => trivial) trivial

/-- Every component schema is synthesized in the same way. -/
theorem agree_enterAll (context : Context) : Agree (enterAll context) (enterAll context) := by
  unfold enterAll
  induction context.model.names with
  | nil => exact .pure _
  | cons name rest ih =>
    exact ((settled_within context false [] []).enter name).bind fun _ => ih

end Synthesis

namespace Workspace

/-- What is withdrawn does not depend on what has been reported. -/
theorem registry_withdrawDangling (one : Workspace) : ∀ other : Workspace,
    one.registry = other.registry →
      one.withdrawDangling.registry = other.withdrawDangling.registry := by
  -- Both go through the same rounds.
  induction one using withdrawDangling.induct with
  | case1 one next shorter ih =>
    intro other same
    have nextSame : next.registry = (other.withdraw other.registry.dangling).registry := by
      rw [registry_withdraw, registry_withdraw, same]
    have alsoShorter : (other.withdraw other.registry.dangling).registry.order.length <
        other.registry.order.length := by
      rw [← nextSame, ← same]
      exact shorter
    have round : one.withdrawDangling = next.withdrawDangling := by
      rw [withdrawDangling, if_pos shorter]
    have alsoRound : other.withdrawDangling =
        (other.withdraw other.registry.dangling).withdrawDangling := by
      rw [withdrawDangling, if_pos alsoShorter]
    rw [round, alsoRound, ih _ nextSame]
  | case2 one next notShorter =>
    intro other same
    have nextSame : next.registry = (other.withdraw other.registry.dangling).registry := by
      rw [registry_withdraw, registry_withdraw, same]
    have alsoNotShorter : ¬(other.withdraw other.registry.dangling).registry.order.length <
        other.registry.order.length := by
      rw [← nextSame, ← same]
      exact notShorter
    rw [withdrawDangling, if_neg notShorter, withdrawDangling, if_neg alsoNotShorter, same]

/-- What is left out in the end does not depend on the version, nor on what has been reported. -/
theorem finish_agrees {one other : Workspace} (same : one.registry = other.registry)
    (version another : SpecVersion) (operations : List OperationBinding)
    (lowering others : List Diagnostic) :
    (one.finish version operations lowering).declarations =
        (other.finish another operations others).declarations ∧
      (one.finish version operations lowering).names =
        (other.finish another operations others).names ∧
      (one.finish version operations lowering).operations =
        (other.finish another operations others).operations := by
  have withdrawn := registry_withdrawDangling one other same
  simp only [finish, keepOperations_eq, dropUnreachable, withdrawn, and_self]

end Workspace

end ApiTypes
