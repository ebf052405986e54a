import ApiTypes.Proofs.Synthesis.Reachability

/-!
What is ready once a component schema is registered: everything to which its node refers. Only the members
of a choice that stands inside an intersection are passed over, and then nothing is registered.
-/

namespace ApiTypes

namespace SchemaNode

/-- A node that restricts nothing refers to nothing. -/
theorem not_refers_of_isUnconstrained {node : SchemaNode}
    (isUnconstrained : node.isUnconstrained = true) (target : String) : ¬node.Refers target := by
  intro refers
  cases refers <;> cases isUnconstrained

/-- A node without nodes inside it refers to nothing. -/
theorem not_refers_of_constant? {node : SchemaNode} {type : TypeExpr}
    (isConstant : node.constant? = some type) (target : String) : ¬node.Refers target := by
  obtain ⟨kind, traits⟩ := node
  intro refers
  cases refers with
  | @property properties additional _ _ _ isListed =>
    cases properties with
    | nil => cases isListed
    | cons => cases isConstant
  | @additional properties _ _ _ _ isValue =>
    cases isValue
    cases properties <;> cases isConstant
  | _ => cases isConstant

/-- The members of an intersection that stands for a reference refer to nothing else. -/
theorem eq_of_onlyReference? {nodes : List SchemaNode} {target other : String}
    (isOnly : onlyReference? nodes = some target) {node : SchemaNode} (isMember : node ∈ nodes)
    (refers : node.Refers other) : other = target := by
  rcases cases_of_onlyReference? isOnly node isMember with isUnconstrained | isReference
  · exact absurd refers (not_refers_of_isUnconstrained isUnconstrained other)
  · cases refers <;> cases isReference
    rfl

end SchemaNode

/-- What is ready has been started. -/
theorem Workspace.Ready.started {workspace : Workspace} {schema : String}
    (isReady : workspace.Ready schema) : workspace.resolver.state schema ≠ .pending := by
  rcases isReady with state | state <;> simp [state]

/-- All component schemas that a task looks up itself are ready. -/
def Task.IsExplored (context : Context) (task : Task) (workspace : Workspace) : Prop :=
  ∀ target, task.Refers context target → workspace.Ready target

/-- What a task with a value has explored, unless the value is a choice that no intersection accepts. -/
def Explores (context : Context) (last : Workspace) : Task → Value → Prop
  | .contribute node depth, .member shape => shape ≠ .union →
    (Task.contribute node depth).IsExplored context last
  | .members nodes depth, .inputs inputs =>
    (∀ input ∈ inputs, Intersection.isUnion input = false) →
      (Task.members nodes depth).IsExplored context last
  -- A schema is looked up before it is expanded, and that is no part of the expansion.
  | .schema _, _ | .expand .., _ | .take _, _ => True
  | task, _ => task.IsExplored context last

variable {context : Context} {expanding : List String} {first last : Workspace}

namespace Task.IsExplored

/-- What has been explored stays so. -/
theorem grow {task : Task} (explored : task.IsExplored context first) (grows : Grows first last) :
    task.IsExplored context last := fun target refers => grows.ready (explored target refers)

/-- A task is explored with the two parts of which it consists. -/
theorem of_parts {task part other : Task} (explored : part.IsExplored context last)
    (also : other.IsExplored context last)
    (consists : ∀ target, task.Refers context target →
      part.Refers context target ∨ other.Refers context target) :
    task.IsExplored context last := fun target refers =>
  (consists target refers).elim (explored target) (also target)

end Task.IsExplored

/-- A reference is explored when its target is ready. -/
theorem Yields.isExplored_reference {target : String} {type : TypeExpr}
    (looked : Yields context expanding first (.reference target) (.type type) last) :
    (Task.reference target).IsExplored context last := by
  rintro _ rfl
  exact looked.ready_reference

/-- Whatever comes of a task, what it looks up is ready. -/
theorem Yields.explores {task : Task} {value : Value}
    (yields : Yields context expanding first task value last) (consistent : Consistent context first) :
    Explores context last task value := by
  -- What the parts of a task have explored is left so by the parts after them.
  induction yields with
  | expandAtomic | expandRestriction | expandRecord | expandReference | expandIntersection
  | schemaChoice | schema | takeSchema | take => trivial
  -- Nodes without nodes inside them refer to nothing.
  | constant isConstant =>
    exact fun target refers => absurd refers (SchemaNode.not_refers_of_constant? isConstant target)
  | array _ _ ih =>
    intro target refers
    cases refers with
    | items inside => exact ih consistent target inside
  | map _ ih =>
    intro target refers
    cases refers with
    | value inside => exact ih consistent target inside
  | contributeMap _ ih =>
    intro _ target refers
    cases refers with
    | value inside => exact ih consistent target inside
  | use looked =>
    intro target refers
    cases refers with
    | reference => exact looked.isExplored_reference _ rfl
  | promoteAlias _ _ ih => exact ih consistent
  | promote _ declares _ registers _ _ ih =>
    have ⟨_, grows⟩ := registers.advances (declares.advances consistent).1
    exact (ih consistent).grow grows
  | declarePlain _ notes _ ih => exact ih (notes.advances consistent).1
  | declareEnum => exact fun _ refers => nomatch refers
  | declareRecord _ notes _ ih =>
    intro target refers
    refine ih (notes.advances consistent).1 target ?_
    cases refers with
    | property isListed inside => exact .inl ⟨_, isListed, inside⟩
    | additional isValue inside => exact .inr ⟨_, isValue, inside⟩
  | contributeRecord _ ih =>
    intro _ target refers
    refine ih consistent target ?_
    cases refers with
    | property isListed inside => exact .inl ⟨_, isListed, inside⟩
    | additional isValue inside => exact .inr ⟨_, isValue, inside⟩
  | declareIntersection notes _ ih =>
    intro target refers
    refine ih (notes.advances consistent).1 target ?_
    cases refers with
    | member isMember inside => exact ⟨_, isMember, inside⟩
    | mapping isChoice => exact absurd rfl isChoice
  | declareChoice _ notes _ _ ih =>
    intro target refers
    refine ih (notes.advances consistent).1 target ?_
    cases refers with
    | member isMember inside => exact ⟨_, isMember, inside⟩
  | declareDiscriminated _ notes inside maps _ ih mapsIh =>
    have start := (notes.advances consistent).1
    have ⟨between, _⟩ := inside.advances start
    have ⟨_, grows⟩ := maps.advances between
    refine ((ih start).grow grows).of_parts (mapsIh between) fun target refers => ?_
    cases refers with
    | member isMember inside => exact .inl ⟨_, isMember, inside⟩
    | mapping _ isMapped =>
      obtain ⟨entry, isEntry, isTarget⟩ := List.mem_map.mp isMapped
      exact .inr ⟨entry, isEntry, isTarget⟩
  | contributeType _ _ ih => exact fun _ => ih consistent
  | contributeRestriction => exact fun _ _ refers => nomatch refers
  -- A choice is passed over inside an intersection, which accepts none of its members then.
  | contributeChoice => exact fun notUnion => absurd rfl notUnion
  | contributeIntersection inside takes ih =>
    have ⟨_, grows⟩ := takes.advances (inside.advances consistent).1
    intro _ target refers
    refine (ih consistent).grow grows target ?_
    cases refers with
    | member isMember inside => exact ⟨_, isMember, inside⟩
    | mapping isChoice => exact absurd rfl isChoice
  | reference _ _ _ isReady =>
    rintro _ rfl
    exact isReady
  | fieldsNil | casesNil | mappingNil =>
    exact fun _ ⟨_, isMember, _⟩ => absurd isMember List.not_mem_nil
  | membersNil => exact fun _ _ ⟨_, isMember, _⟩ => absurd isMember List.not_mem_nil
  | fieldsCons inside later ih laterIh =>
    have ⟨between, _⟩ := inside.advances consistent
    have ⟨_, grows⟩ := later.advances between
    refine ((ih consistent).grow grows).of_parts (laterIh between) ?_
    rintro target ⟨property, isListed, refers⟩
    rcases List.mem_cons.mp isListed with rfl | isLater
    · exact .inl refers
    · exact .inr ⟨property, isLater, refers⟩
  | recordClosed _ ih => exact fun target refers => ih consistent target (refers.resolve_right nofun)
  | recordOpen inside further ih furtherIh =>
    have ⟨between, _⟩ := inside.advances consistent
    have ⟨_, grows⟩ := further.advances between
    refine ((ih consistent).grow grows).of_parts (furtherIh between) ?_
    rintro target (listed | ⟨node, isValue, refers⟩)
    · exact .inl listed
    · cases isValue
      exact .inr refers
  | casesNull isNull _ ih =>
    rintro target ⟨node, isNode, refers⟩
    rcases List.mem_cons.mp isNode with rfl | isLater
    · cases refers <;> cases isNull
    · exact ih consistent target ⟨node, isLater, refers⟩
  | casesCons _ inside named later ih laterIh =>
    have ⟨between, _⟩ := inside.advances consistent
    have ⟨after, grows⟩ := named.advances between
    have ⟨_, behind⟩ := later.advances after
    refine ((ih consistent).grow (grows.trans behind)).of_parts (laterIh after) ?_
    rintro target ⟨node, isNode, refers⟩
    rcases List.mem_cons.mp isNode with rfl | isLater
    · exact .inl refers
    · exact .inr ⟨node, isLater, refers⟩
  | mappingCons looked _ later _ laterIh =>
    have ⟨between, _⟩ := looked.advances consistent
    have ⟨_, grows⟩ := later.advances between
    refine (looked.isExplored_reference.grow grows).of_parts (laterIh between) ?_
    rintro target ⟨entry, isEntry, rfl⟩
    rcases List.mem_cons.mp isEntry with rfl | isLater
    · exact .inl rfl
    · exact .inr ⟨entry, isLater, rfl⟩
  | membersReference looked inside later _ _ laterIh =>
    have ⟨between, _⟩ := looked.advances consistent
    have ⟨after, grows⟩ := inside.advances between
    have ⟨_, behind⟩ := later.advances after
    intro accepted
    refine (looked.isExplored_reference.grow (grows.trans behind)).of_parts
      (laterIh after fun input isInput => accepted input (List.mem_cons_of_mem _ isInput)) ?_
    rintro target ⟨node, isNode, refers⟩
    rcases List.mem_cons.mp isNode with rfl | isLater
    · cases refers
      exact .inl rfl
    · exact .inr ⟨node, isLater, refers⟩
  | membersOther _ inside later ih laterIh =>
    have ⟨between, _⟩ := inside.advances consistent
    have ⟨_, grows⟩ := later.advances between
    intro accepted
    have ⟨first, rest⟩ := List.forall_mem_cons.mp accepted
    have notUnion {shape : MemberShape} {label : String}
        (isAccepted : Intersection.isUnion ⟨label, none, shape⟩ = false) : shape ≠ .union := by
      rintro rfl
      cases isAccepted
    refine ((ih consistent (notUnion first)).grow grows).of_parts
      (laterIh between fun input isInput => rest input (List.mem_append_right _ isInput)) ?_
    rintro target ⟨node, isNode, refers⟩
    rcases List.mem_cons.mp isNode with rfl | isLater
    · exact .inl refers
    · exact .inr ⟨node, isLater, refers⟩
  | intersectionReference isOnly _ looked =>
    rintro target ⟨node, isMember, refers⟩
    exact looked.isExplored_reference target (SchemaNode.eq_of_onlyReference? isOnly isMember refers)
  | intersectionMembers _ inside merges notes ih =>
    have ⟨_, grows⟩ := notes.advances (inside.advances consistent).1
    exact (ih consistent (Intersection.mergeAllOf_cases merges).1).grow grows

namespace Workspace

/-- Everything to which a registered component schema refers has been started. -/
def Explored (context : Context) (workspace : Workspace) : Prop :=
  ∀ schema target, workspace.resolver.state schema = .registered → context.Refers schema target →
    workspace.resolver.state target ≠ .pending

/-- Runs explore what they register. -/
theorem Explored.runs (runs : Runs context first last) (consistent : Consistent context first)
    (explored : first.Explored context) : last.Explored context := by
  -- Only the conclusion of a component schema registers one.
  induction runs with
  | refl => exact explored
  | register _ _ _ _ _ _ _ ih => exact ih consistent explored
  | report _ _ _ _ ih => exact ih consistent explored
  | @component _ middle inner earlier name node found pending muted active expanding started result
      ends inside ih insideIh =>
    have ⟨before, _⟩ := earlier.consistent consistent
    have begun := before.begin found pending
    have start : (middle.begin name).Explored context := by
      intro schema target isRegistered refers
      exact started_begin name (ih consistent explored schema target
        (state_of_begin isRegistered (by simp)) refers)
    intro schema target isRegistered refers
    refine started_conclude ?_ _ _ _ _
    rw [state_conclude] at isRegistered
    split at isRegistered
    · rename_i isSame
      subst isSame
      cases result with
      | error located => cases isRegistered
      | ok shape =>
        -- Whatever the node of the schema refers to is ready once the schema has been declared.
        have adequate := Synthesis.adequate_within context muted (schema :: active) expanding
        have declares := ((Synthesis.ends_shapeWithin_ok_iff _ _ _ _).mp ends).1
        have yields : Yields context expanding (middle.begin schema) (.declare node 0) (.shape shape)
            inner :=
          (adequate.walkFollows node).declare (middle.scopeOf schema) 0 _ _ _ begun
            (Synthesis.started_begin started) declares
        obtain ⟨other, isFound, inNode⟩ := refers
        cases found.symm.trans isFound
        exact (yields.explores begun target inNode).started
    · exact insideIh begun start schema target isRegistered refers

/-- Whatever a registered component schema refers to is registered as well, unless it leads to itself. -/
def Rests (context : Context) (workspace : Workspace) : Prop :=
  ∀ schema target, workspace.resolver.state schema = .registered → context.Refers schema target →
    ¬Relation.TransGen context.Refers target target → workspace.resolver.state target = .registered

namespace Rests

/-- Nothing changes for component schemas that neither begin nor end. -/
theorem steady (rests : first.Rests context) (same : last.resolver = first.resolver) :
    last.Rests context := by
  unfold Rests
  rw [same]
  exact rests

/-- A component schema that begins is not registered by that, and was not before. -/
theorem begin {name : String} (rests : first.Rests context)
    (pending : first.resolver.state name = .pending) : (first.begin name).Rests context := by
  intro schema target isRegistered refers notBack
  have registered := rests schema target (state_of_begin isRegistered (by simp)) refers notBack
  rw [state_begin, if_neg, registered]
  rintro rfl
  cases pending.symm.trans registered

/-- A component schema may be concluded when all to which its node refers is ready. -/
theorem conclude {name emitted : String} {node : SchemaNode} {result : Except LocatedFailure Shape}
    (rests : first.Rests context) (found : context.model.node? name = some node)
    (isResolving : first.resolver.state name = .resolving)
    (ready : ∀ shape, result = .ok shape → ∀ target, node.Refers target → first.Ready target)
    (led : ∀ schema, first.resolver.state schema = .resolving → ∀ target, node.Refers target →
      Relation.TransGen context.Refers schema target) :
    (first.conclude name emitted node result).Rests context := by
  intro schema target isRegistered refers notBack
  rw [state_conclude] at isRegistered ⊢
  split at isRegistered
  · -- What is still in progress leads to whatever the concluded schema refers to.
    rename_i isConcluded
    subst isConcluded
    cases result with
    | error => cases isRegistered
    | ok shape =>
      obtain ⟨other, isFound, refers⟩ := refers
      cases found.symm.trans isFound
      split
      · rfl
      · exact (ready shape rfl target refers).resolve_left fun resolving =>
          notBack (led target resolving target refers)
  · have registered := rests schema target isRegistered refers notBack
    rw [if_neg, registered]
    rintro rfl
    cases isResolving.symm.trans registered

/-- If none of the schemas to which a registered one leads leads to itself, they all are registered. -/
theorem registered (rests : first.Rests context) {schema target : String}
    (isRegistered : first.resolver.state schema = .registered)
    (leads : Relation.ReflTransGen context.Refers schema target)
    (acyclic : ∀ other, Relation.ReflTransGen context.Refers schema other →
      ¬Relation.TransGen context.Refers other other) :
    first.resolver.state target = .registered := by
  induction leads with
  | refl => exact isRegistered
  | tail leads refers ih => exact rests _ _ ih refers (acyclic _ (leads.tail refers))

end Rests

/-- What is known of the states of component schemas while some are in progress and some expanded. -/
structure Underway (context : Context) (active expanding : List String) (workspace : Workspace) :
    Prop where
  explored : workspace.Explored context
  inProgress : ∀ schema, workspace.resolver.state schema = .resolving → schema ∈ active
  ready : ∀ schema ∈ expanding, workspace.Ready schema

namespace Underway

variable {active : List String} {name : String}

/-- In the beginning nothing is in progress or registered. -/
theorem ofContext (context : Context) : (Workspace.ofContext context).Underway context [] [] where
  explored schema _ isRegistered := by simp [state_ofContext] at isRegistered
  inProgress schema isResolving := by simp [state_ofContext] at isResolving
  ready _ isExpanding := absurd isExpanding List.not_mem_nil

/-- Nothing changes for component schemas that neither begin nor end. -/
theorem steady (underway : first.Underway context active expanding)
    (same : last.resolver = first.resolver) : last.Underway context active expanding where
  explored := by
    unfold Explored
    rw [same]
    exact underway.explored
  inProgress := by
    rw [same]
    exact underway.inProgress
  ready := by
    unfold Ready
    rw [same]
    exact underway.ready

/-- Another component schema may begin. -/
theorem begin (underway : first.Underway context active expanding) (name : String) :
    (first.begin name).Underway context (name :: active) expanding where
  explored schema target isRegistered refers := started_begin name
    (underway.explored schema target (state_of_begin isRegistered (by simp)) refers)
  inProgress schema isResolving := by
    -- The schema that begins is in progress from now on.
    rw [state_begin] at isResolving
    split at isResolving
    · rename_i isSame
      exact isSame ▸ List.mem_cons_self
    · exact List.mem_cons_of_mem _ (underway.inProgress schema isResolving)
  ready schema isExpanding := by
    rw [Ready, state_begin]
    split
    · exact .inl rfl
    · exact underway.ready schema isExpanding

/-- Whatever begins in a run ends in it. -/
theorem runs (underway : first.Underway context active expanding) (runs : Runs context first last)
    (consistent : Consistent context first) : last.Underway context active expanding :=
  have ⟨_, grows⟩ := runs.consistent consistent
  ⟨underway.explored.runs runs consistent,
    fun schema isResolving => underway.inProgress schema (grows.was_resolving isResolving),
    fun schema isExpanding => grows.ready (underway.ready schema isExpanding)⟩

/-- A component schema that is ready may be expanded. -/
theorem expand (underway : first.Underway context active expanding) (isReady : first.Ready name) :
    first.Underway context active (name :: expanding) :=
  { underway with ready := List.forall_mem_cons.mpr ⟨isReady, underway.ready⟩ }

/-- The expansion of a component schema comes to an end. -/
theorem leave (underway : first.Underway context active (name :: expanding)) :
    first.Underway context active expanding :=
  { underway with ready := (List.forall_mem_cons.mp underway.ready).2 }

/-- What is expanded and refers to a schema that has not been started is itself in progress. -/
theorem mem_active {source target : String} (underway : first.Underway context active expanding)
    (isExpanding : source ∈ expanding) (refers : context.Refers source target)
    (pending : first.resolver.state target = .pending) : source ∈ active :=
  (underway.ready source isExpanding).elim (underway.inProgress source) fun isRegistered =>
    absurd pending (underway.explored source target isRegistered refers)

end Underway

end Workspace

end ApiTypes
