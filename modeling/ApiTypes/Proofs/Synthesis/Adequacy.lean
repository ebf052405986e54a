import ApiTypes.Proofs.Synthesis.Growth

/-!
Synthesis follows the rules: whatever is asked of nodes and component schemas inside schemas in progress
ends with a value that the task yields, or with a failure of the task.
-/

namespace ApiTypes

variable {context : Context} {active expanding : List String} {α β : Type}

/-- What comes of a task is what the rules say. -/
def Comes (context : Context) (expanding : List String) (first : Workspace) (task : Task)
    (wrap : α → Value) : Except LocatedFailure α → Workspace → Prop
  | .ok value, last => Yields context expanding first task (wrap value) last
  | .error located, last => Fails context expanding first task located.failure last

/-- Whatever comes of a task, what was declared before is kept. -/
theorem Comes.advances {context : Context} {expanding : List String} {first last : Workspace}
    {task : Task} {wrap : α → Value} {result : Except LocatedFailure α}
    (comes : Comes context expanding first task wrap result last) : Advances context first last := by
  cases result with
  | ok value => exact Yields.advances comes
  | error located => exact Fails.advances comes

/-- The active schemas have been started. -/
def Started (active : List String) (workspace : Workspace) : Prop :=
  ∀ schema ∈ active, workspace.resolver.state schema ≠ .pending

/-- What has been started stays so. -/
theorem Grows.started {first last : Workspace} (grows : Grows first last)
    (started : Started active first) : Started active last := fun schema isActive =>
  grows.state_eq (started schema isActive) ▸ started schema isActive

/-- An action inside active schemas follows the rules of a task. -/
def Follows (context : Context) (active expanding : List String) (task : Task) (wrap : α → Value)
    (action : Synthesis α) : Prop :=
  ∀ first last result, Consistent context first → Started active first →
    action.Ends first result last → Comes context expanding first task wrap result last

namespace Follows

variable {task : Task} {wrap : α → Value} {first last : Workspace}

/-- Where an action follows a part of a task, what comes after it may use what the part has yielded. -/
theorem bind {part : Task} {partWrap : β → Value} {action : Synthesis β} {next : β → Synthesis α}
    {result : Except LocatedFailure α} {start : Workspace}
    (follows : Follows context active expanding part partWrap action)
    (consistent : Consistent context start) (started : Started active start)
    (ends : (action >>= next).Ends start result last)
    (breaks : ∀ failure, Fails context expanding start part failure last →
      Fails context expanding first task failure last)
    (goesOn : ∀ value middle, Yields context expanding start part (partWrap value) middle →
      Consistent context middle → Started active middle → (next value).Ends middle result last →
        Comes context expanding first task wrap result last) :
    Comes context expanding first task wrap result last := by
  rcases (Synthesis.ends_bind_iff _ _).mp ends with
    ⟨error, rfl, failed⟩ | ⟨value, middle, earlier, later⟩
  · exact breaks _ (follows _ _ _ consistent started failed)
  · have yields : Yields context expanding start part (partWrap value) middle :=
      follows _ _ _ consistent started earlier
    obtain ⟨between, grows⟩ := yields.advances consistent
    exact goesOn value middle yields between (grows.started started) later

/-- An action whose value is only wrapped differently follows a task if a part of it does. -/
theorem map {part : Task} {partWrap : β → Value} {action : Synthesis β} {transform : β → α}
    (follows : Follows context active expanding part partWrap action)
    (breaks : ∀ first last failure, Fails context expanding first part failure last →
      Fails context expanding first task failure last)
    (gives : ∀ first last value, Yields context expanding first part (partWrap value) last →
      Yields context expanding first task (wrap (transform value)) last) :
    Follows context active expanding task wrap (do return transform (← action)) := by
  intro first last result consistent started ends
  refine follows.bind consistent started ends (breaks _ _) fun value middle yields _ _ ends => ?_
  obtain ⟨rfl, rfl⟩ := (Synthesis.ends_pure_iff _).mp ends
  exact gives _ _ _ yields

/-- A value that a task yields without any change may be returned. -/
theorem pure {value : α}
    (gives : ∀ first, Yields context expanding first task (wrap value) first) :
    Follows context active expanding task wrap (pure value) := by
  intro first last result consistent started ends
  obtain ⟨rfl, rfl⟩ := (Synthesis.ends_pure_iff _).mp ends
  exact gives _

end Follows

namespace Surroundings

variable {outside : Surroundings} {first last : Workspace}

/-- Doing nothing changes nothing. -/
theorem notes_refl (workspace : Workspace) : workspace.Notes workspace :=
  ⟨rfl, rfl, List.prefix_rfl, fun _ isReported => .inl isReported⟩

/-- A loop of reports always ends, and changes nothing else. -/
theorem notes_of_reports {γ : Type} {entries : List γ} {place : γ → String} {cause : γ → Cause}
    (harmless : ∀ entry, (cause entry).failure? = none) {result : Except LocatedFailure Unit}
    (ends : (do
      for entry in entries do
        Synthesis.report (place entry) (cause entry) : Synthesis Unit).Ends first result last) :
    result = .ok () ∧ first.Notes last := by
  obtain ⟨rfl, rfl⟩ := Synthesis.ends_reports ends
  refine ⟨rfl, rfl, rfl, List.prefix_append _ _, fun diagnostic isReported => ?_⟩
  refine (List.mem_append.mp isReported).imp_right fun isNew => ?_
  obtain ⟨entry, _, rfl⟩ := List.mem_map.mp isNew
  exact harmless entry

/-- Reporting undeclared names always ends, and changes nothing else. -/
theorem ends_reportUndeclared {traits : NodeTraits} {scope : Scope}
    {result : Except LocatedFailure Unit}
    (ends : (outside.reportUndeclared traits scope).Ends first result last) :
    result = .ok () ∧ first.Notes last := by
  unfold reportUndeclared at ends
  split at ends
  · exact notes_of_reports (fun _ => rfl) ends
  · obtain ⟨rfl, rfl⟩ := (Synthesis.ends_pure_iff _).mp ends
    exact ⟨rfl, notes_refl _⟩

/-- Reporting what a merge could not express always ends, and changes nothing else. -/
theorem notes_of_reportNotes {notes : List MergeNote} {scope : Scope}
    {result : Except LocatedFailure Unit}
    (ends : (outside.reportNotes notes scope).Ends first result last) :
    result = .ok () ∧ first.Notes last := by
  unfold reportNotes at ends
  split at ends
  · exact notes_of_reports (fun _ => rfl) ends
  · obtain ⟨rfl, rfl⟩ := (Synthesis.ends_pure_iff _).mp ends
    exact ⟨rfl, notes_refl _⟩

/-- What comes after a report of undeclared names starts from a workspace with notes. -/
theorem ends_of_reportUndeclared {traits : NodeTraits} {scope : Scope} {next : Synthesis α}
    {result : Except LocatedFailure α}
    (ends : (do outside.reportUndeclared traits scope; next : Synthesis α).Ends first result last) :
    ∃ middle, first.Notes middle ∧ next.Ends middle result last := by
  obtain ⟨_, middle, reports, ends⟩ := Synthesis.exists_of_ends_bind
    (fun _ failed => nomatch (ends_reportUndeclared failed).1) ends
  exact ⟨middle, (ends_reportUndeclared reports).2, ends⟩

/-- What is asked of other component schemas follows the rules. -/
structure Adequate (context : Context) (active expanding : List String) (outside : Surroundings) :
    Prop where
  context_eq : outside.context = context
  reference : ∀ target scope, Follows context active expanding (.reference target) .type
    (outside.reference target scope)
  expand : ∀ schema path, Follows context active expanding (.schema schema) .member
    (outside.expand schema path)

/-- Whatever is asked of a node follows the rules. -/
structure WalkFollows (context : Context) (active expanding : List String) (node : SchemaNode)
    (walk : NodeWalk) : Prop where
  declare : ∀ scope depth, Follows context active expanding (.declare node depth) .shape
    (walk.declare scope depth)
  expression : ∀ scope depth, Follows context active expanding (.expression node depth) .type
    (walk.expression scope depth)
  /-- A reference is looked up by the intersection itself. -/
  contribute : ∀ scope depth, node.kind.referenceTarget? = none →
    Follows context active expanding (.contribute node depth) .member (walk.contribute scope depth)
  /-- A choice is never expanded. -/
  expand : ∀ scope, (∀ kind members discriminator,
      node.kind = .composed kind members discriminator → kind = .allOf) →
    Follows context active expanding (.expand node scope.name) .member (walk.expand scope)

/-- The fields of an object follow the rules. -/
theorem follows_fields (scope : Scope) {properties : List (Property SchemaNode)}
    (walks : ∀ property ∈ properties,
      WalkFollows context active expanding property.schema (outside.walk property.schema)) :
    Follows context active expanding (.fields properties) .fields
      (fields scope (properties.map outside.walkedProperty)) := by
  induction properties with
  | nil => exact Follows.pure fun _ => .fieldsNil
  | cons property rest ih =>
    have ⟨head, tail⟩ := List.forall_mem_cons.mp walks
    intro first last result consistent started ends
    refine (head.expression _ 0).bind consistent started ends (fun _ => .fieldsHead)
      fun type middle yields consistent started ends => ?_
    refine (ih tail).bind consistent started ends (fun _ => .fieldsTail yields)
      fun later _ others _ _ ends => ?_
    obtain ⟨rfl, rfl⟩ := (Synthesis.ends_pure_iff _).mp ends
    exact .fieldsCons yields others

/-- The record of an object follows the rules. -/
theorem follows_record (scope : Scope) {properties : List (Property SchemaNode)}
    {additional : Option SchemaNode}
    (listed : ∀ property ∈ properties,
      WalkFollows context active expanding property.schema (outside.walk property.schema))
    (further : ∀ value ∈ additional,
      WalkFollows context active expanding value (outside.walk value)) :
    Follows context active expanding (.record properties additional) .record
      (record (properties.map outside.walkedProperty) (additional.map outside.walked) scope) := by
  intro first last result consistent started ends
  refine (follows_fields scope listed).bind consistent started ends (fun _ => .recordFields)
    fun fields middle yields consistent started ends => ?_
  cases additional with
  | none =>
    obtain ⟨rfl, rfl⟩ := (Synthesis.ends_pure_iff _).mp ends
    exact .recordClosed yields
  | some value =>
    have walk := further value rfl
    have follows : Follows context active expanding (.expression value 0)
        (fun type? : Option TypeExpr => .type (type?.getD .any))
        (some <$> mapValue (outside.walked value) scope 0) := by
      rw [map_eq_pure_bind]
      exact (walk.expression _ 0).map (fun _ _ _ => id) fun _ _ _ => id
    -- The action for an optional value is that for the value itself.
    have same : ((Option.map outside.walked (some value)).mapM fun value =>
        mapValue value scope 0) = some <$> mapValue (outside.walked value) scope 0 := rfl
    rw [same, map_eq_pure_bind, bind_assoc] at ends
    refine (walk.expression _ 0).bind consistent started ends (fun _ => .recordFurther yields)
      fun type _ further _ _ ends => ?_
    obtain ⟨rfl, rfl⟩ := (Synthesis.ends_pure_iff _).mp ends
    exact .recordOpen yields further

/-- What reads the workspace first starts from it. -/
theorem ends_of_get {next : Workspace → Synthesis α} {result : Except LocatedFailure α}
    (ends : (get >>= next).Ends first result last) : (next first).Ends first result last := ends

/-- Registering a shape gives it a name. -/
theorem registers_of_ends {candidate : String} {shape : Shape} {doc : Option String}
    {deprecated : Bool} {path : String} {result : Except LocatedFailure String}
    (ends : (Synthesis.register candidate shape doc deprecated (.inline path)).Ends first result
      last) : ∃ name, result = .ok name ∧ first.Registers shape name last := by
  obtain ⟨rfl, rfl⟩ := (Synthesis.ends_register_iff candidate shape doc deprecated _).mp ends
  exact ⟨_, rfl, candidate, doc, deprecated, path, rfl, rfl⟩

/-- The name of a case is that of its type, or one that its type gets. -/
theorem namesCase_of_ends {type : TypeExpr} {parent member : Scope}
    {result : Except LocatedFailure String} (ends : (nameMember type parent member).Ends first result last) :
    ∃ name, result = .ok name ∧ first.NamesCase type name last := by
  unfold nameMember at ends
  split at ends
  · rename_i name isName
    obtain ⟨rfl, rfl⟩ := (Synthesis.ends_pure_iff _).mp ends
    exact ⟨name, rfl, .named isName⟩
  · rename_i unnamed
    obtain ⟨name, isName, registers⟩ :=
      registers_of_ends (ends_of_get ends)
    exact ⟨name, isName, .declared unnamed registers⟩

/-- The cases of a choice follow the rules. -/
theorem follows_cases (kind : CompositionKind) (scope : Scope) (depth : Nat)
    {members : List SchemaNode}
    (walks : ∀ member ∈ members, WalkFollows context active expanding member (outside.walk member))
    (index : Nat) :
    Follows context active expanding (.cases members depth) (fun found => .names found.1 found.2)
      (cases kind scope depth (members.map outside.walked) index) := by
  induction members generalizing index with
  | nil => exact Follows.pure fun _ => .casesNil
  | cons node rest ih =>
    have ⟨head, tail⟩ := List.forall_mem_cons.mp walks
    intro first last result consistent started ends
    simp only [List.map_cons, walked, cases] at ends
    split at ends
    · rename_i isNull
      refine (ih tail (index + 1)).bind consistent started ends (fun _ => .casesNull isNull)
        fun found _ later _ _ ends => ?_
      obtain ⟨rfl, rfl⟩ := (Synthesis.ends_pure_iff _).mp ends
      exact .casesNull isNull later
    · rename_i notNull
      have notNull : node.kind.isNull = false := by simpa using notNull
      refine (head.expression _ depth).bind consistent started ends (fun _ => .casesHead notNull)
        fun type middle yields consistent started ends => ?_
      -- A case always gets a name, which is declared by the time the later cases are named.
      obtain ⟨name, after, names, ends⟩ := Synthesis.exists_of_ends_bind (fun _ failed => by
        obtain ⟨_, isName, _⟩ := namesCase_of_ends failed
        cases isName) ends
      obtain ⟨_, isName, named⟩ := namesCase_of_ends names
      cases isName
      obtain ⟨consistent, grows⟩ := named.advances consistent
      have started := grows.started started
      refine (ih tail (index + 1)).bind consistent started ends (fun _ => .casesTail notNull yields named)
        fun found _ later _ _ ends => ?_
      obtain ⟨rfl, rfl⟩ := (Synthesis.ends_pure_iff _).mp ends
      exact .casesCons notNull yields named later

/-- A use of a component schema has the name of its type. -/
theorem name?_of_reference {target : String} {type : TypeExpr}
    (yields : Yields context expanding first (.reference target) (.type type) last) :
    ∃ name, type.name? = some name := by
  cases yields
  exact ⟨_, rfl⟩

/-- The mapping of a discriminator follows the rules. -/
theorem Adequate.follows_mapping (adequate : outside.Adequate context active expanding)
    (scope : Scope) (entries : List (String × String)) (found : Table String) :
    Follows context active expanding (.mapping entries found) .table
      (outside.mapping scope entries found) := by
  induction entries generalizing found with
  | nil => exact Follows.pure fun _ => .mappingNil
  | cons entry rest ih =>
    obtain ⟨value, target⟩ := entry
    intro first last result consistent started ends
    refine (adequate.reference target scope).bind consistent started ends (fun _ => .mappingHead)
      fun type middle yields consistent started ends => ?_
    obtain ⟨name, isName⟩ := name?_of_reference yields
    simp only [isName] at ends
    have later := ih (found.insert value name) _ _ _ consistent started ends
    cases result with
    | ok mapping => exact .mappingCons yields isName later
    | error located => exact .mappingTail yields isName later

/-- How the cases of a choice come to be told apart: not at all, or by a mapping that follows the rules. -/
inductive Discriminates (context : Context) (expanding : List String) (first : Workspace) :
    Option Discriminator → Except LocatedFailure (Option Discriminator) → Workspace → Prop
  | none : Discriminates context expanding first none (.ok none) first
  | mapped {given : Discriminator} {mapping : Table String} {last : Workspace}
    (looked : Yields context expanding first (.mapping given.mapping.entries {}) (.table mapping)
      last) : Discriminates context expanding first (some given) (.ok (some { given with mapping })) last
  | fails {given : Discriminator} {located : LocatedFailure} {last : Workspace}
    (fails : Fails context expanding first (.mapping given.mapping.entries {}) located.failure last) :
    Discriminates context expanding first (some given) (.error located) last

/-- The cases of a choice come to be told apart in one of these ways. -/
theorem Adequate.discriminates (adequate : outside.Adequate context active expanding)
    {discriminator : Option Discriminator} {scope : Scope}
    {result : Except LocatedFailure (Option Discriminator)} (consistent : Consistent context first)
    (started : Started active first)
    (ends : (discriminator.mapM (outside.discriminate scope)).Ends first result last) :
    Discriminates context expanding first discriminator result last := by
  cases discriminator with
  | none =>
    obtain ⟨rfl, rfl⟩ := (Synthesis.ends_pure_iff _).mp ends
    exact .none
  | some given =>
    have same : (some given).mapM (outside.discriminate scope) =
        some <$> outside.discriminate scope given := rfl
    rw [same, Synthesis.ends_map_iff] at ends
    obtain ⟨found, maps, rfl⟩ := ends
    have follows := adequate.follows_mapping (scope.below "/discriminator") given.mapping.entries {}
    rcases (Synthesis.ends_bind_iff _ _).mp maps with
      ⟨located, rfl, failed⟩ | ⟨mapping, _, looked, returns⟩
    · exact .fails (follows _ _ _ consistent started failed)
    · obtain ⟨rfl, rfl⟩ := (Synthesis.ends_pure_iff _).mp returns
      exact .mapped (follows _ _ _ consistent started looked)

/-- The shape of a choice follows the rules. -/
theorem Adequate.follows_union (adequate : outside.Adequate context active expanding)
    {kind : CompositionKind} (isChoice : kind ≠ .allOf) {members : List SchemaNode}
    (walks : ∀ member ∈ members, WalkFollows context active expanding member (outside.walk member))
    (discriminator : Option Discriminator) (traits : NodeTraits) (scope : Scope) (depth : Nat) :
    Follows context active expanding (.declare ⟨.composed kind members discriminator, traits⟩ depth)
      .shape (do
        outside.reportUndeclared traits scope
        outside.union kind (members.map outside.walked) discriminator traits.nullable scope
          depth) := by
  intro first last result consistent started ends
  obtain ⟨middle, notes, ends⟩ := ends_of_reportUndeclared ends
  obtain ⟨consistent, grows⟩ := notes.advances consistent
  rw [union_eq] at ends
  refine (follows_cases kind scope depth walks 0).bind consistent (grows.started started) ends
    (fun _ => .declareCases isChoice notes) fun found after yields consistent started ends => ?_
  rcases (Synthesis.ends_bind_iff _ _).mp ends with ⟨error, rfl, failed⟩ | ⟨mapped, later, maps, ends⟩
  · -- Only a mapping may fail here.
    cases adequate.discriminates consistent started failed with
    | fails fails => exact .declareMapping isChoice notes yields fails
  have discriminates := adequate.discriminates consistent started maps
  obtain ⟨rfl, rfl⟩ := (Synthesis.ends_liftComposition_iff _ _).mp ends
  cases unites : unionOf kind found.1 (traits.nullable || found.2) mapped with
  | ok shape =>
    cases discriminates with
    | none => exact .declareChoice isChoice notes yields unites
    | mapped looked => exact .declareDiscriminated isChoice notes yields looked unites
  | error conflict =>
    -- Cases are united unless there are none.
    have isConflict : conflict = .emptyUnion := by
      unfold unionOf at unites
      split at unites <;> cases unites
      rfl
    rw [names_eq_nil_of_unionOf unites] at yields
    subst isConflict
    refine .declareEmpty isChoice notes yields ?_
    cases discriminates with
    | none => exact .inl rfl
    | mapped looked => exact .inr ⟨_, _, rfl, looked⟩

/-- What an intersection contributes by its shape follows the rules. -/
theorem Adequate.follows_take (adequate : outside.Adequate context active expanding)
    (shape : Shape) (scope : Scope) :
    Follows context active expanding (.take shape) .member (outside.contributionOf shape scope) := by
  cases shape with
  | record | enum | union =>
    exact Follows.pure fun _ => .take fun _ isAlias => by cases isAlias
  | «alias» type =>
    -- The name of a schema is looked through unless it admits null; every other type is taken as it is.
    intro first last result consistent started ends
    have chooses := ends_of_get ends
    rw [consistent.schemas_eq] at chooses
    dsimp only at chooses
    split at chooses
    · rename_i schema named direct
      have expands := adequate.expand schema scope.path _ _ _ consistent started chooses
      cases result with
      | ok taken => exact .takeSchema named direct expands
      | error located => exact .takeSchema named direct expands
    · rename_i isAny notSchema
      obtain ⟨rfl, rfl⟩ := (Synthesis.ends_pure_iff _).mp chooses
      have taken : (Shape.alias type).taken = .unconstrained := by simp [Shape.taken, isAny]
      rw [Comes, ← taken]
      refine .take fun other isSame direct => ?_
      cases isSame
      exact Option.eq_none_iff_forall_ne_some.mpr fun schema named =>
        notSchema schema named direct
    · rename_i notSchema notAny
      obtain ⟨rfl, rfl⟩ := (Synthesis.ends_pure_iff _).mp chooses
      have taken : (Shape.alias type).taken = .scalar type := by simp [Shape.taken]
      rw [Comes, ← taken]
      refine .take fun other isSame direct => ?_
      cases isSame
      exact Option.eq_none_iff_forall_ne_some.mpr fun schema named =>
        notSchema schema named direct

/-- The members of an intersection follow the rules. -/
theorem Adequate.follows_members (adequate : outside.Adequate context active expanding)
    (scope : Scope) (depth : Nat) {nodes : List SchemaNode}
    (walks : ∀ node ∈ nodes, WalkFollows context active expanding node (outside.walk node))
    (index : Nat) :
    Follows context active expanding (.members nodes depth) .inputs
      (outside.members scope depth (nodes.map outside.walked) index) := by
  induction nodes generalizing index with
  | nil => exact Follows.pure fun _ => .membersNil
  | cons node rest ih =>
    have ⟨head, tail⟩ := List.forall_mem_cons.mp walks
    intro first last result consistent started ends
    rw [List.map_cons, walked] at ends
    cases isReference : node.kind.referenceTarget? with
    | some target =>
      -- A reference is looked up before its schema is expanded, as the member is known by its name.
      obtain ⟨kind, traits⟩ := node
      cases kind <;> cases isReference
      rw [members_cons_reference] at ends
      refine (adequate.reference target _).bind consistent started ends (fun _ => .membersReference)
        fun type middle looked consistent started ends => ?_
      refine (adequate.expand target _).bind consistent started ends (fun _ => .membersSchema looked)
        fun shape after inside consistent started ends => ?_
      refine (ih tail (index + 1)).bind consistent started ends
        (fun _ => .membersReferenceTail looked inside) fun inputs _ later _ _ ends => ?_
      obtain ⟨rfl, rfl⟩ := (Synthesis.ends_pure_iff _).mp ends
      exact .membersReference looked inside later
    | none =>
      rw [outside.members_cons isReference] at ends
      refine (head.contribute _ depth isReference).bind consistent started ends
        (fun _ => .membersContribute isReference) fun shape middle inside consistent started ends => ?_
      refine (ih tail (index + 1)).bind consistent started ends
        (fun _ => .membersOtherTail isReference inside) fun inputs _ later _ _ ends => ?_
      obtain ⟨rfl, rfl⟩ := (Synthesis.ends_pure_iff _).mp ends
      exact .membersOther isReference inside later

/-- The shape of an intersection follows the rules. -/
theorem Adequate.follows_intersection (adequate : outside.Adequate context active expanding)
    {nodes : List SchemaNode}
    (walks : ∀ node ∈ nodes, WalkFollows context active expanding node (outside.walk node))
    (scope : Scope) (depth : Nat) :
    Follows context active expanding (.intersection nodes depth) .shape
      (outside.intersection (nodes.map outside.walked) scope depth) := by
  have sameNodes := outside.map_fst_walked nodes
  intro first last result consistent started ends
  -- A single reference that counts is followed; otherwise the members are merged.
  cases isOnly : SchemaNode.onlyReference? nodes with
  | some target =>
    rw [outside.intersection_of_reference (sameNodes.symm ▸ isOnly), adequate.context_eq] at ends
    split at ends
    · rename_i isChoice
      obtain ⟨rfl, rfl⟩ := (Synthesis.ends_failComposition_iff _ _).mp ends
      exact .intersectionChoice isOnly isChoice
    · rename_i notChoice
      have notChoice : (context.model.node? target).any context.model.isUnion = false := by
        simpa using notChoice
      refine (adequate.reference target _).bind consistent started ends
        (fun _ => .intersectionReference isOnly notChoice) fun type _ looked _ _ ends => ?_
      obtain ⟨rfl, rfl⟩ := (Synthesis.ends_pure_iff _).mp ends
      exact .intersectionReference isOnly notChoice looked
  | none =>
    rw [outside.intersection_of_members (sameNodes.symm ▸ isOnly)] at ends
    refine (adequate.follows_members scope depth walks 0).bind consistent started ends
      (fun _ => .intersectionMembers isOnly) fun inputs middle inside _ _ ends => ?_
    have ends := ends_of_get ends
    cases merges : mergeAllOf inputs middle.registry.equivalent with
    | error conflict =>
      rw [merges] at ends
      have fails : (Synthesis.failComposition scope.path conflict : Synthesis Shape).Ends middle
          result last := ends
      obtain ⟨rfl, rfl⟩ := (Synthesis.ends_failComposition_iff _ _).mp fails
      exact .intersectionMerge isOnly inside merges
    | ok merged =>
      rw [merges] at ends
      have reports : (do
          outside.reportNotes merged.notes scope
          return merged.shape : Synthesis Shape).Ends middle result last := ends
      obtain ⟨_, _, noted, returns⟩ := Synthesis.exists_of_ends_bind
        (fun _ failed => nomatch (notes_of_reportNotes failed).1) reports
      obtain ⟨rfl, rfl⟩ := (Synthesis.ends_pure_iff _).mp returns
      exact .intersectionMembers isOnly inside merges (notes_of_reportNotes noted).2

/-- The use of a node that has to be declared follows the rules. -/
theorem follows_promote {node : SchemaNode} (isDeclared : node.isDeclared = true) (scope : Scope)
    {depth : Nat} {declare : Scope → Synthesis Shape}
    (follows : ∀ scope, Follows context active expanding (.declare node depth) .shape
      (declare scope)) :
    Follows context active expanding (.expression node depth) .type
      (promote node.traits scope declare) := by
  intro first last result consistent started ends
  refine (follows _).bind consistent started ends (fun _ => .promote isDeclared)
    fun shape middle declares _ _ ends => ?_
  -- Shapes other than aliases are declared, and differ in whether they admit null themselves.
  have named : shape.isAlias = false → ∀ {carriesNull : Bool},
      (carriesNull = true → ∃ union, shape = .union union) → ∀ {candidate : String},
      (do
        let name ← Synthesis.register candidate shape node.traits.description
          node.traits.deprecated (.inline scope.path)
        return (TypeExpr.named name).withNullable (node.traits.nullable && !carriesNull) :
          Synthesis TypeExpr).Ends middle result last →
      Comes context expanding first (.expression node depth) .type result last := by
    intro isPlain carriesNull carries candidate ends
    obtain ⟨name, _, registers, returns⟩ := Synthesis.exists_of_ends_bind (fun _ failed => by
      obtain ⟨_, isName, _⟩ := registers_of_ends failed
      cases isName) ends
    obtain ⟨_, isName, registers⟩ := registers_of_ends registers
    cases isName
    obtain ⟨rfl, rfl⟩ := (Synthesis.ends_pure_iff _).mp returns
    refine .promote isDeclared declares isPlain registers (fun fewer => ?_) fun fewer more => ?_
    · exact (Bool.and_eq_true_iff.mp fewer).1
    · exact carries (by simpa [more] using fewer)
  cases shape with
  | «alias» type =>
    obtain ⟨rfl, rfl⟩ := (Synthesis.ends_pure_iff _).mp ends
    exact .promoteAlias isDeclared declares
  | record | enum => exact named rfl (fun carries => by cases carries) ends
  | union union => exact named rfl (fun _ => ⟨union, rfl⟩) ends

/-- A node that is used directly follows the rules if its type does. -/
theorem follows_plainWalk {node : SchemaNode} (isPlain : node.isDeclared = false)
    {expression : Scope → Nat → Synthesis TypeExpr}
    (follows : ∀ scope depth, Follows context active expanding (.expression node depth) .type
      (expression scope depth)) (scope : Scope) (depth : Nat) :
    Follows context active expanding (.declare node depth) .shape
      ((outside.plainWalk node.traits expression).declare scope depth) := by
  intro first last result consistent started ends
  obtain ⟨middle, notes, ends⟩ := ends_of_reportUndeclared ends
  obtain ⟨consistent, grows⟩ := notes.advances consistent
  refine (follows scope depth).bind consistent (grows.started started) ends
    (fun _ => .declarePlain isPlain notes) fun type _ inside _ _ ends => ?_
  obtain ⟨rfl, rfl⟩ := (Synthesis.ends_pure_iff _).mp ends
  exact .declarePlain isPlain notes inside

/-- The type of a node that is used directly may stand in an intersection as it is. -/
theorem follows_contributeType {node : SchemaNode} (isType : node.contributesType = true)
    {depth : Nat} {expression : Synthesis TypeExpr}
    (follows : Follows context active expanding (.expression node depth) .type expression) :
    Follows context active expanding (.contribute node depth) .member
      (do return .scalar (← expression)) :=
  follows.map (fun _ _ _ => .contributeType isType) fun _ _ _ => .contributeType isType

/-- A node without nodes inside it that is used directly follows the rules. -/
theorem walkFollows_constant {node : SchemaNode} {type : TypeExpr}
    (isConstant : node.constant? = some type) (isPlain : node.isDeclared = false)
    (isType : node.contributesType = true) (isAtomic : node.isAtomic = true) :
    WalkFollows context active expanding node
      (outside.plainWalk node.traits fun _ _ => return type) := by
  have expression : ∀ depth, Follows context active expanding (.expression node depth) .type
      (pure type) := fun _ => Follows.pure fun _ => .constant isConstant
  exact {
    declare := follows_plainWalk isPlain fun _ depth => expression depth
    expression := fun _ depth => expression depth
    contribute := fun _ depth _ => follows_contributeType isType (expression depth)
    expand := fun _ _ => Follows.pure fun _ => .expandAtomic isAtomic }

/-- The walk of an enumeration follows the rules. -/
theorem walkFollows_enum (base : PrimitiveBase) (values : List Data) (traits : NodeTraits) :
    WalkFollows context active expanding ⟨.enum base values, traits⟩
      (outside.walk ⟨.enum base values, traits⟩) := by
  have declare : ∀ scope depth,
      Follows context active expanding (.declare ⟨.enum base values, traits⟩ depth) .shape
        ((outside.walk ⟨.enum base values, traits⟩).declare scope depth) := by
    intro scope depth first last result consistent started ends
    obtain ⟨middle, notes, ends⟩ := ends_of_reportUndeclared ends
    obtain ⟨rfl, rfl⟩ := (Synthesis.ends_pure_iff _).mp ends
    exact .declareEnum notes
  have expression : ∀ scope depth,
      Follows context active expanding (.expression ⟨.enum base values, traits⟩ depth) .type
        ((outside.walk ⟨.enum base values, traits⟩).expression scope depth) := fun scope depth =>
    follows_promote rfl scope fun named => declare named depth
  exact {
    declare
    expression
    contribute := fun scope depth _ => follows_contributeType rfl (expression scope depth)
    expand := fun _ _ => Follows.pure fun _ => .expandAtomic rfl }

/-- The walk of an array follows the rules if that of its items does. -/
theorem Adequate.walkFollows_array (adequate : outside.Adequate context active expanding)
    {items : SchemaNode}
    (walk : WalkFollows context active expanding items (outside.walk items)) (traits : NodeTraits) :
    WalkFollows context active expanding ⟨.array items, traits⟩
      (outside.walk ⟨.array items, traits⟩) := by
  have expression : ∀ scope depth,
      Follows context active expanding (.expression ⟨.array items, traits⟩ depth) .type
        ((outside.walk ⟨.array items, traits⟩).expression scope depth) := by
    intro scope depth first last result consistent started ends
    -- The limit is checked first: an array beyond it fails before its items are walked.
    rcases (Synthesis.ends_bind_iff _ _).mp ends with ⟨error, rfl, failed⟩ | ⟨_, _, check, rest⟩
    · obtain ⟨rfl, isError⟩ := (outside.ends_checkArray_iff _ _ _ _).mp failed
      split at isError
      · cases isError
      · rename_i exceeded
        cases isError
        exact .limit (adequate.context_eq ▸ exceeded)
    · obtain ⟨rfl, isOk⟩ := (outside.ends_checkArray_iff _ _ _ _).mp check
      split at isOk
      · rename_i allowed
        rw [adequate.context_eq] at allowed
        exact (walk.expression _ (depth + 1)).map (fun _ _ _ => .array allowed)
          (fun _ _ _ => .array allowed) _ _ _ consistent started rest
      · cases isOk
  exact {
    declare := follows_plainWalk rfl expression
    expression
    contribute := fun scope depth _ => follows_contributeType rfl (expression scope depth)
    expand := fun _ _ => Follows.pure fun _ => .expandAtomic rfl }

/-- The walk of a map follows the rules if that of its values does. -/
theorem walkFollows_map {value : SchemaNode}
    (walk : WalkFollows context active expanding value (outside.walk value)) (traits : NodeTraits) :
    WalkFollows context active expanding ⟨.map value, traits⟩
      (outside.walk ⟨.map value, traits⟩) := by
  have expression : ∀ scope depth,
      Follows context active expanding (.expression ⟨.map value, traits⟩ depth) .type
        ((outside.walk ⟨.map value, traits⟩).expression scope depth) := fun _ depth =>
    (walk.expression _ depth).map (fun _ _ _ => .map) fun _ _ _ => .map
  exact {
    declare := follows_plainWalk rfl expression
    expression
    contribute := fun _ depth _ =>
      (walk.expression _ depth).map (fun _ _ _ => .contributeMap) fun _ _ _ => .contributeMap
    expand := fun _ _ => Follows.pure fun _ => .expandAtomic rfl }

/-- The walk of an object follows the rules if those of its properties do. -/
theorem walkFollows_object {properties : List (Property SchemaNode)}
    {additional : Option SchemaNode}
    (listed : ∀ property ∈ properties,
      WalkFollows context active expanding property.schema (outside.walk property.schema))
    (further : ∀ value ∈ additional,
      WalkFollows context active expanding value (outside.walk value)) (traits : NodeTraits) :
    WalkFollows context active expanding ⟨.object properties additional, traits⟩
      (outside.walk ⟨.object properties additional, traits⟩) := by
  have record := fun scope => follows_record scope listed further
  have contribute : ∀ scope depth, Follows context active expanding
      (.contribute ⟨.object properties additional, traits⟩ depth) .member (do
        return .record (← Surroundings.record (properties.map outside.walkedProperty)
          (additional.map outside.walked) scope)) := fun scope _ =>
    (record scope).map (fun _ _ _ => .contributeRecord) fun _ _ _ => .contributeRecord
  have expand : ∀ scope : Scope, Follows context active expanding
      (.expand ⟨.object properties additional, traits⟩ scope.name) .member (do
        return .record (← Surroundings.record (properties.map outside.walkedProperty)
          (additional.map outside.walked) scope)) := fun scope =>
    (record scope).map (fun _ _ _ => .expandRecord) fun _ _ _ => .expandRecord
  have isSame : ((properties.map outside.walkedProperty).isEmpty &&
      (additional.map outside.walked).isNone) = (properties.isEmpty && additional.isNone) := by
    cases properties <;> cases additional <;> rfl
  rw [walk_object, objectWalk, isSame]
  split
  · -- An object that says nothing of its members is a map that is used directly.
    rename_i isEmpty
    have isConstant : (⟨.object properties additional, traits⟩ : SchemaNode).constant? =
        some { kind := .map .any, nullable := traits.nullable } := by
      cases properties <;> cases additional <;> simp at isEmpty
      rfl
    have expression : ∀ (_ : Scope) depth,
        Follows context active expanding (.expression ⟨.object properties additional, traits⟩ depth)
          .type (pure { kind := .map .any, nullable := traits.nullable }) := fun _ _ =>
      Follows.pure fun _ => .constant isConstant
    have isPlain : SchemaNode.isDeclared ⟨.object properties additional, traits⟩ = false := by
      simp [SchemaNode.isDeclared, isEmpty]
    exact {
      declare := follows_plainWalk isPlain expression
      expression
      contribute := fun scope depth _ => contribute scope depth
      expand := fun scope _ => expand scope }
  · rename_i notEmpty
    have isDeclared : (⟨.object properties additional, traits⟩ : SchemaNode).isDeclared = true := by
      cases properties <;> cases additional <;> simp_all [SchemaNode.isDeclared]
    have declare : ∀ scope depth,
        Follows context active expanding (.declare ⟨.object properties additional, traits⟩ depth)
          .shape (do
            outside.reportUndeclared traits scope
            return .record (← Surroundings.record (properties.map outside.walkedProperty)
              (additional.map outside.walked) scope)) := by
      intro scope depth first last result consistent started ends
      obtain ⟨middle, notes, ends⟩ := ends_of_reportUndeclared ends
      obtain ⟨consistent, grows⟩ := notes.advances consistent
      refine (record scope).bind consistent (grows.started started) ends
        (fun _ => .declareRecord isDeclared notes) fun shape _ inside _ _ ends => ?_
      obtain ⟨rfl, rfl⟩ := (Synthesis.ends_pure_iff _).mp ends
      exact .declareRecord isDeclared notes inside
    exact {
      declare
      expression := fun scope depth =>
        follows_promote isDeclared scope fun named => declare named depth
      contribute := fun scope depth _ => contribute scope depth
      expand := fun scope _ => expand scope }

/-- The walk of a node that says nothing about a type follows the rules. -/
theorem walkFollows_any (traits : NodeTraits) :
    WalkFollows context active expanding ⟨.any, traits⟩ (outside.walk ⟨.any, traits⟩) := by
  rw [walk_any, anyWalk]
  split
  · rename_i constrained
    exact walkFollows_constant rfl rfl constrained constrained
  · rename_i unconstrained
    have isEmpty : traits.constraints.isEmpty = true := by simpa using unconstrained
    have expression : ∀ (_ : Scope) depth,
        Follows context active expanding (.expression ⟨.any, traits⟩ depth) .type
          (pure (TypeExpr.any.withNullable traits.nullable)) := fun _ _ =>
      Follows.pure fun _ => .constant rfl
    have isPlain : SchemaNode.isDeclared ⟨.any, traits⟩ = false := rfl
    exact {
      declare := follows_plainWalk isPlain expression
      expression
      contribute := fun _ _ _ => Follows.pure fun _ => .contributeRestriction isEmpty
      expand := fun _ _ => Follows.pure fun _ => .expandRestriction isEmpty }

/-- The walk of a reference follows the rules. -/
theorem Adequate.walkFollows_reference (adequate : outside.Adequate context active expanding)
    (target : String) (traits : NodeTraits) :
    WalkFollows context active expanding ⟨.reference target, traits⟩
      (outside.walk ⟨.reference target, traits⟩) := by
  have expression : ∀ scope depth,
      Follows context active expanding (.expression ⟨.reference target, traits⟩ depth) .type
        ((outside.walk ⟨.reference target, traits⟩).expression scope depth) := fun scope _ =>
    (adequate.reference target scope).map (fun _ _ _ => .use) fun _ _ _ => .use
  exact {
    declare := follows_plainWalk rfl expression
    expression
    contribute := fun _ _ isOther => by cases isOther
    expand := fun scope _ first last result consistent started ends => by
      refine (adequate.reference target scope).bind consistent started ends
        (fun _ => .expandReference) fun type _ looked consistent started ends => ?_
      have inside := adequate.expand target scope.path _ _ _ consistent started ends
      cases result with
      | ok shape => exact .expandReference looked inside
      | error located => exact .expandSchema looked inside }

/-- The walk of an intersection follows the rules if those of its members do. -/
theorem Adequate.walkFollows_intersection (adequate : outside.Adequate context active expanding)
    {members : List SchemaNode}
    (walks : ∀ member ∈ members, WalkFollows context active expanding member (outside.walk member))
    (discriminator : Option Discriminator) (traits : NodeTraits) :
    WalkFollows context active expanding ⟨.composed .allOf members discriminator, traits⟩
      (outside.walk ⟨.composed .allOf members discriminator, traits⟩) := by
  have declare : ∀ scope depth, Follows context active expanding
      (.declare ⟨.composed .allOf members discriminator, traits⟩ depth) .shape
        ((outside.walk ⟨.composed .allOf members discriminator, traits⟩).declare scope depth) := by
    intro scope depth first last result consistent started ends
    rw [walk_allOf] at ends
    obtain ⟨middle, notes, ends⟩ := ends_of_reportUndeclared ends
    obtain ⟨consistent, grows⟩ := notes.advances consistent
    refine (adequate.follows_intersection walks scope depth).bind consistent (grows.started started)
      ends (fun _ => .declareIntersection notes) fun shape _ inside _ _ ends => ?_
    have yields : Yields context expanding first
        (.declare ⟨.composed .allOf members discriminator, traits⟩ depth)
        (.shape (shape.admitting traits.nullable)) _ := .declareIntersection notes inside
    cases shape with
    | «alias» | record | enum | union =>
      obtain ⟨rfl, rfl⟩ := (Synthesis.ends_pure_iff _).mp ends
      exact yields
  have contribute : ∀ scope depth, Follows context active expanding
      (.contribute ⟨.composed .allOf members discriminator, traits⟩ depth) .member
        ((outside.walk ⟨.composed .allOf members discriminator, traits⟩).contribute scope
          depth) := by
    intro scope depth first last result consistent started ends
    rw [walk_allOf] at ends
    refine (adequate.follows_intersection walks scope depth).bind consistent started ends
      (fun _ => .contributeIntersection) fun shape _ inside consistent started ends => ?_
    -- The shape is contributed as it is, unless it is the name of a schema: then that is expanded.
    have takes := adequate.follows_take shape scope _ _ _ consistent started ends
    cases result with
    | ok taken => exact .contributeIntersection inside takes
    | error located => exact .contributeTake inside takes
  exact {
    declare
    expression := fun scope depth => by
      have promotes := follows_promote rfl scope fun named => declare named depth
      rw [walk_allOf] at promotes ⊢
      exact promotes
    contribute := fun scope depth _ => contribute scope depth
    -- An intersection is expanded to what it contributes.
    expand := fun scope _ first last result consistent started ends => by
      rw [walk_allOf] at ends
      have comes := contribute scope 0 first last result consistent started (by
        rw [walk_allOf]
        exact ends)
      cases result with
      | ok shape => exact .expandIntersection comes
      | error located => exact .expandIntersection comes }

/-- The walk of a choice follows the rules if those of its members do. -/
theorem Adequate.walkFollows_choice (adequate : outside.Adequate context active expanding)
    {kind : CompositionKind} (isChoice : kind ≠ .allOf) {members : List SchemaNode}
    (walks : ∀ member ∈ members, WalkFollows context active expanding member (outside.walk member))
    (discriminator : Option Discriminator) (traits : NodeTraits) :
    WalkFollows context active expanding ⟨.composed kind members discriminator, traits⟩
      (outside.walk ⟨.composed kind members discriminator, traits⟩) := by
  rw [outside.walk_choice traits isChoice]
  have declare := adequate.follows_union isChoice walks discriminator traits
  exact {
    declare
    expression := fun scope depth =>
      follows_promote rfl scope fun named => declare named depth
    contribute := fun _ _ _ => Follows.pure fun _ => .contributeChoice isChoice
    expand := fun _ onlyIntersections => absurd (onlyIntersections _ _ _ rfl) isChoice }

/-- Every walk follows the rules. -/
theorem Adequate.walkFollows (adequate : outside.Adequate context active expanding)
    (node : SchemaNode) : WalkFollows context active expanding node (outside.walk node) := by
  induction node using SchemaNode.inductionOn with
  | primitive base format traits => exact walkFollows_constant rfl rfl rfl rfl
  | enum base values traits => exact walkFollows_enum base values traits
  | array items traits walk => exact adequate.walkFollows_array walk traits
  | map value traits walk => exact walkFollows_map walk traits
  | object properties additional traits listed further =>
    exact walkFollows_object listed further traits
  | composed kind members discriminator traits walks =>
    by_cases isChoice : kind = .allOf
    · subst isChoice
      exact adequate.walkFollows_intersection walks discriminator traits
    · exact adequate.walkFollows_choice isChoice walks discriminator traits
  | reference target traits => exact adequate.walkFollows_reference target traits
  | any traits => exact walkFollows_any traits
  | null traits => exact walkFollows_constant rfl rfl rfl rfl

/-- A reference follows the rules if entering a component schema is an entry. -/
theorem follows_reference (isContext : outside.context = context)
    (enters : ∀ {target workspace}, Started active workspace →
      Entry context expanding target workspace ((outside.enter target).run workspace).2 ∧
        (∀ node, context.model.node? target = some node →
          ((outside.enter target).run workspace).2.resolver.state target ≠ .pending))
    (target : String) (scope : Scope) :
    Follows context active expanding (.reference target) .type (outside.reference target scope) := by
  intro first last result consistent started ends
  -- The schema is entered where it is pending, and the state in which it is left decides.
  have entry : Entry context expanding target first (outside.entered target first) := by
    unfold entered
    split
    · exact (enters started).1
    · exact .skip first
  cases outside.referenceEnds ends with
  | undefined isUndefined => exact .referenceUndefined (isContext ▸ isUndefined)
  | unready found isUnready =>
    rw [isContext] at found
    refine .referenceFailed found entry (isUnready.resolve_right ?_)
    unfold entered
    split
    · exact (enters started).2 _ found
    · assumption
  | ready found isReady =>
    rw [isContext] at found
    obtain ⟨name, emitted⟩ :=
      (context.exists_emitted?_iff target).mpr (context.model.mem_names found)
    have isName : ((outside.entered target first).resolver.emitted.get? target).getD target =
        name := by
      rw [((entry.advances consistent).1).emitted_get?, emitted]
      rfl
    rw [isName]
    exact .reference found emitted entry isReady

end Surroundings

namespace Synthesis

/-- What is asked inside schemas in progress and expansions follows the rules. -/
theorem adequate_within (context : Context) (muted : Bool) (active expanding : List String) :
    (within context muted active expanding).Adequate context active expanding := by
  -- The induction is on the schemas that are neither in progress nor expanded: entering a schema puts it
  -- among the former, expanding it among the latter, and whatever is asked inside is known to follow.
  induction active, expanding using withinInduction context.model generalizing muted with
  | step active expanding inside expansion =>
    refine ⟨rfl, Surroundings.follows_reference rfl fun {target workspace} started => ?_,
      fun schema path first last result consistent started ends => ?_⟩
    · change Entry context expanding target workspace
        ((enterWithin context active expanding target).run workspace).2 ∧ ∀ node,
          context.model.node? target = some node →
            ((enterWithin context active expanding target).run workspace).2.resolver.state target ≠
              .pending
      rcases enterWithin_cases context active expanding target workspace with
        ⟨same, why⟩ | ⟨node, result, inner, found, fresh, pending, ends, isLast⟩
      · rw [same]
        refine ⟨.skip workspace, fun node found => ?_⟩
        rcases why with undefined | isActive | notPending
        · simp [found] at undefined
        · exact started target isActive
        · exact notPending
      · rw [isLast]
        refine ⟨.component found pending started ends, fun _ _ => ?_⟩
        cases result <;> simp [Workspace.conclude, Resolver.state_finish]
    · rcases expandWithin_cases ends with ⟨isExpanding, rfl, rfl⟩ | ⟨undefined, rfl, rfl⟩ |
        ⟨node, found, fresh, ⟨isChoice, rfl, rfl⟩ | ⟨notChoice, expands⟩⟩
      · exact .schemaCyclic isExpanding
      · exact .schemaUndefined undefined
      · exact .schemaChoice fresh found isChoice
      · obtain ⟨name, emitted⟩ :=
          (context.exists_emitted?_iff schema).mpr (context.model.mem_names found)
        have isName : emittedName first schema schema = name := by
          simp [emittedName, consistent.emitted_get?, emitted]
        have walk := (expansion schema node found fresh true).walkFollows node
        -- A choice is refused before it is walked.
        have onlyIntersections : ∀ kind members discriminator,
            node.kind = .composed kind members discriminator → kind = .allOf := by
          intro kind members discriminator isKind
          by_contra isChoice
          have isUnion : context.model.isUnion node = true := by
            rw [SchemaModel.isUnion, SchemaModel.isUnionAfter, isKind]
            cases kind <;> first | rfl | exact absurd rfl isChoice
          simp [isUnion] at notChoice
        have comes := walk.expand _ onlyIntersections _ _ _ consistent started expands
        rw [isName] at comes
        cases result with
        | ok shape => exact .schema fresh found notChoice emitted comes
        | error located => exact .schema fresh found notChoice emitted comes

/-- A component schema is entered inside nothing. -/
theorem entry_enter (context : Context) (name : String) (workspace : Workspace) :
    Entry context [] name workspace ((enter context name).run workspace).2 := by
  rcases enterWithin_cases context [] [] name workspace with
    ⟨same, _⟩ | ⟨node, result, inner, found, _, pending, ends, isLast⟩
  · rw [enter, same]
    exact .skip workspace
  · rw [enter, isLast]
    exact .component found pending (by simp) ends

end Synthesis

end ApiTypes
