import ApiTypes.Proofs.Emission
import ApiTypes.Proofs.Synthesis.Beginnings
import ApiTypes.Proofs.Synthesis.Unfolding

/-!
Synthesis comes to an end, however the schemas of a document refer to each other. Within a schema the walk
goes down to smaller nodes; from one schema to another it goes by beginning a schema that has not begun or
by expanding one that is not expanded; and finishing takes away a declaration in every round, or finds a
name in every step.
-/

namespace ApiTypes

namespace NodeKind

variable {σ τ : Type}

/-- The schemas inside a kind. -/
def parts : NodeKind σ → List σ
  | array part | map part => [part]
  | object properties additional => properties.map Property.schema ++ additional.toList
  | composed _ members _ => members
  | primitive _ _ | enum _ _ | reference _ | any | null => []

/-- A kind with something else in the places of the schemas inside it. -/
def mapParts (transform : σ → τ) : NodeKind σ → NodeKind τ
  | primitive base format => primitive base format
  | enum base values => enum base values
  | array items => array (transform items)
  | map value => map (transform value)
  | object properties additional =>
    object (properties.map fun property => { property with schema := transform property.schema })
      (additional.map transform)
  | composed kind members discriminator => composed kind (members.map transform) discriminator
  | reference target => reference target
  | any => any
  | null => null

end NodeKind

/-- What is inside a node is smaller than the node. -/
theorem SchemaNode.sizeOf_lt_of_mem_parts {kind : NodeKind SchemaNode} {part : SchemaNode}
    (isPart : part ∈ kind.parts) (traits : NodeTraits) :
    sizeOf part < sizeOf (⟨kind, traits⟩ : SchemaNode) := by
  -- A part stands in a list, an option or a property of the node, each of which is smaller.
  cases kind with
  | primitive | enum | reference | any | null => cases isPart
  | array | map =>
    cases List.mem_singleton.mp isPart
    simp only [SchemaNode.mk.sizeOf_spec, NodeKind.array.sizeOf_spec, NodeKind.map.sizeOf_spec]
    omega
  | composed kind members discriminator =>
    have isLess : sizeOf part < sizeOf members := List.sizeOf_lt_of_mem isPart
    simp only [SchemaNode.mk.sizeOf_spec, NodeKind.composed.sizeOf_spec]
    omega
  | object properties additional =>
    simp only [SchemaNode.mk.sizeOf_spec, NodeKind.object.sizeOf_spec]
    rcases List.mem_append.mp isPart with isListed | isFurther
    · obtain ⟨property, isProperty, rfl⟩ := List.mem_map.mp isListed
      have isLess : sizeOf property < sizeOf properties := List.sizeOf_lt_of_mem isProperty
      have isInside : sizeOf property.schema < sizeOf property := by
        obtain ⟨name, required, schema⟩ := property
        simp only [Property.mk.sizeOf_spec]
        omega
      omega
    · cases additional with
      | none => cases isFurther
      | some value =>
        cases List.mem_singleton.mp isFurther
        simp only [Option.some.sizeOf_spec]
        omega

/-- The walk of a node is made of the walks of the nodes inside it. -/
theorem Surroundings.walk_eq (outside : Surroundings) (kind : NodeKind SchemaNode)
    (traits : NodeTraits) :
    outside.walk ⟨kind, traits⟩ = outside.walkKind (kind.mapParts outside.walked) traits := by
  cases kind with
  | primitive | enum | array | map | reference | any | null => rfl
  | object properties additional => exact outside.walk_object traits properties additional
  | composed kind members discriminator =>
    cases kind with
    | allOf => exact outside.walk_allOf traits members discriminator
    | oneOf | anyOf => exact outside.walk_choice traits (by decide) members discriminator

namespace Recursion

variable {context : Context} {levels : Nat}

/-- At first there are at most twice as many schemas to begin and to expand as there are schemas. -/
theorem measure_le (context : Context) (workspace : Workspace) :
    measure context [] workspace ≤ 2 * context.model.names.length := by
  have waiting : (workspace.waiting context).card ≤ context.model.names.length :=
    (Finset.card_filter_le _ _).trans (List.toFinset_card_le _)
  have unexpanded : Search.remaining context.model.names [] ≤ context.model.names.length :=
    List.length_filter_le _ _
  unfold measure
  omega

/-- A recursion that reaches far enough enters component schemas as synthesis does. -/
theorem Reaches.forM_enter {recursion : Recursion} (reaches : recursion.Reaches context levels)
    (isEnough : 2 * context.model.names.length < levels) (names : List String) {first : Workspace}
    (consistent : Consistent context first) :
    (names.forM (recursion.enter [])).run first = (names.forM (Synthesis.enter context)).run first := by
  induction names generalizing first with
  | nil => rfl
  | cons name rest ih =>
    -- The levels are enough for every workspace, so they are also enough for the next schema.
    have same : (recursion.enter [] name).run first = (Synthesis.enter context name).run first :=
      (reaches [] [] first consistent (by simp [Started])
        ((measure_le context first).trans_lt isEnough)).1 name
    have unfolded : ((name :: rest).forM (recursion.enter [])).run first =
        (rest.forM (recursion.enter [])).run ((recursion.enter [] name).run first).2 := rfl
    rw [unfolded, same]
    exact ih ((Synthesis.runs_enter consistent name).consistent consistent).1

/-- So it synthesizes all component schemas as synthesis does. -/
theorem Reaches.enterAll {recursion : Recursion} (reaches : recursion.Reaches context levels)
    (isEnough : 2 * context.model.names.length < levels) {workspace : Workspace}
    (consistent : Consistent context workspace) :
    (context.model.names.forM (recursion.enter [])).run workspace =
      (Synthesis.enterAll context).run workspace :=
  reaches.forM_enter isEnough context.model.names consistent

/-- The schemas of operations are walked as synthesis walks them. -/
theorem Reaches.expression {recursion : Recursion} (reaches : recursion.Reaches context levels)
    (isEnough : 2 * context.model.names.length < levels) {workspace : Workspace}
    (consistent : Consistent context workspace) (node : SchemaNode) (scope : Scope) :
    (((recursion.around context false []).walk node).expression scope 0).outcome workspace =
      (((Synthesis.surroundings context).walk node).expression scope 0).outcome workspace := by
  have beside := reaches.beside [] [] false ((measure_le context workspace).trans_lt isEnough)
  have walks := beside.correspondence.walk node (fun _ _ => trivial) fun _ _ => trivial
  exact (walks.expression 0 trivial (fun _ _ => trivial) workspace consistent (by simp [Started])
    (Nat.le_refl _)).1

end Recursion

/-- Why the synthesis of component schemas comes to an end. -/
structure Context.Terminates (context : Context) : Prop where
  /-- Whatever is asked of a node is made of what is asked of the nodes inside it. -/
  walk_eq : ∀ (outside : Surroundings) kind traits,
    outside.walk ⟨kind, traits⟩ = outside.walkKind (kind.mapParts outside.walked) traits
  smaller : ∀ (kind : NodeKind SchemaNode) (traits : NodeTraits), ∀ part ∈ kind.parts,
    sizeOf part < sizeOf (⟨kind, traits⟩ : SchemaNode)
  /-- Schemas that begin do so once. -/
  begins_once : ∀ begun workspace, BeginsUpTo context begun workspace →
    begun.Nodup ∧ ∀ schema, schema ∈ begun ↔ workspace.resolver.state schema ≠ .pending
  /-- No schema is put on the stack of expansions while it stands there. -/
  expands_once : ∀ one other : Recursion, one.SameOnDistinct other →
    (one.unfold context).SameOnDistinct (other.unfold context)
  /-- The recursion between schemas does not depend on what is done behind enough levels of it. -/
  reaches : ∀ (bottom : Recursion) (levels : Nat),
    ((Recursion.unfold context)^[levels] bottom).Reaches context levels
  /-- Twice as many levels as there are schemas are enough for all component schemas. -/
  enterAll_eq : ∀ (bottom : Recursion) (levels : Nat), 2 * context.model.names.length < levels →
    (context.model.names.forM (((Recursion.unfold context)^[levels] bottom).enter [])).run
        (Workspace.ofContext context) =
      (Synthesis.enterAll context).run (Workspace.ofContext context)
  /-- They are also enough for the schemas of operations, which are walked after that. -/
  expression_eq : ∀ (bottom : Recursion) (levels : Nat), 2 * context.model.names.length < levels →
    ∀ workspace, Consistent context workspace → ∀ node scope,
      (((((Recursion.unfold context)^[levels] bottom).around context false []).walk node).expression
        scope 0).outcome workspace =
      (((Synthesis.surroundings context).walk node).expression scope 0).outcome workspace

/-- The synthesis of component schemas always comes to an end. -/
theorem Context.terminates (context : Context) : context.Terminates where
  walk_eq := Surroundings.walk_eq
  smaller _ traits _ isPart := SchemaNode.sizeOf_lt_of_mem_parts isPart traits
  begins_once _ _ begins := begins.once
  expands_once _ _ same := same.unfold context
  reaches := Recursion.reaches_iterate
  enterAll_eq bottom levels isEnough :=
    (Recursion.reaches_iterate bottom levels).enterAll isEnough (Consistent.ofContext context)
  expression_eq bottom levels isEnough _ consistent :=
    (Recursion.reaches_iterate bottom levels).expression isEnough consistent

/-- One round of withdrawal. -/
def Workspace.round (workspace : Workspace) : Workspace :=
  workspace.withdraw workspace.registry.dangling

/-- Withdrawal goes on for exactly as many rounds as there is something to withdraw. -/
theorem Workspace.exists_rounds {workspace : Workspace} (wellFormed : workspace.registry.WellFormed) :
    ∃ rounds ≤ workspace.registry.order.length, workspace.withdrawDangling = round^[rounds] workspace ∧
      (round^[rounds] workspace).registry.dangling = [] ∧
      ∀ earlier < rounds, (round^[earlier] workspace).registry.dangling ≠ [] := by
  -- The induction is that of the withdrawal, which goes on while declarations become fewer.
  induction workspace using withdrawDangling.induct with
  | case1 workspace next shorter ih =>
    have unsettled := (withdraw_shortens_iff wellFormed).mp shorter
    have nextWellFormed : next.registry.WellFormed :=
      (withdraws_withdraw wellFormed).registry_eq ▸ wellFormed.removeAll _
    obtain ⟨rounds, isBounded, isLast, settled, before⟩ := ih nextWellFormed
    rw [withdrawDangling, if_pos shorter]
    refine ⟨rounds + 1, ?_, isLast, settled, fun earlier isEarlier => ?_⟩
    · exact Nat.succ_le_of_lt (isBounded.trans_lt shorter)
    · cases earlier with
      | zero => exact unsettled
      | succ earlier => exact before earlier (Nat.lt_of_succ_lt_succ isEarlier)
  | case2 workspace next notShorter =>
    have settled := mt (withdraw_shortens_iff wellFormed).mpr notShorter
    rw [withdrawDangling, if_neg notShorter]
    exact ⟨0, Nat.zero_le _, rfl, not_not.mp settled, by simp⟩

namespace Registry

/-- What the declaration of a name mentions. -/
def mentionsOf (registry : Registry) (name : String) : List String :=
  (registry.get? name).elim [] Declaration.mentions

/--
One step of the search for what names lead to: the first name that waits is found, and what it mentions
waits behind the others.
-/
def follow (registry : Registry) : List String × List String → List String × List String
  | (found, []) => (found, [])
  | (found, name :: waiting) =>
    if found.contains name then (found, waiting)
    else (name :: found, waiting ++ registry.mentionsOf name)

variable {registry : Registry}

/-- A name that is not declared mentions nothing. -/
theorem WellFormed.mentionsOf_eq_nil (wellFormed : registry.WellFormed) {name : String}
    (unordered : name ∉ registry.order) : registry.mentionsOf name = [] := by
  have undeclared := mt (wellFormed.mem_order_iff name).mpr unordered
  cases found : registry.get? name with
  | none => simp [mentionsOf, found]
  | some declaration => exact absurd ((registry.isDeclared_iff name).mpr ⟨declaration, found⟩) undeclared

/-- The search is over after finitely many steps. -/
theorem WellFormed.exists_steps (wellFormed : registry.WellFormed) (found waiting : List String) :
    ∃ steps, (registry.follow^[steps] (found, waiting)).2 = [] := by
  -- Every step takes a name from those that wait, and those that it adds from those that may be added.
  generalize isEffort : Search.effort (fun name => some (registry.mentionsOf name)) found
    registry.order + waiting.length = effort
  induction effort using Nat.strong_induction_on generalizing found waiting with
  | _ effort ih =>
    subst isEffort
    cases waiting with
    | nil => exact ⟨0, rfl⟩
    | cons name waiting =>
      suffices ∃ steps, (registry.follow^[steps] (registry.follow (found, name :: waiting))).2 = [] by
        obtain ⟨steps, isOver⟩ := this
        exact ⟨steps + 1, isOver⟩
      simp only [follow]
      split
      · exact ih _ (by simp) _ _ rfl
      · rename_i fresh
        have notFound : found.contains name = false := by simpa using fresh
        refine ih _ ?_ _ _ rfl
        by_cases isOrdered : name ∈ registry.order
        · have isLess := @Search.effort_cons_lt _ _ _ (fun name => some (registry.mentionsOf name)) _
            _ _ _ isOrdered notFound rfl
          simp only [List.length_append, List.length_cons]
          omega
        · have isLess := Search.effort_cons_le (fun name => some (registry.mentionsOf name)) name found
            registry.order
          simp only [List.length_append, List.length_cons, wellFormed.mentionsOf_eq_nil isOrdered,
            List.length_nil]
          omega

/-- A name is mentioned by a declaration if it is among what that mentions. -/
theorem mem_mentionsOf_iff (name mentioned : String) :
    mentioned ∈ registry.mentionsOf name ↔ registry.Mentions name mentioned := by
  cases found : registry.get? name <;> simp [mentionsOf, Mentions, found]

/-- What a search has found, and what waits, while it goes on from some names. -/
structure Searches (registry : Registry) (start : List String) (state : List String × List String) :
    Prop where
  /-- The names lead to all of it. -/
  led : ∀ name, name ∈ state.1 ∨ name ∈ state.2 →
    ∃ first ∈ start, Relation.ReflTransGen registry.Mentions first name
  starts : ∀ first ∈ start, first ∈ state.1 ∨ first ∈ state.2
  closed : ∀ name ∈ state.1, ∀ mentioned, registry.Mentions name mentioned →
    mentioned ∈ state.1 ∨ mentioned ∈ state.2

/-- A step of the search finds nothing that is not led to, and loses nothing. -/
theorem Searches.follow {start : List String} {state : List String × List String}
    (searches : registry.Searches start state) : registry.Searches start (registry.follow state) := by
  -- A name that has been found is skipped; any other is found now, and what it mentions waits.
  obtain ⟨led, starts, closed⟩ := searches
  obtain ⟨found, waiting⟩ := state
  cases waiting with
  | nil => exact ⟨led, starts, closed⟩
  | cons name waiting =>
    simp only [Registry.follow]
    split
    · rename_i isFound
      have again : ∀ other, other ∈ found ∨ other ∈ name :: waiting → other ∈ found ∨ other ∈ waiting := by
        rintro other (wasFound | waits)
        · exact .inl wasFound
        · rcases List.mem_cons.mp waits with rfl | stillWaits
          · exact .inl (by simpa using isFound)
          · exact .inr stillWaits
      exact ⟨fun other isThere => led other (isThere.imp_right (List.mem_cons_of_mem _)),
        fun first isFirst => again first (starts first isFirst),
        fun other isFound mentioned mentions => again mentioned (closed other isFound mentioned mentions)⟩
    · have moves : ∀ other, other ∈ found ∨ other ∈ name :: waiting →
          other ∈ name :: found ∨ other ∈ waiting ++ registry.mentionsOf name := by
        intro other isThere
        simp only [List.mem_cons, List.mem_append] at isThere ⊢
        rcases isThere with wasFound | rfl | waits
        · exact .inl (.inr wasFound)
        · exact .inl (.inl rfl)
        · exact .inr (.inl waits)
      refine ⟨fun other isThere => ?_, fun first isFirst => moves first (starts first isFirst),
        fun other isFound mentioned mentions => ?_⟩
      · simp only [List.mem_cons, List.mem_append, mem_mentionsOf_iff] at isThere
        rcases isThere with (rfl | wasFound) | waits | mentions
        · exact led other (.inr List.mem_cons_self)
        · exact led other (.inl wasFound)
        · exact led other (.inr (List.mem_cons_of_mem _ waits))
        · obtain ⟨first, isFirst, leads⟩ := led name (.inr List.mem_cons_self)
          exact ⟨first, isFirst, leads.tail mentions⟩
      · rcases List.mem_cons.mp isFound with rfl | wasFound
        · exact .inr (List.mem_append_right _ ((mem_mentionsOf_iff _ _).mpr mentions))
        · exact moves mentioned (closed other wasFound mentioned mentions)

/-- The search ends, and has then found the declared names that are reachable from its start. -/
theorem WellFormed.search_ends (wellFormed : registry.WellFormed) (start : List String) :
    ∃ steps, (registry.follow^[steps] ([], start)).2 = [] ∧ ∀ name,
      registry.isDeclared name = true →
        (name ∈ (registry.follow^[steps] ([], start)).1 ↔ name ∈ registry.reachable start) := by
  -- The invariant holds from the start, and once nothing waits, what is found is closed.
  obtain ⟨steps, isOver⟩ := wellFormed.exists_steps [] start
  have searches : ∀ steps, registry.Searches start (registry.follow^[steps] ([], start)) := by
    intro steps
    induction steps with
    | zero => exact ⟨by simpa using fun name isFirst => ⟨name, isFirst, .refl⟩, by simp, by simp⟩
    | succ steps ih =>
      rw [Function.iterate_succ_apply']
      exact ih.follow
  have ⟨led, starts, closed⟩ := searches steps
  refine ⟨steps, isOver, fun name isDeclared => ?_⟩
  rw [isOver] at led starts closed
  simp only [List.not_mem_nil, or_false] at led starts closed
  rw [wellFormed.mem_reachable_iff]
  refine ⟨fun isFound => ⟨isDeclared, led name isFound⟩, ?_⟩
  rintro ⟨-, first, isFirst, leads⟩
  clear isDeclared
  induction leads with
  | refl => exact starts first isFirst
  | tail _ mentions ih => exact closed _ ih _ mentions

end Registry

/-- Why the loops that finish a workspace come to an end. -/
structure Workspace.FinishTerminates (workspace : Workspace) : Prop where
  /-- Rounds of withdrawal follow each other until nothing is to be withdrawn. -/
  rounds : ∃ rounds ≤ workspace.registry.order.length,
    workspace.withdrawDangling = round^[rounds] workspace ∧
      (round^[rounds] workspace).registry.dangling = [] ∧
      ∀ earlier < rounds, (round^[earlier] workspace).registry.dangling ≠ []
  /-- The search for what is reached goes on until no name waits. -/
  search : ∀ start, ∃ steps,
    (workspace.withdrawDangling.registry.follow^[steps] ([], start)).2 = [] ∧ ∀ name,
      workspace.withdrawDangling.registry.isDeclared name = true →
        (name ∈ (workspace.withdrawDangling.registry.follow^[steps] ([], start)).1 ↔
          name ∈ workspace.withdrawDangling.registry.reachable start)

/--
Synthesis always comes to an end. Its recursion between component schemas is over after twice as many
levels as there are schemas; every schema begins once and no other does; and so are its loops at the end.
-/
theorem Document.synthesis_terminates (document : Document) (config : Config) :
    (document.context config).Terminates ∧
      (∃ begun, BeginsUpTo (document.context config) begun (document.unfinished config) ∧
        begun.Nodup ∧ ∀ schema, schema ∈ begun ↔ schema ∈ document.schemas.keys) ∧
      (document.unfinished config).FinishTerminates := by
  -- Schemas begin once each, and the withdrawal and the searches end in any registry that is well-
  -- formed.
  have reachable := (document.binds_unfinished config).reachable
  have consistent := reachable.consistent
  refine ⟨(document.context config).terminates, ?_, Workspace.exists_rounds consistent.wellFormed,
    (Workspace.wellFormed_withdrawDangling consistent.wellFormed).search_ends⟩
  obtain ⟨begun, begins⟩ := reachable.beginsUpTo
  obtain ⟨distinct, isBegun⟩ := begins.once
  refine ⟨begun, begins, distinct,
    fun schema => (isBegun schema).trans ⟨fun started => ?_, fun isSchema => ?_⟩⟩
  · rw [← document.names_context config]
    exact consistent.of_state started
  · rcases document.state_unfinished config isSchema with registered | failed
    · simp [registered]
    · simp [failed]

end ApiTypes
