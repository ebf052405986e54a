import ApiTypes.Proofs.Synthesis.Correspondence

/-!
Properties of actions that every walk has because its steps have them. Such a property is a relation
between each action and itself, which the walks of a node in the same surroundings have.
-/

namespace ApiTypes

/--
A property of actions that whatever is done itself in the walk of a node has: at some places, with the
component schemas that the node refers to and those that it merges.
-/
structure Traversal (outside : Surroundings) (places uses merges : String → Prop)
    (holds : ⦃α : Type⦄ → Synthesis α → Prop) : Prop where
  below : ∀ {path : String} (rest : String), places path → places (path ++ "/" ++ rest)
  pure : ∀ {α : Type} (value : α), holds (pure value : Synthesis α)
  bind : ∀ {α β : Type} {action : Synthesis α} {next : α → Synthesis β}, holds action →
    (∀ value, holds (next value)) → holds (action >>= next)
  registry : ∀ {α : Type} {next : Registry → Synthesis α}, (∀ registry, holds (next registry)) →
    holds (get >>= fun workspace => next workspace.registry)
  fail : ∀ {α : Type} {path : String} (failure : Failure), failure.isOwn = true → places path →
    holds (Synthesis.fail path failure : Synthesis α)
  register : ∀ (candidate : String) (shape : Shape) (doc : Option String) (deprecated : Bool)
    (path : String), holds (Synthesis.register candidate shape doc deprecated (.inline path))
  undeclared : ∀ (traits : NodeTraits) {scope : Scope}, places scope.path →
    holds (outside.reportUndeclared traits scope)
  notes : ∀ (notes : List MergeNote) {scope : Scope}, places scope.path →
    holds (outside.reportNotes notes scope)
  reference : ∀ {target : String} {scope : Scope}, uses target → places scope.path →
    holds (outside.reference target scope)
  /-- What is merged is looked up before it is expanded. -/
  merge : ∀ {α : Type} {target : String} {scope : Scope}
    {next : TypeExpr → MemberShape → Synthesis α}, uses target → merges target →
    places scope.path → (∀ type shape, holds (next type shape)) →
    holds (do
      let type ← outside.reference target scope
      let shape ← outside.expand target scope.path
      next type shape)
  /-- What a nested intersection contributes may be expanded once more. -/
  take : ∀ {members : List SchemaNode} {scope : Scope} {depth : Nat},
    (∀ member ∈ members, ∀ target, member.Refers target → uses target) →
    (∀ member ∈ members, ∀ target, member.Includes target → merges target) →
    places scope.path →
    holds (outside.intersection (members.map outside.walked) scope depth) →
    holds (do
      outside.contributionOf (← outside.intersection (members.map outside.walked) scope depth)
        scope)

/-- What is asked of a node at some places has a property. -/
structure WalkHolds (places : String → Prop) (holds : ⦃α : Type⦄ → Synthesis α → Prop)
    (walk : NodeWalk) : Prop where
  declare : ∀ {scope : Scope} (depth : Nat), places scope.path → holds (walk.declare scope depth)
  expression : ∀ {scope : Scope} (depth : Nat), places scope.path →
    holds (walk.expression scope depth)
  contribute : ∀ {scope : Scope} (depth : Nat), places scope.path →
    holds (walk.contribute scope depth)

namespace Traversal

open Surroundings

/-- An action is itself, and has a property. -/
def Repeats (holds : ⦃α : Type⦄ → Synthesis α → Prop) ⦃α : Type⦄ (action also : Synthesis α) : Prop :=
  action = also ∧ holds action

variable {outside : Surroundings} {places uses merges : String → Prop}
  {holds : ⦃α : Type⦄ → Synthesis α → Prop} {α β : Type} {scope : Scope}

/-- A walk with a property is related to itself. -/
theorem walksRelate {context : Context} {node : SchemaNode} {walk : NodeWalk}
    (walks : WalkHolds places holds walk) :
    WalksRelate context places (fun _ => True) (Repeats holds) node walk walk where
  declare depth isPlace _ := ⟨rfl, walks.declare depth isPlace⟩
  expression depth isPlace _ := ⟨rfl, walks.expression depth isPlace⟩
  contribute depth isPlace _ := ⟨rfl, walks.contribute depth isPlace⟩

/-- What actions give may be transformed. -/
theorem map (traversal : Traversal outside places uses merges holds) {action : Synthesis α}
    (acts : holds action) (transform : α → β) : holds (do return transform (← action)) :=
  traversal.bind acts fun _ => traversal.pure _

/-- Members may turn out not to combine. -/
theorem liftComposition (traversal : Traversal outside places uses merges holds) {path : String}
    (isPlace : places path) {combined : Except CompositionError α}
    (own : ∀ error, combined = .error error → (Failure.composition error).isOwn = true) :
    holds (Synthesis.liftComposition path combined) := by
  cases combined with
  | ok value => exact traversal.pure value
  | error error => exact traversal.fail _ (own error rfl) isPlace

/-- The case of a choice may need a name. -/
theorem nameMember (traversal : Traversal outside places uses merges holds) (type : TypeExpr)
    (parent member : Scope) : holds (Surroundings.nameMember type parent member) := by
  unfold Surroundings.nameMember
  split
  · exact traversal.pure _
  · have named : ∀ registry, holds (Synthesis.register
        (memberCandidate registry parent.name type) (.alias (type.withNullable false)) none false
        (.inline member.path)) := fun registry => traversal.register _ _ _ _ _
    exact traversal.registry named

/-- Every action with the property corresponds to itself. -/
theorem correspondence (traversal : Traversal outside places uses merges holds) :
    Correspondence outside outside places uses merges (fun _ => True) (Repeats holds) where
  maxArrayDepth_eq := rfl
  maxItems_eq := rfl
  leadsToChoice_eq _ := rfl
  below := traversal.below
  -- A walk is compared with itself, so each action is equal to its counterpart and holds by the field.
  pure value := ⟨rfl, traversal.pure value⟩
  bind earlier later := by
    obtain ⟨rfl, acts⟩ := earlier
    cases funext fun value => (later value).1
    exact ⟨rfl, traversal.bind acts fun value => (later value).2⟩
  fail failure isOwn isPlace := ⟨rfl, traversal.fail failure isOwn isPlace⟩
  register shape doc deprecated path _ := ⟨rfl, traversal.register _ shape doc deprecated path⟩
  nameCase _ used later := by
    cases funext fun type => funext fun name => (later type name).1
    exact ⟨rfl, traversal.bind used.2 fun type => traversal.bind (traversal.nameMember type _ _)
      fun name => (later type name).2⟩
  combine inputs path isPlace := ⟨rfl, by
    -- Whatever the registry is, a merge reports only what is its own.
    have merged : ∀ registry : Registry, holds (Synthesis.liftComposition path
        (mergeAllOf inputs registry.equivalent)) := fun _ =>
      traversal.liftComposition isPlace fun _ => isOwn_mergeAllOf
    exact traversal.registry merged⟩
  undeclared traits _ isPlace := ⟨rfl, traversal.undeclared traits isPlace⟩
  notes notes _ isPlace := ⟨rfl, traversal.notes notes isPlace⟩
  reference isUsed isPlace := ⟨rfl, traversal.reference isUsed isPlace⟩
  merge isUsed isMerged isPlace later := by
    cases funext fun type => funext fun shape => (later type shape).1
    exact ⟨rfl, traversal.merge isUsed isMerged isPlace fun type shape => (later type shape).2⟩
  take refers includes isPlace intersects :=
    ⟨rfl, traversal.take refers includes isPlace intersects.2⟩

/-- An array may exceed a limit. -/
theorem checkArray (traversal : Traversal outside places uses merges holds)
    (isPlace : places scope.path) (constraints : Constraints) (depth : Nat) :
    holds (outside.checkArray constraints scope depth) :=
  (traversal.correspondence.checkArray isPlace constraints depth).2

/-- The values of a map are walked. -/
theorem mapValue (inside : scope.Inside places) {value : SchemaNode}
    (walks : WalkHolds places holds (outside.walk value)) (depth : Nat) :
    holds (Surroundings.mapValue (outside.walked value) scope depth) :=
  (Correspondence.mapValue inside (fun _ _ _ => trivial) (walksRelate walks) depth).2

/-- The properties of an object are walked, the declared ones first. -/
theorem record (traversal : Traversal outside places uses merges holds) (inside : scope.Inside places)
    {properties : List (Property SchemaNode)} {additional : Option SchemaNode}
    (listed : ∀ property ∈ properties, WalkHolds places holds (outside.walk property.schema))
    (further : ∀ value ∈ additional, WalkHolds places holds (outside.walk value)) :
    holds (Surroundings.record (properties.map outside.walkedProperty)
      (additional.map outside.walked) scope) :=
  (@Correspondence.record _ _ _ _ _ _ _ _ traversal.correspondence inside _ _ {} (fun _ _ => trivial)
    (fun property isListed => walksRelate (listed property isListed))
    fun value isValue => walksRelate (further value isValue)).2

/-- The cases of a choice are walked one after the other. -/
theorem cases (traversal : Traversal outside places uses merges holds) (inside : scope.Inside places)
    (kind : CompositionKind) (depth : Nat) {members : List SchemaNode}
    (walks : ∀ member ∈ members, WalkHolds places holds (outside.walk member)) (index : Nat) :
    holds (Surroundings.cases kind scope depth (members.map outside.walked) index) :=
  (traversal.correspondence.cases inside kind depth index
    (fun _ _ _ _ => ⟨fun _ _ _ => trivial, fun _ _ => trivial⟩)
    fun member isMember => walksRelate (walks member isMember)).2

/-- A discriminator is made out of what it leads to. -/
theorem discriminated (traversal : Traversal outside places uses merges holds)
    (inside : scope.Inside places) {discriminator : Option Discriminator}
    (refers : ∀ found ∈ discriminator, ∀ target ∈ found.mapping.values, uses target) :
    holds (discriminator.mapM (outside.discriminate scope)) :=
  (traversal.correspondence.discriminated inside refers).2

/-- The members of an intersection are walked one after the other. -/
theorem members (traversal : Traversal outside places uses merges holds) (inside : scope.Inside places)
    (depth : Nat) {nodes : List SchemaNode}
    (refers : ∀ node ∈ nodes, ∀ target, node.Refers target → uses target)
    (includes : ∀ node ∈ nodes, ∀ target, node.Includes target → merges target)
    (walks : ∀ node ∈ nodes, WalkHolds places holds (outside.walk node)) (index : Nat) :
    holds (outside.members scope depth (nodes.map outside.walked) index) :=
  (traversal.correspondence.members inside depth refers includes (fun _ _ _ _ _ => trivial)
    (fun node isNode => walksRelate (walks node isNode)) index).2

/-- Whatever is asked of a node has the property. -/
theorem walk (traversal : Traversal outside places uses merges holds) (node : SchemaNode)
    (refers : ∀ target, node.Refers target → uses target)
    (merging : ∀ target, node.Merges target → merges target) :
    WalkHolds places holds (outside.walk node) :=
  have walks := traversal.correspondence.walk node refers merging
  ⟨fun depth isPlace => (walks.declare depth isPlace fun _ _ => trivial).2,
    fun depth isPlace => (walks.expression depth isPlace fun _ _ => trivial).2,
    fun depth isPlace => (walks.contribute depth isPlace fun _ _ => trivial).2⟩

/-- What a component schema contributes by its node has the property. -/
theorem expand (traversal : Traversal outside places uses merges holds) (node : SchemaNode)
    (refers : ∀ target, node.Refers target → uses target)
    (merging : ∀ target, node.Merges target → merges target)
    (includes : ∀ target, node.Includes target → merges target) (isPlace : places scope.path) :
    holds ((outside.walk node).expand scope) :=
  (traversal.correspondence.expand node refers merging includes isPlace fun _ _ => trivial).2

end Traversal

end ApiTypes
