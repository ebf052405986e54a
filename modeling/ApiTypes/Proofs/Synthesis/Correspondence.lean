import ApiTypes.Proofs.Synthesis.Candidates

/-!
Relations between actions that the walks of a node in two surroundings have because their steps have them.
A walk registers shapes, merges members, fails and reports at places below its own, looks up what its node
refers to, and expands what its node merges; nothing else has to be known of it.
-/

namespace ApiTypes

/--
Whether a walk comes to a failure by itself, rather than by what it looks up or expands. Nothing includes
itself but what is expanded.
-/
def Failure.isOwn : Failure → Bool
  | .composition (.cyclicIntersection _) => false
  | .composition _ | .arrayLimit _ => true
  | .undefinedReference _ | .dependencyFailed _ | .circularAlias _ => false

/-- A choice is not united only if it has no cases, to which a walk comes by itself. -/
theorem isOwn_unionOf {kind : CompositionKind} {names : List String} {nullable : Bool}
    {discriminator : Option Discriminator} {error : CompositionError}
    (unites : unionOf kind names nullable discriminator = .error error) :
    (Failure.composition error).isOwn = true := by
  unfold unionOf at unites
  split at unites <;> cases unites
  rfl

/-- Members that do not merge fail by themselves. -/
theorem isOwn_mergeAllOf {members : List IntersectionMember}
    {equivalent : TypeKind TypeExpr → TypeKind TypeExpr → Bool} {error : CompositionError}
    (clashes : mergeAllOf members equivalent = .error error) :
    (Failure.composition error).isOwn = true := by
  obtain ⟨_, _, rfl⟩ | ⟨_, _, isWhole⟩ := Intersection.mergeAllOf_eq_error_iff.mp clashes
  · rfl
  · cases Intersection.refuses_of_mergeRecords_error isWhole <;> rfl

/--
A relation between actions in two surroundings that whatever is done itself in the walk of a node has: at
some places, with the component schemas that the node refers to and those that it merges, and with the
candidates that it tries for names.
-/
structure Correspondence (outside other : Surroundings) (places uses merges candidates : String → Prop)
    (relates : ⦃α : Type⦄ → Synthesis α → Synthesis α → Prop) : Prop where
  maxArrayDepth_eq : other.context.config.maxArrayDepth = outside.context.config.maxArrayDepth
  maxItems_eq : other.context.config.maxItems = outside.context.config.maxItems
  /-- An intersection of a single reference depends on whether that leads to a choice. -/
  leadsToChoice_eq : ∀ {target : String}, uses target →
    (other.context.model.node? target).any other.context.model.isUnion =
      (outside.context.model.node? target).any outside.context.model.isUnion
  below : ∀ {path : String} (rest : String), places path → places (path ++ "/" ++ rest)
  pure : ∀ {α : Type} (value : α), relates (pure value : Synthesis α) (pure value)
  bind : ∀ {α β : Type} {action also : Synthesis α} {next alsoNext : α → Synthesis β},
    relates action also → (∀ value, relates (next value) (alsoNext value)) →
      relates (action >>= next) (also >>= alsoNext)
  fail : ∀ {α : Type} {path : String} (failure : Failure), failure.isOwn = true → places path →
    relates (Synthesis.fail path failure : Synthesis α) (Synthesis.fail path failure)
  register : ∀ {candidate : String} (shape : Shape) (doc : Option String) (deprecated : Bool)
    (path : String), candidates candidate →
    relates (Synthesis.register candidate shape doc deprecated (.inline path))
      (Synthesis.register candidate shape doc deprecated (.inline path))
  /-- The candidate for the name of a case depends on the type that its node turns out to have. -/
  nameCase : ∀ {α : Type} {member : SchemaNode} {parent place : Scope} {depth : Nat}
    {next alsoNext : TypeExpr → String → Synthesis α},
    (∀ candidate, member.CaseName outside.context parent.name candidate → candidates candidate) →
    relates ((outside.walk member).expression place depth)
      ((other.walk member).expression place depth) →
    (∀ type name, relates (next type name) (alsoNext type name)) →
    relates
      (do
        let type ← (outside.walk member).expression place depth
        let name ← Surroundings.nameMember type parent place
        next type name)
      (do
        let type ← (other.walk member).expression place depth
        let name ← Surroundings.nameMember type parent place
        alsoNext type name)
  /-- Whether types of fields agree depends on what is declared. -/
  combine : ∀ (inputs : List IntersectionMember) {path : String}, places path → relates
    (get >>= fun workspace => Synthesis.liftComposition path
      (mergeAllOf inputs workspace.registry.equivalent) : Synthesis Merged)
    (get >>= fun workspace => Synthesis.liftComposition path
      (mergeAllOf inputs workspace.registry.equivalent))
  undeclared : ∀ (traits : NodeTraits) {scope : Scope}, places scope.path →
    relates (outside.reportUndeclared traits scope) (other.reportUndeclared traits scope)
  notes : ∀ (notes : List MergeNote) {scope : Scope}, places scope.path →
    relates (outside.reportNotes notes scope) (other.reportNotes notes scope)
  reference : ∀ {target : String} {scope : Scope}, uses target → places scope.path →
    relates (outside.reference target scope) (other.reference target scope)
  /-- What is merged is looked up before it is expanded. -/
  merge : ∀ {α : Type} {target : String} {scope : Scope}
    {next alsoNext : TypeExpr → MemberShape → Synthesis α}, uses target → merges target →
    places scope.path → (∀ type shape, relates (next type shape) (alsoNext type shape)) →
    relates
      (do
        let type ← outside.reference target scope
        let shape ← outside.expand target scope.path
        next type shape)
      (do
        let type ← other.reference target scope
        let shape ← other.expand target scope.path
        alsoNext type shape)
  /-- What a nested intersection contributes may be expanded once more. -/
  take : ∀ {members : List SchemaNode} {scope : Scope} {depth : Nat},
    (∀ member ∈ members, ∀ target, member.Refers target → uses target) →
    (∀ member ∈ members, ∀ target, member.Includes target → merges target) →
    places scope.path →
    relates (outside.intersection (members.map outside.walked) scope depth)
      (other.intersection (members.map other.walked) scope depth) →
    relates
      (do
        outside.contributionOf (← outside.intersection (members.map outside.walked) scope depth) scope)
      (do
        other.contributionOf (← other.intersection (members.map other.walked) scope depth) scope)

/-- All that stands below a scope is at some places. -/
def Scope.Inside (scope : Scope) (places : String → Prop) : Prop :=
  ∀ rest, places (scope.path ++ "/" ++ rest)

/-- A part with a pointer below that of its scope is at one of the places. -/
theorem Scope.Inside.append {scope : Scope} {places : String → Prop} (inside : scope.Inside places)
    (suffix rest : String) (isBelow : suffix = "/" ++ rest) : places (scope.path ++ suffix) := by
  rw [isBelow, ← String.append_assoc]
  exact inside rest

/-- Whatever is asked of a node in a scope, the candidates that are tried for names are of some sort. -/
def Scope.Allows (context : Context) (candidates : String → Prop) (asked : Asked) (node : SchemaNode)
    (scope : Scope) : Prop :=
  ∀ candidate, node.Tries context asked scope.name candidate → candidates candidate

/--
What is asked of a node at some places in two surroundings is related, if all candidates that are tried
are of some sort.
-/
structure WalksRelate (context : Context) (places candidates : String → Prop)
    (relates : ⦃α : Type⦄ → Synthesis α → Synthesis α → Prop) (node : SchemaNode)
    (walk also : NodeWalk) : Prop where
  declare : ∀ {scope : Scope} (depth : Nat), places scope.path →
    scope.Allows context candidates .declared node →
    relates (walk.declare scope depth) (also.declare scope depth)
  expression : ∀ {scope : Scope} (depth : Nat), places scope.path →
    scope.Allows context candidates .used node →
    relates (walk.expression scope depth) (also.expression scope depth)
  contribute : ∀ {scope : Scope} (depth : Nat), places scope.path →
    scope.Allows context candidates .contributed node →
    relates (walk.contribute scope depth) (also.contribute scope depth)

namespace Correspondence

open Surroundings

variable {outside other : Surroundings} {places uses merges candidates : String → Prop}
  {relates : ⦃α : Type⦄ → Synthesis α → Synthesis α → Prop} {α β : Type} {scope : Scope}

/-- What actions give may be transformed. -/
theorem map (corresponds : Correspondence outside other places uses merges candidates relates)
    {action also : Synthesis α} (related : relates action also) (transform : α → β) :
    relates (do return transform (← action)) (do return transform (← also)) :=
  corresponds.bind related fun _ => corresponds.pure _

/-- Something may be done with values that may be absent. -/
theorem mapM {γ δ : Type} (corresponds : Correspondence outside other places uses merges candidates relates)
    (value? : Option α) (first : α → γ) (second : α → δ) {body : γ → Synthesis β}
    {alsoBody : δ → Synthesis β}
    (related : ∀ value ∈ value?, relates (body (first value)) (alsoBody (second value))) :
    relates ((value?.map first).mapM body) ((value?.map second).mapM alsoBody) := by
  cases value? with
  | none => exact corresponds.pure none
  | some value =>
    simp only [Option.map_some, Option.mapM_some, map_eq_pure_bind]
    exact corresponds.bind (related value rfl) fun _ => corresponds.pure _

/-- Members may turn out not to combine. -/
theorem liftComposition (corresponds : Correspondence outside other places uses merges candidates relates)
    {path : String} (isPlace : places path) {combined : Except CompositionError α}
    (own : ∀ error, combined = .error error → (Failure.composition error).isOwn = true) :
    relates (Synthesis.liftComposition path combined) (Synthesis.liftComposition path combined) := by
  cases combined with
  | ok value => exact corresponds.pure value
  | error error => exact corresponds.fail _ (own error rfl) isPlace

/-- What stands below a place is at one of the places. -/
theorem inside (corresponds : Correspondence outside other places uses merges candidates relates)
    (isPlace : places scope.path) : scope.Inside places := fun rest => corresponds.below rest isPlace

/-- An array may exceed a limit. -/
theorem checkArray (corresponds : Correspondence outside other places uses merges candidates relates)
    (isPlace : places scope.path) (constraints : Constraints) (depth : Nat) :
    relates (outside.checkArray constraints scope depth)
      (other.checkArray constraints scope depth) := by
  -- The checks are the same, and fail at the same place.
  unfold Surroundings.checkArray
  dsimp only
  rw [corresponds.maxArrayDepth_eq, corresponds.maxItems_eq]
  split
  · exact corresponds.bind (corresponds.fail _ rfl isPlace) fun _ => by
      split
      · split
        · exact corresponds.fail _ rfl isPlace
        · exact corresponds.pure ()
      · exact corresponds.pure ()
  · split
    · split
      · exact corresponds.fail _ rfl isPlace
      · exact corresponds.pure ()
    · exact corresponds.pure ()

/-- The fields of an object are walked one after the other. -/
theorem fields (corresponds : Correspondence outside other places uses merges candidates relates)
    (inside : scope.Inside places) {properties : List (Property SchemaNode)}
    (allowed : ∀ property ∈ properties, ∀ path,
      (scope.child (CasedName.of property.name).pascal path).Allows outside.context candidates .used
        property.schema)
    (walks : ∀ property ∈ properties, WalksRelate outside.context places candidates relates
      property.schema (outside.walk property.schema) (other.walk property.schema)) :
    relates (Surroundings.fields scope (properties.map outside.walkedProperty))
      (Surroundings.fields scope (properties.map other.walkedProperty)) := by
  induction properties with
  | nil => exact corresponds.pure []
  | cons property rest ih =>
    have ⟨first, later⟩ := List.forall_mem_cons.mp walks
    have ⟨allowsFirst, allowsLater⟩ := List.forall_mem_cons.mp allowed
    simp only [List.map_cons, Surroundings.fields]
    refine corresponds.bind (first.expression 0 ?_ (allowsFirst _)) fun type =>
      corresponds.map (ih allowsLater later) _
    exact inside.append _ ("properties/" ++ Pointer.escape property.name) (by
      rw [← String.append_assoc]
      rfl)

/-- The values of a map are walked. -/
theorem mapValue (inside : scope.Inside places) {value : SchemaNode}
    (allowed : ∀ path, (scope.child "Value" path).Allows outside.context candidates .used value)
    (walks : WalksRelate outside.context places candidates relates value (outside.walk value)
      (other.walk value)) (depth : Nat) :
    relates (Surroundings.mapValue (outside.walked value) scope depth)
      (Surroundings.mapValue (other.walked value) scope depth) :=
  walks.expression depth (inside.append _ "additionalProperties" rfl) (allowed _)

/-- The properties of an object are walked, the declared ones first. -/
theorem record (corresponds : Correspondence outside other places uses merges candidates relates)
    (inside : scope.Inside places) {properties : List (Property SchemaNode)}
    {additional : Option SchemaNode} {traits : NodeTraits}
    (allowed : scope.Allows outside.context candidates .declared ⟨.object properties additional, traits⟩)
    (listed : ∀ property ∈ properties, WalksRelate outside.context places candidates relates
      property.schema (outside.walk property.schema) (other.walk property.schema))
    (further : ∀ value ∈ additional, WalksRelate outside.context places candidates relates value
      (outside.walk value) (other.walk value)) :
    relates
      (Surroundings.record (properties.map outside.walkedProperty) (additional.map outside.walked) scope)
      (Surroundings.record (properties.map other.walkedProperty) (additional.map other.walked)
        scope) := by
  unfold Surroundings.record
  have fields := corresponds.fields inside
    (fun property isListed _ candidate tries => allowed candidate (.property isListed tries)) listed
  refine corresponds.bind fields fun found => ?_
  refine corresponds.map (corresponds.mapM additional _ _ fun value isValue => ?_) _
  cases isValue
  exact mapValue inside (fun _ candidate tries => allowed candidate (.additional tries))
    (further value rfl) 0

/-- The cases of a choice are walked one after the other. -/
theorem cases (corresponds : Correspondence outside other places uses merges candidates relates)
    (inside : scope.Inside places) (kind : CompositionKind) (depth : Nat) {members : List SchemaNode}
    (index : Nat)
    (allowed : ∀ place member, members[place]? = some member → member.kind.isNull = false →
      (∀ path, (scope.child ("Variant" ++ toString (index + place + 1)) path).Allows outside.context
        candidates .used member) ∧
      ∀ candidate, member.CaseName outside.context scope.name candidate → candidates candidate)
    (walks : ∀ member ∈ members, WalksRelate outside.context places candidates relates member
      (outside.walk member) (other.walk member)) :
    relates (Surroundings.cases kind scope depth (members.map outside.walked) index)
      (Surroundings.cases kind scope depth (members.map other.walked) index) := by
  induction members generalizing index with
  | nil => exact corresponds.pure _
  | cons member rest ih =>
    obtain ⟨first, later⟩ := List.forall_mem_cons.mp walks
    have isPlace : places (scope.child ("Variant" ++ toString (index + 1))
        ("/" ++ kind.keyword ++ "/" ++ toString index)).path :=
      inside.append _ (kind.keyword ++ "/" ++ toString index) (by simp only [String.append_assoc])
    have others := ih (index + 1) (fun place member isMember notNull => by
      have following := allowed (place + 1) member isMember notNull
      rwa [← Nat.add_assoc, Nat.add_right_comm index place] at following) later
    simp only [List.map_cons, walked, Surroundings.cases]
    split
    · exact corresponds.bind others fun _ => corresponds.pure _
    · rename_i notNull
      obtain ⟨allowsUse, allowsName⟩ := allowed 0 member rfl (Bool.eq_false_iff.mpr notNull)
      exact corresponds.nameCase allowsName (first.expression depth isPlace (allowsUse _))
        fun type name => corresponds.bind others fun _ => corresponds.pure _

/-- What a discriminator leads to is looked up. -/
theorem mapping (corresponds : Correspondence outside other places uses merges candidates relates)
    (isPlace : places scope.path) {entries : List (String × String)}
    (refers : ∀ entry ∈ entries, uses entry.2) (found : Table String) :
    relates (outside.mapping scope entries found) (other.mapping scope entries found) := by
  induction entries generalizing found with
  | nil => exact corresponds.pure _
  | cons entry rest ih =>
    have ⟨first, later⟩ := List.forall_mem_cons.mp refers
    exact corresponds.bind (corresponds.reference first isPlace) fun type => ih later _

/-- A discriminator is made out of what it leads to. -/
theorem discriminate (corresponds : Correspondence outside other places uses merges candidates relates)
    (inside : scope.Inside places) {found : Discriminator}
    (refers : ∀ target ∈ found.mapping.values, uses target) :
    relates (outside.discriminate scope found) (other.discriminate scope found) := by
  refine corresponds.bind (corresponds.mapping (inside.append _ "discriminator" rfl)
    (fun entry isEntry => refers _ (List.mem_map_of_mem isEntry)) {}) fun mapping => ?_
  exact corresponds.pure _

/-- So is the one that a choice may have. -/
theorem discriminated (corresponds : Correspondence outside other places uses merges candidates relates)
    (inside : scope.Inside places) {discriminator : Option Discriminator}
    (refers : ∀ found ∈ discriminator, ∀ target ∈ found.mapping.values, uses target) :
    relates (discriminator.mapM (outside.discriminate scope))
      (discriminator.mapM (other.discriminate scope)) := by
  have mapped := corresponds.mapM discriminator id id fun found isFound =>
    corresponds.discriminate inside (refers found isFound)
  rwa [Option.map_id, id] at mapped

/-- A choice unites what its cases are. -/
theorem union (corresponds : Correspondence outside other places uses merges candidates relates)
    (isPlace : places scope.path) {kind : CompositionKind} (isChoice : kind ≠ .allOf)
    {members : List SchemaNode} {discriminator : Option Discriminator} {traits : NodeTraits}
    (allowed : scope.Allows outside.context candidates .declared
      ⟨.composed kind members discriminator, traits⟩)
    (walks : ∀ member ∈ members, WalksRelate outside.context places candidates relates member
      (outside.walk member) (other.walk member))
    (refers : ∀ found ∈ discriminator, ∀ target ∈ found.mapping.values, uses target)
    (nullable : Bool) (depth : Nat) :
    relates (outside.union kind (members.map outside.walked) discriminator nullable scope depth)
      (other.union kind (members.map other.walked) discriminator nullable scope depth) := by
  have inside := corresponds.inside isPlace
  rw [union_eq, union_eq]
  have cases := corresponds.cases inside kind depth 0 (fun place member isMember notNull =>
    ⟨fun _ candidate tries => allowed candidate (.case isChoice isMember (by
      rwa [Nat.zero_add] at tries)), fun candidate isName => allowed candidate
        (.caseName isChoice (List.mem_of_getElem? isMember) notNull isName)⟩) walks
  refine corresponds.bind cases fun found => ?_
  refine corresponds.bind (corresponds.discriminated inside refers) fun mapped => ?_
  exact corresponds.liftComposition isPlace fun _ => isOwn_unionOf

/-- The members of an intersection are walked one after the other. -/
theorem members (corresponds : Correspondence outside other places uses merges candidates relates)
    (inside : scope.Inside places) (depth : Nat) {nodes : List SchemaNode}
    (refers : ∀ node ∈ nodes, ∀ target, node.Refers target → uses target)
    (includes : ∀ node ∈ nodes, ∀ target, node.Includes target → merges target)
    (allowed : ∀ node ∈ nodes, ∀ path,
      (scope.below path).Allows outside.context candidates .contributed node)
    (walks : ∀ node ∈ nodes, WalksRelate outside.context places candidates relates node
      (outside.walk node) (other.walk node)) (index : Nat) :
    relates (outside.members scope depth (nodes.map outside.walked) index)
      (other.members scope depth (nodes.map other.walked) index) := by
  -- A reference is looked up and its schema expanded in one step; others contribute by themselves.
  induction nodes generalizing index with
  | nil => exact corresponds.pure _
  | cons node rest ih =>
    have ⟨firstRefers, laterRefers⟩ := List.forall_mem_cons.mp refers
    have ⟨firstIncludes, laterIncludes⟩ := List.forall_mem_cons.mp includes
    have ⟨allowsFirst, allowsLater⟩ := List.forall_mem_cons.mp allowed
    have ⟨first, later⟩ := List.forall_mem_cons.mp walks
    have others := ih laterRefers laterIncludes allowsLater later (index + 1)
    have isPlace : places (scope.below ("/allOf/" ++ toString index)).path :=
      inside.append _ ("allOf/" ++ toString index) (by
        rw [← String.append_assoc]
        rfl)
    rw [List.map_cons, List.map_cons, walked, walked]
    cases isReference : node.kind.referenceTarget? with
    | some target =>
      obtain ⟨kind, traits⟩ := node
      cases kind <;> cases isReference
      rw [outside.members_cons_reference, other.members_cons_reference]
      exact corresponds.merge (firstRefers target .reference) (firstIncludes target .reference) isPlace
        fun type shape => corresponds.map others _
    | none =>
      rw [outside.members_cons isReference, other.members_cons isReference]
      exact corresponds.bind (first.contribute depth isPlace (allowsFirst _)) fun shape =>
        corresponds.map others _

/-- An intersection is a reference, or merges what its members contribute. -/
theorem intersection (corresponds : Correspondence outside other places uses merges candidates relates)
    (isPlace : places scope.path) (depth : Nat) {nodes : List SchemaNode}
    (refers : ∀ node ∈ nodes, ∀ target, node.Refers target → uses target)
    (includes : ∀ node ∈ nodes, ∀ target, node.Includes target → merges target)
    (allowed : ∀ node ∈ nodes, ∀ path,
      (scope.below path).Allows outside.context candidates .contributed node)
    (walks : ∀ node ∈ nodes, WalksRelate outside.context places candidates relates node
      (outside.walk node) (other.walk node)) :
    relates (outside.intersection (nodes.map outside.walked) scope depth)
      (other.intersection (nodes.map other.walked) scope depth) := by
  have inside := corresponds.inside isPlace
  -- Both sides follow the same reference, or merge contributions that correspond.
  cases isOnly : SchemaNode.onlyReference? nodes with
  | some target =>
    obtain ⟨_, isMember⟩ := SchemaNode.mem_of_onlyReference? isOnly
    have isUsed := refers _ isMember target .reference
    have isFirst : places (scope.below "/allOf/0").path := inside.append _ "allOf/0" rfl
    rw [outside.intersection_of_reference ((outside.map_fst_walked nodes).symm ▸ isOnly),
      other.intersection_of_reference ((other.map_fst_walked nodes).symm ▸ isOnly),
      corresponds.leadsToChoice_eq isUsed]
    split
    · exact corresponds.fail _ rfl isFirst
    · exact corresponds.map (corresponds.reference isUsed isFirst) _
  | none =>
    rw [outside.intersection_of_members ((outside.map_fst_walked nodes).symm ▸ isOnly),
      other.intersection_of_members ((other.map_fst_walked nodes).symm ▸ isOnly)]
    refine corresponds.bind (corresponds.members inside depth refers includes allowed walks 0) fun inputs => ?_
    have merged := corresponds.bind (corresponds.combine inputs isPlace) fun merged : Merged =>
      corresponds.bind (corresponds.notes merged.notes isPlace) fun _ =>
        corresponds.pure merged.shape
    simpa only [bind_assoc] using merged

/-- The use of a node that has to be declared declares it. -/
theorem promote (corresponds : Correspondence outside other places uses merges candidates relates)
    (isPlace : places scope.path) {node : SchemaNode} (isDeclared : node.isDeclared = true)
    (allowed : scope.Allows outside.context candidates .used node)
    {declare alsoDeclare : Scope → Synthesis Shape}
    (related : ∀ scope : Scope, places scope.path →
      scope.Allows outside.context candidates .declared node →
        relates (declare scope) (alsoDeclare scope)) :
    relates (Surroundings.promote node.traits scope declare)
      (Surroundings.promote node.traits scope alsoDeclare) := by
  unfold Surroundings.promote
  refine corresponds.bind (related _ isPlace fun candidate tries =>
    allowed candidate (.promoted isDeclared tries)) fun shape => ?_
  cases shape with
  | «alias» target => exact corresponds.pure _
  | record | enum | union =>
    exact corresponds.map (corresponds.register _ _ _ _ (allowed _ (.own isDeclared))) _

/-- A node that is used directly is walked for its type. -/
theorem plainWalk (corresponds : Correspondence outside other places uses merges candidates relates)
    {node : SchemaNode} (isPlain : node.isDeclared = false)
    {expression alsoExpression : Scope → Nat → Synthesis TypeExpr}
    (related : ∀ {scope : Scope} (depth : Nat), places scope.path →
      scope.Allows outside.context candidates .declared node →
        relates (expression scope depth) (alsoExpression scope depth)) :
    WalksRelate outside.context places candidates relates node
      (outside.plainWalk node.traits expression) (other.plainWalk node.traits alsoExpression) where
  declare depth isPlace allowed :=
    corresponds.bind (corresponds.undeclared node.traits isPlace) fun _ =>
      corresponds.map (related depth isPlace allowed) _
  expression depth isPlace allowed :=
    related depth isPlace fun candidate tries => allowed candidate (.plain isPlain tries)
  contribute depth isPlace allowed := by
    refine corresponds.map (related depth isPlace fun candidate tries => allowed candidate ?_) _
    cases isType : node.contributesType with
    | true => exact .type isType (.plain isPlain tries)
    | false => exact .parts isType tries

/-- A node that is declared wherever it is used is walked for its shape. -/
theorem declaredWalk (corresponds : Correspondence outside other places uses merges candidates relates)
    {node : SchemaNode} (isDeclared : node.isDeclared = true)
    {shape alsoShape : Scope → Nat → Synthesis Shape}
    {contribute alsoContribute : Scope → Nat → Synthesis MemberShape}
    (related : ∀ {scope : Scope} (depth : Nat), places scope.path →
      scope.Allows outside.context candidates .declared node →
        relates (shape scope depth) (alsoShape scope depth))
    (contributes : ∀ {scope : Scope} (depth : Nat), places scope.path →
      scope.Allows outside.context candidates .contributed node →
      (scope.Allows outside.context candidates .used node →
        relates ((outside.declaredWalk node.traits shape).expression scope depth)
          ((other.declaredWalk node.traits alsoShape).expression scope depth)) →
      relates (contribute scope depth) (alsoContribute scope depth))
    (expand alsoExpand : Scope → Synthesis MemberShape) :
    WalksRelate outside.context places candidates relates node
      { outside.declaredWalk node.traits shape with contribute, expand }
      { other.declaredWalk node.traits alsoShape with
        contribute := alsoContribute, expand := alsoExpand } := by
  have declare : ∀ {scope : Scope} (depth : Nat), places scope.path →
      scope.Allows outside.context candidates .declared node →
      relates ((outside.declaredWalk node.traits shape).declare scope depth)
        ((other.declaredWalk node.traits alsoShape).declare scope depth) :=
    fun depth isPlace allowed =>
      corresponds.bind (corresponds.undeclared node.traits isPlace) fun _ =>
        related depth isPlace allowed
  have expression : ∀ {scope : Scope} (depth : Nat), places scope.path →
      scope.Allows outside.context candidates .used node →
      relates ((outside.declaredWalk node.traits shape).expression scope depth)
        ((other.declaredWalk node.traits alsoShape).expression scope depth) :=
    fun depth isPlace allowed =>
      corresponds.promote isPlace isDeclared allowed fun _ isPlace allowed =>
        declare depth isPlace allowed
  exact ⟨declare, expression, fun depth isPlace allowed =>
    contributes depth isPlace allowed (expression depth isPlace)⟩

/-- Walks may contribute something else than their types. -/
theorem contributing {node : SchemaNode} {walk also : NodeWalk}
    (walks : WalksRelate outside.context places candidates relates node walk also)
    {contribute alsoContribute : Scope → Nat → Synthesis MemberShape}
    (related : ∀ {scope : Scope} (depth : Nat), places scope.path →
      scope.Allows outside.context candidates .contributed node →
        relates (contribute scope depth) (alsoContribute scope depth))
    (expand alsoExpand : Scope → Synthesis MemberShape) :
    WalksRelate outside.context places candidates relates node { walk with contribute, expand }
      { also with contribute := alsoContribute, expand := alsoExpand } :=
  ⟨walks.declare, walks.expression, related⟩

/-- Whatever is asked of a node in the two surroundings is related. -/
theorem walk (corresponds : Correspondence outside other places uses merges candidates relates)
    (node : SchemaNode) (refers : ∀ target, node.Refers target → uses target)
    (merging : ∀ target, node.Merges target → merges target) :
    WalksRelate outside.context places candidates relates node (outside.walk node)
      (other.walk node) := by
  -- References inside a node and members of its intersections are covered by those of the node, and so
  -- are the candidates that are tried for its parts.
  induction node using SchemaNode.inductionOn with
  | primitive base format traits =>
    exact corresponds.plainWalk rfl fun _ _ _ => corresponds.pure _
  | enum base values traits =>
    refine corresponds.declaredWalk rfl (fun _ _ _ => corresponds.pure _)
      (fun depth isPlace allowed used => ?_) _ _
    exact corresponds.map (used fun candidate tries => allowed candidate (.type rfl tries)) _
  | null traits => exact corresponds.plainWalk rfl fun _ _ _ => corresponds.pure _
  | any traits =>
    have plain : WalksRelate outside.context places candidates relates ⟨.any, traits⟩
        (outside.plainWalk traits fun _ _ => return TypeExpr.any.withNullable traits.nullable)
        (other.plainWalk traits fun _ _ => return TypeExpr.any.withNullable traits.nullable) :=
      corresponds.plainWalk rfl fun _ _ _ => corresponds.pure _
    rw [walk_any, walk_any, anyWalk, anyWalk]
    split
    · exact plain
    · exact contributing plain (fun _ _ _ => corresponds.pure _) _ _
  | array items traits ih =>
    have inner := ih (fun target inside => refers target (.items inside))
      fun target inside => merging target (.items inside)
    refine corresponds.plainWalk rfl fun depth isPlace allowed => ?_
    refine corresponds.bind (corresponds.checkArray isPlace _ _) fun _ => ?_
    exact corresponds.map (inner.expression _ ((corresponds.inside isPlace).append _ "items" rfl)
      fun candidate tries => allowed candidate (.items tries)) _
  | map value traits ih =>
    have inner := ih (fun target inside => refers target (.value inside))
      fun target inside => merging target (.value inside)
    have values : ∀ {scope : Scope} (depth : Nat), places scope.path →
        scope.Allows outside.context candidates .declared ⟨.map value, traits⟩ →
        relates (Surroundings.mapValue (outside.walked value) scope depth)
          (Surroundings.mapValue (other.walked value) scope depth) := fun depth isPlace allowed =>
      mapValue (corresponds.inside isPlace)
        (fun _ candidate tries => allowed candidate (.value tries)) inner depth
    refine contributing (corresponds.plainWalk rfl fun depth isPlace allowed =>
      corresponds.map (values depth isPlace allowed) _) (fun depth isPlace allowed => ?_) _ _
    exact corresponds.map (values depth isPlace fun candidate tries =>
      allowed candidate (.parts rfl tries)) _
  | object properties additional traits listed further =>
    have fields := fun property (isListed : property ∈ properties) =>
      listed property isListed (fun target inside => refers target (.property isListed inside))
        fun target inside => merging target (.property isListed inside)
    have extra := fun value (isValue : value ∈ additional) =>
      further value isValue (fun target inside => refers target (.additional isValue inside))
        fun target inside => merging target (.additional isValue inside)
    have records : ∀ {scope : Scope}, places scope.path →
        scope.Allows outside.context candidates .declared ⟨.object properties additional, traits⟩ →
        relates
          (Surroundings.record (properties.map outside.walkedProperty)
            (additional.map outside.walked) scope)
          (Surroundings.record (properties.map other.walkedProperty) (additional.map other.walked)
            scope) := fun isPlace allowed =>
      corresponds.record (corresponds.inside isPlace) allowed fields extra
    have contributes : ∀ {scope : Scope}, places scope.path →
        scope.Allows outside.context candidates .contributed
          ⟨.object properties additional, traits⟩ →
        relates
          (Surroundings.record (properties.map outside.walkedProperty)
            (additional.map outside.walked) scope)
          (Surroundings.record (properties.map other.walkedProperty) (additional.map other.walked)
            scope) := fun isPlace allowed =>
      records isPlace fun candidate tries => allowed candidate (.parts rfl tries)
    rw [walk_object, walk_object, objectWalk, objectWalk]
    simp only [List.isEmpty_map, Option.isNone_map]
    split
    · rename_i isEmpty
      exact contributing (corresponds.plainWalk (by simp [SchemaNode.isDeclared, isEmpty]) fun _ _ _ =>
        corresponds.pure _) (fun _ isPlace allowed => corresponds.map (contributes isPlace allowed) _)
        _ _
    · rename_i notEmpty
      exact corresponds.declaredWalk (by simp [SchemaNode.isDeclared, notEmpty])
        (fun _ isPlace allowed => corresponds.map (records isPlace allowed) _)
        (fun _ isPlace allowed _ => corresponds.map (contributes isPlace allowed) _) _ _
  | reference target traits =>
    have plain : WalksRelate outside.context places candidates relates ⟨.reference target, traits⟩
        (outside.plainWalk traits fun scope _ => do
          let type ← outside.reference target scope
          return type.withNullable (type.nullable || traits.nullable))
        (other.plainWalk traits fun scope _ => do
          let type ← other.reference target scope
          return type.withNullable (type.nullable || traits.nullable)) :=
      corresponds.plainWalk rfl fun _ isPlace _ =>
        corresponds.map (corresponds.reference (refers target .reference) isPlace) _
    exact ⟨plain.declare, plain.expression, plain.contribute⟩
  | composed kind members discriminator traits ih =>
    have walks : ∀ member ∈ members, WalksRelate outside.context places candidates relates member
        (outside.walk member) (other.walk member) :=
      fun member isMember => ih member isMember
        (fun target inside => refers target (.member isMember inside))
        fun target inside => merging target (.inside isMember inside)
    by_cases isChoice : kind = .allOf
    · subst isChoice
      rw [walk_allOf, walk_allOf]
      have memberRefers : ∀ member ∈ members, ∀ target, member.Refers target → uses target :=
        fun member isMember target inside => refers target (.member isMember inside)
      have memberIncludes : ∀ member ∈ members, ∀ target, member.Includes target → merges target :=
        fun member isMember target includes => merging target (.member isMember includes)
      have intersects : ∀ {scope : Scope} (depth : Nat), places scope.path →
          scope.Allows outside.context candidates .declared
            ⟨.composed .allOf members discriminator, traits⟩ →
          relates (outside.intersection (members.map outside.walked) scope depth)
            (other.intersection (members.map other.walked) scope depth) :=
        fun depth isPlace allowed => corresponds.intersection isPlace depth memberRefers
          memberIncludes (fun member isMember _ candidate tries =>
            allowed candidate (.member isMember tries)) walks
      refine corresponds.declaredWalk rfl (fun depth isPlace allowed => ?_)
        (fun depth isPlace allowed _ => corresponds.take memberRefers memberIncludes isPlace
          (intersects depth isPlace fun candidate tries => allowed candidate (.parts rfl tries))) _ _
      refine corresponds.bind (intersects depth isPlace allowed) fun shape => ?_
      cases shape <;> exact corresponds.pure _
    · rw [outside.walk_choice traits isChoice, other.walk_choice traits isChoice]
      refine corresponds.declaredWalk rfl (fun depth isPlace allowed => ?_)
        (fun _ _ _ _ => corresponds.pure _) _ _
      refine corresponds.union isPlace isChoice allowed walks
        (fun found isFound target isMapped => ?_) _ _
      cases isFound
      exact refers target (.mapping isChoice isMapped)

/-- What a component schema contributes by its node is related. -/
theorem expand (corresponds : Correspondence outside other places uses merges candidates relates)
    (node : SchemaNode) (refers : ∀ target, node.Refers target → uses target)
    (merging : ∀ target, node.Merges target → merges target)
    (includes : ∀ target, node.Includes target → merges target) (isPlace : places scope.path)
    (allowed : scope.Allows outside.context candidates .declared node) :
    relates ((outside.walk node).expand scope) ((other.walk node).expand scope) := by
  have walks := corresponds.walk node refers merging
  -- What contributes no type of its own tries the candidates of its parts.
  have parts (noType : node.contributesType = false) :
      scope.Allows outside.context candidates .contributed node := by
    intro candidate tries
    cases tries with
    | type isType => cases noType.symm.trans isType
    | parts _ tries => exact allowed candidate tries
  obtain ⟨kind, traits⟩ := node
  cases kind with
  | primitive | enum | array | map | null => exact corresponds.pure _
  | any =>
    rw [walk_any, walk_any, anyWalk, anyWalk]
    split <;> exact corresponds.pure _
  | object properties additional =>
    -- A record is expanded as it is contributed.
    have contributes := walks.contribute 0 isPlace (parts rfl)
    rw [walk_object, walk_object, objectWalk, objectWalk] at contributes ⊢
    exact contributes
  | reference target =>
    have merged := corresponds.merge (refers target .reference) (includes target .reference) isPlace
      fun _ shape => corresponds.pure shape
    rw [walk_reference, walk_reference, referenceWalk, referenceWalk]
    simpa only [bind_pure] using merged
  | composed kind members discriminator =>
    cases kind with
    | allOf =>
      have contributes := walks.contribute 0 isPlace (parts rfl)
      rw [walk_allOf, walk_allOf] at contributes ⊢
      exact contributes
    | oneOf | anyOf => exact corresponds.pure _

end Correspondence

end ApiTypes
