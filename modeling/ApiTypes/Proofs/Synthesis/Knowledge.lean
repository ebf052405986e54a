import ApiTypes.Proofs.Composition
import ApiTypes.Proofs.Node
import ApiTypes.Proofs.Synthesis.Consistency
import ApiTypes.Proofs.Synthesis.Inversion

/-!
What walks do to a workspace, and what they mention. Every walk is a run, and the names that its result
mentions are known afterwards: they are declared, or held for a schema that has been started.
-/

namespace ApiTypes

/-- A name is declared, or held for a component schema that has been started. -/
def Workspace.Knows (workspace : Workspace) (context : Context) (name : String) : Prop :=
  workspace.registry.isDeclared name = true ∨
    ∃ schema, context.emitted? schema = some name ∧ workspace.resolver.state schema ≠ .pending

/-- What is known stays known. -/
theorem Grows.knows {context : Context} {first last : Workspace} (grows : Grows first last)
    {name : String} (knows : first.Knows context name) : last.Knows context name := by
  rcases knows with declared | ⟨schema, emitted, started⟩
  · obtain ⟨declaration, found⟩ := (Registry.isDeclared_iff _ _).mp declared
    exact .inl ((Registry.isDeclared_iff _ _).mpr ⟨declaration, grows.get?_eq found⟩)
  · exact .inr ⟨schema, emitted, grows.state_eq started ▸ started⟩

/-- A schema has been started if the name held for it is known. -/
theorem Consistent.started_of_knows {context : Context} {workspace : Workspace}
    (consistent : Consistent context workspace) {schema name : String}
    (emitted : context.emitted? schema = some name) (knows : workspace.Knows context name) :
    workspace.resolver.state schema ≠ .pending := by
  rcases knows with declared | ⟨other, also, started⟩
  · obtain ⟨declaration, found⟩ := (Registry.isDeclared_iff _ _).mp declared
    simp [(consistent.registered_of_declared emitted found).2]
  · exact Context.emitted?_injective emitted also ▸ started

variable {α β : Type}

/--
An action is a run inside the active schemas if the given names are known, and then the names that its
value mentions are known as well.
-/
def Keeps (context : Context) (active given : List String) (action : Synthesis α)
    (mentions : α → List String) : Prop :=
  ∀ first last result, Consistent context first →
    (∀ schema ∈ active, first.resolver.state schema ≠ .pending) →
    (∀ name ∈ given, first.Knows context name) → action.Ends first result last →
    Runs context first last ∧
      ∀ value, result = .ok value → ∀ name ∈ mentions value, last.Knows context name

namespace Keeps

variable {context : Context} {active given : List String} {mentions : α → List String}

/-- More names may be given, and fewer asked for. -/
theorem mono {action : Synthesis α} {more : List String} {fewer : α → List String}
    (keeps : Keeps context active given action mentions) (included : given ⊆ more)
    (covered : ∀ value, fewer value ⊆ mentions value ++ more) :
    Keeps context active more action fewer := by
  intro first last result consistent started known ends
  obtain ⟨runs, result_known⟩ := keeps _ _ _ consistent started (fun name isGiven =>
    known name (included isGiven)) ends
  refine ⟨runs, fun value isValue name isMember => ?_⟩
  rcases List.mem_append.mp (covered value isMember) with isMentioned | isGiven
  · exact result_known value isValue name isMentioned
  · exact (runs.consistent consistent).2.knows (known name isGiven)

/-- Names that are not needed may be given. -/
theorem weaken {action : Synthesis α} (keeps : Keeps context active [] action mentions) :
    Keeps context active given action mentions :=
  keeps.mono (List.nil_subset given) fun _ => List.subset_append_left _ _

/-- A value mentions what is given. -/
theorem pure {value : α} (included : mentions value ⊆ given) :
    Keeps context active given (pure value) mentions := by
  intro first last result consistent started known ends
  obtain ⟨rfl, rfl⟩ := (Synthesis.ends_pure_iff value).mp ends
  refine ⟨.refl _, fun other isValue name isMember => ?_⟩
  cases isValue
  exact known name (included isMember)

/-- A failure mentions nothing. -/
theorem fail (path : String) (failure : Failure) :
    Keeps context active given (Synthesis.fail path failure) mentions := by
  intro first last result consistent started known ends
  obtain ⟨rfl, rfl⟩ := (Synthesis.ends_fail_iff path failure).mp ends
  exact ⟨.refl _, fun _ isValue => by cases isValue⟩

/-- Actions follow each other, the second with what the first one mentions. -/
theorem bind {action : Synthesis α} {next : α → Synthesis β} {mentioned : β → List String}
    (keeps : Keeps context active given action mentions)
    (follows : ∀ value, Keeps context active (mentions value ++ given) (next value) mentioned) :
    Keeps context active given (action >>= next) mentioned := by
  intro first last result consistent started known ends
  rcases (Synthesis.ends_bind_iff _ _).mp ends with
    ⟨error, rfl, fails⟩ | ⟨value, middle, earlier, later⟩
  · exact ⟨(keeps _ _ _ consistent started known fails).1, fun _ isValue => by cases isValue⟩
  · obtain ⟨runs, value_known⟩ := keeps _ _ _ consistent started known earlier
    obtain ⟨middleConsistent, grows⟩ := runs.consistent consistent
    obtain ⟨moreRuns, result_known⟩ := follows value _ _ _ middleConsistent
      (fun schema isActive => grows.state_eq (started schema isActive) ▸ started schema isActive)
      (fun name isMember => (List.mem_append.mp isMember).elim (value_known value rfl name)
        fun isGiven => grows.knows (known name isGiven)) later
    exact ⟨runs.trans moreRuns, result_known⟩

/-- Transforming a value keeps what its parts mention. -/
theorem map {action : Synthesis α} {transform : α → β} {mentioned : β → List String}
    (keeps : Keeps context active given action mentions)
    (covered : ∀ value, mentioned (transform value) ⊆ mentions value ++ given) :
    Keeps context active given (transform <$> action) mentioned := by
  rw [map_eq_pure_bind]
  exact keeps.bind fun value => pure (covered value)

/-- What is done with a value that may be absent mentions what it does of the value. -/
theorem mapM {value? : Option α} {body : α → Synthesis β} {mentions : β → List String}
    (keeps : ∀ value ∈ value?, Keeps context active given (body value) mentions) :
    Keeps context active given (value?.mapM body) fun found => (found.map mentions).getD [] := by
  cases value? with
  | none => exact pure (by simp)
  | some value => exact (keeps value rfl).map fun found => by simp

/-- Reading the workspace tells what is consistent with the context. -/
theorem get {next : Workspace → Synthesis α}
    (follows : ∀ workspace, Consistent context workspace →
      Keeps context active given (next workspace) mentions) :
    Keeps context active given (get >>= next) mentions := by
  intro first last result consistent started known ends
  have same : (next first).Ends first result last := ends
  exact follows first consistent _ _ _ consistent started known same

/-- A harmless report mentions nothing. -/
theorem report {mentions : Unit → List String} (none_mentioned : mentions () ⊆ given) (path : String)
    {cause : Cause} (isHarmless : cause.severity ≠ .error) :
    Keeps context active given (Synthesis.report path cause) mentions := by
  intro first last result consistent started known ends
  obtain ⟨rfl, rfl⟩ := (Synthesis.ends_report_iff path cause).mp ends
  refine ⟨.report (.refl _) path cause isHarmless, fun _ isValue name isMember => ?_⟩
  exact (consistent.report path cause).2.knows (known name (none_mentioned isMember))

/-- Going through a list mentions nothing if no step of it does. -/
theorem forIn {entries : List β} {body : β → Synthesis PUnit}
    (keeps : ∀ entry ∈ entries, Keeps context active given (body entry) fun _ => []) :
    Keeps context active given
      (forIn entries PUnit.unit fun entry _ => do
        body entry
        return ForInStep.yield PUnit.unit) fun _ => [] := by
  induction entries with
  | nil => exact pure (by simp)
  | cons entry rest ih =>
    rw [List.forIn_cons, bind_assoc]
    refine (keeps entry List.mem_cons_self).bind fun _ => ?_
    simp only [List.nil_append, pure_bind]
    exact ih fun other isLater => keeps other (List.mem_cons_of_mem _ isLater)

/-- A registered name is known, whatever the registered shape. -/
theorem register {mentions : String → List String} (candidate : String) {shape : Shape}
    (doc : Option String) (deprecated : Bool) (path : String) (isPlain : shape.synonym? = none)
    (covered : ∀ name, mentions name ⊆ name :: given) :
    Keeps context active given
      (Synthesis.register candidate shape doc deprecated (.inline path)) mentions := by
  intro first last result consistent started known ends
  obtain ⟨rfl, rfl⟩ := (Synthesis.ends_register_iff candidate shape doc deprecated _).mp ends
  refine ⟨.register (.refl _) candidate shape doc deprecated path isPlain,
    fun name isName other isMember => ?_⟩
  cases isName
  rcases List.mem_cons.mp (covered _ isMember) with rfl | isGiven
  · -- The name has been declared before, or is declared now.
    left
    rcases first.registry.register_cases candidate shape doc deprecated (.inline path) with
      ⟨declaration, name, found, _, isSame⟩ | ⟨name, _, isDeclared⟩
    · simp only [isSame]
      exact (Registry.isDeclared_iff _ _).mpr ⟨declaration, found⟩
    · simp [isDeclared, Registry.isDeclared_declare]
  · exact (consistent.register candidate shape doc deprecated path).2.knows (known other isGiven)

/-- Combining members mentions what is said of the combination. -/
theorem liftComposition {combined : Except CompositionError α} (path : String)
    (included : ∀ value, combined = .ok value → mentions value ⊆ given) :
    Keeps context active given (Synthesis.liftComposition path combined) mentions := by
  cases combined with
  | ok value => exact pure (included value rfl)
  | error error => exact fail path _

end Keeps

namespace Surroundings

/-- What is asked of other component schemas is a run, and what they contribute is known. -/
structure Sound (context : Context) (active : List String) (outside : Surroundings) : Prop where
  context_eq : outside.context = context
  enter : ∀ {target workspace}, Consistent context workspace →
    (∀ schema ∈ active, workspace.resolver.state schema ≠ .pending) →
    Runs context workspace ((outside.enter target).run workspace).2
  expand : ∀ {given target} (path : String),
    (∀ name, context.emitted? target = some name → name ∈ given) →
    Keeps context active given (outside.expand target path) MemberShape.mentions

variable {context : Context} {active given : List String} {outside : Surroundings}

/-- Undeclared names are reported as warnings. -/
theorem keeps_reportUndeclared (traits : NodeTraits) (scope : Scope) :
    Keeps context active given (outside.reportUndeclared traits scope) fun _ => [] := by
  unfold reportUndeclared
  split
  · refine (Keeps.forIn fun name _ => ?_).bind fun _ => ?_
    · exact Keeps.report (by simp) _ (by simp [Cause.severity])
    · exact Keeps.pure (by simp)
  · exact Keeps.pure (by simp)

/-- What a merge could not express is reported as warnings. -/
theorem keeps_reportNotes (notes : List MergeNote) (scope : Scope) :
    Keeps context active given (outside.reportNotes notes scope) fun _ => [] := by
  unfold reportNotes
  split
  · refine (Keeps.forIn fun note _ => ?_).bind fun _ => Keeps.pure (by simp)
    exact Keeps.report (by simp) _ (by simp [Cause.severity])
  · exact Keeps.pure (by simp)

/-- Checking an array changes nothing. -/
theorem keeps_checkArray (constraints : Constraints) (scope : Scope) (depth : Nat) :
    Keeps context active given (outside.checkArray constraints scope depth) fun _ => [] := by
  intro first last result consistent started known ends
  obtain ⟨rfl, _⟩ := (outside.ends_checkArray_iff constraints scope depth result).mp ends
  exact ⟨.refl _, fun _ _ _ isMember => absurd isMember List.not_mem_nil⟩

/-- A reference is a run, after which the name held for its target is known. -/
theorem Sound.keeps_reference (sound : outside.Sound context active) (target : String)
    (scope : Scope) :
    Keeps context active given (outside.reference target scope) fun type =>
      type.mentions ++ (context.emitted? target).toList := by
  intro first last result consistent started known ends
  have entered : Runs context first (outside.entered target first) := by
    unfold Surroundings.entered
    split
    · exact sound.enter consistent started
    · exact .refl _
  cases outside.referenceEnds ends with
  | undefined isUndefined => exact ⟨.refl _, fun _ isValue => by cases isValue⟩
  | unready found isUnready => exact ⟨entered, fun _ isValue => by cases isValue⟩
  | ready found isReady =>
    refine ⟨entered, fun type isValue name isMember => ?_⟩
    cases isValue
    -- The type is the emitted name of the target, which is registered or in progress.
    have after := (entered.consistent consistent).1
    rw [sound.context_eq] at found
    obtain ⟨emitted, isEmitted⟩ :=
      (context.exists_emitted?_iff target).mpr (context.model.mem_names found)
    have isName : name = emitted := by
      simpa [after.emitted_get?, isEmitted] using isMember
    exact .inr ⟨target, isName ▸ isEmitted, by rcases isReady with state | state <;> simp [state]⟩

/-- What a walk does is a run, and it mentions only names that are known. -/
structure WalkSound (context : Context) (active : List String) (walk : NodeWalk) : Prop where
  declare : ∀ scope depth, Keeps context active [] (walk.declare scope depth) Shape.mentions
  expression : ∀ scope depth,
    Keeps context active [] (walk.expression scope depth) TypeExpr.mentions
  contribute : ∀ scope depth,
    Keeps context active [] (walk.contribute scope depth) MemberShape.mentions
  expand : ∀ scope, Keeps context active [scope.name] (walk.expand scope) MemberShape.mentions

/-- The fields of an object mention what their types do. -/
theorem keeps_fields (scope : Scope) {properties : List (Property WalkedNode)}
    (sound : ∀ property ∈ properties, WalkSound context active property.schema.2) :
    Keeps context active given (fields scope properties) fun found =>
      found.flatMap fun field => field.type.mentions := by
  induction properties generalizing given with
  | nil => exact Keeps.pure (by simp)
  | cons property rest ih =>
    have ⟨first, later⟩ := List.forall_mem_cons.mp sound
    simp only [fields]
    refine (first.expression _ _).weaken.bind fun type => ?_
    refine (ih later).bind fun found => ?_
    exact Keeps.pure (by simp)

/-- The record of an object mentions what its types do. -/
theorem keeps_record (scope : Scope) {properties : List (Property WalkedNode)}
    {additional : Option WalkedNode}
    (listed : ∀ property ∈ properties, WalkSound context active property.schema.2)
    (further : ∀ value ∈ additional, WalkSound context active value.2) :
    Keeps context active given (record properties additional scope) fun shape =>
      shape.types.flatMap TypeExpr.mentions := by
  -- Fields come before further properties, so the names of the fields are known when these are asked for.
  unfold record
  refine (keeps_fields scope listed).bind fun found => ?_
  refine (Keeps.mapM fun value isValue => ((further value isValue).expression _ 0).weaken).bind
    fun extra => ?_
  exact Keeps.pure (by cases extra <;> simp [RecordShape.types, List.flatMap_map])

/-- The name of a member of a choice is known if those are that its type mentions. -/
theorem keeps_nameMember {type : TypeExpr} (parent member : Scope)
    (included : type.mentions ⊆ given) :
    Keeps context active given (nameMember type parent member) fun name => [name] := by
  unfold nameMember
  split
  · rename_i name isName
    exact Keeps.pure (TypeExpr.mentions_of_name? isName ▸ included)
  · rename_i isNone
    exact Keeps.get fun workspace _ => Keeps.register _ _ _ _ isNone (by simp)

/-- The cases of a choice give names that are known. -/
theorem keeps_cases (kind : CompositionKind) (scope : Scope) (depth : Nat)
    {members : List WalkedNode} (sound : ∀ member ∈ members, WalkSound context active member.2)
    (index : Nat) :
    Keeps context active given (cases kind scope depth members index) Prod.fst := by
  -- Every case adds the name that it gets to those that are given, so these vary in the induction.
  induction members generalizing given index with
  | nil => exact Keeps.pure (by simp)
  | cons member rest ih =>
    obtain ⟨node, walk⟩ := member
    have ⟨first, later⟩ := List.forall_mem_cons.mp sound
    simp only [cases]
    split
    · refine (ih later (index + 1)).bind fun found => ?_
      exact Keeps.pure (by simp)
    · refine (first.expression _ _).weaken.bind fun type => ?_
      refine (keeps_nameMember _ _ (List.subset_append_left _ _)).bind fun name => ?_
      refine (ih later (index + 1)).bind fun found => ?_
      exact Keeps.pure (by simp)

/-- The mapping of a discriminator leads to names that are known. -/
theorem Sound.keeps_mapping (sound : outside.Sound context active) (scope : Scope)
    (entries : List (String × String)) {found : Table String} (included : found.values ⊆ given) :
    Keeps context active given (outside.mapping scope entries found) Table.values := by
  -- A value that is mapped again replaces what was found, so names only become fewer by that.
  induction entries generalizing given found with
  | nil => exact Keeps.pure included
  | cons entry rest ih =>
    obtain ⟨value, target⟩ := entry
    simp only [mapping]
    refine (sound.keeps_reference target scope).bind fun type => ih ?_
    split
    · rename_i name isName
      intro other isMember
      rcases Table.mem_values_insert isMember with rfl | isOld
      · simp [TypeExpr.mentions_of_name? isName]
      · exact List.mem_append_right _ (included isOld)
    · exact fun other isMember => List.mem_append_right _ (included isMember)

/-- The shape of a choice mentions names that are known. -/
theorem Sound.keeps_union (sound : outside.Sound context active) (kind : CompositionKind)
    {members : List WalkedNode} (walks : ∀ member ∈ members, WalkSound context active member.2)
    (discriminator : Option Discriminator) (nullable : Bool) (scope : Scope) (depth : Nat) :
    Keeps context active given (outside.union kind members discriminator nullable scope depth)
      Shape.mentions := by
  -- What a choice mentions is the names of its cases and those that values are mapped to.
  unfold union
  refine (keeps_cases kind scope depth walks 0).bind fun found => ?_
  obtain ⟨names, memberNullable⟩ := found
  have mapped : ∀ {given} (value : Discriminator), Keeps context active given (do
      let mapping ← outside.mapping (scope.below "/discriminator") value.mapping.entries {}
      return ({ value with mapping } : Discriminator)) fun found => found.mapping.values := by
    intro given value
    refine (sound.keeps_mapping _ _ (by simp)).bind fun mapping => ?_
    exact Keeps.pure (List.subset_append_left _ _)
  refine (Keeps.mapM fun value _ => mapped value).bind fun discriminator => ?_
  refine Keeps.liftComposition _ fun shape isUnion name isMember => ?_
  rcases (mentions_unionOf isUnion name).mp isMember with isName | ⟨value, isValue, isMapped⟩
  · simp [isName]
  · cases isValue
    simp [isMapped]

/-- What a member contributes mentions names that its shape does. -/
theorem Sound.keeps_contributionOf (sound : outside.Sound context active) {shape : Shape}
    (scope : Scope) (included : shape.mentions ⊆ given) :
    Keeps context active given (outside.contributionOf shape scope) MemberShape.mentions := by
  unfold contributionOf
  split
  · rename_i shape
    exact Keeps.pure (by rwa [Shape.mentions_record] at included)
  · exact Keeps.pure (by simp [MemberShape.mentions, MemberShape.types])
  · exact Keeps.pure (by simp [MemberShape.mentions, MemberShape.types, TypeExpr.any,
      TypeExpr.mentions])
  · rename_i target
    refine Keeps.get fun workspace consistent => ?_
    simp only
    split
    · -- The name of the alias is held for the schema that is expanded.
      rename_i schema isSchema _
      obtain ⟨name, isName, found⟩ := Option.bind_eq_some_iff.mp isSchema
      refine sound.expand _ fun emitted isEmitted => included ?_
      rw [consistent.schemas_get?_iff, isEmitted] at found
      cases found
      simp [Shape.mentions, TypeExpr.mentions_of_name? isName]
    · exact Keeps.pure (by simp [MemberShape.mentions, MemberShape.types])
    · exact Keeps.pure (by
        simpa [MemberShape.mentions, MemberShape.types, Shape.mentions] using included)

/-- Required names mention no type. -/
theorem mentions_requiredMembers (node : SchemaNode) (label : String) :
    (requiredMembers node label).flatMap IntersectionMember.mentions = [] := by
  unfold requiredMembers
  split
  · split <;> simp [IntersectionMember.mentions, MemberShape.mentions, MemberShape.types]
  · rfl

/-- What a member by reference refers to is what its type mentions. -/
theorem mentions_cons_reference (label : String) (type : TypeExpr) (shape : MemberShape)
    (others : List IntersectionMember) :
    (⟨label, type.name?, shape⟩ :: others).flatMap IntersectionMember.mentions ⊆
      others.flatMap IntersectionMember.mentions ++ (shape.mentions ++ type.mentions) := by
  intro name isMember
  rcases List.mem_append.mp isMember with inFirst | inOthers
  · rcases List.mem_append.mp inFirst with isTarget | inShape
    · have isName := Option.mem_toList.mp isTarget
      simp [TypeExpr.mentions_of_name? isName]
    · simp [inShape]
  · exact List.mem_append_left _ inOthers

/-- Any other member mentions what its shape does. -/
theorem mentions_cons_contribution (label : String) (shape : MemberShape) (node : SchemaNode)
    (others : List IntersectionMember) :
    (⟨label, none, shape⟩ :: (requiredMembers node label ++ others)).flatMap
        IntersectionMember.mentions =
      shape.mentions ++ others.flatMap IntersectionMember.mentions := by
  rw [List.flatMap_cons, List.flatMap_append, mentions_requiredMembers, List.nil_append]
  rfl

/-- The members of an intersection mention names that are known. -/
theorem Sound.keeps_members (sound : outside.Sound context active) (scope : Scope) (depth : Nat)
    {nodes : List WalkedNode} (walks : ∀ node ∈ nodes, WalkSound context active node.2)
    (index : Nat) :
    Keeps context active given (outside.members scope depth nodes index) fun found =>
      found.flatMap IntersectionMember.mentions := by
  induction nodes generalizing given index with
  | nil => exact Keeps.pure (by simp)
  | cons node rest ih =>
    obtain ⟨node, walk⟩ := node
    have ⟨first, later⟩ := List.forall_mem_cons.mp walks
    cases isReference : node.kind.referenceTarget? with
    -- A reference mentions the name held for its target, which is known from then on.
    | some target =>
      obtain ⟨kind, traits⟩ := node
      cases kind <;> cases isReference
      rw [members_cons_reference]
      refine (sound.keeps_reference target _).bind fun type => ?_
      have named : ∀ name, context.emitted? target = some name →
          name ∈ (type.mentions ++ (context.emitted? target).toList) ++ given := by
        intro name isEmitted
        simp [isEmitted]
      refine (sound.expand _ named).bind fun shape => ?_
      refine (ih later (index + 1)).bind fun others => Keeps.pure ?_
      refine List.Subset.trans (mentions_cons_reference target type shape others) fun name isMentioned => ?_
      simp only [List.mem_append] at isMentioned ⊢
      tauto
    -- Anything else mentions what its contribution does.
    | none =>
      rw [outside.members_cons isReference]
      refine (first.contribute _ depth).weaken.bind fun shape => ?_
      refine (ih later (index + 1)).bind fun others => Keeps.pure fun name isMentioned => ?_
      rw [mentions_cons_contribution, List.mem_append] at isMentioned
      simp only [List.mem_append]
      exact isMentioned.elim (fun inShape => .inr (.inl inShape)) .inl

/-- The shape of an intersection mentions names that are known. -/
theorem Sound.keeps_intersection (sound : outside.Sound context active) {nodes : List WalkedNode}
    (walks : ∀ node ∈ nodes, WalkSound context active node.2) (scope : Scope) (depth : Nat) :
    Keeps context active given (outside.intersection nodes scope depth) Shape.mentions := by
  cases isOnly : SchemaNode.onlyReference? (nodes.map Prod.fst) with
  | some target =>
    rw [outside.intersection_of_reference isOnly]
    split
    · exact Keeps.fail _ _
    · refine (sound.keeps_reference target _).bind fun type => Keeps.pure fun name isMember => ?_
      simp only [Shape.mentions] at isMember
      simp [isMember]
  | none =>
    rw [outside.intersection_of_members isOnly]
    refine (sound.keeps_members scope depth walks 0).bind fun inputs => ?_
    refine Keeps.get fun workspace _ => ?_
    -- Merging makes up no names: each comes from one of the inputs.
    have lifted : Keeps context active (inputs.flatMap IntersectionMember.mentions ++ given)
        (Synthesis.liftComposition scope.path (mergeAllOf inputs workspace.registry.equivalent))
        fun merged => merged.shape.mentions :=
      Keeps.liftComposition _ fun merged isMerged name isMember => by
        obtain ⟨member, isInput, isMentioned⟩ := mentions_mergeAllOf isMerged isMember
        exact List.mem_append_left _ (List.mem_flatMap.mpr ⟨member, isInput, isMentioned⟩)
    refine lifted.bind fun merged => ?_
    exact (keeps_reportNotes merged.notes scope).bind fun _ => Keeps.pure (by simp)

/-- The use of a node that has to be declared mentions a name that is known. -/
theorem keeps_promote (traits : NodeTraits) (scope : Scope) {declare : Scope → Synthesis Shape}
    (sound : ∀ scope, Keeps context active [] (declare scope) Shape.mentions) :
    Keeps context active given (promote traits scope declare) TypeExpr.mentions := by
  unfold promote
  refine (sound _).weaken.bind fun shape => ?_
  cases shape with
  | «alias» target => exact Keeps.pure (by simp [Shape.mentions])
  | record | enum | union =>
    refine (Keeps.register _ _ _ _ rfl (fun name => List.subset_append_left [name] _)).bind
      fun name => Keeps.pure ?_
    simp

/-- A node that is used directly is sound if its type is. -/
theorem walkSound_plainWalk (traits : NodeTraits) {expression : Scope → Nat → Synthesis TypeExpr}
    (sound : ∀ scope depth, Keeps context active [] (expression scope depth) TypeExpr.mentions) :
    WalkSound context active (outside.plainWalk traits expression) where
  declare scope depth := by
    refine (keeps_reportUndeclared traits scope).bind fun _ => ?_
    refine (sound scope depth).weaken.bind fun type => Keeps.pure ?_
    simp [Shape.mentions]
  expression := sound
  contribute scope depth := by
    refine (sound scope depth).bind fun type => Keeps.pure ?_
    simp [MemberShape.mentions, MemberShape.types]
  expand scope := Keeps.pure (by simp [MemberShape.mentions, MemberShape.types])

/-- A node that is declared wherever it is used is sound if its shape is. -/
theorem walkSound_declaredWalk (traits : NodeTraits) {shape : Scope → Nat → Synthesis Shape}
    (sound : ∀ scope depth, Keeps context active [] (shape scope depth) Shape.mentions) :
    WalkSound context active (outside.declaredWalk traits shape) := by
  -- A declared node is used by the name that it gets, whatever its shape mentions.
  have declare : ∀ scope depth,
      Keeps context active [] ((outside.declaredWalk traits shape).declare scope depth)
        Shape.mentions := fun scope depth =>
    (keeps_reportUndeclared traits scope).bind fun _ => (sound scope depth).weaken
  have expression : ∀ scope depth,
      Keeps context active [] ((outside.declaredWalk traits shape).expression scope depth)
        TypeExpr.mentions := fun scope depth =>
    keeps_promote traits scope fun named => declare named depth
  refine ⟨declare, expression, fun scope depth => ?_, fun scope => ?_⟩
  · refine (expression scope depth).bind fun type => Keeps.pure ?_
    simp [MemberShape.mentions, MemberShape.types]
  · exact Keeps.pure (by simp [MemberShape.mentions, MemberShape.types])

/-- The walk of an array is sound if that of its items is. -/
theorem walkSound_arrayWalk {items : WalkedNode} (sound : WalkSound context active items.2)
    (traits : NodeTraits) : WalkSound context active (outside.arrayWalk items traits) :=
  walkSound_plainWalk traits fun scope depth => by
    refine (keeps_checkArray _ _ _).bind fun _ => ?_
    refine (sound.expression _ _).weaken.bind fun type => Keeps.pure ?_
    simp [TypeExpr.mentions]

/-- The walk of a map is sound if that of its values is. -/
theorem walkSound_mapWalk {value : WalkedNode} (sound : WalkSound context active value.2)
    (traits : NodeTraits) : WalkSound context active (outside.mapWalk value traits) := by
  have plain : WalkSound context active (outside.plainWalk traits fun scope depth => do
      return { kind := .map (← mapValue value scope depth), nullable := traits.nullable }) :=
    walkSound_plainWalk traits fun scope depth =>
      (sound.expression _ _).bind fun type => Keeps.pure (by simp [TypeExpr.mentions])
  refine { plain with contribute := fun scope depth => ?_ }
  refine (sound.expression _ _).bind fun type => Keeps.pure ?_
  simp [MemberShape.mentions, MemberShape.types, RecordShape.types]

/-- The walk of an object is sound if those of its properties are. -/
theorem walkSound_objectWalk {properties : List (Property WalkedNode)}
    {additional : Option WalkedNode}
    (listed : ∀ property ∈ properties, WalkSound context active property.schema.2)
    (further : ∀ value ∈ additional, WalkSound context active value.2) (traits : NodeTraits) :
    WalkSound context active (outside.objectWalk properties additional traits) := by
  -- In an intersection an object is its record, whether or not it is declared elsewhere.
  have contribute : ∀ {given} scope, Keeps context active given (do
      return MemberShape.record (← record properties additional scope)) MemberShape.mentions :=
    fun scope => (keeps_record scope listed further).bind fun shape =>
      Keeps.pure (List.subset_append_left _ _)
  unfold objectWalk
  split
  · have plain : WalkSound context active (outside.plainWalk traits fun _ _ =>
        return { kind := .map .any, nullable := traits.nullable }) :=
      walkSound_plainWalk traits fun _ _ => Keeps.pure (by simp [TypeExpr.mentions, TypeExpr.any])
    exact ⟨plain.declare, plain.expression, fun scope _ => contribute scope,
      fun scope => contribute scope⟩
  · have declared : WalkSound context active (outside.declaredWalk traits fun scope _ =>
        return .record (← record properties additional scope)) :=
      walkSound_declaredWalk traits fun scope _ =>
        (keeps_record scope listed further).bind fun shape =>
          Keeps.pure (by simp [Shape.mentions_record])
    exact ⟨declared.declare, declared.expression, fun scope _ => contribute scope,
      fun scope => contribute scope⟩

/-- The walk of a node that says nothing about a type is sound. -/
theorem walkSound_anyWalk (traits : NodeTraits) :
    WalkSound context active (outside.anyWalk traits) := by
  have plain : WalkSound context active (outside.plainWalk traits fun _ _ =>
      return TypeExpr.any.withNullable traits.nullable) :=
    walkSound_plainWalk traits fun _ _ => Keeps.pure (by simp [TypeExpr.mentions, TypeExpr.any])
  unfold anyWalk
  split
  · exact plain
  · refine ⟨plain.declare, plain.expression, fun _ _ => Keeps.pure ?_, fun _ => Keeps.pure ?_⟩ <;>
      split <;> simp [MemberShape.mentions, MemberShape.types]

/-- The walk of a reference is sound. -/
theorem Sound.walkSound_referenceWalk (sound : outside.Sound context active) (target : String)
    (traits : NodeTraits) : WalkSound context active (outside.referenceWalk target traits) := by
  have plain : WalkSound context active (outside.plainWalk traits fun scope _ => do
      let type ← outside.reference target scope
      return type.withNullable (type.nullable || traits.nullable)) :=
    walkSound_plainWalk traits fun scope _ =>
      (sound.keeps_reference target scope).bind fun type => Keeps.pure (by simp)
  refine ⟨plain.declare, plain.expression, plain.contribute, fun scope => ?_⟩
  refine (sound.keeps_reference target scope).bind fun type => ?_
  exact sound.expand _ fun name isEmitted => by simp [isEmitted]

/-- The shape of an intersection, which admits null if its node does. -/
def declaredIntersection (outside : Surroundings) (members : List WalkedNode) (traits : NodeTraits)
    (scope : Scope) (depth : Nat) : Synthesis Shape := do
  match ← outside.intersection members scope depth with
  | .alias target => return .alias (target.withNullable (target.nullable || traits.nullable))
  | shape => return shape

/-- The walk of an intersection is sound if those of its members are. -/
theorem Sound.walkSound_intersectionWalk (sound : outside.Sound context active)
    {members : List WalkedNode} (walks : ∀ member ∈ members, WalkSound context active member.2)
    (traits : NodeTraits) : WalkSound context active (outside.intersectionWalk members traits) := by
  have declared : WalkSound context active
      (outside.declaredWalk traits (outside.declaredIntersection members traits)) :=
    walkSound_declaredWalk traits fun scope depth => by
      unfold declaredIntersection
      refine (sound.keeps_intersection walks scope depth).bind fun shape => ?_
      cases shape <;> exact Keeps.pure (by simp [Shape.mentions])
  have contribute : ∀ {given} scope depth, Keeps context active given (do
      outside.contributionOf (← outside.intersection members scope depth) scope)
        MemberShape.mentions := fun scope depth =>
    (sound.keeps_intersection walks scope depth).bind fun shape =>
      sound.keeps_contributionOf scope (List.subset_append_left _ _)
  exact ⟨declared.declare, declared.expression, contribute, fun scope => contribute scope 0⟩

/-- The walk of a choice is sound if those of its members are. -/
theorem Sound.walkSound_unionWalk (sound : outside.Sound context active) (kind : CompositionKind)
    {members : List WalkedNode} (walks : ∀ member ∈ members, WalkSound context active member.2)
    (discriminator : Option Discriminator) (traits : NodeTraits) :
    WalkSound context active (outside.unionWalk kind members discriminator traits) := by
  have declared : WalkSound context active (outside.declaredWalk traits fun scope depth =>
      outside.union kind members discriminator traits.nullable scope depth) :=
    walkSound_declaredWalk traits fun scope depth =>
      sound.keeps_union kind walks discriminator traits.nullable scope depth
  exact ⟨declared.declare, declared.expression,
    fun _ _ => Keeps.pure (by simp [MemberShape.mentions, MemberShape.types]), declared.expand⟩

/-- Every walk is sound in sound surroundings. -/
theorem Sound.walkSound (sound : outside.Sound context active) (node : SchemaNode) :
    WalkSound context active (outside.walk node) := by
  induction node using SchemaNode.inductionOn with
  | primitive base format traits =>
    exact walkSound_plainWalk traits fun _ _ => Keeps.pure (by simp [TypeExpr.mentions])
  | enum base values traits =>
    exact walkSound_declaredWalk traits fun _ _ => Keeps.pure (by simp [Shape.mentions])
  | array items traits walks => exact walkSound_arrayWalk walks traits
  | map value traits walks => exact walkSound_mapWalk walks traits
  | object properties additional traits listed further =>
    rw [walk_object]
    exact walkSound_objectWalk (by simpa [walkedProperty, walked] using listed)
      (by simpa [walked] using further) traits
  -- Intersections and choices differ in what is done with the members after they have been walked.
  | composed kind members discriminator traits walks =>
    have walked : ∀ member ∈ members.map outside.walked, WalkSound context active member.2 := by
      simpa [Surroundings.walked] using walks
    by_cases isChoice : kind = .allOf
    · rw [isChoice, walk_allOf]
      exact sound.walkSound_intersectionWalk walked traits
    · rw [outside.walk_choice traits isChoice]
      exact sound.walkSound_unionWalk kind walked discriminator traits
  | reference target traits => exact sound.walkSound_referenceWalk target traits
  | any traits => exact walkSound_anyWalk traits
  | null traits =>
    exact walkSound_plainWalk traits fun _ _ => Keeps.pure (by simp [TypeExpr.mentions])

end Surroundings

namespace Synthesis

variable {context : Context} {active : List String}

/-- The shape of a component schema mentions names that are known. -/
theorem keeps_shapeWithin {outside : Surroundings} (sound : outside.Sound context active)
    (node : SchemaNode) (scope : Scope) :
    Keeps context active [] (shapeWithin outside node scope) Shape.mentions := by
  -- The check for aliases that lead to themselves only reads what is declared.
  unfold shapeWithin
  refine ((sound.walkSound node).declare scope 0).bind fun shape => ?_
  have check : Keeps context active (shape.mentions ++ [])
      (checkAlias outside.context scope shape) fun _ => [] := by
    intro first last result consistent started known ends
    obtain ⟨rfl, _⟩ := (ends_checkAlias_iff _ _ _ _).mp ends
    exact ⟨.refl _, fun _ _ _ isMember => absurd isMember List.not_mem_nil⟩
  exact check.bind fun _ => Keeps.pure (by simp)

/-- What holds inside more schemas in progress, or in more expansions, holds everywhere. -/
theorem withinInduction (model : SchemaModel) {motive : List String → List String → Prop}
    (step : ∀ active expanding,
      (∀ name node, model.node? name = some node → name ∉ active →
        motive (name :: active) expanding) →
      (∀ name node, model.node? name = some node → name ∉ expanding →
        motive active (name :: expanding)) → motive active expanding)
    (active expanding : List String) : motive active expanding := by
  -- Every schema of the model can be added only once to either list.
  refine step active expanding (fun name node found fresh => ?_) (fun name node found fresh => ?_)
  · have := Search.remaining_cons_lt (model.mem_names found) (by simpa using fresh)
    exact withinInduction model step (name :: active) expanding
  · have := Search.remaining_cons_lt (model.mem_names found) (by simpa using fresh)
    exact withinInduction model step active (name :: expanding)
termination_by Search.remaining model.names active + Search.remaining model.names expanding

/-- Starting a schema leaves the ones started. -/
theorem started_begin {workspace : Workspace} {name : String}
    (started : ∀ schema ∈ active, workspace.resolver.state schema ≠ .pending) :
    ∀ schema ∈ name :: active, (workspace.begin name).resolver.state schema ≠ .pending := by
  intro schema isMember
  rw [Workspace.begin, Resolver.state_start]
  split
  · simp
  · rename_i other
    exact started schema ((List.mem_cons.mp isMember).resolve_left other)

/-- Surroundings inside schemas in progress and expansions are sound. -/
theorem sound_within (context : Context) (muted : Bool) (active expanding : List String) :
    (within context muted active expanding).Sound context active := by
  -- The induction is on the schemas that are neither in progress nor expanded; entering one and expanding
  -- one are the two ways to get further inside.
  induction active, expanding using withinInduction context.model generalizing muted with
  | step active expanding inside expansion =>
    refine ⟨rfl, fun {target workspace} consistent started => ?_,
      fun {given target} path covered => ?_⟩
    · change Runs context workspace ((enterWithin context active expanding target).run workspace).2
      rcases enterWithin_cases context active expanding target workspace with
        ⟨same, _⟩ | ⟨node, result, inner, found, fresh, pending, ends, isLast⟩
      · rw [same]
        exact .refl _
      · have runs := (keeps_shapeWithin (inside target node found fresh (!expanding.isEmpty)) node _
          _ _ _ (consistent.begin found pending) (started_begin started) (by simp) ends).1
        rw [isLast]
        exact .component (.refl _) found pending _ started ends runs
    · intro first last result consistent started known ends
      rcases expandWithin_cases ends with ⟨_, rfl, rfl⟩ | ⟨_, rfl, rfl⟩ |
        ⟨node, found, fresh, ⟨_, rfl, rfl⟩ | ⟨_, expands⟩⟩
      · exact ⟨.refl _, fun _ isValue => by cases isValue⟩
      · exact ⟨.refl _, fun _ isValue => by cases isValue⟩
      · refine ⟨.refl _, fun _ isValue name isMember => ?_⟩
        cases isValue
        simp [MemberShape.mentions, MemberShape.types] at isMember
      · obtain ⟨emitted, isEmitted⟩ :=
          (context.exists_emitted?_iff target).mpr (context.model.mem_names found)
        refine (((expansion target node found fresh true).walkSound node).expand _) _ _ _ consistent
          started (fun name isName => known name ?_) expands
        have isSame : name = emitted := by
          simpa [emittedName, consistent.emitted_get?, isEmitted] using isName
        exact isSame ▸ covered emitted isEmitted

end Synthesis

end ApiTypes
