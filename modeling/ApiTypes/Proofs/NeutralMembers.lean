import ApiTypes.Proofs.ChoiceMembers
import ApiTypes.Proofs.InheritedTypes
import ApiTypes.Proofs.Synthesis.PacedSchemas

/-!
Members without a meaning. Further members of intersections that place no restriction change nothing, but
where a single reference that does not keep its name gets company by them.
-/

namespace ApiTypes

open Relation

namespace Registry

variable {first other : Registry} (same : ∀ name,
  (other.get? name).map Declaration.unplaced = (first.get? name).map Declaration.unplaced)

include same

/-- What is declared in one registry is declared in the other one, apart from places. -/
theorem exists_unplaced {name : String} {declaration : Declaration}
    (found : first.get? name = some declaration) :
    ∃ also, other.get? name = some also ∧ also.unplaced = declaration.unplaced ∧
      also.mentions = declaration.mentions ∧
        also.origin.isComponent = declaration.origin.isComponent := by
  have unplaced := same name
  rw [found] at unplaced
  obtain ⟨also, alsoFound, isUnplaced⟩ := Option.map_eq_some_iff.mp unplaced
  refine ⟨also, alsoFound, isUnplaced, ?_, ?_⟩
  · rw [← also.mentions_unplaced, isUnplaced, declaration.mentions_unplaced]
  · rw [← also.isComponent_unplaced, isUnplaced, declaration.isComponent_unplaced]

/-- Declarations that differ in places alone mention the same. -/
theorem Mentions.unplaced {name mentioned : String} (mentions : first.Mentions name mentioned) :
    other.Mentions name mentioned := by
  obtain ⟨declaration, found, isMentioned⟩ := mentions
  obtain ⟨also, alsoFound, _, sameMentions, _⟩ := exists_unplaced same found
  exact ⟨also, alsoFound, sameMentions ▸ isMentioned⟩

/-- What is supported by declarations is supported by ones that differ in places alone. -/
theorem supported_subset_unplaced : first.supported ⊆ other.supported := by
  rintro name ⟨names, closed, isMember⟩
  refine ⟨names, fun inner isInner => ?_, isMember⟩
  obtain ⟨declaration, found, inside⟩ := closed inner isInner
  obtain ⟨also, alsoFound, _, sameMentions, _⟩ := exists_unplaced same found
  exact ⟨also, alsoFound, sameMentions ▸ inside⟩

/-- What is kept is kept among declarations that differ in places alone. -/
theorem Kept.unplaced {name : String} (kept : first.Kept [] name) : other.Kept [] name := by
  obtain ⟨root, isRoot, leads⟩ := kept
  refine ⟨root, ?_, leads.lift id fun _ _ mentions => Mentions.unplaced same mentions⟩
  cases isRoot with
  | component found isComponent supported =>
    obtain ⟨also, alsoFound, _, _, sameOrigin⟩ := exists_unplaced same found
    exact .component alsoFound (sameOrigin.trans isComponent) (supported_subset_unplaced same supported)
  | mention isBound => cases isBound

end Registry

/-- A choice leads to one. -/
theorem SchemaNode.IsChoice.chooses {lookup : String → Option SchemaNode} {node : SchemaNode}
    (isChoice : node.IsChoice lookup) : node.Chooses lookup := by
  induction isChoice with
  | @choice kind _ _ _ isUnion =>
    refine .choice ?_
    rintro rfl
    cases isUnion
  | reference found _ ih => exact .reference found ih

/--
Workspaces in step when no component schema is in progress. No undefined number stands in the shapes that the
first one declares.
-/
structure Workspace.LevelWith (context : Context) (first other : Workspace) : Prop
    extends Workspace.InStep context [] (fun _ => True) first other where
  defined : first.DeclaresOnly Shape.IsDefined

namespace Document

/--
What stays as it is when intersections of a document have neutral members besides: what fails, what is
declared under each name but for places, what is emitted, and the types that operations use.
-/
structure AlikeWhenPadded (document : Document) (config : Config) (padded : Document) : Prop where
  state_eq : ∀ schema, (padded.entered config).resolver.state schema =
    (document.entered config).resolver.state schema
  declared_eq : ∀ name, ((padded.entered config).registry.get? name).map Declaration.unplaced =
    ((document.entered config).registry.get? name).map Declaration.unplaced
  emitted_iff : config.includeOperations = false → ∀ declaration,
    (∃ also ∈ (padded.synthesize config).declarations, also.unplaced = declaration) ↔
      ∃ also ∈ (document.synthesize config).declarations, also.unplaced = declaration
  level : (document.entered config).LevelWith (document.context config) (padded.entered config)
  /-- The schemas of operations are walked in level workspaces, and leave such workspaces behind. -/
  expression : ∀ {node also : SchemaNode} {scope place : Scope} {depth : Nat}
    {first other last : Workspace} {result : Except LocatedFailure TypeExpr},
    node.Padded (document.context config) also → .nan ∉ node.numbers → place.name = scope.name →
    scope.Allows (document.context config) (document.context config).FreesNeutral .used node →
    first.LevelWith (document.context config) other →
    (((Synthesis.surroundings (document.context config)).walk node).expression scope depth).Ends first
      result last →
    ∃ otherResult otherLast,
      (((Synthesis.surroundings (padded.context config)).walk also).expression place depth).Ends other
        otherResult otherLast ∧
      SameEnd Eq result otherResult ∧ last.LevelWith (document.context config) otherLast

/-- An intersection in a component schema has a reference to a choice among its members. -/
def JoinsChoice (document : Document) (config : Config) (schema target : String) : Prop :=
  ∃ node members traits next, (document.context config).model.node? schema = some node ∧
    node.Intersects members ∧ (⟨.reference target, traits⟩ : SchemaNode) ∈ members ∧
    (document.context config).model.node? target = some next ∧
    (document.context config).model.isUnion next = true

section

variable {document padded : Document} {config : Config}

/-- With neutral members besides, all component schemas are entered in step. -/
theorem levelWith_entered (pads : (document.context config).Pads (padded.context config))
    (spares : (document.context config).SparesNeutral) (isDefined : (document.context config).IsDefined) :
    (document.entered config).LevelWith (document.context config) (padded.entered config) := by
  have defined := declaresOnly_entered isDefined
  have inStep := Synthesis.inStep_forM_enter pads spares defined.isReflexive
    (document.context config).model.names pads.inStep_ofContext fun _ _ => id
  refine ⟨?_, defined⟩
  unfold entered Synthesis.enterAll
  rw [pads.names_eq]
  exact inStep

/-- The use of a node that has neutral members besides leaves level workspaces behind. -/
theorem levelWith_expression (pads : (document.context config).Pads (padded.context config))
    (spares : (document.context config).SparesNeutral) (isDefined : (document.context config).IsDefined)
    {node also : SchemaNode} {scope place : Scope} {depth : Nat} {first other last : Workspace}
    {result : Except LocatedFailure TypeExpr} (isPadded : node.Padded (document.context config) also)
    (noNan : .nan ∉ node.numbers) (sameName : place.name = scope.name)
    (allowed : scope.Allows (document.context config) (document.context config).FreesNeutral .used node)
    (level : first.LevelWith (document.context config) other)
    (ends : (((Synthesis.surroundings (document.context config)).walk node).expression scope depth).Ends
      first result last) :
    ∃ otherResult otherLast,
      (((Synthesis.surroundings (padded.context config)).walk also).expression place depth).Ends other
        otherResult otherLast ∧
      SameEnd Eq result otherResult ∧ last.LevelWith (document.context config) otherLast := by
  -- What the node declares has no undefined numbers either, and so may be met again.
  have orderly := level.orderly
  have comes := ((Synthesis.adequate_within (document.context config) false [] []).walkFollows
    node).expression scope depth _ _ _ orderly.consistent orderly.started ends
  have defined : last.DeclaresOnly Shape.IsDefined :=
    (Comes.moves isDefined.shapes comes noNan).declaresOnly isDefined.shapes orderly.consistent
      level.defined
  have paced := Synthesis.pacedBy_within pads spares defined.isReflexive false false [] []
    ⟨fun _ _ _ _ => trivial, by simp, by simp, by simp⟩
  obtain ⟨otherResult, otherLast, alsoEnds, sameEnd, inStep⟩ := ((paced.walk isPadded
    fun _ _ => trivial).expression depth sameName allowed).inStep level.toInStep (by simp) ends
      fun _ _ => id
  exact ⟨otherResult, otherLast, alsoEnds, sameEnd, ⟨inStep, defined⟩⟩

/-- What is emitted of declarations that differ in places alone differs in places alone. -/
theorem exists_emitted_unplaced (alone : config.includeOperations = false)
    (same : ∀ name, ((padded.entered config).registry.get? name).map Declaration.unplaced =
      ((document.entered config).registry.get? name).map Declaration.unplaced)
    {declaration : Declaration} (isEmitted : declaration ∈ (document.synthesize config).declarations) :
    ∃ also ∈ (padded.synthesize config).declarations, also.unplaced = declaration.unplaced := by
  obtain ⟨before, noneBound⟩ := document.unfinished_of_alone config alone
  obtain ⟨alsoBefore, alsoNoneBound⟩ := padded.unfinished_of_alone config alone
  rw [mem_declarations_synthesize_iff, before, noneBound] at isEmitted
  obtain ⟨also, alsoFound, isUnplaced, _⟩ := Registry.exists_unplaced same isEmitted.1
  have sameName : also.name = declaration.name := (congrArg Declaration.name isUnplaced :)
  refine ⟨also, ?_, isUnplaced⟩
  rw [mem_declarations_synthesize_iff, alsoBefore, alsoNoneBound, sameName]
  exact ⟨alsoFound, Registry.Kept.unplaced same isEmitted.2⟩

/-- Neutral members besides change nothing, if references that get company by them keep their names. -/
theorem alikeWhenPadded (pads : (document.context config).Pads (padded.context config))
    (spares : (document.context config).SparesNeutral) (isDefined : (document.context config).IsDefined) :
    document.AlikeWhenPadded config padded := by
  -- Entering all schemas keeps both documents in step; no schema is left pending, so in the end none is
  -- ahead, and what is declared differs in places alone.
  have level := levelWith_entered pads spares isDefined
  have settled := (document.runs_entered config).2
  have sameState (schema : String) : (padded.entered config).resolver.state schema =
      (document.entered config).resolver.state schema := by
    by_contra differs
    obtain ⟨node, found, _, pending, _⟩ := level.abreast.neutral differs
    exact settled schema ((document.context config).model.mem_names found) pending
  have same (name : String) : ((padded.entered config).registry.get? name).map Declaration.unplaced =
      ((document.entered config).registry.get? name).map Declaration.unplaced :=
    level.abreast.registry.get?_eq fun ⟨schema, _, differs⟩ => differs (sameState schema)
  refine ⟨sameState, same, fun alone declaration => ⟨?_, ?_⟩, level,
    levelWith_expression pads spares isDefined⟩
  · rintro ⟨also, isEmitted, rfl⟩
    exact exists_emitted_unplaced alone (fun name => (same name).symm) isEmitted
  · rintro ⟨also, isEmitted, rfl⟩
    exact exists_emitted_unplaced alone same isEmitted

/-- No schema with a choice in an intersection is emitted, whether that stands alone there or not. -/
theorem JoinsChoice.not_emits {schema target : String} (joins : document.JoinsChoice config schema target) :
    ¬document.Emits config schema := by
  obtain ⟨node, members, traits, next, found, intersects, isMember, isNext, isChoice⟩ := joins
  have chooses : (⟨.reference target, traits⟩ : SchemaNode).Chooses
      (document.context config).model.node? :=
    .reference isNext ((SchemaModel.isUnion_iff _).mp isChoice).chooses
  exact fun emits => (excluded_of_chooses chooses).2 schema node members emits found intersects isMember

/--
Members of intersections that place no restriction change nothing, but where a single reference that does not
keep its name gets company by them: if no name that is made up inside a component schema is held for one that
places no restriction, and no number is undefined. If the reference leads to a choice, neither document emits
the schema.
-/
theorem neutral_members (document : Document) (config : Config) (padded : Document) :
    ((document.context config).Pads (padded.context config) →
      (document.context config).SparesNeutral → (document.context config).IsDefined →
      document.AlikeWhenPadded config padded) ∧
    ∀ {schema target : String}, document.JoinsChoice config schema target →
      padded.JoinsChoice config schema target →
      ¬document.Emits config schema ∧ ¬padded.Emits config schema :=
  ⟨alikeWhenPadded, fun joins alsoJoins => ⟨joins.not_emits, alsoJoins.not_emits⟩⟩

/-- Where a declaration comes from, and if it is an alias, of which name, and whether it admits null. -/
def aliasOf (declaration : Declaration) : Origin × Option (Option String × Bool) :=
  (declaration.origin, match declaration.shape with
    | .alias type => some (type.name?, type.nullable)
    | .record _ | .enum .. | .union _ => none)

/-- What is found of an emitted declaration stands in one. -/
theorem exists_aliasOf {found : List (Origin × Option (Option String × Bool))}
    {form : Origin × Option (Option String × Bool)}
    (emitted : (document.synthesize config).declarations.map aliasOf = found) (isFound : form ∈ found) :
    ∃ declaration ∈ (document.synthesize config).declarations,
      declaration.origin = form.1 ∧ aliasOf declaration = form := by
  obtain ⟨declaration, isEmitted, isForm⟩ := List.mem_map.mp (emitted ▸ isFound)
  exact ⟨declaration, isEmitted, congrArg Prod.fst isForm, isForm⟩

end

/-- A schema, one that says nothing, and an intersection with the given members. -/
def intersectionOf (base : Schema) (members : List Schema) : Document where
  openapi := "3.1.0"
  info := { title := "Intersection", version := "1" }
  components := some {
    schemas := ⟨[("Base", base), ("Blank", .inline {}), ("Top", .inline { allOf := members })]⟩ }

/-- A record that admits null. -/
def nullableRecord : Schema :=
  .inline { type := some (.several [.object, .null]), properties := ⟨[("part", text)]⟩ }

/-- A string or an integer. -/
def textOrNumber : Schema := .inline { oneOf := [text, .inline { type := some (.single .integer) }] }

/-- A reference to the first schema. -/
def refBase : Schema := .ref "#/components/schemas/Base"

/-- A reference to the schema that says nothing. -/
def refBlank : Schema := .ref "#/components/schemas/Blank"

/-- The nodes of these schemas, with the members of the intersection. -/
def intersectionNodes (base : SchemaNode) (members : List SchemaNode) : List (String × SchemaNode) :=
  [("Base", base), ("Blank", ⟨.any, {}⟩), ("Top", ⟨.composed .allOf members none, {}⟩)]

/-- The node of a record with a text. -/
def partNode : SchemaNode := ⟨.object [⟨"part", false, ⟨.primitive .string none, {}⟩⟩] none, {}⟩

/-- Nodes that say nothing, in place and in a component schema, join the reference to the record. -/
def besideNodes : List (Option SchemaNode × SchemaNode) :=
  [(some ⟨.reference "Base", {}⟩, ⟨.reference "Base", {}⟩), (none, ⟨.any, {}⟩),
    (none, ⟨.reference "Blank", {}⟩)]

section

variable {context other : Context}
  (nodes : context.model.nodes = ⟨intersectionNodes partNode (besideNodes.filterMap Prod.fst)⟩)

include nodes

/-- The record refers to no component schema. -/
theorem not_refers_record (target : String) : ¬context.Refers "Base" target := by
  rintro ⟨node, found, refers⟩
  rw [SchemaModel.node?, nodes] at found
  cases found
  cases refers with
  | property isListed inside =>
    cases List.mem_singleton.mp isListed
    cases inside
  | additional isValue => cases isValue

/-- No component schema leads to itself. -/
theorem acyclic_intersection (schema : String) : ¬TransGen context.Refers schema schema := by
  -- The intersection alone refers to another one, and that is the record.
  have onlyBase {first target : String} (refers : context.Refers first target) :
      first = "Top" ∧ target = "Base" := by
    obtain ⟨node, found, inside⟩ := refers
    have isEntry := Table.mem_entries_of_get? found
    rw [nodes] at isEntry
    simp only [intersectionNodes, List.mem_cons, List.not_mem_nil, or_false, Prod.mk.injEq] at isEntry
    rcases isEntry with ⟨rfl, rfl⟩ | ⟨rfl, rfl⟩ | ⟨rfl, rfl⟩
    · exact absurd ⟨_, found, inside⟩ (not_refers_record nodes target)
    · cases inside
    · cases inside with
      | member isMember inside =>
        cases List.mem_singleton.mp isMember
        cases inside
        exact ⟨rfl, rfl⟩
  intro leads
  obtain ⟨_, firstStep, _⟩ := TransGen.head'_iff.mp leads
  obtain ⟨_, _, lastStep⟩ := TransGen.tail'_iff.mp leads
  simpa using (onlyBase firstStep).1.symm.trans (onlyBase lastStep).2

/-- The record keeps its name in an intersection. -/
theorem keepsName_record : context.KeepsName "Base" := by
  have found : context.model.node? "Base" = some partNode := by
    rw [SchemaModel.node?, nodes]
    rfl
  refine ⟨fun node isFound => ?_, fun outline outlines => ?_, fun _ _ chain refers => chain.tail refers,
    fun schema _ => acyclic_intersection nodes schema, ?_⟩
  · cases found.symm.trans isFound
    rfl
  · -- It is outlined as a record where it is referred to.
    have notChoice : context.model.isUnion partNode = false := by
      rw [Bool.eq_false_iff, ne_eq, SchemaModel.isUnion_iff]
      rintro ⟨⟨⟩⟩
    cases (outlines .written {}).unique (.reference found notChoice .object)
    exact ⟨rfl, rfl⟩
  · intro schema node name chain isFound _ candidate tries
    rcases chain.cases_head with rfl | ⟨target, refers, _⟩
    · cases found.symm.trans isFound
      exact absurd tries not_tries_objectWithText
    · exact absurd refers (not_refers_record nodes target)

/-- No names are made up inside the schemas. -/
theorem sparesNeutral_intersection : context.SparesNeutral := by
  intro schema node name found _ candidate tries
  have isEntry := Table.mem_entries_of_get? found
  rw [nodes] at isEntry
  simp only [intersectionNodes, List.mem_cons, List.not_mem_nil, or_false, Prod.mk.injEq] at isEntry
  rcases isEntry with ⟨rfl, rfl⟩ | ⟨rfl, rfl⟩ | ⟨rfl, rfl⟩
  · exact absurd tries not_tries_objectWithText
  · cases tries
  · cases tries with
    | case isChoice | caseName isChoice => exact absurd rfl isChoice
    | member isMember inside =>
      cases List.mem_singleton.mp isMember
      cases inside with
      | type isType => cases isType
      | parts _ inside => cases inside

/-- The schemas write no numbers. -/
theorem isDefined_intersection : context.IsDefined := by
  intro name node found
  have isEntry := Table.mem_entries_of_get? found
  rw [nodes] at isEntry
  have numbers : ∀ entry ∈ intersectionNodes partNode (besideNodes.filterMap Prod.fst),
      entry.2.numbers = [] := by decide
  rw [numbers _ isEntry]
  exact List.not_mem_nil

/-- With all of them, the intersection has neutral members besides. -/
theorem pads_besideNodes (config_eq : other.config = context.config)
    (others : other.model.nodes = ⟨intersectionNodes partNode (besideNodes.map Prod.snd)⟩) :
    context.Pads other where
  config_eq := config_eq
  names_eq := by rw [SchemaModel.names, SchemaModel.names, nodes, others]; rfl
  padded {schema node} found := by
    have isNeutral : context.IsNeutral "Blank" :=
      ⟨_, by rw [SchemaModel.node?, nodes]; rfl, rfl⟩
    have isTop : SchemaNode.Padded context
        ⟨.composed .allOf (besideNodes.filterMap Prod.fst) none, {}⟩
        ⟨.composed .allOf (besideNodes.map Prod.snd) none, {}⟩ := by
      refine .intersection ?_ ?_ (.company rfl rfl (keepsName_record nodes))
      · simp [besideNodes, SchemaNode.Padded.refl]
      · have isBlank : SchemaNode.Neutral context ⟨.any, {}⟩ := .inPlace rfl
        simp [besideNodes, isBlank, SchemaNode.Neutral.reference, isNeutral]
    -- Only the intersection differs between the two models.
    have isEntry := Table.mem_entries_of_get? found
    rw [nodes] at isEntry
    simp only [intersectionNodes, List.mem_cons, List.not_mem_nil, or_false, Prod.mk.injEq] at isEntry
    rw [SchemaModel.node?, others]
    rcases isEntry with ⟨rfl, rfl⟩ | ⟨rfl, rfl⟩ | ⟨rfl, rfl⟩
    · exact ⟨_, rfl, .refl _, fun _ => rfl⟩
    · exact ⟨_, rfl, .refl _, fun _ => rfl⟩
    · exact ⟨_, rfl, isTop, fun leads => absurd leads (acyclic_intersection nodes "Top")⟩

end

/--
Two members that say nothing change nothing where the reference to a record stood alone. A choice makes the
intersection fail in both cases.
-/
theorem neutral_members_intersectionOf :
    (intersectionOf (objectWith none "part" text) [refBase]).AlikeWhenPadded {}
      (intersectionOf (objectWith none "part" text) [refBase, .inline {}, refBlank]) ∧
    ¬(intersectionOf textOrNumber [refBase]).Emits {} "Top" ∧
      ¬(intersectionOf textOrNumber [refBase, refBlank]).Emits {} "Top" := by
  have nodes : ((intersectionOf (objectWith none "part" text) [refBase]).context {}).model.nodes =
      ⟨intersectionNodes partNode (besideNodes.filterMap Prod.fst)⟩ := rfl
  have joins : (intersectionOf textOrNumber [refBase]).JoinsChoice {} "Top" "Base" :=
    ⟨_, [⟨.reference "Base", {}⟩], {}, _, rfl, .here, .head _, rfl,
      (SchemaModel.isUnion_iff _).mpr (.choice rfl)⟩
  have alsoJoins : (intersectionOf textOrNumber [refBase, refBlank]).JoinsChoice {} "Top" "Base" :=
    ⟨_, [⟨.reference "Base", {}⟩, ⟨.reference "Blank", {}⟩], {}, _, rfl, .here, .head _, rfl,
      (SchemaModel.isUnion_iff _).mpr (.choice rfl)⟩
  exact ⟨(neutral_members _ {} _).1 (pads_besideNodes nodes rfl rfl) (sparesNeutral_intersection nodes)
      (isDefined_intersection nodes), (neutral_members _ {} _).2 joins alsoJoins⟩

/-- The node of the record that admits null. -/
def nullableNode : SchemaNode :=
  ⟨.object [⟨"part", false, ⟨.primitive .string none, {}⟩⟩] none, { nullable := true }⟩

/-- The reference alone is an alias that admits null. -/
theorem aliasOf_alone :
    ((intersectionOf nullableRecord [refBase]).synthesize {}).declarations.map aliasOf =
      [(.component "Base", none), (.component "Blank", some (none, false)),
        (.component "Top", some (some "Base", true))] := by
  decide +kernel

/-- With company it is one that does not. -/
theorem aliasOf_joined :
    ((intersectionOf nullableRecord [refBase, refBlank]).synthesize {}).declarations.map aliasOf =
      [(.component "Base", none), (.component "Blank", some (none, false)),
        (.component "Top", some (some "Base", false))] := by
  decide +kernel

/-- The alias of a record that admits null loses that by a member that says nothing. -/
theorem not_neutral_intersectionOf :
    ¬∀ (document : Document) (config : Config) (padded : Document) (schema : String)
      (before after : List SchemaNode) (extra : SchemaNode) (discriminator : Option Discriminator)
      (traits : NodeTraits) (declaration joined : Declaration),
      padded.schemas.keys = document.schemas.keys →
      (document.context config).model.node? schema =
        some ⟨.composed .allOf (before ++ after) discriminator, traits⟩ →
      (padded.context config).model.node? schema =
        some ⟨.composed .allOf (before ++ extra :: after) discriminator, traits⟩ →
      (∀ other, other ≠ schema →
        (padded.context config).model.node? other = (document.context config).model.node? other) →
      extra.Neutral (padded.context config) →
      declaration ∈ (document.synthesize config).declarations →
      declaration.origin = .component schema →
      joined ∈ (padded.synthesize config).declarations → joined.origin = .component schema →
      joined.shape = declaration.shape := by
  -- The intersection is another name of its only member before, and a merged type with the neutral one.
  intro alwaysNeutral
  obtain ⟨declaration, isEmitted, origin, isAlias⟩ :=
    exists_aliasOf aliasOf_alone (.tail _ (.tail _ (.head _)))
  obtain ⟨joined, alsoEmitted, alsoOrigin, isJoined⟩ :=
    exists_aliasOf aliasOf_joined (.tail _ (.tail _ (.head _)))
  have nodes : ((intersectionOf nullableRecord [refBase]).context {}).model.nodes =
      ⟨intersectionNodes nullableNode [⟨.reference "Base", {}⟩]⟩ := rfl
  have others : ((intersectionOf nullableRecord [refBase, refBlank]).context {}).model.nodes =
      ⟨intersectionNodes nullableNode [⟨.reference "Base", {}⟩, ⟨.reference "Blank", {}⟩]⟩ := rfl
  have same := alwaysNeutral (intersectionOf nullableRecord [refBase]) {}
    (intersectionOf nullableRecord [refBase, refBlank]) "Top"
    [⟨.reference "Base", {}⟩] [] ⟨.reference "Blank", {}⟩ none {} declaration joined rfl rfl rfl
    (fun other isOther => by
      have notTop : ("Top" == other) = false := by simpa using isOther.symm
      simp only [SchemaModel.node?, nodes, others, intersectionNodes, Table.get?, List.find?, notTop])
    (.reference ⟨_, rfl, rfl⟩) isEmitted origin alsoEmitted alsoOrigin
  have sameAlias : aliasOf joined = aliasOf declaration := by
    rw [aliasOf, aliasOf, same, origin, alsoOrigin]
  rw [isAlias, isJoined] at sameAlias
  simp at sameAlias

end Document

end ApiTypes
