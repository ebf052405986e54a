import ApiTypes.Proofs.Invariance
import ApiTypes.Proofs.NodeParts
import ApiTypes.Proofs.Synthesis.Blame
import ApiTypes.Proofs.Synthesis.Repetition

/-!
Component schemas that depend on others. All to which an emitted schema refers is emitted, wherever its name
is used. An intersection takes the properties of a member and not its name; so a member may be missing that
was in progress when it was expanded, if it was found only later that something does not agree.
-/

namespace ApiTypes

open Relation

namespace Document

variable (document : Document) (config : Config)

/-- A component schema has a declaration in the output. -/
def Emits (schema : String) : Prop := ∃ name, (document.synthesize config).names.get? schema = some name

/-- A component schema refers to another one, other than as a member of an intersection. -/
def Uses (schema target : String) : Prop :=
  ∃ node, (document.context config).model.node? schema = some node ∧ node.Uses target

/-- A component schema is emitted if the name held for it is supported in the end. -/
theorem emits_iff (schema : String) : document.Emits config schema ↔
    (document.context config).Supports (document.unfinished config).registry schema :=
  exists_congr fun name => document.names_synthesize_get?_iff config schema name

/-- Every discriminator in a component schema lists a value once. -/
theorem keyed_of_node? {schema : String} {node : SchemaNode}
    (found : (document.context config).model.node? schema = some node) : node.kind.Keyed := by
  have isNode : (document.context config).model.node? schema = _ :=
    SchemaModel.node?_ofDocument document schema
  rw [isNode] at found
  obtain ⟨schema, _, rfl⟩ := Option.map_eq_some_iff.mp found
  exact ((schema.everywhere_of_forall fun _ => trivial).partsMeet Lowering.nodup_keys_resolveMapping
    document.version).mono (fun _ _ _ => trivial) fun _ => id

/-- A name stands in the end. -/
def Keeps (name : String) : Prop := name ∈ (document.unfinished config).registry.supported

/-- An emitted component schema has a declaration that has come of a walk of its node, between two
workspaces. All that has come of it stands in the end. -/
structure Declares (schema : String) (node : SchemaNode) (first last : Workspace) : Prop where
  found : (document.context config).model.node? schema = some node
  stands : (Task.declare node 0).Stands (document.context config) (document.Keeps config) first last
  kept : ∀ name declaration, last.registry.get? name = some declaration →
    (document.unfinished config).registry.get? name = some declaration
  ready : ∀ other, last.Ready other →
    (document.unfinished config).resolver.state other = .registered ∨
      ReflTransGen (document.context config).Refers other schema

/-- Every emitted component schema is declared so. -/
theorem exists_declares {schema : String} (emits : document.Emits config schema) :
    ∃ node first last, document.Declares config schema node first last := by
  obtain ⟨name, emitted, supported⟩ := (document.emits_iff config schema).mp emits
  obtain ⟨declaration, stands, inside⟩ := Registry.isClosed_supported _ name supported
  have registered := ((document.consistent_unfinished config).registered_of_declared emitted stands).2
  cases document.records_unfinished config registered with
  | @walk node _ _ _ first last found isName isRecorded consistent yields kept ready =>
    cases emitted.symm.trans isName
    cases stands.symm.trans isRecorded
    exact ⟨node, first, last, found,
      ⟨_, yields.gives consistent (.refl _) (.refl _), rfl, inside⟩, kept, ready⟩

variable {document config} {schema target : String} {node : SchemaNode} {first last : Workspace}

/-- A component schema whose name is retained is emitted. -/
theorem emits_of_retains
    (retains : (document.context config).Retains (document.Keeps config) last target) :
    document.Emits config target := (document.emits_iff config target).mpr retains.2

namespace Declares

/-- What has come of the walk stands with all that it mentions. -/
theorem keeps (declares : document.Declares config schema node first last) :
    last.Keeps (document.Keeps config) := Workspace.keeps_supported declares.kept

/-- What the node uses is emitted. -/
theorem uses (declares : document.Declares config schema node first last)
    (uses : node.Uses target) : document.Emits config target :=
  emits_of_retains (((node.leaves declares.keeps (document.keyed_of_node? config declares.found)).used 0
    (.inr declares.stands) target).1 uses)

/-- All to which the node refers is met. -/
theorem meets (declares : document.Declares config schema node first last)
    (refers : node.Refers target) :
    (document.context config).Meets (document.Keeps config) first last target :=
  ((node.leaves declares.keeps (document.keyed_of_node? config declares.found)).used 0
    (.inr declares.stands) target).2 refers

end Declares

/-!
Where nothing clashes. Whatever an emitted schema has met could be declared, so it is registered; and what
is registered with all to which it leads stands.
-/

/-- A component schema is emitted, or an emitted one has taken it up. -/
def Involves (document : Document) (config : Config) (schema : String) : Prop :=
  document.Emits config schema ∨ ∃ user node first last,
    document.Declares config user node first last ∧
      (document.context config).TakesUp (document.Keeps config) first last schema

/-- Whatever an emitted component schema has met is involved. -/
theorem Declares.involves (declares : document.Declares config schema node first last)
    (meets : (document.context config).Meets (document.Keeps config) first last target) :
    document.Involves config target :=
  meets.imp emits_of_retains fun takesUp => ⟨schema, node, first, last, declares, takesUp⟩

/-- A component schema that is involved could be declared, and all to which it refers is involved. -/
theorem Involves.declarable (involves : document.Involves config schema) :
    ∃ node start done, (document.context config).model.node? schema = some node ∧
      (Task.declare node 0).Yielded (document.context config) start done ∧
      ∀ target, node.Refers target → document.Involves config target := by
  have emitted (emits : document.Emits config schema) :
      ∃ node start done, (document.context config).model.node? schema = some node ∧
        (Task.declare node 0).Yielded (document.context config) start done ∧
        ∀ target, node.Refers target → document.Involves config target := by
    obtain ⟨node, first, last, declares⟩ := document.exists_declares config emits
    obtain ⟨_, gives, _⟩ := declares.stands
    exact ⟨node, first, last, declares.found, gives.yielded, fun target refers =>
      declares.involves (declares.meets refers)⟩
  rcases involves with emits | ⟨user, _, first, last, declares, takesUp⟩
  · exact emitted emits
  · obtain ⟨node, _, found, _⟩ := takesUp.exists_node
    rcases takesUp.2.of_schema declares.keeps found (document.keyed_of_node? config found) with
      kept | ⟨yielded, meets⟩
    · exact emitted (emits_of_retains ⟨takesUp.1, kept⟩)
    · exact ⟨node, first, last, found, yielded, fun target refers =>
        declares.involves (meets target refers)⟩

/-- So is all to which it leads. -/
theorem Involves.refers (involves : document.Involves config schema)
    (refers : (document.context config).Refers schema target) : document.Involves config target := by
  obtain ⟨node, isNode, refers⟩ := refers
  obtain ⟨_, _, _, found, _, inside⟩ := involves.declarable
  cases found.symm.trans isNode
  exact inside target refers

/-- The component schemas that are involved are declared with the help of each other. -/
theorem founds_involves (document : Document) (config : Config) :
    (document.context config).Founds (document.Involves config) := by
  intro schema involves
  obtain ⟨node, start, done, found, yielded, inside⟩ := involves.declarable
  refine ⟨node, start, done, found, yielded, fun target needs => ?_⟩
  obtain ⟨next, refers, path⟩ := Task.Asks.leads_of_needs needs ⟨target, rfl, .refl⟩
  -- The induction is on the references that lead from the node to the target.
  clear needs
  induction path with
  | refl => exact inside _ refers
  | tail _ refers ih => exact ih.refers refers

/--
Component schemas that are declared with the help of each other are registered, unless there is a clash.
-/
theorem registered_of_founds {context : Context} {schemas : String → Prop}
    (founds : context.Founds schemas) (same : (document.context config).Same context)
    (calm : ¬(document.entered config).Clashes) (isIn : schemas schema) :
    (document.unfinished config).resolver.state schema = .registered := by
  obtain ⟨_, spares⟩ := document.holds_entered config (stepInvariant_spares founds same)
    (.inr fun schema _ => by simp [Workspace.state_ofContext])
  -- In the end every schema is registered or has failed, and this one has not.
  obtain ⟨node, _, _, found, _⟩ := founds schema isIn
  have isSchema := (document.context config).model.mem_names
    ((congrFun same.node?_eq schema).symm.trans found)
  refine (document.state_unfinished config (by rwa [← document.names_context config])).resolve_right
    fun failed => ?_
  rw [(document.binds_unfinished config).state_eq
    ((document.runs_entered config).2 schema isSchema)] at failed
  exact spares.resolve_left calm schema isIn failed

/-- Registered component schemas that refer only to each other are emitted. -/
theorem emits_of_registered {schemas : String → Prop}
    (registered : ∀ schema, schemas schema →
      (document.unfinished config).resolver.state schema = .registered)
    (closed : ∀ schema target, schemas schema → (document.context config).Refers schema target →
      schemas target)
    (isIn : schemas schema) : document.Emits config schema := by
  have reaches {schema target : String} (isIn : schemas schema)
      (path : TransGen (document.context config).Refers schema target) : schemas target := by
    induction path with
    | single refers => exact closed _ _ isIn refers
    | tail _ refers ih => exact closed _ _ ih refers
  let isHeld (name : String) : Prop :=
    ∃ schema, (document.context config).emitted? schema = some name ∧ schemas schema
  -- What a registered schema mentions rests on schemas to which it leads.
  have founded (name : String) : isHeld name →
      ∃ declaration, (document.unfinished config).registry.get? name = some declaration ∧
        ∀ mention ∈ declaration.shape.mentions,
          (document.unfinished config).registry.Rooted isHeld mention := by
    rintro ⟨schema, emitted, isIn⟩
    cases document.records_unfinished config (registered schema isIn) with
    | walk found isName stands consistent yields kept =>
      cases emitted.symm.trans isName
      refine ⟨_, stands, fun mention isMentioned => ?_⟩
      have grounded := (yields.grounds consistent).grounded rfl mention isMentioned
      refine Registry.Rooted.mono grounded kept ?_
      rintro name ⟨target, isTarget, leads, _⟩
      exact ⟨target, isTarget, reaches isIn ((Task.leads_declare found).mp leads)⟩
  cases document.records_unfinished config (registered schema isIn) with
  | walk _ emitted =>
    exact (document.emits_iff config schema).mpr
      ⟨_, emitted, Registry.Rooted.supported (.held ⟨schema, emitted, isIn⟩) founded⟩

/-- Where nothing clashes, all that is involved is emitted. -/
theorem Involves.emits (calm : ¬(document.entered config).Clashes)
    (involves : document.Involves config schema) : document.Emits config schema :=
  emits_of_registered
    (fun _ => registered_of_founds (document.founds_involves config) ⟨rfl, rfl, rfl⟩ calm)
    (fun _ _ involves refers => involves.refers refers) involves

/-!
Where no way leads back. What an emitted schema has met that does not lead back to it is not in progress
when it is met; so it is registered, and all that its declaration mentions has been met as well.
-/

/-- A name is held for a component schema that does not lead to another one. -/
def LiesApart (document : Document) (config : Config) (schema name : String) : Prop :=
  ∃ other, (document.context config).emitted? other = some name ∧
    ¬ReflTransGen (document.context config).Refers other schema

namespace Declares

/-- What rests on met names is supported, or it is declared with a shape that rests on them. -/
theorem rooted_of_met {declaration : Declaration} {name : String}
    (declares : document.Declares config schema node first last)
    (rooted : (document.unfinished config).registry.Rooted
      ((document.context config).MeetsName (document.Keeps config) first last) name)
    (stands : (document.unfinished config).registry.get? name = some declaration) :
    name ∈ (document.unfinished config).registry.supported ∨
      ∀ mention ∈ declaration.shape.mentions, (document.unfinished config).registry.Rooted
        ((document.context config).MeetsName (document.Keeps config) first last) mention := by
  cases rooted with
  | declared isDeclared inside =>
    cases stands.symm.trans isDeclared
    exact .inr inside
  | held met =>
    -- A schema that is met is kept, or has been taken up by the walk of the declaration.
    obtain ⟨target, emitted, retains | takesUp⟩ := met
    · obtain ⟨_, _, isName, isKept⟩ := retains
      cases emitted.symm.trans isName
      exact .inl isKept
    · have registered :=
        ((document.consistent_unfinished config).registered_of_declared emitted stands).2
      cases document.records_unfinished config registered with
      | @walk also _ _ _ _ done found isName isRecorded consistent yields kept =>
        cases emitted.symm.trans isName
        cases stands.symm.trans isRecorded
        -- What is taken up as a whole is kept under its name; anything else is traced through its walk.
        cases isAtomic : also.isAtomic with
        | true =>
          obtain ⟨_, _, isName, isKept⟩ := takesUp.retains ⟨also, found, isAtomic⟩
          cases emitted.symm.trans isName
          exact .inl isKept
        | false =>
          exact .inr fun mention isMentioned => (takesUp.rooted found isAtomic yields consistent
            (.refl _) declares.keeps mention isMentioned).mono kept fun _ => id

/-- What rests on names that lie apart is declared with a shape that rests on such names. -/
theorem rooted_of_apart {declaration : Declaration} {name : String}
    (rooted : (document.unfinished config).registry.Rooted (document.LiesApart config schema) name)
    (stands : (document.unfinished config).registry.get? name = some declaration) :
    ∀ mention ∈ declaration.shape.mentions,
      (document.unfinished config).registry.Rooted (document.LiesApart config schema) mention := by
  cases rooted with
  | declared isDeclared inside =>
    cases stands.symm.trans isDeclared
    exact inside
  | held isApart =>
    obtain ⟨other, emitted, apart⟩ := isApart
    have registered := ((document.consistent_unfinished config).registered_of_declared emitted stands).2
    cases document.records_unfinished config registered with
    | walk found isName isRecorded consistent yields kept =>
      cases emitted.symm.trans isName
      cases stands.symm.trans isRecorded
      intro mention isMentioned
      have grounded := (yields.grounds consistent).grounded rfl mention isMentioned
      refine Registry.Rooted.mono grounded kept ?_
      rintro name ⟨further, isName, leads, _⟩
      exact ⟨further, isName, fun path =>
        apart (((Task.leads_declare found).mp leads).to_reflTransGen.trans path)⟩

/-- What rests on met names, and on names that lie apart, is declared. -/
theorem exists_declaration {name : String} (declares : document.Declares config schema node first last)
    (isMet : (document.unfinished config).registry.Rooted
      ((document.context config).MeetsName (document.Keeps config) first last) name)
    (isApart : (document.unfinished config).registry.Rooted (document.LiesApart config schema) name) :
    ∃ declaration, (document.unfinished config).registry.get? name = some declaration := by
  cases isMet with
  | declared stands => exact ⟨_, stands⟩
  | held met =>
    cases isApart with
    | declared stands => exact ⟨_, stands⟩
    | held isApart =>
      obtain ⟨target, emitted, meets⟩ := met
      obtain ⟨other, alsoEmitted, apart⟩ := isApart
      cases Context.emitted?_injective emitted alsoEmitted
      rcases meets with ⟨_, _, isName, isKept⟩ | ⟨isReady, _⟩
      · cases emitted.symm.trans isName
        obtain ⟨declaration, stands, _⟩ := Registry.isClosed_supported _ name isKept
        exact ⟨declaration, stands⟩
      · -- What is ready and does not lead back is registered, and so declared.
        obtain ⟨_, declaration, isName, stands, _⟩ := (document.consistent_unfinished config).registered
          ((declares.ready target isReady).resolve_right apart)
        cases emitted.symm.trans isName
        exact ⟨declaration, stands⟩

/-- What does not lead back is emitted if it is met. -/
theorem emits_of_meets (declares : document.Declares config schema node first last)
    (meets : (document.context config).Meets (document.Keeps config) first last target)
    (apart : ¬ReflTransGen (document.context config).Refers target schema) :
    document.Emits config target := by
  obtain ⟨name, emitted⟩ := meets.exists_emitted
  refine (document.emits_iff config target).mpr ⟨name, emitted, ?_⟩
  let names : Set String := {name | name ∈ (document.unfinished config).registry.supported ∨
    (document.unfinished config).registry.Rooted
      ((document.context config).MeetsName (document.Keeps config) first last) name ∧
    (document.unfinished config).registry.Rooted (document.LiesApart config schema) name}
  refine ⟨names, fun name isIn => ?_, .inr ⟨.held ⟨target, emitted, meets⟩, .held ⟨target, emitted, apart⟩⟩⟩
  have stood (supported : name ∈ (document.unfinished config).registry.supported) :
      ∃ declaration, (document.unfinished config).registry.get? name = some declaration ∧
        ∀ mention ∈ declaration.mentions, mention ∈ names := by
    obtain ⟨declaration, stands, inside⟩ := Registry.isClosed_supported _ name supported
    exact ⟨declaration, stands, fun mention isMentioned => .inl (inside mention isMentioned)⟩
  rcases isIn with supported | ⟨isMet, isApart⟩
  · exact stood supported
  · obtain ⟨declaration, stands⟩ := declares.exists_declaration isMet isApart
    rcases declares.rooted_of_met isMet stands with supported | inside
    · exact stood supported
    · exact ⟨declaration, stands, fun mention isMentioned =>
        .inr ⟨inside mention isMentioned, rooted_of_apart isApart stands mention isMentioned⟩⟩

end Declares

variable (document config) (schema target)

/--
A component schema to which an emitted one refers is emitted, if it is used there; or if it does not lead
back, as it is not in progress then when it is expanded; or if it is not reported that anything clashes.
-/
theorem emits_of_refers (emits : document.Emits config schema)
    (refers : (document.context config).Refers schema target)
    (steady : document.Uses config schema target ∨
      ¬TransGen (document.context config).Refers target schema ∨
      ¬(document.entered config).Clashes) : document.Emits config target := by
  obtain ⟨node, first, last, declares⟩ := document.exists_declares config emits
  have meets : (document.context config).Meets (document.Keeps config) first last target := by
    obtain ⟨also, isNode, refers⟩ := refers
    cases declares.found.symm.trans isNode
    exact declares.meets refers
  rcases steady with ⟨also, isNode, uses⟩ | apart | calm
  · cases declares.found.symm.trans isNode
    exact declares.uses uses
  · refine declares.emits_of_meets meets fun path => ?_
    rcases Relation.reflTransGen_iff_eq_or_transGen.mp path with rfl | path
    · exact apart (.single refers)
    · exact apart path
  · exact (declares.involves meets).emits calm

/-- The first component schema to which a member of a composed schema refers. -/
def memberTarget? (node : SchemaNode) : Option String :=
  match node.kind with
  | .composed _ members _ => members.findSome? (·.kind.referenceTarget?)
  | _ => none

variable {schema target} in
/-- A composed schema refers to it. -/
theorem refers_of_memberTarget? {context : Context}
    (isMember : (context.model.node? schema).bind memberTarget? = some target) :
    context.Refers schema target := by
  obtain ⟨⟨kind, traits⟩, found, isMember⟩ := Option.bind_eq_some_iff.mp isMember
  cases kind with
  | composed kind members discriminator =>
    obtain ⟨⟨kind, traits⟩, isMember, isTarget⟩ := List.exists_of_findSome?_eq_some isMember
    cases kind <;> cases isTarget
    exact ⟨_, found, .member isMember .reference⟩
  | _ => cases isMember

/-- An extension of an item, which is itself an extended link to the next item. -/
def linkedItems : Document :=
  let object (name : String) (schema : Schema) : Schema :=
    .inline { type := some (.single .object), properties := ⟨[(name, schema)]⟩ }
  let extended (base field : String) : Schema := .inline {
    allOf := [.ref base, object field (.inline { type := some (.single .string) })] }
  { openapi := "3.1.0"
    info := { title := "Linked items", version := "1" }
    components := some {
      schemas := ⟨[
        ("Special", extended "#/components/schemas/Item" "note"),
        ("Item", extended "#/components/schemas/Link" "label"),
        ("Link", object "next" (.ref "#/components/schemas/Item"))]⟩ } }

/-- The item is emitted as it does not lead back, and the link is as nothing clashes. -/
theorem emits_linkedItems :
    linkedItems.Emits {} "Special" ∧ (linkedItems.context {}).Refers "Special" "Item" ∧
      ¬TransGen (linkedItems.context {}).Refers "Item" "Special" ∧
      (linkedItems.context {}).Refers "Item" "Link" ∧ ¬(linkedItems.entered {}).Clashes ∧
      linkedItems.Emits {} "Item" ∧ linkedItems.Emits {} "Link" := by
  have emits : linkedItems.Emits {} "Special" := Option.isSome_iff_exists.mp (by decide +kernel)
  have refersItem : (linkedItems.context {}).Refers "Special" "Item" :=
    refers_of_memberTarget? (by decide)
  have refersLink : (linkedItems.context {}).Refers "Item" "Link" := refers_of_memberTarget? (by decide)
  have apart : ¬TransGen (linkedItems.context {}).Refers "Item" "Special" := by
    -- Nothing refers to the extension at all.
    intro path
    obtain ⟨_, _, node, found, refers⟩ := Relation.TransGen.tail'_iff.mp path
    have unnamed : ∀ entry ∈ (linkedItems.context {}).model.nodes.entries,
        "Special" ∉ entry.2.references := by
      decide
    exact unnamed _ (Table.mem_entries_of_get? found) refers.mem_references
  have calm : ¬(linkedItems.entered {}).Clashes := by
    have unreported : (linkedItems.entered {}).diagnostics = [] := by decide +kernel
    rintro ⟨diagnostic, isReported, _⟩
    simp [unreported] at isReported
  have emitsItem := emits_of_refers linkedItems {} "Special" "Item" emits refersItem (.inr (.inl apart))
  exact ⟨emits, refersItem, apart, refersLink, calm, emitsItem,
    emits_of_refers linkedItems {} "Item" "Link" emitsItem refersLink (.inr (.inr calm))⟩

/-- A record whose properties are merged is entered by one of them, through its own expansion. -/
def expandedEarly : Document :=
  let record (title : Option String) : Schema := .inline {
    title
    type := some (.single .object)
    properties := ⟨[("k", .inline { type := some (.single .string) })]⟩ }
  let choice : Schema := .inline { oneOf := [record (some "Foo"), record (some "Foo2")] }
  { openapi := "3.1.0"
    info := { title := "Expanded early", version := "1" }
    components := some {
      schemas := ⟨[
        ("F", .inline { allOf := [
          .inline {
            type := some (.single .object)
            properties := ⟨[("p", choice), ("d", .ref "#/components/schemas/D")]⟩ },
          .inline { type := some (.single .object), properties := ⟨[("p", choice)]⟩ }] }),
        ("D", .inline { allOf := [
          .inline {
            type := some (.single .object)
            properties := ⟨[("q", .ref "#/components/schemas/Foo")]⟩ },
          .ref "#/components/schemas/F"] }),
        ("Foo", record none)]⟩ } }

/--
The record with the merged properties is expanded in an intersection while it is in progress. There its
properties agree, as the declaration of `Foo` is there by then, but not with what was found before.
-/
theorem not_emits_expandedEarly :
    ¬∀ (document : Document) (config : Config) (schema target : String),
      document.Emits config schema → (document.context config).Refers schema target →
        document.Emits config target := by
  intro propagates
  obtain ⟨isNamed, isMissing⟩ : ((expandedEarly.synthesize {}).names.get? "D").isSome = true ∧
      (expandedEarly.synthesize {}).names.get? "F" = none := by
    decide +kernel
  have emits : expandedEarly.Emits {} "D" := Option.isSome_iff_exists.mp isNamed
  have refers : (expandedEarly.context {}).Refers "D" "F" := refers_of_memberTarget? (by decide)
  obtain ⟨name, isName⟩ := propagates expandedEarly {} "D" "F" emits refers
  cases isMissing.symm.trans isName

end Document

end ApiTypes
