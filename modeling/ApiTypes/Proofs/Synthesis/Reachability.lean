import Mathlib.Logic.Relation
import ApiTypes.Proofs.Synthesis.Inclusion

/-!
Which component schemas a task can lead to. What a node refers to can be listed, so that a document is
seen to have no cycles of references when all of them ascend in some order of names.
-/

namespace ApiTypes

open Relation

namespace Context

variable (context : Context)

/-- A component schema refers to another one somewhere inside it. -/
def Refers (schema target : String) : Prop :=
  ∃ node, context.model.node? schema = some node ∧ node.Refers target

/-- What is included is referred to. -/
theorem Includes.refers {context : Context} {schema target : String}
    (includes : context.Includes schema target) : context.Refers schema target :=
  includes.imp fun _ => And.imp_right SchemaNode.Includes.refers

/-- An intersection somewhere inside a component schema takes in another component schema. -/
def Merges (schema target : String) : Prop :=
  ∃ node, context.model.node? schema = some node ∧ node.Merges target

/-- Where a component schema is expanded, another one may be. -/
def Expands (schema target : String) : Prop :=
  ∃ node, context.model.node? schema = some node ∧ (node.Merges target ∨ node.Includes target)

variable {context}

/-- What is expanded is referred to. -/
theorem Expands.refers {schema target : String} (expands : context.Expands schema target) :
    context.Refers schema target := by
  obtain ⟨node, found, merges | includes⟩ := expands
  · exact ⟨node, found, merges.refers⟩
  · exact ⟨node, found, includes.refers⟩

end Context

namespace Task

variable (context : Context)

/-- The component schemas that a task looks up itself, unless an intersection takes them as a whole. -/
def Refers : Task → String → Prop
  | .declare node _ | .expression node _ | .contribute node _ | .expand node _ => node.Refers
  | .schema name => fun target => target = name ∧ ¬context.IsAtomic target
  | .reference name => fun target => target = name
  | .fields properties => fun target => ∃ property ∈ properties, property.schema.Refers target
  | .record properties additional => fun target =>
    (∃ property ∈ properties, property.schema.Refers target) ∨
      ∃ value ∈ additional, value.Refers target
  | .cases nodes _ | .members nodes _ | .intersection nodes _ => fun target =>
    ∃ node ∈ nodes, node.Refers target
  | .mapping entries _ => fun target => ∃ entry ∈ entries, entry.2 = target
  | .take shape => fun target => ¬context.IsAtomic target ∧
    ∃ type, shape = .alias type ∧ context.schemaOf? type = some target

/-- Whatever a part of a task looks up the task does. -/
def Within (part task : Task) : Prop :=
  ∀ target, part.Refers context target → task.Refers context target

/-- A task leads to a component schema by references. -/
def Leads (task : Task) (schema : String) : Prop :=
  ∃ target, task.Refers context target ∧ ReflTransGen context.Refers target schema

variable {context}

namespace Within

-- No depth is of any importance here.
variable (context) {node : SchemaNode} {nodes : List SchemaNode} {traits : NodeTraits}
  {properties : List (Property SchemaNode)} {additional : Option SchemaNode} {target : String}
  {kind : CompositionKind} {discriminator : Option Discriminator}

/-- The values of a map. -/
theorem value : Within context (.expression node 0) (.expression ⟨.map node, traits⟩ 0) :=
  fun _ => .value

/-- What a reference refers to. -/
theorem reference : Within context (.reference target) (.expression ⟨.reference target, traits⟩ 0) := by
  rintro _ rfl
  exact .reference

/-- What a reference refers to, with its contribution to an intersection. -/
theorem schema : Within context (.schema target) (.expression ⟨.reference target, traits⟩ 0) := by
  rintro _ ⟨rfl, _⟩
  exact .reference

/-- The properties of a record. -/
theorem record : Within context (.record properties additional)
    (.expression ⟨.object properties additional, traits⟩ 0) := by
  rintro target (⟨property, isListed, refers⟩ | ⟨value, isValue, refers⟩)
  · exact .property isListed refers
  · exact .additional isValue refers

/-- The declared properties of a record. -/
theorem fields : Within context (.fields properties) (.record properties additional) :=
  fun _ => .inl

/-- The further properties of a record. -/
theorem further : Within context (.expression node 0) (.record properties (some node)) :=
  fun _ refers => .inr ⟨node, rfl, refers⟩

/-- The first of some properties. -/
theorem firstField {property : Property SchemaNode} :
    Within context (.expression property.schema 0) (.fields (property :: properties)) :=
  fun _ refers => ⟨property, List.mem_cons_self, refers⟩

/-- The other properties. -/
theorem laterFields {property : Property SchemaNode} :
    Within context (.fields properties) (.fields (property :: properties)) :=
  fun _ ⟨other, isListed, refers⟩ => ⟨other, List.mem_cons_of_mem _ isListed, refers⟩

/-- The members of a composition. -/
theorem composed : Within context (.intersection nodes 0)
    (.expression ⟨.composed kind nodes discriminator, traits⟩ 0) :=
  fun _ ⟨_, isMember, refers⟩ => .member isMember refers

/-- The first of some members. -/
theorem firstNode : Within context (.expression node 0) (.intersection (node :: nodes) 0) :=
  fun _ refers => ⟨node, List.mem_cons_self, refers⟩

/-- The other members. -/
theorem laterNodes : Within context (.intersection nodes 0) (.intersection (node :: nodes) 0) :=
  fun _ ⟨member, isMember, refers⟩ => ⟨member, List.mem_cons_of_mem _ isMember, refers⟩

/-- The schema for which an intersection stands. -/
theorem only (isOnly : SchemaNode.onlyReference? nodes = some target) :
    Within context (.reference target) (.intersection nodes 0) := by
  rintro _ rfl
  obtain ⟨_, isMember⟩ := SchemaNode.mem_of_onlyReference? isOnly
  exact ⟨_, isMember, .reference⟩

/-- What a discriminator leads to. -/
theorem mapping {found : Discriminator} (isChoice : kind ≠ .allOf) :
    Within context (.mapping found.mapping.entries {})
      (.expression ⟨.composed kind nodes (some found), traits⟩ 0) := by
  rintro _ ⟨entry, isEntry, rfl⟩
  exact .mapping isChoice (List.mem_map_of_mem isEntry)

/-- The first entry of a mapping. -/
theorem firstEntry {value : String} {rest : List (String × String)} {found : Table String} :
    Within context (.reference target) (.mapping ((value, target) :: rest) found) := by
  rintro _ rfl
  exact ⟨_, List.mem_cons_self, rfl⟩

/-- The other entries of a mapping. -/
theorem laterEntries {entry : String × String} {rest : List (String × String)}
    {found others : Table String} :
    Within context (.mapping rest found) (.mapping (entry :: rest) others) :=
  fun _ ⟨other, isEntry, isTarget⟩ => ⟨other, List.mem_cons_of_mem _ isEntry, isTarget⟩

/-- The schema that an intersection takes instead of its name. -/
theorem take {type : TypeExpr} (named : context.schemaOf? type = some target) :
    Within context (.schema target) (.take (.alias type)) := by
  rintro _ ⟨rfl, notAtomic⟩
  exact ⟨notAtomic, type, rfl, named⟩

variable {context} in
/-- Parts of parts are parts. -/
theorem trans {first middle last : Task} (inner : Within context first middle)
    (outer : Within context middle last) : Within context first last :=
  fun target refers => outer target (inner target refers)

end Within

/-- A task leads wherever a part of it does. -/
theorem Leads.mono {part task : Task} {schema : String} (leads : part.Leads context schema)
    (included : Within context part task) : task.Leads context schema := by
  obtain ⟨target, refers, path⟩ := leads
  exact ⟨target, included target refers, path⟩

/-- A task that leads to a schema leads wherever that does. -/
theorem Leads.trans {task : Task} {schema target : String} (leads : task.Leads context schema)
    (path : ReflTransGen context.Refers schema target) : task.Leads context target := by
  obtain ⟨first, isFirst, before⟩ := leads
  exact ⟨first, isFirst, before.trans path⟩

/-- The node of a schema leads where the schema does by some reference. -/
theorem leads_expand {schema name target : String} {node : SchemaNode}
    (found : context.model.node? schema = some node) :
    (Task.expand node name).Leads context target ↔ TransGen context.Refers schema target := by
  rw [TransGen.head'_iff]
  refine exists_congr fun other => and_congr_left fun _ => ⟨fun refers => ⟨node, found, refers⟩, ?_⟩
  rintro ⟨other, isFound, refers⟩
  cases found.symm.trans isFound
  exact refers

/-- The same holds of the declaration of the schema. -/
theorem leads_declare {schema target : String} {node : SchemaNode} {depth : Nat}
    (found : context.model.node? schema = some node) :
    (Task.declare node depth).Leads context target ↔ TransGen context.Refers schema target :=
  @leads_expand _ _ schema _ _ found

end Task

/-- The component schema that a type names is one to which a task leads, or an atomic one. -/
def Traced (context : Context) (task : Task) (type : TypeExpr) : Prop :=
  ∀ schema, context.schemaOf? type = some schema →
    task.Leads context schema ∨ context.IsAtomic schema

/-- Where the component schemas come from that contributions to intersections name. -/
def TracedValue (context : Context) : Task → Value → Prop
  | .contribute node depth, .member (.scalar type) => Traced context (.contribute node depth) type
  | .expand node name, .member (.scalar type) =>
    (node.isAtomic = true ∧ type = .named name) ∨
      node.isAtomic = false ∧ Traced context (.expand node name) type
  | .schema schema, .member (.scalar type) => Traced context (.schema schema) type
  | .intersection nodes depth, .shape (.alias type) =>
    Traced context (.intersection nodes depth) type
  | .members nodes depth, .inputs inputs => ∀ input ∈ inputs,
    (∀ name schema, input.reference = some name → context.emitted? schema = some name →
      (Task.members nodes depth).Leads context schema) ∧
    ∀ type, input.shape = .scalar type → Traced context (.members nodes depth) type
  | .take shape, .member (.scalar type) =>
    shape = .alias type ∨ Traced context (.take shape) type
  | _, _ => True

variable {context : Context} {expanding : List String} {first last : Workspace}

/-- A task that takes in a component schema leads to it. -/
theorem Task.Takes.leads {task : Task} {schema : String} (takes : task.Takes context schema) :
    task.Leads context schema := by
  obtain ⟨target, includes, path⟩ := takes
  have refers : ReflTransGen context.Refers target schema :=
    path.lift id fun _ _ => Context.Includes.refers
  refine ⟨target, ?_, refers⟩
  cases task with
  | contribute | expand => exact includes.refers
  | schema | take => exact includes
  | members | intersection => exact includes.imp fun _ => And.imp_right SchemaNode.Includes.refers
  | _ => cases includes

/-- A type whose component schema is taken in can be traced. -/
theorem Taken.traced {task : Task} {type : TypeExpr} (taken : Taken context last task type) :
    Traced context task type := fun schema named =>
  (taken schema named).elim (fun ⟨takes, _⟩ => .inl takes.leads) .inr

/-- What contributions to intersections name can be traced. -/
theorem Yields.traced {task : Task} {value : Value}
    (yields : Yields context expanding first task value last) (consistent : Consistent context first) :
    TracedValue context task value := by
  have taken := yields.taken consistent
  cases task <;> cases value <;> try trivial
  case contribute.member _ _ shape | schema.member _ shape | intersection.shape _ _ shape =>
    cases shape <;> first | trivial | exact taken.traced
  case expand.member _ _ shape =>
    cases shape <;> first | trivial | exact taken.imp_right (And.imp_right Taken.traced)
  case members.inputs =>
    exact fun input isInput => ⟨fun name schema isName emitted =>
      ((taken input isInput).reference name schema isName emitted).1.leads, fun type isScalar =>
        ((taken input isInput).scalar type isScalar).traced⟩
  case take.member _ shape =>
    cases shape <;> first | trivial | exact taken.imp_right Taken.traced

/-- Nothing happens when an atomic schema is expanded. -/
theorem Yields.eq_of_isAtomic {node : SchemaNode} {name : String} {value : Value}
    (isAtomic : node.isAtomic = true)
    (yields : Yields context expanding first (.expand node name) value last) : last = first := by
  cases yields with
  | expandAtomic | expandRestriction => rfl
  | expandRecord | expandReference | expandIntersection => cases isAtomic

/-- Atomic schemas do not fail to be expanded. -/
theorem Fails.notAtomic {node : SchemaNode} {name : String} {failure : Failure}
    (fails : Fails context expanding first (.expand node name) failure last) :
    ¬node.isAtomic = true := by
  cases fails <;> simp [SchemaNode.isAtomic]

/-- An atomic schema is expanded without doing anything, and fails only if it is in expansion. -/
theorem Synthesis.expandWithin_of_isAtomic {active : List String} {other path : String}
    {result : Except LocatedFailure MemberShape} (isAtomic : context.IsAtomic other)
    (consistent : Consistent context first) (started : Started active first)
    (ends : (expandWithin context active expanding other path).Ends first result last) :
    last = first ∧ ∀ located, result = .error located → other ∈ expanding ∧
      located = ⟨path, .composition (.cyclicIntersection other)⟩ := by
  obtain ⟨also, isNode, isAtomic⟩ := isAtomic
  rcases expandWithin_cases ends with ⟨isExpanding, rfl, rfl⟩ | ⟨undefined, _⟩ |
    ⟨node, found, _, ⟨_, rfl, rfl⟩ | ⟨_, expands⟩⟩
  · refine ⟨rfl, fun located isError => ⟨isExpanding, ?_⟩⟩
    cases isError
    rfl
  · cases undefined.symm.trans isNode
  · exact ⟨rfl, nofun⟩
  · cases isNode.symm.trans found
    -- The node of an atomic schema gives its name without doing anything.
    have notChoice : ∀ kind members discriminator,
        also.kind = .composed kind members discriminator → kind = .allOf := by
      intro kind members discriminator isComposed
      simp [SchemaNode.isAtomic, isComposed] at isAtomic
    have comes := ((adequate_within context true active (other :: expanding)).walkFollows also).expand _
      notChoice _ _ _ consistent started expands
    cases result with
    | ok shape =>
      have yields : Yields context (other :: expanding) first (.expand also _) (.member shape) last :=
        comes
      exact ⟨yields.eq_of_isAtomic isAtomic, nofun⟩
    | error located =>
      have fails : Fails context (other :: expanding) first (.expand also _) located.failure last :=
        comes
      exact absurd isAtomic fails.notAtomic

namespace SchemaNode

/-- What a node of some kind refers to, given what the nodes inside it refer to. -/
def referencesOfKind (kind : NodeKind (SchemaNode × List String)) (_ : NodeTraits) : List String :=
  match kind with
  | .array inside | .map inside => inside.2
  | .object properties additional =>
    (properties.flatMap fun property => property.schema.2) ++ additional.toList.flatMap Prod.snd
  | .composed kind members discriminator =>
    members.flatMap Prod.snd ++ if kind = .allOf then []
      else discriminator.toList.flatMap fun found => found.mapping.values
  | .reference target => [target]
  | .primitive .. | .enum .. | .any | .null => []

/-- The component schemas to which a node refers somewhere inside it. -/
def references (node : SchemaNode) : List String := node.recurse referencesOfKind

/-- All references of a node are listed. -/
theorem Refers.mem_references {node : SchemaNode} {target : String} (refers : node.Refers target) :
    target ∈ node.references := by
  induction refers with
  | reference => exact List.mem_singleton_self _
  | items _ ih | value _ ih => exact ih
  | property isListed _ ih =>
    refine List.mem_append_left _ ?_
    rw [flatMap_recurseProperties]
    exact List.mem_flatMap.mpr ⟨_, isListed, ih⟩
  | additional isValue _ ih =>
    cases isValue
    refine List.mem_append_right _ ?_
    simpa [recurseOption, references] using ih
  | member isMember _ ih =>
    refine List.mem_append_left _ ?_
    rw [flatMap_recurseList]
    exact List.mem_flatMap.mpr ⟨_, isMember, ih⟩
  | mapping isChoice isMapped =>
    refine List.mem_append_right _ ?_
    simpa [isChoice] using isMapped

end SchemaNode

namespace Context

variable {context : Context}

/-- No component schema refers to itself, however many references it takes. -/
def Acyclic (context : Context) : Prop := ∀ schema, ¬TransGen context.Refers schema schema

/-- Component schemas of which each refers only to later names are acyclic. -/
theorem acyclic_of_ascending (ascending : ∀ entry ∈ context.model.nodes.entries,
    ∀ target ∈ entry.2.references, entry.1 < target) : context.Acyclic := by
  have later {first last : String} (leads : TransGen context.Refers first last) : first < last := by
    have step {source target : String} : context.Refers source target → source < target := by
      rintro ⟨node, found, refers⟩
      exact ascending _ (Table.mem_entries_of_get? found) target refers.mem_references
    induction leads with
    | single refers => exact step refers
    | tail _ refers ih => exact String.lt_trans ih (step refers)
  exact fun schema cycle => String.lt_irrefl schema (later cycle)

end Context

end ApiTypes
