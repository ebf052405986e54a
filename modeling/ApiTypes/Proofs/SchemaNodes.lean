import ApiTypes.Proofs.Schema
import ApiTypes.Proofs.Spelling

/-!
The nodes of schemas. What a schema is lowered to depends neither on its place nor on what was reported
before; only the reports do. Main statements: a schema gives its node wherever it stands, and the kind
of a schema object is an intersection of what `allOf` lists and what stands beside that, an object with
the properties that it lists, or nothing of which an intersection could take properties.
-/

namespace ApiTypes

namespace Reporting.Gives

variable {α β : Type} {computation : Reporting α} {value : α}

/-- A value gives itself. -/
theorem pure (value : α) : Gives (pure value) value := fun _ => rfl

/-- Computations may follow each other. -/
theorem bind {next : α → Reporting β} {result : β} (first : Gives computation value)
    (later : Gives (next value) result) : Gives (computation >>= next) result := by
  intro before
  change (next (computation before).1 (computation before).2).1 = result
  rw [show (computation before).1 = value from first before]
  exact later _

/-- What a computation gives may be transformed. -/
theorem map (gives : Gives computation value) (transform : α → β) :
    Gives (do return transform (← computation)) (transform value) :=
  gives.bind (pure _)

/-- Whatever gives nothing gives the same. -/
theorem silent (computation : Reporting Unit) : Gives computation () := fun _ => rfl

/-- What is collected is what is given. -/
theorem collect_eq (gives : Gives computation value) : computation.collect.1 = value := gives []

end Reporting.Gives

/-- Wherever a computation is placed and whatever was reported before, it gives the same fit value. -/
def Steady {α : Type} (computation : String → Reporting α) (fit : α → Prop) : Prop :=
  ∃ value, fit value ∧ ∀ path, (computation path).Gives value

namespace Steady

open Reporting (Gives)

variable {α β : Type} {computation : String → Reporting α} {fit : α → Prop} {result : β → Prop}

/-- A fit value is steady. -/
theorem pure {value : α} (isFit : fit value) : Steady (fun _ => (pure value : Reporting α)) fit :=
  ⟨value, isFit, fun _ => .pure value⟩

/-- Steady computations may follow each other. -/
theorem bind {next : α → String → Reporting β} (steady : Steady computation fit)
    (later : ∀ value, fit value → Steady (next value) result) :
    Steady (fun path => computation path >>= fun value => next value path) result := by
  obtain ⟨value, isFit, first⟩ := steady
  obtain ⟨other, isResult, second⟩ := later value isFit
  exact ⟨other, isResult, fun path => (first path).bind (second path)⟩

/-- What a steady computation gives may be transformed. -/
theorem map {transform : α → β} (steady : Steady computation fit)
    (gives : ∀ value, fit value → result (transform value)) :
    Steady (fun path => do return transform (← computation path)) result :=
  steady.bind fun value isFit => pure (gives value isFit)

/-- What is fit may be fit for something else. -/
theorem mono {other : α → Prop} (steady : Steady computation fit)
    (implies : ∀ value, fit value → other value) : Steady computation other := by
  obtain ⟨value, isFit, gives⟩ := steady
  exact ⟨value, implies value isFit, gives⟩

/-- Reports come before a steady computation. -/
theorem after (steady : Steady computation fit) (reports : String → Reporting Unit) :
    Steady (fun path => (do reports path; computation path)) fit := by
  obtain ⟨value, isFit, gives⟩ := steady
  exact ⟨value, isFit, fun path => (Gives.silent _).bind (gives path)⟩

/-- One of two steady computations is steady if the choice does not depend on the place. -/
theorem ite {condition : Prop} [Decidable condition] {other : String → Reporting α}
    (positive : condition → Steady computation fit) (negative : ¬condition → Steady other fit) :
    Steady (fun path => if condition then computation path else other path) fit := by
  by_cases holds : condition
  · simpa only [if_pos holds] using positive holds
  · simpa only [if_neg holds] using negative holds

end Steady

open Reporting (Gives)

/-- What the keywords amount to does not depend on their place. -/
theorem steady_normalize {σ : Type} (keywords : Keywords σ) (target : ConstraintTarget)
    (version : SpecVersion) : Steady (normalize keywords target version) fun _ => True := by
  have bound (rangeEnd : RangeEnd) (inclusive : Option Binary64) (exclusive : Option ExclusiveBound) :
      Steady (Normalization.bound rangeEnd inclusive exclusive version) fun _ => True :=
    ⟨_, trivial, fun path => Normalization.gives_bound rangeEnd inclusive exclusive version path⟩
  have stated : Steady (Normalization.stated keywords.toPlainKeywords version) fun _ => True :=
    (bound _ _ _).bind fun _ _ => (bound _ _ _).map fun _ => id
  have nullable : Steady (Normalization.nullable keywords.toPlainKeywords version) fun _ => True :=
    ⟨_, trivial, fun path => Normalization.gives_nullable keywords.toPlainKeywords version path⟩
  unfold normalize
  refine nullable.bind fun nullable _ => stated.bind fun stated _ => ?_
  exact ⟨_, trivial, fun path => (Gives.silent _).bind ((Gives.silent _).bind (.pure _))⟩

/-- The node that a placed schema gives at any place, if that does not depend on it. -/
def PlacedNode.node (placed : PlacedNode) : SchemaNode := (placed "").collect.1

/-- The node of a placed schema does not depend on the place. -/
def PlacedNode.IsSteady (placed : PlacedNode) : Prop := ∀ path, (placed path).Gives placed.node

/-- A steady computation of a node is that of a placed schema whose node is fit. -/
theorem Steady.node {placed : PlacedNode} {fit : SchemaNode → Prop} (steady : Steady placed fit) :
    placed.IsSteady ∧ fit placed.node := by
  obtain ⟨value, isFit, gives⟩ := steady
  have isNode : placed.node = value := (gives "").collect_eq
  exact ⟨fun path => isNode ▸ gives path, isNode ▸ isFit⟩

/-- The keywords beside `allOf` that count as one more member of the intersection. -/
def Keywords.beside {σ : Type} (keywords : Keywords σ) : Keywords σ where
  properties := keywords.properties
  additional := keywords.additional
  required := keywords.required

/-- The members of an intersection: what is listed, and the keywords beside that. -/
def Keywords.members (keywords : Keywords Schema) : List Schema :=
  if keywords.allOf.isEmpty then [] else keywords.allOf ++ [.inline keywords.beside]

/-- Without any constraint that is stated there is none. -/
theorem gives_normalize_beside {σ : Type} (keywords : Keywords σ) (target : ConstraintTarget)
    (version : SpecVersion) (path : String) :
    (normalize keywords.beside target version path).Gives ⟨{}, false⟩ := by
  have unrestricted : ({} : Constraints).restrictedTo target = {} := by
    obtain ⟨numeric, string, array⟩ := target
    cases numeric <;> cases string <;> cases array <;> rfl
  have nullable : (Normalization.nullable keywords.beside.toPlainKeywords version path).Gives false :=
    fun _ => rfl
  have stated : (Normalization.stated keywords.beside.toPlainKeywords version path).Gives {} :=
    fun _ => rfl
  unfold normalize
  refine nullable.bind (stated.bind ?_)
  rw [unrestricted]
  exact (Gives.silent _).bind ((Gives.silent _).bind (.pure _))

/-- A kind from which an intersection takes no properties that are listed. -/
def NodeKind.isUnlisted {σ : Type} : NodeKind σ → Bool
  | .object .. | .reference _ | .composed .allOf .. => false
  | .primitive .. | .enum .. | .array _ | .map _ | .composed .. | .any | .null => true

namespace Lowering

/-- The node of further properties. -/
def additionalNode (keywords : Keywords PlacedNode) : Option SchemaNode :=
  match keywords.additional with
  | some (.schema value) => some value.node
  | some (.allowed true) => some .any
  | some (.allowed false) | none => none

/-- A property whose schema is placed. -/
def property (required : List String) (entry : String × PlacedNode) : Property SchemaNode :=
  ⟨entry.1, required.contains entry.1, entry.2.node⟩

/-- The kind of an object. -/
def objectKind (keywords : Keywords PlacedNode) : NodeKind SchemaNode :=
  if keywords.properties.isEmpty then
    match additionalNode keywords with
    | some value => .map value
    | none => .object [] none
  else
    .object (keywords.properties.entries.map (property keywords.required)) (additionalNode keywords)

/-- What stands beside an intersection as a member of it. -/
def siblingNodes (keywords : Keywords PlacedNode) : List SchemaNode :=
  let isObject := !keywords.properties.isEmpty || keywords.additional.isSome
  if !isObject && keywords.required.isEmpty then []
  else
    [⟨if isObject then objectKind keywords else .any, { required := undeclaredRequired keywords }⟩]

/-- The choice beside an intersection as a member of it. -/
def choiceNodes (keywords : Keywords PlacedNode) : List SchemaNode :=
  (siblingUnion keywords "").collect.1

/-- What the kind of a schema object is to an intersection. -/
inductive Lowers (keywords : Keywords PlacedNode) : NodeKind SchemaNode → Prop
  | intersection (several : keywords.allOf ≠ []) :
    Lowers keywords (.composed .allOf (keywords.allOf.map PlacedNode.node ++
      (siblingNodes keywords ++ choiceNodes keywords)) none)
  | object (single : keywords.allOf = []) : Lowers keywords (objectKind keywords)
  | unlisted {kind : NodeKind SchemaNode} (single : keywords.allOf = [])
    (isUnlisted : kind.isUnlisted = true) : Lowers keywords kind

section

variable {keywords : Keywords PlacedNode}

/-- The nodes of properties do not depend on their place. -/
theorem gives_properties (required : List String) {entries : List (String × PlacedNode)}
    (each : ∀ entry ∈ entries, entry.2.IsSteady) (path : String) :
    (properties required path entries).Gives (entries.map (property required)) := by
  induction entries with
  | nil => exact .pure _
  | cons entry rest ih =>
    have ⟨first, later⟩ := List.forall_mem_cons.mp each
    exact (first _).bind ((ih later).map _)

/-- The members of a composition do not depend on their place. -/
theorem gives_members {placed : List PlacedNode} (each : ∀ member ∈ placed, member.IsSteady)
    (path : String) (index : Nat) :
    (members path placed index).Gives (placed.map PlacedNode.node) := by
  induction placed generalizing index with
  | nil => exact .pure _
  | cons member rest ih =>
    have ⟨first, later⟩ := List.forall_mem_cons.mp each
    exact (first _).bind ((ih later _).map _)

/-- The members between which a schema object is a choice. -/
def choices {σ : Type} (keywords : Keywords σ) : List σ :=
  if keywords.oneOf.isEmpty then keywords.anyOf else keywords.oneOf

/-- What holds of the members of both choices holds of those that are taken. -/
theorem forall_mem_choices {σ : Type} {keywords : Keywords σ} {holds : σ → Prop}
    (oneOf : ∀ member ∈ keywords.oneOf, holds member)
    (anyOf : ∀ member ∈ keywords.anyOf, holds member) : ∀ member ∈ choices keywords, holds member := by
  unfold choices
  split
  · exact anyOf
  · exact oneOf

/-- The kind of a choice does not depend on its place: it has the listed members and a resolved mapping. -/
theorem steady_union (listed : ∀ member ∈ choices keywords, member.IsSteady) :
    Steady (union keywords) fun found => ∃ kind, kind ≠ .allOf ∧
      found = .composed kind ((choices keywords).map PlacedNode.node)
        (keywords.discriminator.map resolveMapping) := by
  have isChoice : (if keywords.oneOf.isEmpty then .anyOf else .oneOf : CompositionKind) ≠ .allOf := by
    split <;> nofun
  have chosen (kind : CompositionKind) (isChoice : kind ≠ .allOf) : Steady (fun path => do
      let nodes ← members (path ++ "/" ++ kind.keyword) (choices keywords) 0
      return NodeKind.composed kind nodes (keywords.discriminator.map resolveMapping)) fun found =>
        ∃ kind, kind ≠ .allOf ∧ found = .composed kind ((choices keywords).map PlacedNode.node)
          (keywords.discriminator.map resolveMapping) :=
    ⟨_, ⟨_, isChoice, rfl⟩, fun path => (gives_members listed _ 0).map _⟩
  unfold union
  exact .ite
    (fun _ => .after (.ite (fun _ => .after (chosen _ isChoice) _) fun _ => chosen _ isChoice) _)
    fun _ => .ite (fun _ => .after (chosen _ isChoice) _) fun _ => chosen _ isChoice

/-- A choice beside an intersection is one, and does not depend on its place. -/
theorem gives_siblingUnion (each : keywords.Each PlacedNode.IsSteady) :
    (∀ path, (siblingUnion keywords path).Gives (choiceNodes keywords)) ∧
      ∀ node ∈ choiceNodes keywords, ∃ kind members discriminator,
        kind ≠ .allOf ∧ node.kind = .composed kind members discriminator := by
  have chosen : Steady (union { keywords with properties := {} }) _ :=
    steady_union (forall_mem_choices each.oneOf each.anyOf)
  have steady : Steady (siblingUnion keywords) fun nodes => ∀ node ∈ nodes,
      ∃ kind members discriminator,
        kind ≠ .allOf ∧ node.kind = .composed kind members discriminator := by
    refine .ite (fun _ => .pure nofun) fun _ => chosen.map ?_
    rintro _ ⟨kind, isChoice, rfl⟩ node isNode
    rw [List.mem_singleton.mp isNode]
    exact ⟨kind, _, _, isChoice, rfl⟩
  obtain ⟨nodes, areChoices, gives⟩ := steady
  rw [show choiceNodes keywords = nodes from (gives "").collect_eq]
  exact ⟨gives, areChoices⟩

/-- The kind of an enumeration does not depend on its place. -/
theorem steady_enumeration (keywords : Keywords PlacedNode) :
    Steady (enumeration keywords) fun found => found.1.isUnlisted = true := by
  unfold enumeration
  refine .ite (fun _ => .pure rfl) fun _ => ?_
  generalize Option.or _ _ = base
  cases base with
  | some base => exact .pure rfl
  | none => exact ⟨_, rfl, fun _ => (Gives.silent _).bind (.pure _)⟩

variable (each : keywords.Each PlacedNode.IsSteady)

include each

/-- The kind of an array does not depend on its place. -/
theorem steady_array : Steady (array keywords) fun kind => kind.isUnlisted = true := by
  unfold array
  cases isItems : keywords.items with
  | none => exact .pure rfl
  | some items => exact ⟨_, rfl, fun _ => (each.items items isItems _).map _⟩

/-- The node of further properties does not depend on its place. -/
theorem gives_additional (path : String) :
    (additional keywords path).Gives (additionalNode keywords) := by
  unfold additional additionalNode
  rcases isAdditional : keywords.additional with _ | (_ | value)
  · exact .pure _
  · rename_i allowed
    cases allowed <;> exact .pure _
  · exact (each.additional value isAdditional _).map _

/-- The kind of an object does not depend on its place. -/
theorem gives_object (path : String) : (object keywords path).Gives (objectKind keywords) := by
  have further := gives_additional each path
  unfold object objectKind
  split
  · refine further.bind ?_
    cases additionalNode keywords <;> exact .pure _
  · exact (gives_properties _ each.properties path).bind (further.map _)

/-- What stands beside an intersection does not depend on its place. -/
theorem gives_siblingMember (path : String) :
    (siblingMember keywords path).Gives (siblingNodes keywords) := by
  unfold siblingMember siblingNodes
  dsimp only
  split
  · exact .pure _
  · split
    · exact (gives_object each path).map _
    · exact .pure _

/-- The kind of an intersection does not depend on its place. -/
theorem steady_intersection (several : keywords.allOf ≠ []) :
    Steady (intersection keywords) (Lowers keywords) := by
  refine ⟨_, .intersection several, fun path => ?_⟩
  rw [← List.append_assoc]
  exact (gives_members each.allOf _ 0).bind
    ((gives_siblingMember each path).bind (((gives_siblingUnion each).1 path).map _))

/-- The kind for a single type does not depend on its place. -/
theorem steady_single (type : SchemaType) : Steady (single type keywords) fun kind =>
    kind = objectKind keywords ∨ kind.isUnlisted = true := by
  unfold single
  cases type with
  | array => exact (steady_array each).mono fun _ => .inr
  | object => exact ⟨_, .inl rfl, gives_object each⟩
  | string | integer | number | boolean | null => exact .pure (.inr rfl)

/-- The kind for several types does not depend on its place. -/
theorem steady_multiType (types : List SchemaType) (version : SpecVersion) :
    Steady (fun path => multiType types keywords version path) fun kind =>
      kind.isUnlisted = true := by
  -- What is normalized once is the same at every place; each type lowers by itself.
  obtain ⟨whole, _, gives⟩ := steady_normalize keywords .every version
  unfold multiType
  simp only [(gives _).collect_eq]
  have node (type : SchemaType) : Steady (fun path => do
      let kind ← single type keywords path
      return (⟨kind, { constraints := whole.constraints.restrictedTo (targetOfType type) }⟩ :
        SchemaNode)) fun _ => True := (steady_single each type).map fun _ _ => trivial
  have nodes : Steady (fun path => types.mapM fun type => do
      let kind ← single type keywords path
      return (⟨kind, { constraints := whole.constraints.restrictedTo (targetOfType type) }⟩ :
        SchemaNode)) fun _ => True := by
    induction types with
    | nil => exact .pure trivial
    | cons type rest ih =>
      simp only [List.mapM_cons]
      exact (node type).bind fun _ _ => ih.map fun _ => id
  exact nodes.map fun _ _ => rfl

/-- The kind of a schema does not depend on its place. -/
theorem steady_kind (version : SpecVersion) :
    Steady (kind keywords version) fun found => Lowers keywords found.1 := by
  -- The branches are those of lowering: members first, then a choice, an enumeration and the types.
  have unlisted {kind : String → Reporting (NodeKind SchemaNode)} {fit : NodeKind SchemaNode → Prop}
      (steady : Steady kind fit) (lowers : ∀ found, fit found → Lowers keywords found) :
      Steady (fun path => do return (← kind path, false)) fun found => Lowers keywords found.1 :=
    steady.map lowers
  unfold kind
  refine .ite (fun several => unlisted (steady_intersection each (by simpa using several)) fun _ => id)
    fun notSeveral => ?_
  have single : keywords.allOf = [] := by simpa using notSeveral
  have plain (kind : NodeKind SchemaNode) (isKind : kind = objectKind keywords ∨ kind.isUnlisted = true) :
      Lowers keywords kind := by
    rcases isKind with rfl | isUnlisted
    · exact .object single
    · exact .unlisted single isUnlisted
  refine .ite (fun _ => unlisted (steady_union (forall_mem_choices each.oneOf each.anyOf)) ?_)
    fun _ => ?_
  · rintro _ ⟨kind, isChoice, rfl⟩
    refine plain _ (.inr ?_)
    cases kind <;> first | rfl | exact absurd rfl isChoice
  refine .ite (fun _ => ?_) fun _ => ?_
  · obtain ⟨found, isUnlisted, gives⟩ := steady_enumeration keywords
    exact ⟨found, plain _ (.inr isUnlisted), gives⟩
  cases keywords.type.map TypeKeyword.nonNull with
  | none =>
    refine .ite (fun _ => ⟨_, plain _ (.inl rfl), fun path => (gives_object each path).map _⟩)
      fun _ => .ite (fun _ => unlisted (steady_array each) fun kind isUnlisted =>
        plain kind (.inr isUnlisted)) fun _ => .pure (plain _ (.inr rfl))
  | some types =>
    match types with
    | [] => exact .pure (plain _ (.inr rfl))
    | [type] => exact unlisted (steady_single each type) plain
    | first :: second :: rest =>
      exact unlisted (steady_multiType each _ version) fun kind isUnlisted => plain kind (.inr isUnlisted)

/-- The node of a schema object does not depend on its place. -/
theorem steady_node (version : SpecVersion) : Steady (node version keywords) fun node =>
    Lowers keywords node.kind ∧ node.traits.required = (match node.kind with
      | .any | .object .. => undeclaredRequired keywords
      | _ => []) := by
  unfold node
  exact (steady_kind each version).bind fun _ lowers => (steady_normalize _ _ version).map fun _ _ =>
    ⟨lowers, rfl⟩

/-- What stands beside an intersection is an object if it says something of properties. -/
theorem gives_kind_beside (version : SpecVersion) (path : String) :
    (kind keywords.beside version path).Gives
      (if !keywords.properties.isEmpty || keywords.additional.isSome then objectKind keywords else .any,
        false) := by
  have object : (object keywords.beside path).Gives (objectKind keywords) := gives_object each path
  change Gives (if !keywords.properties.isEmpty || keywords.additional.isSome then
    (do return (← Lowering.object keywords.beside path, false)) else pure (.any, false)) _
  split
  · exact object.map _
  · exact .pure _

/-- The node of what stands beside an intersection is the member of the intersection, or both are maps. -/
theorem siblingNodes_cases (version : SpecVersion) :
    siblingNodes keywords = [] ∧ keywords.required = [] ∨
      ∃ sibling, siblingNodes keywords = [sibling] ∧
        (sibling = (node version keywords.beside : PlacedNode).node ∨
          ∃ value, sibling.kind = .map value ∧
            (node version keywords.beside : PlacedNode).node.kind = .map value) := by
  -- What stands beside the members lowers to an object or a map, or to a node that only lists names.
  have isNode : (node version keywords.beside : PlacedNode).node = _ :=
    ((gives_kind_beside each version "").bind
      ((gives_normalize_beside keywords _ version "").map _)).collect_eq
  rw [isNode]
  unfold siblingNodes
  by_cases isObject : (!keywords.properties.isEmpty || keywords.additional.isSome) = true
  · refine .inr ⟨_, by simp only [isObject]; rfl, ?_⟩
    simp only [isObject, if_true]
    unfold objectKind
    split
    · split
      · exact .inr ⟨_, rfl, rfl⟩
      · exact .inl rfl
    · exact .inl rfl
  · simp only [isObject]
    by_cases isEmpty : keywords.required.isEmpty = true
    · exact .inl ⟨by simp [isEmpty], by simpa using isEmpty⟩
    · exact .inr ⟨_, by simp only [isEmpty]; rfl, .inl rfl⟩

end

end Lowering

namespace Schema

variable (version : SpecVersion)

/-- The node to which a schema is lowered. -/
def node (schema : Schema) : SchemaNode := (schema.lower version).node

/-- Wherever a schema stands, that is what it is lowered to. -/
theorem gives_lower (schema : Schema) : (schema.lower version).IsSteady :=
  schema.fold_holds (fun _ _ => .pure _) fun _ each => (Lowering.steady_node each version).node.1

/-- The node of a reference is a reference. -/
theorem node_ref (path : String) :
    (ref path).node version = .reference ((Pointer.schemaName? path).getD path) := rfl

/-- Everything in a schema object is lowered steadily. -/
theorem each_isSteady (keywords : Keywords Schema) :
    (keywords.map (lower version)).Each PlacedNode.IsSteady := by
  refine (Keywords.each_map_iff _ _).mpr ?_
  constructor <;> intros <;> exact gives_lower version _

/-- The node of a schema object is that of its keywords with what the schemas inside are lowered to. -/
theorem node_inline (keywords : Keywords Schema) : (inline keywords).node version =
    (Lowering.node version (keywords.map (lower version)) : PlacedNode).node :=
  congrArg PlacedNode.node (fold_inline _ _ keywords)

/-- A node that says nothing of its type, or lists properties, requires the names that are not listed. -/
theorem required_node (keywords : Keywords Schema) : ((inline keywords).node version).traits.required =
    (match ((inline keywords).node version).kind with
      | .any | .object .. => Lowering.undeclaredRequired keywords
      | _ => []) := by
  have same : Lowering.undeclaredRequired (keywords.map (lower version)) =
      Lowering.undeclaredRequired keywords := by
    simp [Lowering.undeclaredRequired, Keywords.map, Table.map, Table.contains, Function.comp_def]
  rw [node_inline, (Lowering.steady_node (each_isSteady version keywords) version).node.2.2, same]

/-- The properties of a schema object as those of its node. -/
def properties (keywords : Keywords Schema) : List (Property SchemaNode) :=
  keywords.properties.entries.map fun entry =>
    ⟨entry.1, keywords.required.contains entry.1, entry.2.node version⟩

/-- A schema object that is no intersection lists its properties, or none of which one could be taken. -/
theorem kind_node_of_single {keywords : Keywords Schema} (single : keywords.allOf = []) :
    (∃ additional, ((inline keywords).node version).kind =
        .object (properties version keywords) additional) ∨
      ((inline keywords).node version).kind.isUnlisted = true := by
  -- An object without properties may be a map of untyped values.
  have ⟨lowers, _⟩ := (Lowering.steady_node (each_isSteady version keywords) version).node.2
  rw [← node_inline] at lowers
  generalize ((inline keywords).node version).kind = kind at lowers
  cases lowers with
  | intersection several => exact absurd (by simpa [Keywords.map] using single) several
  | object =>
    unfold Lowering.objectKind
    split
    · rename_i isEmpty
      have isEmpty : keywords.properties.entries = [] := by
        simpa [Keywords.map, Table.map, Table.isEmpty] using isEmpty
      split
      · exact .inr rfl
      · exact .inl ⟨none, by simp [properties, isEmpty]⟩
    · exact .inl ⟨_, by simp [properties, Keywords.map, Table.map, Lowering.property, node]; rfl⟩
  | unlisted _ isUnlisted => exact .inr isUnlisted

/-- The nodes of what stands beside an intersection. -/
def besideNodes (keywords : Keywords Schema) : List SchemaNode :=
  Lowering.siblingNodes (keywords.map (lower version)) ++
    Lowering.choiceNodes (keywords.map (lower version))

/-- The kind of an intersection has the nodes of its members, and of what stands beside it. -/
theorem kind_node_of_several {keywords : Keywords Schema} (several : keywords.allOf ≠ []) :
    ((inline keywords).node version).kind =
      .composed .allOf (keywords.allOf.map (node version) ++ besideNodes version keywords) none := by
  have ⟨lowers, _⟩ := (Lowering.steady_node (each_isSteady version keywords) version).node.2
  rw [← node_inline] at lowers
  generalize ((inline keywords).node version).kind = kind at lowers
  cases lowers with
  | intersection => simp [Keywords.map, node, besideNodes, Function.comp_def]
  | object single | unlisted single => exact absurd (by simpa [Keywords.map] using single) several

/-- A node is that of a schema which is a member. Of two maps it does not matter what else they say. -/
def IsMember (schema : Schema) (node : SchemaNode) : Prop :=
  node = schema.node version ∨
    ∃ value, node.kind = .map value ∧ (schema.node version).kind = .map value

/-- The node of an intersection has the nodes of its members, and a choice beside it as another one. -/
structure LowersMembers (keywords : Keywords Schema) (nodes : List SchemaNode) : Prop where
  isMember : ∀ node ∈ nodes, (∃ member ∈ keywords.members, member.IsMember version node) ∨
    ∃ kind members discriminator,
      kind ≠ .allOf ∧ node.kind = .composed kind members discriminator
  /-- What stands beside the intersection may say nothing at all. -/
  isLowered : ∀ member ∈ keywords.members, (∃ node ∈ nodes, member.IsMember version node) ∨
    member = .inline keywords.beside ∧ keywords.required = []

/-- The nodes of an intersection are those of its members. -/
theorem lowersMembers_of_several {keywords : Keywords Schema} (several : keywords.allOf ≠ []) :
    LowersMembers version keywords
      (keywords.allOf.map (node version) ++ besideNodes version keywords) := by
  -- Members and what stands beside them lower in place; a choice beside them is an extra node.
  have each := each_isSteady version keywords
  have isMembers : keywords.members = keywords.allOf ++ [.inline keywords.beside] :=
    if_neg (by simpa using several)
  have isBeside : (inline keywords.beside).node version =
      (Lowering.node version (keywords.map (lower version)).beside : PlacedNode).node :=
    node_inline version keywords.beside
  have sibling := Lowering.siblingNodes_cases each version
  rw [← isBeside] at sibling
  refine ⟨fun node isNode => ?_, fun member isMember => ?_⟩
  · rcases List.mem_append.mp isNode with isListed | isNode
    · obtain ⟨member, isMember, rfl⟩ := List.mem_map.mp isListed
      exact .inl ⟨member, isMembers ▸ List.mem_append_left _ isMember, .inl rfl⟩
    · rcases List.mem_append.mp isNode with isSibling | isChoice
      · rcases sibling with ⟨isEmpty, _⟩ | ⟨sibling, isSingle, isMember⟩
        · simp [isEmpty] at isSibling
        · rw [isSingle, List.mem_singleton] at isSibling
          exact .inl ⟨.inline keywords.beside, by simp [isMembers], isSibling ▸ isMember⟩
      · exact .inr ((Lowering.gives_siblingUnion each).2 node isChoice)
  · rcases List.mem_append.mp (isMembers ▸ isMember) with isListed | isBeside
    · exact .inl ⟨member.node version, by simp [List.mem_map_of_mem isListed], .inl rfl⟩
    · cases List.mem_singleton.mp isBeside
      rcases sibling with ⟨_, isSilent⟩ | ⟨sibling, isSingle, isMember⟩
      · exact .inr ⟨rfl, isSilent⟩
      · exact .inl ⟨sibling, by simp [besideNodes, isSingle], isMember⟩

/-- The schema of a reference is one. -/
theorem exists_of_reference {schema : Schema} {target : String}
    (isReference : (schema.node version).kind = .reference target) :
    ∃ path, schema = .ref path ∧ target = (Pointer.schemaName? path).getD path := by
  cases schema with
  | ref path =>
    cases isReference
    exact ⟨path, rfl, rfl⟩
  | inline keywords =>
    by_cases single : keywords.allOf = []
    · rcases kind_node_of_single version single with ⟨_, isObject⟩ | isUnlisted
      · cases isReference.symm.trans isObject
      · simp [isReference, NodeKind.isUnlisted] at isUnlisted
    · cases isReference.symm.trans (kind_node_of_several version single)

/-- The schema of an intersection lists members, of which the nodes are those of the intersection. -/
theorem exists_of_intersection {schema : Schema} {nodes : List SchemaNode}
    {discriminator : Option Discriminator}
    (isIntersection : (schema.node version).kind = .composed .allOf nodes discriminator) :
    ∃ keywords, schema = .inline keywords ∧ keywords.allOf ≠ [] ∧
      LowersMembers version keywords nodes := by
  cases schema with
  | ref => cases isIntersection
  | inline keywords =>
    by_cases single : keywords.allOf = []
    · rcases kind_node_of_single version single with ⟨_, isObject⟩ | isUnlisted
      · cases isIntersection.symm.trans isObject
      · simp [isIntersection, NodeKind.isUnlisted] at isUnlisted
    · cases isIntersection.symm.trans (kind_node_of_several version single)
      exact ⟨keywords, rfl, single, lowersMembers_of_several version single⟩

/-- The schema of anything else is an object without members. -/
theorem exists_of_other {schema : Schema}
    (notReference : (schema.node version).kind.referenceTarget? = none)
    (notIntersection : ∀ members discriminator,
      (schema.node version).kind ≠ .composed .allOf members discriminator) :
    ∃ keywords, schema = .inline keywords ∧ keywords.allOf = [] := by
  cases schema with
  | ref => cases notReference
  | inline keywords =>
    refine ⟨keywords, rfl, Decidable.not_not.mp fun several => ?_⟩
    exact notIntersection _ _ (kind_node_of_several version several)

end Schema

namespace SchemaModel

/-- The nodes of component schemas are lowered in order. -/
theorem gives_lowerEntries (version : SpecVersion) (entries : List (String × Schema)) :
    (lowerEntries version entries).Gives
      (entries.map fun entry => (entry.1, entry.2.node version)) := by
  induction entries with
  | nil => exact .pure _
  | cons entry rest ih => exact (entry.2.gives_lower version _).bind (ih.map _)

/-- The node of a component schema is that of the schema in the document. -/
theorem node?_ofDocument (document : Document) (name : String) :
    (ofDocument document).collect.1.node? name =
      (document.schemas.get? name).map (Schema.node document.version) := by
  have gives : (ofDocument document).collect.1 = _ :=
    ((gives_lowerEntries document.version document.schemas.entries).map _).collect_eq
  rw [gives, ← Table.get?_map]
  rfl

end SchemaModel

end ApiTypes
