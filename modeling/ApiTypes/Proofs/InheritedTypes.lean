import ApiTypes.Proofs.Invariance
import ApiTypes.Proofs.Synthesis.DeclaredShapes
import ApiTypes.Proofs.Synthesis.Inheritance

/-!
Types of inherited fields. An intersection does not copy the record of a component schema to which it
refers but walks its node once more, and comes to the same types unless a name means something else by
then.
-/

namespace ApiTypes

/-- Shapes without undefined numbers equal themselves. -/
theorem Workspace.DeclaresOnly.isReflexive {workspace : Workspace}
    (declares : workspace.DeclaresOnly Shape.IsDefined) : workspace.registry.IsReflexive := by
  intro name declaration found
  have shape := declares name declaration found
  exact Shape.beq_self shape.numbers shape.mapping

namespace Document

variable (document : Document) (config : Config)

/-- A component schema is emitted as a record. -/
def EmitsRecord (schema : String) (shape : RecordShape) : Prop :=
  ∃ declaration ∈ (document.synthesize config).declarations,
    declaration.origin = .component schema ∧ declaration.shape = .record shape

variable {document config}

/-- An emitted component schema is what the walk of its node has given, before any operation was bound. -/
theorem hasGiven_of_emitted {schema : String} {declaration : Declaration}
    (isEmitted : declaration ∈ (document.synthesize config).declarations)
    (origin : declaration.origin = .component schema) :
    ∃ node name, (document.context config).model.node? schema = some node ∧
      (document.context config).emitted? schema = some name ∧
      Synthesis.HasGiven (document.context config) (document.entered config).registry node
        ⟨name, Pointer.ofSchema schema⟩ declaration.shape := by
  obtain ⟨stands, _⟩ := (document.mem_declarations_synthesize_iff config declaration).mp isEmitted
  obtain ⟨held, registered⟩ := (document.consistent_unfinished config).of_component stands origin
  have ⟨runs, settled⟩ := document.runs_entered config
  have grows := document.grows_unfinished config
  have isName := ((document.context config).exists_emitted?_iff schema).mp ⟨_, held⟩
  -- Binding operations changes neither the state of a component schema nor its declaration.
  have wasRegistered : (document.entered config).resolver.state schema = .registered :=
    (grows.state_eq (settled schema isName)).symm.trans registered
  have reachable : Reachable (document.context config) (document.entered config) :=
    Reachable.initial.runs runs
  cases reachable.hasDeclaredAll schema wasRegistered with
  | @component node other found emitted wasDeclared given =>
    obtain isSame : declaration.name = other.name := Option.some.inj (held.symm.trans emitted)
    have still := grows.get?_eq wasDeclared
    rw [← isSame] at still
    cases stands.symm.trans still
    exact ⟨node, _, found, emitted, given⟩

/-- So is an emitted record. -/
theorem EmitsRecord.hasGiven {schema : String} {shape : RecordShape}
    (emits : document.EmitsRecord config schema shape) :
    ∃ node name, (document.context config).model.node? schema = some node ∧
      (document.context config).emitted? schema = some name ∧
      Synthesis.HasGiven (document.context config) (document.entered config).registry node
        ⟨name, Pointer.ofSchema schema⟩ (.record shape) := by
  obtain ⟨declaration, isEmitted, origin, isRecord⟩ := emits
  exact isRecord ▸ hasGiven_of_emitted isEmitted origin

/-- If no component schema writes an undefined number, no shape that they declare has one. -/
theorem declaresOnly_entered (isDefined : (document.context config).IsDefined) :
    (document.entered config).DeclaresOnly Shape.IsDefined :=
  Synthesis.enterAll_preserves
    (fun name first consistent held => (Synthesis.entry_enter (document.context config) name
      first).declaresOnly isDefined.shapes consistent held)
    (Consistent.ofContext _) fun name declaration found => by simp [Workspace.get?_ofContext] at found

/--
An emitted record that refers to another one among the members of its intersection has the fields of
that with the types that they have there, as far as no other member declares them: if no name that is made
up inside a component schema is held for one, and no number is undefined.
-/
theorem inherits_types {base extension : String} {shape extended : RecordShape}
    {before after : List SchemaNode} {discriminator : Option Discriminator}
    {traits referenceTraits : NodeTraits} {key : String}
    (apart : (document.context config).Apart) (isDefined : (document.context config).IsDefined)
    (emitsBase : document.EmitsRecord config base shape)
    (emits : document.EmitsRecord config extension extended)
    (isIntersection : (document.context config).model.node? extension = some
      ⟨.composed .allOf (before ++ ⟨.reference base, referenceTraits⟩ :: after) discriminator, traits⟩)
    (single : (fieldsNamed key shape.fields).length ≤ 1)
    (undeclared : ∀ member ∈ before ++ after, ¬member.Declares (document.context config) key) :
    (fieldsNamed key extended.fields).map Field.type =
      (fieldsNamed key shape.fields).map Field.type := by
  obtain ⟨_, _, found, emitted, given⟩ := emitsBase.hasGiven
  obtain ⟨_, _, isNode, _, walked⟩ := emits.hasGiven
  cases isIntersection.symm.trans isNode
  exact given.types_inherited found emitted walked (declaresOnly_entered isDefined).isReflexive apart
    single undeclared

/-- Where a declaration comes from, and if it is a record, the names of the types of some fields. -/
def fieldsOf (key : String) (declaration : Declaration) : Origin × Option (List (Option String)) :=
  (declaration.origin, match declaration.shape with
    | .record shape => some ((fieldsNamed key shape.fields).map fun field => field.type.name?)
    | .enum .. | .union _ | .alias _ => none)

/-- What is found among the fields of declarations stands in a record. -/
theorem exists_emitsRecord {schema key : String} {names : List (Option String)}
    {found : List (Origin × Option (List (Option String)))}
    (emitted : (document.synthesize config).declarations.map (fieldsOf key) = found)
    (isFound : (.component schema, some names) ∈ found) :
    ∃ shape, document.EmitsRecord config schema shape ∧
      (fieldsNamed key shape.fields).map (fun field => field.type.name?) = names := by
  obtain ⟨declaration, isEmitted, isFound⟩ := List.mem_map.mp (emitted ▸ isFound)
  obtain ⟨origin, isNamed⟩ := Prod.mk.inj isFound
  cases isShape : declaration.shape with
  | record shape =>
    rw [isShape] at isNamed
    exact ⟨shape, ⟨declaration, isEmitted, origin, isShape⟩, Option.some.inj isNamed⟩
  | enum | union | «alias» =>
    rw [isShape] at isNamed
    cases isNamed

/-- A string. -/
def text : Schema := .inline { type := some (.single .string) }

/-- An object with one property. -/
def objectWith (title : Option String) (name : String) (value : Schema) : Schema :=
  .inline { title, type := some (.single .object), properties := ⟨[(name, value)]⟩ }

/-- A base with an object as its part, other schemas, and an extension of the base. -/
def extendedBase (title : Option String) (others : List (String × Schema)) : Document where
  openapi := "3.1.0"
  info := { title := "Extended base", version := "1" }
  components := some {
    schemas := ⟨[("Base", objectWith none "part" (objectWith title "text" text))] ++ others ++
      [("Top", .inline { allOf := [.ref "#/components/schemas/Base", objectWith none "own" text] })]⟩ }

/-- The node that stands beside the reference in the extension. -/
def ownNode : SchemaNode := ⟨.object [⟨"own", false, ⟨.primitive .string none, {}⟩⟩] none, {}⟩

/-- The node of the extension. -/
def topNode : SchemaNode := ⟨.composed .allOf [.reference "Base", ownNode] none, {}⟩

/-- The extension declares no part beside that of the base. -/
theorem not_declares_ownNode {context : Context} :
    ∀ member ∈ [] ++ [ownNode], ¬member.Declares context "part" := by
  intro member isMember declares
  cases List.mem_singleton.mp isMember
  cases declares with
  | property isListed isNamed =>
    cases List.mem_singleton.mp isListed
    simp at isNamed

/-- The node of the base, whose part is declared where it is used. -/
def baseNode : SchemaNode :=
  ⟨.object [⟨"part", false, ⟨.object [⟨"text", false, ⟨.primitive .string none, {}⟩⟩] none, {}⟩⟩] none, {}⟩

/-- No name is made up for a text. -/
theorem not_tries_text {context : Context} {asked : Asked} {name candidate : String} :
    ¬SchemaNode.Tries context asked ⟨.primitive .string none, {}⟩ name candidate := by
  intro tries
  generalize isNode : (⟨.primitive .string none, {}⟩ : SchemaNode) = node at tries
  induction tries with
  | own isDeclared | promoted isDeclared => cases isNode.symm ▸ isDeclared
  | plain _ _ ih | type _ _ ih | parts _ _ ih => exact ih isNode
  | _ => cases isNode

/-- Inside an object with a text alone, no name is made up. -/
theorem not_tries_objectWithText {context : Context} {property name candidate : String} :
    ¬SchemaNode.Tries context .declared
      ⟨.object [⟨property, false, ⟨.primitive .string none, {}⟩⟩] none, {}⟩ name candidate := by
  intro tries
  cases tries with
  | property isListed inside =>
    cases List.mem_singleton.mp isListed
    exact not_tries_text inside

/-- The only name that is made up for the schemas is that of the part. -/
theorem eq_basePart_of_tries {context : Context} {candidate : String} :
    (SchemaNode.Tries context .declared baseNode "Base" candidate → candidate = "BasePart") ∧
      ∀ name, ¬SchemaNode.Tries context .declared topNode name candidate := by
  refine ⟨fun tries => ?_, fun name tries => ?_⟩
  · cases tries with
    | property isListed inside =>
      cases List.mem_singleton.mp isListed
      cases inside with
      | own => decide
      | promoted _ inside => exact absurd inside not_tries_objectWithText
      | plain isPlain => cases isPlain
  · cases tries with
    | case isChoice | caseName isChoice => exact isChoice rfl
    | member isMember inside =>
      rcases List.mem_pair.mp isMember with rfl | rfl
      · cases inside with
        | type isType => cases isType
        | parts _ inside => cases inside
      · cases inside with
        | type isType => cases isType
        | parts _ inside => exact not_tries_objectWithText inside

/-- The only name that is made up is longer than those of the schemas. -/
theorem apart_extendedBase : ((extendedBase none []).context {}).Apart := by
  intro schema node name found emitted candidate tries
  have isSchema : (schema, node) ∈ [("Base", baseNode), ("Top", topNode)] :=
    Table.mem_entries_of_get? found
  have isName : (schema, name) ∈ [("Base", "Base"), ("Top", "Top")] := Table.mem_entries_of_get? emitted
  have tried : candidate = "BasePart" := by
    rcases List.mem_pair.mp isSchema with same | same <;> cases same
    · obtain rfl : name = "Base" := by simpa using isName
      exact eq_basePart_of_tries.1 tries
    · exact absurd tries (eq_basePart_of_tries.2 name)
  intro other held suffix isHeld isSame
  have isHeld : (other, held) ∈ [("Base", "Base"), ("Top", "Top")] := Table.mem_entries_of_get? isHeld
  have longer : 8 ≤ (Registry.suffixed "BasePart" suffix).length :=
    Registry.length_le_suffixed "BasePart" suffix
  have isBase : typeName [] "BasePart" = "BasePart" := by decide
  have sameLength : held.length = (Registry.suffixed "BasePart" suffix).length := by
    rw [← isBase, ← tried]
    exact congrArg String.length isSame
  have shorter : held.length ≤ 4 := by
    rcases List.mem_pair.mp isHeld with same | same <;> cases same <;> decide
  omega

/-- The schemas write no numbers. -/
theorem isDefined_extendedBase : ((extendedBase none []).context {}).IsDefined := by
  have numbers : ∀ entry ∈ ((extendedBase none []).context {}).model.nodes.entries,
      entry.2.numbers = [] := by decide
  intro name node found
  rw [numbers _ (Table.mem_entries_of_get? found)]
  exact List.not_mem_nil

/-- Where no other schema has the name of the part, the extension has it with the type of the base. -/
theorem inherits_types_extendedBase : ∃ shape extended,
    (extendedBase none []).EmitsRecord {} "Base" shape ∧
    (extendedBase none []).EmitsRecord {} "Top" extended ∧
    (fieldsNamed "part" shape.fields).map (fun field => field.type.name?) = [some "BasePart"] ∧
    (fieldsNamed "part" extended.fields).map Field.type =
      (fieldsNamed "part" shape.fields).map Field.type := by
  have emitted : ((extendedBase none []).synthesize {}).declarations.map (fieldsOf "part") =
      [(.inline "#/components/schemas/Base/properties/part", some []),
        (.component "Base", some [some "BasePart"]), (.component "Top", some [some "BasePart"])] := by
    decide +kernel
  obtain ⟨shape, emitsBase, isNamed⟩ := exists_emitsRecord emitted (.tail _ (.head _))
  obtain ⟨extended, emits, _⟩ := exists_emitsRecord emitted (.tail _ (.tail _ (.head _)))
  have isIntersection : ((extendedBase none []).context {}).model.node? "Top" =
      some ⟨.composed .allOf ([] ++ ⟨.reference "Base", {}⟩ :: [ownNode]) none, {}⟩ := rfl
  have single : (fieldsNamed "part" shape.fields).length ≤ 1 := by
    simpa using (congrArg List.length isNamed).le
  exact ⟨shape, extended, emitsBase, emits, isNamed,
    inherits_types apart_extendedBase isDefined_extendedBase emitsBase emits isIntersection single
      not_declares_ownNode⟩

/--
Where the part has the name of a later schema that is equal, the base has it under another name, and the
extension finds that schema instead.
-/
theorem not_inherits_types :
    ¬∀ (document : Document) (config : Config) (base extension : String) (shape extended : RecordShape)
      (before after : List SchemaNode) (discriminator : Option Discriminator)
      (traits referenceTraits : NodeTraits) (key : String),
      document.EmitsRecord config base shape → document.EmitsRecord config extension extended →
      (document.context config).model.node? extension = some
        ⟨.composed .allOf (before ++ ⟨.reference base, referenceTraits⟩ :: after) discriminator, traits⟩ →
      (fieldsNamed key shape.fields).length ≤ 1 →
      (∀ member ∈ before ++ after, ¬member.Declares (document.context config) key) →
      (fieldsNamed key extended.fields).map Field.type =
        (fieldsNamed key shape.fields).map Field.type := by
  intro alwaysInherits
  have emitted : ((extendedBase (some "Part") [("Part", objectWith none "text" text)]).synthesize
      {}).declarations.map (fieldsOf "part") =
        [(.inline "#/components/schemas/Base/properties/part", some []),
          (.component "Base", some [some "Part2"]), (.component "Part", some []),
          (.component "Top", some [some "Part"])] := by
    decide +kernel
  obtain ⟨shape, emitsBase, isNamed⟩ := exists_emitsRecord emitted (.tail _ (.head _))
  obtain ⟨extended, emits, isNamedThere⟩ := exists_emitsRecord emitted
    (.tail _ (.tail _ (.tail _ (.head _))))
  have isIntersection : ((extendedBase (some "Part") [("Part", objectWith none "text" text)]).context
      {}).model.node? "Top" =
        some ⟨.composed .allOf ([] ++ ⟨.reference "Base", {}⟩ :: [ownNode]) none, {}⟩ := rfl
  have single : (fieldsNamed "part" shape.fields).length ≤ 1 := by
    simpa using (congrArg List.length isNamed).le
  -- The types differ in the names they have, so they cannot be the same.
  have sameNames := congrArg (List.map TypeExpr.name?) (alwaysInherits _ _ _ _ _ _ _ _ _ _ _ _ emitsBase
    emits isIntersection single not_declares_ownNode)
  rw [List.map_map, List.map_map] at sameNames
  have differ := isNamedThere.symm.trans (sameNames.trans isNamed)
  simp at differ

end Document

end ApiTypes
