import ApiTypes.Proofs.Invariance
import ApiTypes.Proofs.NodeParts
import ApiTypes.Proofs.Synthesis.DeclaredShapes

/-!
The values of enumerations. Whatever is emitted as an enumeration has the values that some schema object
of the document lists, null left out, with the base type that this gives them. The values are literals
of the base type if every schema object lists only such literals.
-/

namespace ApiTypes

/-- Whether a value is a literal of a base type; any number is one of the type of numbers. -/
def Data.isLiteralOf : PrimitiveBase → Data → Bool
  | .string, .text _ | .boolean, .bool _ | .integer, .integer _ | .number, .integer _
  | .number, .real _ => true
  | _, _ => false

/-- The base type and the values of an enumeration. -/
def Shape.enum? : Shape → Option (PrimitiveBase × List Data)
  | .enum base values => some (base, values)
  | _ => none

/-- Only an enumeration has a base type and values. -/
theorem Shape.enum?_eq_some_iff {shape : Shape} {base : PrimitiveBase} {values : List Data} :
    shape.enum? = some (base, values) ↔ shape = .enum base values := by
  cases shape <;> simp [enum?]

namespace PlainKeywords

/-- Whatever a schema lists besides null is a literal of the base type. -/
def ListsLiterals (keywords : PlainKeywords) : Prop :=
  ∀ base ∈ keywords.literalBase?, ∀ value ∈ keywords.literals, value.isLiteralOf base = true

instance (keywords : PlainKeywords) : Decidable keywords.ListsLiterals :=
  inferInstanceAs (Decidable (∀ base ∈ keywords.literalBase?, ∀ value ∈ keywords.literals,
    value.isLiteralOf base = true))

end PlainKeywords

open PlainKeywords (Listed)

/-- What the parts of all component schemas meet, they meet in all nodes inside. -/
theorem Context.encloses_partsMeet {context : Context} {values : PrimitiveBase → List Data → Prop}
    {mapping : Discriminator → Prop}
    (schemas : ∀ name node, context.model.node? name = some node →
      node.kind.PartsMeet values mapping) :
    context.Encloses fun node => node.kind.PartsMeet values mapping where
  schema found := schemas _ _ found
  items | .array inside => inside
  value | .map inside => inside
  property | .object listed _ => listed
  additional | .object _ further => further
  member | .composed inside _ => inside

/-- The enumerations in a node have what schema objects list of which something holds. -/
def SchemaNode.EnumsListed (holds : PlainKeywords → Prop) (node : SchemaNode) : Prop :=
  node.kind.PartsMeet (Listed holds) fun _ => True

namespace Synthesis

/-- Binding an operation declares only enumerations of known nodes if it lowers schemas to such nodes. -/
theorem bindingTraversal_enumsKnown {context : Context} {known : SchemaNode → Prop}
    (encloses : context.Encloses known) :
    BindingTraversal context (fun schema => known (schema.node context.model.version))
      (Maintains context [] (Workspace.DeclaresOnly (Shape.EnumKnown known)) fun _ _ => True) := by
  refine bindingTraversal_maintains (fun _ held => held)
    fun {schema} scope isKnown _ first last result consistent started _ held ends => ?_
  rw [(schema.gives_lower context.model.version scope.path).collect_eq] at ends
  have comes := ((adequate_within context false [] []).walkFollows _).expression scope 0 _ _ _
    consistent started ends
  have shapes := encloses.shapes_enumKnown
  have moves := Comes.moves shapes comes isKnown
  have ⟨after, grows⟩ := moves.advances consistent
  exact ⟨after, grows, moves.declaresOnly shapes consistent held, fun _ _ => trivial⟩

end Synthesis

namespace Document

variable (document : Document) (config : Config)

/-- Something holds of every schema object that is written in a document. -/
def Everywhere (holds : PlainKeywords → Prop) : Prop :=
  ∀ schema ∈ document.writtenSchemas, schema.Everywhere holds

variable {document} {holds : PlainKeywords → Prop}

/-- All enumerations in the component schemas have what schema objects of the document list. -/
theorem Everywhere.encloses (everywhere : document.Everywhere holds) :
    (document.context config).Encloses (SchemaNode.EnumsListed holds) := by
  have ⟨schemas, _⟩ := Components.forall_writtenSchemas_iff.mp
    (forall_writtenSchemas_components everywhere)
  refine Context.encloses_partsMeet fun name node found => ?_
  have isNode : (document.context config).model.node? name = _ :=
    SchemaModel.node?_ofDocument document name
  rw [isNode] at found
  obtain ⟨schema, isSchema, rfl⟩ := Option.map_eq_some_iff.mp found
  have isWritten : schema ∈ (document.components.getD {}).schemas.values :=
    List.mem_map_of_mem (Table.mem_entries_of_get? isSchema)
  exact (schemas schema isWritten).partsMeet (fun _ => trivial) document.version

/-- All enumerations that are declared have what schema objects of the document list. -/
theorem Everywhere.enumsKnown_unfinished (everywhere : document.Everywhere holds) :
    (document.unfinished config).DeclaresOnly (Shape.EnumKnown (SchemaNode.EnumsListed holds)) := by
  have encloses := everywhere.encloses config
  have entered : (document.entered config).DeclaresOnly
      (Shape.EnumKnown (SchemaNode.EnumsListed holds)) :=
    Synthesis.enterAll_preserves
      (fun name first consistent held => (Synthesis.entry_enter (document.context config) name
        first).declaresOnly encloses.shapes_enumKnown consistent held)
      (Consistent.ofContext _) fun name declaration found => by simp [Workspace.get?_ofContext] at found
  unfold unfinished
  rw [run_bindAll]
  split
  · -- Every schema of an operation is written in the document, wherever references lead.
    have ⟨inPaths, _⟩ := List.forall_mem_append.mp everywhere
    exact (Synthesis.bindPaths_maintains (Synthesis.bindingTraversal_enumsKnown encloses)
      (fun _ held => held)
      (fun schema isWritten =>
        (forall_writtenSchemas_components everywhere schema isWritten).partsMeet (fun _ => trivial) _)
      (fun path isPath schema isWritten =>
        (List.forall_mem_flatMap.mp inPaths path.2 (List.mem_map_of_mem isPath) schema
          isWritten).partsMeet (fun _ => trivial) _)
      (document.consistent_entered config) entered).2
  · exact entered

/-- Whatever is emitted as an enumeration has what some schema object of the document lists. -/
theorem Everywhere.listed_of_emitted (everywhere : document.Everywhere holds) {declaration : Declaration}
    (isEmitted : declaration ∈ (document.synthesize config).declarations) {base : PrimitiveBase}
    {values : List Data} (isEnum : declaration.shape = .enum base values) : Listed holds base values := by
  have found := ((document.mem_declarations_synthesize_iff config declaration).mp isEmitted).1
  obtain ⟨_, met⟩ := everywhere.enumsKnown_unfinished config _ _ found base values isEnum
  -- The node of which the declaration comes is itself an enumeration, of the same values.
  cases met with
  | enum listed => exact listed

variable (document)

/--
An enumeration that is emitted has at least one value, and null is none of them. If every schema object
of the document lists, besides null, only literals of its base type, then the values are literals of the
base type of the enumeration.
-/
theorem synthesize_enumValues {declaration : Declaration}
    (isEmitted : declaration ∈ (document.synthesize config).declarations) {base : PrimitiveBase}
    {values : List Data} (isEnum : declaration.shape = .enum base values) :
    values ≠ [] ∧ (∀ value ∈ values, value.isNull = false) ∧
      (document.Everywhere PlainKeywords.ListsLiterals →
        ∀ value ∈ values, value.isLiteralOf base = true) := by
  -- That values are listed at all is known of any document, and the rest of one that lists literals.
  have written : document.Everywhere fun _ => True := fun schema _ =>
    schema.everywhere_of_forall fun _ => trivial
  obtain ⟨keywords, _, enumerates⟩ := written.listed_of_emitted config isEmitted isEnum
  refine ⟨enumerates.nonempty, fun value isValue => ?_, fun literals => ?_⟩
  · rw [enumerates.values_eq] at isValue
    simpa using (List.mem_filter.mp isValue).2
  · obtain ⟨_, areLiterals, enumerates⟩ := literals.listed_of_emitted config isEmitted isEnum
    rw [enumerates.values_eq]
    exact areLiterals base enumerates.base_eq

/-- Keywords of an enumeration of colours, of which none may be given as well. -/
def colours : PlainKeywords where
  values := [.text "red", .null, .text "blue"]

/-- Keywords of an enumeration of sizes. -/
def sizes : PlainKeywords where
  type := some (.single .integer)
  values := [.integer 1, .integer 2]

/-- The colours as a component schema, and the sizes as the parameter of an operation. -/
def palette : Document where
  openapi := "3.1.0"
  info := { title := "Palette", version := "1" }
  paths := ⟨[("/shades", { operation := fun
    | .get => some {
      parameters := [.inline {
        name := "size", location := .query, schema := some (.inline { toPlainKeywords := sizes }) }] }
    | _ => none })]⟩
  components := some { schemas := ⟨[("Colour", .inline { toPlainKeywords := colours })]⟩ }

/-- Two enumerations are emitted for the palette, and the sizes are integers. -/
theorem synthesize_enumValues_palette :
    (palette.synthesize {}).declarations.length = 2 ∧
      palette.Everywhere PlainKeywords.ListsLiterals ∧
      ∃ declaration ∈ (palette.synthesize {}).declarations, ∃ values,
        declaration.shape = .enum .integer values ∧ values.length = 2 ∧
          ∀ value ∈ values, value.isLiteralOf .integer = true := by
  have alone (keywords : PlainKeywords) (lists : keywords.ListsLiterals) :
      (Schema.inline { toPlainKeywords := keywords }).Everywhere PlainKeywords.ListsLiterals :=
    (Schema.everywhere_inline_iff _).mpr ⟨lists, fun _ isEntry => absurd isEntry List.not_mem_nil,
      by simp, by simp, by simp, by simp, by simp⟩
  have written : palette.Everywhere PlainKeywords.ListsLiterals := by
    intro schema isWritten
    have isOne : schema ∈ [Schema.inline { toPlainKeywords := sizes },
        .inline { toPlainKeywords := colours }] := isWritten
    rcases List.mem_pair.mp isOne with rfl | rfl
    · exact alone sizes (by decide)
    · exact alone colours (by decide)
  have emitted : (palette.synthesize {}).declarations.length = 2 ∧
      ∃ declaration ∈ (palette.synthesize {}).declarations,
        ∃ listed ∈ declaration.shape.enum?, listed.1 = .integer ∧ listed.2.length = 2 := by
    decide +kernel
  obtain ⟨twoEmitted, declaration, isEmitted, ⟨base, values⟩, isListed, isInteger, areTwo⟩ := emitted
  have isEnum : declaration.shape = .enum .integer values := by
    rw [Shape.enum?_eq_some_iff.mp isListed, show base = .integer from isInteger]
  exact ⟨twoEmitted, written, declaration, isEmitted, values, isEnum, areTwo,
    (synthesize_enumValues palette {} isEmitted isEnum).2.2 written⟩

/-- A text is listed beside a record. -/
def textBesideRecord : Document where
  openapi := "3.1.0"
  info := { title := "Text beside a record", version := "1" }
  components := some { schemas := ⟨[("A", .inline {
    values := [.text "a", .record [("x", .integer 1)]] })]⟩ }

/-- The first value alone decides on the base type, and the record is emitted as one of the texts. -/
theorem not_literals_textBesideRecord :
    ¬∀ (document : Document) (config : Config),
      ∀ declaration ∈ (document.synthesize config).declarations, ∀ base values,
        declaration.shape = .enum base values →
          values ≠ [] ∧ ∀ value ∈ values, value.isNull = false ∧ value.isLiteralOf base = true := by
  intro literals
  have stray : ∃ declaration ∈ (textBesideRecord.synthesize {}).declarations,
      ∃ listed ∈ declaration.shape.enum?, ∃ value ∈ listed.2, value.isLiteralOf listed.1 = false := by
    decide +kernel
  obtain ⟨declaration, isEmitted, ⟨base, values⟩, isListed, value, isValue, notLiteral⟩ := stray
  have isEnum := Shape.enum?_eq_some_iff.mp isListed
  obtain ⟨_, isLiteral⟩ :=
    (literals textBesideRecord {} declaration isEmitted base values isEnum).2 value isValue
  exact Bool.false_ne_true (notLiteral.symm.trans isLiteral)

end Document

end ApiTypes
