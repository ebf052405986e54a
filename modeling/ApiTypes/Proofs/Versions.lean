import ApiTypes.Proofs.Emission
import ApiTypes.Proofs.Spelling
import ApiTypes.Proofs.Synthesis.Bindings

/-!
Both spellings of a document come to the same types: what is derived from a document in the form of
version 3.0 is derived from its translation to the form of version 3.1.
-/

namespace ApiTypes

namespace Document

/-- Every schema of a document is in the form of version 3.0. -/
def IsOldForm (document : Document) : Prop := ∀ schema ∈ document.writtenSchemas, schema.IsOldForm

/-- The same document in version 3.1, with every schema in the form of that version. -/
def toNewForm (document : Document) : Document :=
  { document.mapSchemas Schema.toNewForm with openapi := "3.1.0" }

end Document

namespace Synthesis

/-- A schema of an operation has the same type in either form. -/
theorem agree_schemaType (context : Context) (version : SpecVersion) {schema : Schema}
    (old : schema.IsOldForm) (candidate path : String) :
    Agree (schemaType context schema candidate path).run
      (schemaType (context.inVersion version) schema.toNewForm candidate path).run := by
  -- Both spellings lower to the same node, and only the reports of lowering differ.
  have sameNode := (old.same_lower context.model.version version path).collect
  have walks := ((settled_within context false [] []).traversal (fun _ => True) fun _ => True).walk
    (schema.lower context.model.version path).collect.1 (fun _ _ => trivial) fun _ _ => trivial
  unfold schemaType
  have reports : ∀ left right : List Diagnostic, Agree
      (modify fun workspace => { workspace with diagnostics := workspace.diagnostics ++ left } :
        Synthesis PUnit).run
      (modify fun workspace => { workspace with diagnostics := workspace.diagnostics ++ right } :
        Synthesis PUnit).run := fun _ _ _ _ alike => ⟨rfl, alike.resolver, alike.registry⟩
  refine (reports _ _).bindResult fun _ => ?_
  change Agree (((surroundings context).walk
      (schema.lower context.model.version path).collect.1).expression ⟨candidate, path⟩ 0).run
    (((surroundings (context.inVersion version)).walk
      (schema.toNewForm.lower version path).collect.1).expression ⟨candidate, path⟩ 0).run
  rw [surroundings_inVersion, Surroundings.walk_inVersion, ← sameNode]
  exact walks.expression 0 trivial

end Synthesis

namespace Document

/-- The schemas of the components are in the form of version 3.0 if all schemas are. -/
theorem IsOldForm.components {document : Document} (old : document.IsOldForm) :
    ∀ schema ∈ (document.components.getD {}).writtenSchemas, schema.IsOldForm :=
  forall_writtenSchemas_components old

/-- The components are translated, if there are any. -/
theorem components_toNewForm (document : Document) :
    document.toNewForm.components.getD {} =
      (document.components.getD {}).mapSchemas Schema.toNewForm := by
  unfold toNewForm mapSchemas
  cases document.components <;> rfl

/-- The nodes of the component schemas are the same in either form. -/
theorem context_toNewForm {document : Document} (old : document.IsOldForm) (config : Config) :
    document.toNewForm.context config =
      (document.context config).inVersion document.toNewForm.version := by
  have ⟨schemas, _⟩ := Components.forall_writtenSchemas_iff.mp old.components
  have sameNodes : (SchemaModel.lowerEntries document.toNewForm.version
      document.toNewForm.schemas.entries).collect.1 =
        (SchemaModel.lowerEntries document.version document.schemas.entries).collect.1 := by
    rw [Document.schemas, components_toNewForm]
    exact (SchemaModel.same_lowerEntries (List.forall_mem_map.mp schemas) _ _).collect.symm
  have sameModel : (SchemaModel.ofDocument document.toNewForm).collect.1 =
      (SchemaModel.ofDocument document).collect.1.inVersion document.toNewForm.version :=
    congrArg (fun entries => (⟨document.toNewForm.version, ⟨entries⟩⟩ : SchemaModel)) sameNodes
  rw [context, sameModel]
  rfl

/-- The component schemas and the operations come to the same in either form. -/
theorem agree_bindAll {document : Document} (old : document.IsOldForm) (context : Context)
    (version : SpecVersion) :
    Agree (document.bindAll context) (document.toNewForm.bindAll (context.inVersion version)) := by
  -- Components are entered first, and parameters, bodies and responses are bound from where these end.
  have ⟨inPaths, _⟩ := List.forall_mem_append.mp old
  have bindings := Synthesis.agree_bindPaths
    (fun schema isOld candidate path => Synthesis.agree_schemaType context version isOld candidate path)
    old.components rfl (List.forall_mem_map.mp (List.forall_mem_flatMap.mp inPaths))
  have sameEntries : Synthesis.enterAll (context.inVersion version) = Synthesis.enterAll context := by
    rw [Synthesis.enterAll, Synthesis.enterAll, Synthesis.enter_inVersion]
    rfl
  unfold bindAll
  rw [sameEntries, components_toNewForm]
  refine (Synthesis.agree_enterAll context).bind fun _ => ?_
  have sameConfig : (context.inVersion version).config = context.config := rfl
  rw [sameConfig]
  split
  · exact bindings
  · exact .pure _

/--
A document in the form of version 3.0 and its translation to the form of version 3.1 have the same
declarations, names and operations.
-/
theorem synthesize_toNewForm {document : Document} (old : document.IsOldForm) (config : Config) :
    (document.toNewForm.synthesize config).declarations = (document.synthesize config).declarations ∧
      (document.toNewForm.synthesize config).names = (document.synthesize config).names ∧
      (document.toNewForm.synthesize config).operations = (document.synthesize config).operations := by
  have alike : (Workspace.ofContext (document.context config)).Alike
      (Workspace.ofContext (document.toNewForm.context config)) := by
    rw [context_toNewForm old]
    exact ⟨rfl, rfl⟩
  have binds := agree_bindAll old (document.context config) document.toNewForm.version
  rw [← context_toNewForm old] at binds
  have ⟨sameOperations, sameWorkspace⟩ := binds alike
  have bound : document.toNewForm.bound config = document.bound config := sameOperations.symm
  have registry : (document.toNewForm.unfinished config).registry =
      (document.unfinished config).registry := sameWorkspace.registry.symm
  rw [synthesize_eq, synthesize_eq, bound]
  exact Workspace.finish_agrees registry _ _ _ _ _

/-- An integer that admits null, with a flag at either end of its range. -/
def flaggedInteger : Schema := .inline {
  type := some (.single .integer)
  nullable := some true
  minimum := some (Binary64.ofInt 1)
  exclusiveMinimum := some (.flag true)
  maximum := some (Binary64.ofInt 9)
  exclusiveMaximum := some (.flag false) }

/-- The integer as the property of a record, and as the parameter of an operation. -/
def flaggedIntegers : Document where
  openapi := "3.0.3"
  info := { title := "Flagged integers", version := "1" }
  paths := ⟨[("/integers", { operation := fun
    | .get => some {
      parameters :=
        [.inline { name := "integer", location := .query, schema := some flaggedInteger }] }
    | _ => none })]⟩
  components := some {
    schemas := ⟨[("Integers", .inline {
      type := some (.single .object)
      properties := ⟨[("integer", flaggedInteger)]⟩ })]⟩ }

/-- The bound of the parameter is exclusive in both forms, and everything else is the same as well. -/
theorem synthesize_toNewForm_flaggedIntegers :
    flaggedIntegers.IsOldForm ∧
      ((flaggedIntegers.synthesize {}).operations.flatMap OperationBinding.parameters).map
          (fun parameter => parameter.type.constraints.minimum.map Bound.exclusive) = [some true] ∧
      (flaggedIntegers.toNewForm.synthesize {}).declarations =
        (flaggedIntegers.synthesize {}).declarations ∧
      (flaggedIntegers.toNewForm.synthesize {}).names = (flaggedIntegers.synthesize {}).names ∧
      (flaggedIntegers.toNewForm.synthesize {}).operations =
        (flaggedIntegers.synthesize {}).operations := by
  -- The document has two schemas, of which the one is the property of the other.
  have integer : flaggedInteger.IsOldForm :=
    (Schema.isOldForm_inline_iff _).mpr
      ⟨⟨by simp, by simp, by simp⟩,
        ⟨fun _ isEntry => absurd isEntry List.not_mem_nil, by simp, by simp, by simp, by simp,
          by simp⟩⟩
  have old : flaggedIntegers.IsOldForm := by
    intro schema isWritten
    have isOne : schema ∈ [flaggedInteger, .inline {
        type := some (.single .object)
        properties := ⟨[("integer", flaggedInteger)]⟩ }] := isWritten
    rcases List.mem_pair.mp isOne with rfl | rfl
    · exact integer
    · exact (Schema.isOldForm_inline_iff _).mpr
        ⟨⟨by simp, by simp, by simp⟩,
          ⟨by simpa using integer, by simp, by simp, by simp, by simp, by simp⟩⟩
  exact ⟨old, by decide, synthesize_toNewForm old {}⟩

end Document

end ApiTypes
