import ApiTypes.Proofs.Emission
import ApiTypes.Proofs.Synthesis.OperationTraversal
import ApiTypes.Proofs.Synthesis.Reporting

/-!
Warnings about the component schemas of a document. Whatever order they are reached in, a schema that
is emitted has exactly the warnings that it deserves, unless a schema that is merged somewhere lies on a
cycle and leads to it.
-/

namespace ApiTypes

open Relation

/-- No component schema stands in the paths of a document. -/
theorem Pointer.InPaths.not_isAt {path : String} (inPaths : InPaths path) (schema : String) :
    ¬IsAt path (ofSchema schema) := by
  have differs {rest : String} : ofSchema schema ≠ "#/paths/" ++ rest := by
    intro isSame
    have third := congrArg (fun text : String => text.toList[2]?) isSame
    simp [ofSchema, sectionPrefix] at third
  obtain ⟨rest, rfl⟩ := inPaths
  rintro (isSame | ⟨further, isSame⟩)
  · exact differs isSame
  · rw [String.append_assoc, String.append_assoc] at isSame
    exact differs isSame

/-- What lowering notices is no warning about a component schema itself. -/
theorem warningsOf_lowering {schema : String} {diagnostics : List Diagnostic}
    (ofLowering : ∀ diagnostic ∈ diagnostics, diagnostic.cause.isOfLowering = true) :
    warningsOf schema diagnostics = [] := by
  refine List.filter_eq_nil_iff.mpr fun diagnostic isReported => ?_
  have isOfLowering := ofLowering diagnostic isReported
  obtain ⟨path, cause⟩ := diagnostic
  revert isOfLowering
  cases cause <;> simp [Cause.isOfLowering, Diagnostic.isWarningOf]

namespace Synthesis

/-- Steps that add nothing to the warnings may be composed. -/
theorem silentTraversal (context : Context) (schema : String) (warnings : List Diagnostic) :
    Traversal (surroundings context) (IsSilent false schema) (fun _ => True) (fun _ => True)
      (AddsNoWarning context [] schema warnings) :=
  (keepsWarnings_within context [] [] schema warnings).traversal false

/-- Whatever is done to bind an operation adds nothing to the warnings. -/
theorem silentBinding (context : Context) (schema : String) (warnings : List Diagnostic) :
    BindingTraversal context (fun _ => True) (AddsNoWarning context [] schema warnings) := by
  refine bindingTraversal_maintains (fun ofLowering warned => warned.steady rfl ?_)
    fun scope _ inPaths => ?_
  · rw [warningsOf_append, warningsOf_lowering ofLowering, List.append_nil]
  · have silent := silentTraversal context schema warnings
    exact (silent.walk _ (fun _ _ => trivial) fun _ _ => trivial).expression 0
      (.inr (inPaths.not_isAt schema))

end Synthesis

/-- A component schema is registered with all its warnings, and nothing is wrong with the workspace. -/
structure Workspace.Completes (context : Context) (schema : String) (node : SchemaNode)
    (workspace : Workspace) : Prop where
  consistent : Consistent context workspace
  started : workspace.resolver.state schema ≠ .pending
  reported : workspace.HasReported context schema node

namespace Workspace.Completes

variable {context : Context} {components : Components} {schema : String} {node : SchemaNode}
  {first last : Workspace}

/-- Binding operations leaves what a component schema has got. -/
theorem bindPaths (paths : List (String × PathItem)) (completes : first.Completes context schema node) :
    ((Synthesis.bindPaths context components paths).run first).2.Completes context schema node := by
  refine Synthesis.bindPaths_preserves _ (fun {before result after} path _ entry _ completes ends =>
    ?_) (fun {before} located completes => ?_) completes
  · have binding := Synthesis.silentBinding context schema (warningsOf schema before.diagnostics)
    obtain ⟨consistent, grows, warned, _⟩ := binding.bindOperation (fun _ _ => trivial) entry.1 path.1
      (fun _ _ _ _ => trivial) (fun _ _ => trivial) _ _ _ completes.consistent (by simp [Started])
      trivial ⟨completes.started, rfl⟩ ends
    exact ⟨consistent, warned.started,
      completes.reported.mono (fun _ _ => grows.get?_eq) warned.warnings_eq⟩
  · obtain ⟨consistent, _⟩ := completes.consistent.report located.path (.failed located.failure)
    refine ⟨consistent, completes.started, completes.reported.mono (fun _ _ => id) ?_⟩
    have isFailure : warningsOf schema [⟨located.path, .failed located.failure⟩] = [] := rfl
    rw [reportFailure, report, warningsOf_append, isFailure, List.append_nil]

end Workspace.Completes

/-- Before synthesis starts, nothing has been missed. -/
theorem Workspace.awaits_ofContext (context : Context) (schema : String) (node : SchemaNode) :
    (Workspace.ofContext context).Awaits context schema node [] [] where
  toUnderway := .ofContext context
  unwarned _ := by
    rw [(reserves_ofContext context).diagnostics_eq]
    rfl
  reported isRegistered := by simp [state_ofContext] at isRegistered

/-- What comes of a withdrawal is no warning about a component schema. -/
theorem warningsOf_related {α : Type} {schema : String} {relation : α → Diagnostic → Prop}
    {items : List α} {diagnostics : List Diagnostic} (related : List.Forall₂ relation items diagnostics)
    (isOther : ∀ item diagnostic, relation item diagnostic → diagnostic.isWarningOf schema = false) :
    warningsOf schema diagnostics = [] := by
  induction related with
  | nil => rfl
  | cons head _ ih => simpa [warningsOf, isOther _ _ head] using ih

namespace Document

variable (document : Document) (config : Config)

/--
A component schema has exactly the warnings that it deserves: one for each name that its node requires
without a property, and one for each note of the merge from which its declaration comes, if it does.
-/
def Warns (schema : String) (node : SchemaNode) : Prop :=
  ∃ declaration ∈ (document.synthesize config).declarations,
    declaration.origin = .component schema ∧
      ∃ notes, (document.context config).DeclaresWith schema node declaration.shape notes ∧
        warningsOf schema (document.synthesize config).diagnostics =
          node.traits.warnings (Pointer.ofSchema schema) ++
            MergeNote.warnings notes (Pointer.ofSchema schema)

variable {document config} {schema : String} {node : SchemaNode}

/-- Once all component schemas have been synthesized, no warning has been missed. -/
theorem awaits_entered (found : (document.context config).model.node? schema = some node)
    (apart : (document.context config).LiesApart schema) :
    (document.entered config).Awaits (document.context config) schema node [] [] :=
  Synthesis.enterAll_preserves
    (fun name first consistent awaits => (Synthesis.attends_within found apart [] []).enter name first
      (by simp) (by simp) consistent (by simp [Started]) awaits)
    (Consistent.ofContext _) (Workspace.awaits_ofContext _ schema node)

/-- What a component schema has got when all have been synthesized is left when operations are bound. -/
theorem completes_unfinished
    (completes : (document.entered config).Completes (document.context config) schema node) :
    (document.unfinished config).Completes (document.context config) schema node := by
  unfold unfinished
  rw [run_bindAll]
  split
  · exact completes.bindPaths _
  · exact completes

/-- Finishing adds nothing to the warnings about component schemas, and neither does lowering. -/
theorem warningsOf_synthesize (schema : String) :
    warningsOf schema (document.synthesize config).diagnostics =
      warningsOf schema (document.unfinished config).diagnostics := by
  obtain ⟨lost, losses, omissions, _, areLosses, areOmissions, diagnostics_eq⟩ :=
    Workspace.diagnostics_finish (document.consistent_unfinished config).wellFormed
      (document.context config).model.version (document.bound config)
      (SchemaModel.ofDocument document).collect.2
  -- Neither losses nor omissions are warnings about component schemas.
  have loss_warnings : warningsOf schema losses = [] :=
    warningsOf_related areLosses fun declaration diagnostic isLoss => by
      obtain ⟨_, _, _, _, _, rfl⟩ := isLoss
      rfl
  have omission_warnings : warningsOf schema omissions = [] :=
    warningsOf_related areOmissions fun operation diagnostic isOmission => by
      obtain ⟨_, _, _, rfl⟩ := isOmission
      rfl
  have lowering_warnings : warningsOf schema (SchemaModel.ofDocument document).collect.2 = [] :=
    warningsOf_lowering (SchemaModel.preliminary_ofDocument document).collect
  rw [synthesize_eq, diagnostics_eq, warningsOf_append, warningsOf_append, warningsOf_append,
    loss_warnings, omission_warnings, lowering_warnings, List.append_nil, List.append_nil,
    List.nil_append]

/--
An emitted component schema has exactly the warnings that it deserves, in whatever order schemas are
reached, if no schema that is merged somewhere and lies on a cycle of references leads to it.
-/
theorem warns_of_emitted {name : String}
    (emitted : (document.synthesize config).names.get? schema = some name)
    (found : (document.context config).model.node? schema = some node)
    (apart : (document.context config).LiesApart schema) :
    document.Warns config schema node := by
  obtain ⟨held, supported⟩ := (document.names_synthesize_get?_iff config schema name).mp emitted
  obtain ⟨_, _, _, isRegistered⟩ := document.registered_of_supported config held supported
  -- The schema has been registered with the others, before operations were bound.
  have awaits := awaits_entered found apart
  have settled := (document.runs_entered config).2 schema
    (((document.context config).exists_emitted?_iff schema).mp ⟨name, held⟩)
  have consistent : Consistent (document.context config) (document.entered config) :=
    ((document.runs_entered config).1.consistent (Consistent.ofContext _)).1
  rw [(document.binds_unfinished config).state_eq settled] at isRegistered
  have completes := completes_unfinished ⟨consistent, settled, awaits.reported isRegistered⟩
  obtain ⟨declaration, notes, stands, origin, declares, warnings_eq⟩ := completes.reported
  refine ⟨declaration, ?_, origin, notes, declares, (warningsOf_synthesize schema).trans warnings_eq⟩
  have isHeld := (completes.consistent.of_component stands origin).1
  cases held.symm.trans isHeld
  exact (document.mem_declarations_synthesize_iff config declaration).mpr
    ⟨stands, _, .component stands (by simp [origin, Origin.isComponent]) supported, .refl⟩

/-- A record that requires a name without a property, behind one that is extended by such a name. -/
def extendedRecord : Document where
  openapi := "3.1.0"
  info := { title := "Extended record", version := "1" }
  components := some {
    schemas := ⟨[
      ("A", .inline { allOf := [.ref "#/components/schemas/B", .inline { required := ["ghost"] }] }),
      ("B", .inline {
        type := some (.single .object)
        properties := ⟨[("c", .ref "#/components/schemas/C")]⟩ }),
      ("C", .inline {
        type := some (.single .object)
        required := ["ghost"]
        properties := ⟨[("k", .inline { type := some (.single .string) })]⟩ })]⟩ }

/-- References go on from one schema to the next. -/
theorem lt_of_refers_extendedRecord (schema target : String)
    (refers : (extendedRecord.context {}).Refers schema target) : schema < target := by
  have isModel : (extendedRecord.context {}).model.nodes.entries = [
      ("A", ⟨.composed .allOf [⟨.reference "B", {}⟩, ⟨.any, { required := ["ghost"] }⟩] none, {}⟩),
      ("B", ⟨.object [⟨"c", false, ⟨.reference "C", {}⟩⟩] none, {}⟩),
      ("C", ⟨.object [⟨"k", false, ⟨.primitive .string none, {}⟩⟩] none, { required := ["ghost"] }⟩)] :=
    rfl
  obtain ⟨node, found, refers⟩ := refers
  have isEntry := Table.mem_entries_of_get? found
  rw [isModel] at isEntry
  simp only [List.mem_cons, Prod.mk.injEq, List.not_mem_nil, or_false] at isEntry
  -- There are three schemas, and each refers to those of later letters.
  rcases isEntry with ⟨rfl, rfl⟩ | ⟨rfl, rfl⟩ | ⟨rfl, rfl⟩
  · cases refers with
    | member isMember inside =>
      simp only [List.mem_cons, List.not_mem_nil, or_false] at isMember
      rcases isMember with rfl | rfl <;> cases inside
      decide
  · cases refers with
    | property isListed inside =>
      cases List.mem_singleton.mp isListed
      cases inside
      decide
    | additional isValue => cases isValue
  · cases refers with
    | property isListed inside =>
      cases List.mem_singleton.mp isListed
      cases inside
    | additional isValue => cases isValue

/-- Both names that are required without a property are reported, one of them by the merge. -/
theorem warns_extendedRecord :
    (∀ schema ∈ ["A", "C"], ((extendedRecord.synthesize {}).names.get? schema).isSome = true ∧
      (extendedRecord.context {}).LiesApart schema ∧
      ∃ node, (extendedRecord.context {}).model.node? schema = some node ∧
        extendedRecord.Warns {} schema node) ∧
    (extendedRecord.synthesize {}).diagnostics.length = 2 := by
  refine ⟨fun schema isListed => ?_, by decide +kernel⟩
  -- References go upwards in the order of the names, so no schema is on a cycle.
  have ascends {first last : String} (leads : TransGen (extendedRecord.context {}).Refers first last) :
      first < last := by
    induction leads with
    | single refers => exact lt_of_refers_extendedRecord _ _ refers
    | tail _ refers ih => exact String.lt_trans ih (lt_of_refers_extendedRecord _ _ refers)
  have apart : (extendedRecord.context {}).LiesApart schema := fun _ source _ cycle _ =>
    String.lt_irrefl source (ascends cycle)
  have isEmitted : ∀ schema ∈ ["A", "C"],
      ((extendedRecord.synthesize {}).names.get? schema).isSome = true ∧
        ((extendedRecord.context {}).model.node? schema).isSome = true := by
    decide +kernel
  obtain ⟨isNamed, isDefined⟩ := isEmitted schema isListed
  obtain ⟨name, emitted⟩ := Option.isSome_iff_exists.mp isNamed
  obtain ⟨node, found⟩ := Option.isSome_iff_exists.mp isDefined
  exact ⟨isNamed, apart, node, found, warns_of_emitted emitted found apart⟩

/-- A record with fields for an intersection that includes it and for a record that requires too much. -/
def mutedRecord : Document where
  openapi := "3.1.0"
  info := { title := "Muted record", version := "1" }
  components := some {
    schemas := ⟨[
      ("B", .inline {
        type := some (.single .object)
        properties := ⟨[("a", .ref "#/components/schemas/A"), ("c", .ref "#/components/schemas/C")]⟩ }),
      ("A", .inline { allOf := [.ref "#/components/schemas/B", .inline { required := ["a"] }] }),
      ("C", .inline {
        type := some (.single .object)
        required := ["ghost"]
        properties := ⟨[("k", .inline { type := some (.single .string) })]⟩ })]⟩ }

/--
The record at the end is met for the first and only time while the one with the field is expanded for the
intersection, which mutes all warnings.
-/
theorem not_warns_mutedRecord :
    ¬∀ (document : Document) (config : Config) (schema name : String) (node : SchemaNode),
      (document.synthesize config).names.get? schema = some name →
        (document.context config).model.node? schema = some node →
          document.Warns config schema node := by
  intro warns
  have ⟨isNamed, isMuted⟩ : ((mutedRecord.synthesize {}).names.get? "C").isSome = true ∧
      (mutedRecord.synthesize {}).diagnostics.length = 0 := by
    decide +kernel
  obtain ⟨name, emitted⟩ := Option.isSome_iff_exists.mp isNamed
  have found : (mutedRecord.context {}).model.node? "C" =
    some ⟨.object [⟨"k", false, ⟨.primitive .string none, {}⟩⟩] none, { required := ["ghost"] }⟩ := rfl
  obtain ⟨declaration, _, _, notes, _, warnings_eq⟩ := warns mutedRecord {} "C" name _ emitted found
  rw [List.length_eq_zero_iff.mp isMuted] at warnings_eq
  cases warnings_eq

end Document

end ApiTypes
