import ApiTypes.Proofs.Synthesis.Exploration
import ApiTypes.Proofs.Synthesis.FailurePlaces

/-!
Warnings about component schemas themselves: about names that they require without a property, and about
the merge of their members. Once a schema has been started, only its own declaration adds to them.
-/

namespace ApiTypes

/-- A warning is about a component schema itself: about a name that it requires, or about its merge. -/
def Diagnostic.isWarningOf (schema : String) (diagnostic : Diagnostic) : Bool :=
  match diagnostic.cause with
  | .undeclaredRequired _ => diagnostic.path == Pointer.ofSchema schema ++ "/required"
  | .merged _ => diagnostic.path == Pointer.ofSchema schema
  | _ => false

/-- The warnings that a node with some traits deserves at a place. -/
def NodeTraits.warnings (traits : NodeTraits) (path : String) : List Diagnostic :=
  traits.required.map fun name => ⟨path ++ "/required", .undeclaredRequired name⟩

/-- The warnings that the notes of a merge deserve at a place. -/
def MergeNote.warnings (notes : List MergeNote) (path : String) : List Diagnostic :=
  notes.map fun note => ⟨path, .merged note⟩

/-- The warnings about a component schema itself that are among some diagnostics. -/
def warningsOf (schema : String) (diagnostics : List Diagnostic) : List Diagnostic :=
  diagnostics.filter fun diagnostic => diagnostic.isWarningOf schema

section

variable {schema : String}

/-- Warnings are added one after the other. -/
theorem warningsOf_append (first last : List Diagnostic) :
    warningsOf schema (first ++ last) = warningsOf schema first ++ warningsOf schema last :=
  List.filter_append _ _

/-- At its own place, all that a node with some traits deserves is about the schema. -/
theorem warningsOf_traits (traits : NodeTraits) :
    warningsOf schema (traits.warnings (Pointer.ofSchema schema)) =
      traits.warnings (Pointer.ofSchema schema) := by
  simp [warningsOf, NodeTraits.warnings, Diagnostic.isWarningOf]

/-- At its own place, all notes of a merge are about the schema. -/
theorem warningsOf_notes (notes : List MergeNote) :
    warningsOf schema (MergeNote.warnings notes (Pointer.ofSchema schema)) =
      MergeNote.warnings notes (Pointer.ofSchema schema) := by
  simp [warningsOf, MergeNote.warnings, Diagnostic.isWarningOf]

variable {path : String} (isOther : path ≠ Pointer.ofSchema schema)

include isOther

/-- At other places, what a node deserves is not about the schema. -/
theorem warningsOf_traits_of_ne (traits : NodeTraits) :
    warningsOf schema (traits.warnings path) = [] := by
  have elsewhere : path ++ "/required" ≠ Pointer.ofSchema schema ++ "/required" := by
    simpa using isOther
  simp [warningsOf, NodeTraits.warnings, Diagnostic.isWarningOf, elsewhere]

/-- At other places, the notes of a merge are not about the schema. -/
theorem warningsOf_notes_of_ne (notes : List MergeNote) :
    warningsOf schema (MergeNote.warnings notes path) = [] := by
  simp [warningsOf, MergeNote.warnings, Diagnostic.isWarningOf, isOther]

end

/-- Nothing that a walk reports at a place is a warning about a component schema. -/
def IsSilent (muted : Bool) (schema path : String) : Prop :=
  muted = true ∨ ¬Pointer.IsAt path (Pointer.ofSchema schema)

/-- Nothing that is reported below the place of a component schema is a warning about it. -/
theorem silent_inside {scope : Scope} {schema : String}
    (isPlace : scope.path = Pointer.ofSchema schema) : scope.Inside (IsSilent false schema) := fun rest =>
  .inr (isPlace ▸ Pointer.not_isAt_below scope.path rest)

/-- What a silent walk may report adds nothing to the warnings. -/
theorem IsSilent.warningsOf_eq {muted : Bool} {schema path : String} {before added : List Diagnostic}
    (silent : IsSilent muted schema path)
    (elsewhere : path ≠ Pointer.ofSchema schema → warningsOf schema added = []) :
    warningsOf schema (before ++ if muted then [] else added) = warningsOf schema before := by
  have nothing : warningsOf schema (if muted = true then [] else added) = [] := by
    split
    · rfl
    · rename_i isHeard
      exact elsewhere fun isSame => silent.resolve_left isHeard (.inl isSame.symm)
  rw [warningsOf_append, nothing, List.append_nil]

namespace Surroundings

variable {outside : Surroundings} {first last : Workspace}

/-- Unless the walk is muted, undeclared names are reported one after the other. -/
theorem diagnostics_reportUndeclared {traits : NodeTraits} {scope : Scope}
    (ends : (outside.reportUndeclared traits scope).Ends first (.ok ()) last) :
    last = { first with diagnostics := first.diagnostics ++
      if outside.muted then [] else traits.warnings scope.path } := by
  unfold reportUndeclared at ends
  cases isMuted : outside.muted with
  | true =>
    rw [isMuted] at ends
    obtain ⟨_, rfl⟩ := (Synthesis.ends_pure_iff _).mp ends
    simp
  | false =>
    rw [isMuted] at ends
    exact (Synthesis.ends_reports ends).2

/-- Unless the walk is muted, the notes of a merge are reported one after the other. -/
theorem diagnostics_reportNotes {notes : List MergeNote} {scope : Scope}
    (ends : (outside.reportNotes notes scope).Ends first (.ok ()) last) :
    last = { first with diagnostics := first.diagnostics ++
      if outside.muted then [] else MergeNote.warnings notes scope.path } := by
  unfold reportNotes at ends
  cases isMuted : outside.muted with
  | true =>
    rw [isMuted] at ends
    obtain ⟨_, rfl⟩ := (Synthesis.ends_pure_iff _).mp ends
    simp
  | false =>
    rw [isMuted] at ends
    exact (Synthesis.ends_reports ends).2

/-- Undeclared names in silent walks add nothing to the warnings about a schema. -/
theorem warningsOf_reportUndeclared {schema : String} {traits : NodeTraits} {scope : Scope}
    (silent : IsSilent outside.muted schema scope.path)
    (ends : (outside.reportUndeclared traits scope).Ends first (.ok ()) last) :
    warningsOf schema last.diagnostics = warningsOf schema first.diagnostics := by
  rw [diagnostics_reportUndeclared ends]
  exact silent.warningsOf_eq fun isOther => warningsOf_traits_of_ne isOther traits

/-- The notes of merges in silent walks add nothing to the warnings about a schema. -/
theorem warningsOf_reportNotes {schema : String} {notes : List MergeNote} {scope : Scope}
    (silent : IsSilent outside.muted schema scope.path)
    (ends : (outside.reportNotes notes scope).Ends first (.ok ()) last) :
    warningsOf schema last.diagnostics = warningsOf schema first.diagnostics := by
  rw [diagnostics_reportNotes ends]
  exact silent.warningsOf_eq fun isOther => warningsOf_notes_of_ne isOther notes

end Surroundings

/-- How a component schema is concluded is no warning. -/
theorem warningsOf_conclude (schema : String) (workspace : Workspace) (name emitted : String)
    (node : SchemaNode) (result : Except LocatedFailure Shape) :
    warningsOf schema (workspace.conclude name emitted node result).diagnostics =
      warningsOf schema workspace.diagnostics := by
  cases result with
  | ok shape => rfl
  | error located =>
    have isFailure : warningsOf schema [⟨located.path, .failed located.failure⟩] = [] := rfl
    rw [Workspace.conclude, Workspace.reportFailure, Workspace.report, warningsOf_append, isFailure,
      List.append_nil]

/-- A component schema has been started, and these are the warnings about it. -/
structure Workspace.HasWarned (schema : String) (warnings : List Diagnostic) (workspace : Workspace) :
    Prop where
  started : workspace.resolver.state schema ≠ .pending
  warnings_eq : warningsOf schema workspace.diagnostics = warnings

namespace Workspace.HasWarned

variable {schema : String} {warnings : List Diagnostic} {first last : Workspace}

/-- Nothing changes for a schema while none begins or ends and there are no warnings about it. -/
theorem steady (warned : first.HasWarned schema warnings) (sameStates : last.resolver = first.resolver)
    (same : warningsOf schema last.diagnostics = warningsOf schema first.diagnostics) :
    last.HasWarned schema warnings :=
  ⟨sameStates ▸ warned.started, same.trans warned.warnings_eq⟩

/-- What another schema ends with is not about the schema. -/
theorem conclude (warned : first.HasWarned schema warnings) (name emitted : String) (node : SchemaNode)
    (result : Except LocatedFailure Shape) :
    (first.conclude name emitted node result).HasWarned schema warnings := by
  refine ⟨started_conclude warned.started _ _ _ _, ?_⟩
  rw [warningsOf_conclude, warned.warnings_eq]

end Workspace.HasWarned

variable {context : Context} {active expanding : List String} {invariant : Workspace → Prop}

/-- An action adds nothing to the warnings about a component schema that has been started. -/
abbrev AddsNoWarning (context : Context) (active : List String) (schema : String)
    (warnings : List Diagnostic) ⦃α : Type⦄ (action : Synthesis α) : Prop :=
  Maintains context active (Workspace.HasWarned schema warnings) (fun _ _ => True) action

namespace Synthesis

/-- Once a component schema has been started, others add nothing to the warnings about it. -/
structure KeepsWarnings (context : Context) (active expanding : List String) (schema : String)
    (warnings : List Diagnostic) : Prop where
  enter : ∀ target first, Consistent context first → Started active first →
    first.HasWarned schema warnings →
      ((enterWithin context active expanding target).run first).2.HasWarned schema warnings
  expand : ∀ other path, AddsNoWarning context active schema warnings
    (expandWithin context active expanding other path)

/-- Walks add nothing to the warnings about a schema, if they are muted or stand at other places. -/
theorem KeepsWarnings.traversal {schema : String} {warnings : List Diagnostic}
    (keeps : KeepsWarnings context active expanding schema warnings) (muted : Bool) :
    Traversal (within context muted active expanding) (IsSilent muted schema) (fun _ => True)
      (fun _ => True) (AddsNoWarning context active schema warnings) := by
  have adequate := adequate_within context muted active expanding
  refine Maintains.traversal adequate
    (fun _ isPlace => isPlace.imp_right fun notAt isAt => notAt isAt.above) (fun _ _ _ => trivial)
    (fun registers warned => ?_) (fun isPlace ends warned => ?_) (fun isPlace ends warned => ?_)
    (fun _ _ => Maintains.reference adequate _ (fun _ _ => trivial) (fun _ _ => trivial)
      fun first consistent started _ => keeps.enter _ first consistent started)
    (fun _ _ _ _ => (keeps.expand _ _).inAnyCase) fun _ _ => keeps.expand _ _
  · obtain ⟨_, _, _, _, _, isLast⟩ := registers
    exact warned.steady (by rw [isLast]) (by rw [isLast])
  · exact warned.steady (Surroundings.ends_reportUndeclared ends).2.resolver_eq
      (Surroundings.warningsOf_reportUndeclared isPlace ends)
  · exact warned.steady (Surroundings.notes_of_reportNotes ends).2.resolver_eq
      (Surroundings.warningsOf_reportNotes isPlace ends)

/-- Once a component schema has been started, nothing that is asked for adds to the warnings about it. -/
theorem keepsWarnings_within (context : Context) (active expanding : List String) (schema : String)
    (warnings : List Diagnostic) : KeepsWarnings context active expanding schema warnings := by
  induction active, expanding using withinInduction context.model with
  | step active expanding inside expansion =>
    refine ⟨fun target first consistent started warned => ?_,
      fun other path first last result consistent started _ warned ends => ?_⟩
    · rcases enterWithin_cases context active expanding target first with
        ⟨same, _⟩ | ⟨node, result, inner, found, fresh, pending, ends, isLast⟩
      · rw [same]
        exact warned
      · -- Only a schema that has not been started is walked, so it is another one.
        have isOther : target ≠ schema := fun isSame => warned.started (isSame ▸ pending)
        have declares := ((inside target node found fresh).traversal (!expanding.isEmpty)).walk node
          (fun _ _ => trivial) fun _ _ => trivial
        have begun : (first.begin target).HasWarned schema warnings :=
          ⟨Workspace.started_begin target warned.started, warned.warnings_eq⟩
        rw [isLast]
        refine Workspace.HasWarned.conclude ?_ _ _ _ _
        have apart := Pointer.not_isAt_ofSchema isOther
        exact (Maintains.shapeWithin (fun _ _ _ => trivial) (declares.declare 0 (.inr apart))
          _ _ _ (consistent.begin found pending) (started_begin started) trivial begun ends).2.2.1
    · rcases expandWithin_cases ends with ⟨_, _, rfl⟩ | ⟨_, _, rfl⟩ |
        ⟨node, found, fresh, ⟨_, _, rfl⟩ | ⟨_, expands⟩⟩
      · exact ⟨consistent, .refl _, warned, fun _ _ => trivial⟩
      · exact ⟨consistent, .refl _, warned, fun _ _ => trivial⟩
      · exact ⟨consistent, .refl _, warned, fun _ _ => trivial⟩
      · exact ((expansion other node found fresh).traversal true).expand node (fun _ _ => trivial)
          (fun _ _ => trivial) (fun _ _ => trivial) (.inl rfl) _ _ _ consistent started trivial
          warned expands

end Synthesis

end ApiTypes
