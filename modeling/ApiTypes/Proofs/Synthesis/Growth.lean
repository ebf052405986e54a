import ApiTypes.Proofs.Synthesis.Execution
import ApiTypes.Proofs.Synthesis.Knowledge

/-! Whatever is asked leaves a workspace consistent, and keeps what is declared in it. -/

namespace ApiTypes

variable {context : Context} {expanding : List String} {first last : Workspace}

/-- What both relations between workspaces keep. -/
def Advances (context : Context) (first last : Workspace) : Prop :=
  Consistent context first → Consistent context last ∧ Grows first last

namespace Advances

/-- Nothing is lost by doing nothing. -/
theorem refl (workspace : Workspace) : Advances context workspace workspace := fun consistent =>
  ⟨consistent, .refl workspace⟩

/-- Advances follow each other. -/
theorem trans {middle : Workspace} (earlier : Advances context first middle)
    (later : Advances context middle last) : Advances context first last := fun consistent =>
  have ⟨between, before⟩ := earlier consistent
  have ⟨after, behind⟩ := later between
  ⟨after, before.trans behind⟩

end Advances

/-- Notes change nothing that is declared. -/
theorem Workspace.Notes.advances (notes : first.Notes last) : Advances context first last := by
  intro consistent
  obtain ⟨resolver, registry, diagnostics⟩ := first
  obtain ⟨lastResolver, lastRegistry, lastDiagnostics⟩ := last
  obtain ⟨sameResolver, sameRegistry, before, _⟩ := notes
  cases sameResolver
  cases sameRegistry
  exact ⟨⟨consistent.emitted_eq, consistent.schemas_eq, consistent.components_eq,
    consistent.wellFormed, consistent.taken, consistent.of_component, consistent.of_inline,
    consistent.registered, consistent.of_state, consistent.of_enum⟩,
    ⟨fun _ => rfl, fun pending => by simp [pending], id, List.prefix_rfl, before⟩⟩

/-- A registered shape keeps what was declared before. -/
theorem Workspace.Registers.advances {shape : Shape} {name : String}
    (registers : first.Registers shape name last) : Advances context first last := by
  intro consistent
  obtain ⟨candidate, doc, deprecated, path, isRegistered, isLast⟩ := registers
  rw [isLast]
  have registry : last.registry =
      (first.registry.register candidate shape doc deprecated (.inline path)).2 := by
    rw [isRegistered]
  rw [registry]
  exact consistent.register candidate shape doc deprecated path

/-- The name of a case keeps what was declared before. -/
theorem Workspace.NamesCase.advances {type : TypeExpr} {name : String}
    (named : first.NamesCase type name last) : Advances context first last := by
  cases named with
  | named => exact .refl _
  | declared _ registers => exact registers.advances

/-- An entry is a run. -/
theorem Entry.runs {target : String} (entry : Entry context expanding target first last)
    (consistent : Consistent context first) : Runs context first last := by
  cases entry with
  | skip => exact .refl _
  | @component _ _ found pending active started _ ends =>
    have sound := Synthesis.sound_within context (!expanding.isEmpty) (target :: active) expanding
    have inside := (Synthesis.keeps_shapeWithin sound _ _ _ _ _ (consistent.begin found pending)
      (Synthesis.started_begin started) (by simp) ends).1
    exact .component (.refl _) found pending _ started ends inside

/-- An entry keeps what was declared before. -/
theorem Entry.advances {target : String} (entry : Entry context expanding target first last) :
    Advances context first last := fun consistent =>
  (entry.runs consistent).consistent consistent

/-- A task that yields a value keeps what was declared before. -/
theorem Yields.advances {task : Task} {value : Value}
    (yields : Yields context expanding first task value last) : Advances context first last := by
  induction yields with
  | constant | contributeRestriction | contributeChoice | expandAtomic | expandRestriction
  | schemaChoice | fieldsNil | casesNil | mappingNil | membersNil | take => exact .refl _
  | array _ _ ih | map _ ih | use _ ih | promoteAlias _ _ ih | contributeType _ _ ih
  | contributeMap _ ih | contributeRecord _ ih | expandRecord _ ih | expandIntersection _ ih
  | schema _ _ _ _ _ ih | recordClosed _ ih | casesNull _ _ ih | intersectionReference _ _ _ ih
  | takeSchema _ _ _ ih => exact ih
  | promote _ _ _ registers _ _ ih => exact ih.trans registers.advances
  | declarePlain _ notes _ ih | declareRecord _ notes _ ih | declareIntersection notes _ ih
  | declareChoice _ notes _ _ ih => exact notes.advances.trans ih
  | declareEnum notes => exact notes.advances
  | declareDiscriminated _ notes _ _ _ ih laterIh =>
    exact notes.advances.trans (ih.trans laterIh)
  | contributeIntersection _ _ ih laterIh | expandReference _ _ ih laterIh
  | fieldsCons _ _ ih laterIh | recordOpen _ _ ih laterIh | mappingCons _ _ _ ih laterIh
  | membersOther _ _ _ ih laterIh => exact ih.trans laterIh
  | reference _ _ entry => exact entry.advances
  | casesCons _ _ named _ ih laterIh => exact ih.trans (named.advances.trans laterIh)
  | membersReference _ _ _ ih insideIh laterIh => exact ih.trans (insideIh.trans laterIh)
  | intersectionMembers _ _ _ notes ih => exact ih.trans notes.advances

/-- A task that fails keeps what was declared before. -/
theorem Fails.advances {task : Task} {failure : Failure}
    (fails : Fails context expanding first task failure last) : Advances context first last := by
  induction fails with
  | limit | schemaCyclic | schemaUndefined | referenceUndefined | intersectionChoice => exact .refl _
  | array _ _ ih | map _ ih | use _ ih | promote _ _ ih | contributeType _ _ ih
  | contributeMap _ ih | contributeRecord _ ih | contributeIntersection _ ih | expandRecord _ ih
  | expandReference _ ih | expandIntersection _ ih | schema _ _ _ _ _ ih | fieldsHead _ ih
  | recordFields _ ih | casesNull _ _ ih | casesHead _ _ ih | mappingHead _ ih
  | membersReference _ ih | membersContribute _ _ ih | intersectionReference _ _ _ ih
  | intersectionMembers _ _ ih | takeSchema _ _ _ ih => exact ih
  | declarePlain _ notes _ ih | declareRecord _ notes _ ih | declareIntersection notes _ ih
  | declareCases _ notes _ ih => exact notes.advances.trans ih
  | declareMapping _ notes inside _ ih => exact notes.advances.trans (inside.advances.trans ih)
  | declareEmpty _ notes inside maps =>
    refine notes.advances.trans (inside.advances.trans ?_)
    rcases maps with rfl | ⟨_, _, _, maps⟩
    · exact .refl _
    · exact maps.advances
  | contributeTake inside _ ih | expandSchema inside _ ih | fieldsTail inside _ ih
  | recordFurther inside _ ih | mappingTail inside _ _ ih | membersSchema inside _ ih
  | membersOtherTail _ inside _ ih => exact inside.advances.trans ih
  | referenceFailed _ entry => exact entry.advances
  | casesTail _ inside named _ ih => exact inside.advances.trans (named.advances.trans ih)
  | membersReferenceTail looked inside _ ih =>
    exact looked.advances.trans (inside.advances.trans ih)
  | intersectionMerge _ inside => exact inside.advances

end ApiTypes
