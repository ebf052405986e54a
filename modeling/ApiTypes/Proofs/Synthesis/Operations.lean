import ApiTypes.Proofs.Lowering
import ApiTypes.Proofs.Synthesis.Knowledge
import ApiTypes.Synthesis

/-!
Binding operations: each binding is a run, and whatever it mentions is known. An operation that fails is
left out with one diagnostic.
-/

namespace ApiTypes

/-- Harmless diagnostics may be added in a run. -/
theorem runs_append {context : Context} (workspace : Workspace) {diagnostics : List Diagnostic}
    (harmless : ∀ diagnostic ∈ diagnostics, diagnostic.isError = false) :
    Runs context workspace
      { workspace with diagnostics := workspace.diagnostics ++ diagnostics } := by
  induction diagnostics generalizing workspace with
  | nil =>
    rw [List.append_nil]
    exact .refl workspace
  | cons diagnostic rest ih =>
    have ⟨first, later⟩ := List.forall_mem_cons.mp harmless
    have isHarmless : diagnostic.cause.severity ≠ .error := by
      simpa [Diagnostic.isError] using first
    have reported : Runs context workspace
        (workspace.report diagnostic.path diagnostic.cause) :=
      .report (.refl workspace) _ _ isHarmless
    simpa [Workspace.report] using reported.trans (ih _ later)

namespace Keeps

variable {α : Type} {context : Context} {active given : List String}

/-- Following a part of the components changes nothing. -/
theorem lift (found : Except LocatedFailure α) :
    Keeps context active given (liftM found : Synthesis α) fun _ => [] := by
  intro first last result consistent started known ends
  have isLast : (liftM found : Synthesis α).outcome first = (found, first) := by
    cases found <;> rfl
  obtain ⟨_, rfl⟩ := (Synthesis.ends_iff_of_outcome isLast).mp ends
  exact ⟨.refl _, fun _ _ _ isMember => absurd isMember List.not_mem_nil⟩

/-- Adding harmless diagnostics changes nothing else. -/
theorem append {diagnostics : List Diagnostic}
    (harmless : ∀ diagnostic ∈ diagnostics, diagnostic.isError = false) :
    Keeps context active given (modify fun workspace =>
      { workspace with diagnostics := workspace.diagnostics ++ diagnostics } : Synthesis PUnit)
      fun _ => [] := by
  intro first last result consistent started known ends
  obtain ⟨_, rfl⟩ := (Synthesis.ends_modify_iff _).mp ends
  exact ⟨runs_append first harmless, fun _ _ _ isMember => absurd isMember List.not_mem_nil⟩

end Keeps

namespace Synthesis

variable {context : Context} {given : List String}

/-- A node that belongs to no component schema stands in sound surroundings. -/
theorem sound_surroundings (context : Context) : (surroundings context).Sound context [] :=
  sound_within context false [] []

/-- The type of a schema of an operation mentions names that are known. -/
theorem keeps_schemaType (schema : Schema) (candidate path : String) :
    Keeps context [] given (schemaType context schema candidate path) TypeExpr.mentions := by
  unfold schemaType
  have harmless : ∀ diagnostic ∈ (schema.lower context.model.version path).collect.2,
      diagnostic.isError = false := fun diagnostic isReported =>
    Diagnostic.isError_of_isOfLowering ((schema.preliminary_lower _ path).collect diagnostic isReported)
  refine (Keeps.append harmless).bind fun _ => ?_
  exact (((sound_surroundings context).walkSound _).expression _ _).weaken

/-- The type of a body mentions names that are known. -/
theorem keeps_mediaType (media : MediaType) (mediaName candidate path : String) :
    Keeps context [] given (mediaType context media mediaName candidate path)
      TypeExpr.mentions := by
  unfold mediaType
  split
  · exact Keeps.pure (by simp [TypeExpr.any, TypeExpr.mentions])
  · exact keeps_schemaType _ _ _

/-- The types of parameters mention names that are known. -/
theorem keeps_bindParameters (base : String) (parameters : List (Placed Parameter)) :
    Keeps context [] given (bindParameters context base parameters) fun bindings =>
      bindings.flatMap fun binding => binding.type.mentions := by
  induction parameters generalizing given with
  | nil => exact Keeps.pure (by simp)
  | cons parameter rest ih =>
    obtain ⟨parameter, path⟩ := parameter
    simp only [bindParameters]
    split
    · have untyped : Keeps context [] given (pure .any : Synthesis TypeExpr) TypeExpr.mentions :=
        Keeps.pure (by simp [TypeExpr.any, TypeExpr.mentions])
      exact untyped.bind fun type => ih.bind fun bindings => Keeps.pure (by simp)
    · refine (keeps_schemaType _ _ _).bind fun type => ?_
      exact ih.bind fun bindings => Keeps.pure (by simp)

/-- The type of the body of a request mentions names that are known. -/
theorem keeps_bindBody (components : Components) (entry : Referable RequestBody)
    (base path : String) :
    Keeps context [] given (bindBody context components entry base path) fun binding =>
      (binding.map fun body => body.type.mentions).getD [] := by
  unfold bindBody
  refine (Keeps.lift _).bind fun body => ?_
  split
  · exact Keeps.pure (by simp)
  · exact (keeps_mediaType _ _ _ _).bind fun type => Keeps.pure (by simp)

/-- The types of responses mention names that are known. -/
theorem keeps_bindResponses (components : Components) (base path : String)
    (responses : List (String × Referable Response)) (successSeen : Bool) :
    Keeps context [] given (bindResponses context components base path responses successSeen)
      fun bindings => bindings.flatMap fun binding =>
        (binding.type.map TypeExpr.mentions).getD [] := by
  induction responses generalizing given successSeen with
  | nil => exact Keeps.pure (by simp)
  | cons entry rest ih =>
    obtain ⟨status, entry⟩ := entry
    simp only [bindResponses]
    refine (Keeps.lift _).bind fun response => ?_
    refine (Keeps.mapM fun preferred _ => keeps_mediaType _ _ _ _).bind fun type => ?_
    refine (ih _).bind fun bindings => Keeps.pure ?_
    simp

/-- A bound operation mentions names that are known. -/
theorem keeps_bindOperation (components : Components) (method : Method) (path : String)
    (item : PathItem) (operation : Operation) :
    Keeps context [] [] (bindOperation context components method path item operation)
      OperationBinding.mentions := by
  unfold bindOperation
  refine (Keeps.lift _).bind fun shared => (Keeps.lift _).bind fun own => ?_
  refine (keeps_bindParameters _ _).bind fun parameters => ?_
  -- Whatever the body is, the responses are bound last.
  have finished : ∀ {given} (requestBody : Option BodyBinding) (name : CasedName) (place : String),
      (parameters.flatMap fun binding => binding.type.mentions) ⊆ given →
      Keeps context [] ((requestBody.map fun body => body.type.mentions).getD [] ++ given) (do
        let responses ←
          bindResponses context components name.pascal place operation.responses.entries false
        return {
          name, method, path, parameters, requestBody, responses
          deprecated := operation.deprecated.getD false }) OperationBinding.mentions := by
    intro given requestBody name place included
    refine (keeps_bindResponses _ _ _ _ _).bind fun responses => Keeps.pure ?_
    intro mentioned isMentioned
    simp only [OperationBinding.mentions, List.mem_append] at isMentioned ⊢
    rcases isMentioned with (inParameters | inBody) | inResponses
    · exact .inr (.inr (included inParameters))
    · exact .inr (.inl inBody)
    · exact .inl inResponses
  have covered : (parameters.flatMap fun binding => binding.type.mentions) ⊆
      parameters.flatMap (fun binding => binding.type.mentions) ++ ([] ++ ([] ++ [])) :=
    List.subset_append_left _ _
  split
  · have absent : Keeps context []
        (parameters.flatMap (fun binding => binding.type.mentions) ++ ([] ++ ([] ++ [])))
        (pure none : Synthesis (Option BodyBinding))
        fun binding => (binding.map fun body => body.type.mentions).getD [] := Keeps.pure (by simp)
    exact absent.bind fun requestBody => finished requestBody _ _ covered
  · exact (keeps_bindBody _ _ _ _).bind fun requestBody => finished requestBody _ _ covered

end Synthesis

end ApiTypes
