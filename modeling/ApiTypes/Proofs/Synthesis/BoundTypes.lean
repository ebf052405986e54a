import ApiTypes.Proofs.Arrays
import ApiTypes.Proofs.Synthesis.Accounting

/-!
Types in bindings. Whatever holds of all types that are found for schemas, and of the type of what has
no schema, holds of the types of every operation that is bound.
-/

namespace ApiTypes

variable {α β : Type}

/-- The types in what an action gives have a property. -/
def Finds (context : Context) (holds : TypeExpr → Prop) (types : α → List TypeExpr)
    (action : Synthesis α) : Prop :=
  ∀ first value last, Consistent context first → action.Ends first (.ok value) last →
    Consistent context last ∧ ∀ type ∈ types value, holds type

namespace Finds

variable {context : Context} {holds : TypeExpr → Prop} {types : α → List TypeExpr}

/-- A value may be given if its types have the property. -/
theorem pure {value : α} (has : ∀ type ∈ types value, holds type) :
    Finds context holds types (pure value) := by
  intro first other last consistent ends
  obtain ⟨isValue, rfl⟩ := (Synthesis.ends_pure_iff value).mp ends
  cases isValue
  exact ⟨consistent, has⟩

/-- Actions follow each other, the second with a value whose types have the property. -/
theorem bind {action : Synthesis α} {next : α → Synthesis β} {found : β → List TypeExpr}
    (earlier : Finds context holds types action)
    (later : ∀ value, (∀ type ∈ types value, holds type) → Finds context holds found (next value)) :
    Finds context holds found (action >>= next) := by
  intro first value last consistent ends
  obtain ⟨between, middle, isFirst, isLater⟩ := (Synthesis.ends_bind_ok_iff _ _ _).mp ends
  have ⟨after, has⟩ := earlier _ _ _ consistent isFirst
  exact later between has _ _ _ after isLater

/-- Following a part of the components finds no types. -/
theorem lift (found : Except LocatedFailure α) :
    Finds context holds (fun _ => []) (liftM found : Synthesis α) := by
  intro first value last consistent ends
  have isLast : (liftM found : Synthesis α).outcome first = (found, first) := by
    cases found <;> rfl
  obtain ⟨_, rfl⟩ := (Synthesis.ends_iff_of_outcome isLast).mp ends
  exact ⟨consistent, by simp⟩

end Finds

namespace Synthesis

variable {context : Context} {holds : TypeExpr → Prop} (untyped : holds .any)
  (typed : ∀ schema candidate path,
    Finds context holds (fun type => [type]) (schemaType context schema candidate path))

include untyped typed

/-- The type of a body has the property. -/
theorem finds_mediaType (media : MediaType) (mediaName candidate path : String) :
    Finds context holds (fun type => [type]) (mediaType context media mediaName candidate path) := by
  unfold mediaType
  split
  · exact .pure (by simpa using untyped)
  · exact typed _ _ _

/-- So have the types of parameters. -/
theorem finds_bindParameters (base : String) (parameters : List (Placed Parameter)) :
    Finds context holds (fun bindings => bindings.map ParameterBinding.type)
      (bindParameters context base parameters) := by
  induction parameters with
  | nil => exact .pure (by simp)
  | cons placed rest ih =>
    obtain ⟨parameter, path⟩ := placed
    have found : ∀ action : Synthesis TypeExpr, Finds context holds (fun type => [type]) action →
        Finds context holds (fun bindings => bindings.map ParameterBinding.type) (do
          let type ← action
          let binding : ParameterBinding :=
            { name := CasedName.of parameter.name, type, location := parameter.location
              required := parameter.required, description := parameter.description }
          return binding :: (← bindParameters context base rest)) := fun action finds =>
      finds.bind fun type has => ih.bind fun bindings others =>
        .pure (by simpa using ⟨has type (by simp), by simpa using others⟩)
    simp only [bindParameters]
    split
    · exact found _ (.pure (by simpa using untyped))
    · exact found _ (typed _ _ _)

/-- So has the type of the body of a request. -/
theorem finds_bindBody (components : Components) (entry : Referable RequestBody)
    (base path : String) :
    Finds context holds (fun binding => (binding.map BodyBinding.type).toList)
      (bindBody context components entry base path) := by
  unfold bindBody
  refine (Finds.lift _).bind fun body _ => ?_
  split
  · exact .pure (by simp)
  · exact (finds_mediaType untyped typed _ _ _ _).bind fun type has => .pure (by simpa using has)

/-- So have the types of responses. -/
theorem finds_bindResponses (components : Components) (base path : String)
    (responses : List (String × Referable Response)) (successSeen : Bool) :
    Finds context holds (fun bindings => bindings.filterMap ResponseBinding.type)
      (bindResponses context components base path responses successSeen) := by
  induction responses generalizing successSeen with
  | nil => exact .pure (by simp)
  | cons entry rest ih =>
    obtain ⟨status, entry⟩ := entry
    simp only [bindResponses]
    refine (Finds.lift _).bind fun response _ => ?_
    have found : ∀ (candidate place : String) (preferred : Option (String × MediaType)),
        Finds context holds Option.toList (preferred.mapM fun entry =>
          mediaType context entry.2 entry.1 candidate place) := by
      intro candidate place preferred
      cases preferred with
      | none => exact .pure (by simp)
      | some preferred =>
        rw [Option.mapM_some, map_eq_pure_bind]
        exact (finds_mediaType untyped typed _ _ _ _).bind fun type has => .pure (by simpa using has)
    refine (found _ _ _).bind fun type has => (ih _).bind fun bindings others => .pure ?_
    cases type with
    | none => simpa using others
    | some type => exact List.forall_mem_cons.mpr ⟨has type (by simp), others⟩

/-- The types of an operation have the property. -/
theorem finds_bindOperation (components : Components) (method : Method) (path : String)
    (item : PathItem) (operation : Operation) :
    Finds context holds OperationBinding.types
      (bindOperation context components method path item operation) := by
  unfold bindOperation
  refine (Finds.lift _).bind fun shared _ => (Finds.lift _).bind fun own _ => ?_
  refine (finds_bindParameters untyped typed _ _).bind fun parameters inParameters => ?_
  -- Whatever the body is, the responses are bound last.
  have finished : ∀ (requestBody : Option BodyBinding) (name : CasedName) (place : String),
      (∀ type ∈ (requestBody.map BodyBinding.type).toList, holds type) →
      Finds context holds OperationBinding.types (do
        let responses ←
          bindResponses context components name.pascal place operation.responses.entries false
        return {
          name, method, path, parameters, requestBody, responses
          deprecated := operation.deprecated.getD false }) := by
    intro requestBody name place inBody
    refine (finds_bindResponses untyped typed _ _ _ _ _).bind fun responses inResponses => .pure ?_
    exact List.forall_mem_append.mpr ⟨List.forall_mem_append.mpr ⟨inParameters, inBody⟩, inResponses⟩
  split
  · exact finished none _ _ (by simp)
  · exact (finds_bindBody untyped typed _ _ _ _).bind fun requestBody inBody =>
      finished requestBody _ _ inBody

/-- The types of all operations of a path have the property. -/
theorem types_bindItem (components : Components) (path : String) (item : PathItem)
    (operations : List (Method × Operation)) {first : Workspace} (consistent : Consistent context first) :
    Consistent context ((bindItem context components path item operations).run first).2 ∧
      ∀ binding ∈ ((bindItem context components path item operations).run first).1,
        ∀ type ∈ binding.types, holds type := by
  induction operations generalizing first with
  | nil => exact ⟨consistent, nofun⟩
  | cons entry rest ih =>
    obtain ⟨method, operation⟩ := entry
    obtain ⟨result, middle, ends⟩ :=
      (bindOperation context components method path item operation).exists_ends first
    -- A failed operation has no binding, but has changed the workspace.
    cases result with
    | ok binding =>
      have ⟨after, has⟩ := finds_bindOperation untyped typed components method path item operation _ _ _
        consistent ends
      have ⟨last, others⟩ := ih after
      rw [run_bindItem_ok ends]
      exact ⟨last, List.forall_mem_cons.mpr ⟨has, others⟩⟩
    | error located =>
      have ⟨runs, _⟩ := keeps_bindOperation components method path item operation _ _ _ consistent
        (by simp) (by simp) ends
      rw [run_bindItem_error ends]
      exact ih ((runs.consistent consistent).1.report located.path (.failed located.failure)).1

/-- The types of all operations have the property. -/
theorem types_bindPaths (components : Components) (paths : List (String × PathItem))
    {first : Workspace} (consistent : Consistent context first) :
    ∀ binding ∈ ((bindPaths context components paths).run first).1,
      ∀ type ∈ binding.types, holds type := by
  induction paths generalizing first with
  | nil => exact nofun
  | cons entry rest ih =>
    have ⟨after, here⟩ :=
      types_bindItem untyped typed components entry.1 entry.2 entry.2.operations consistent
    exact List.forall_mem_append.mpr ⟨here, ih after⟩

end Synthesis

end ApiTypes
