import ApiTypes.Proofs.Synthesis.Accounting
import ApiTypes.Proofs.Synthesis.Bindings
import ApiTypes.Proofs.Synthesis.Maintenance

/-!
Properties of actions that binding an operation has because finding the types of schemas has them, and
properties of workspaces that binding all operations keeps because each single one does.
-/

namespace ApiTypes

/-- A pointer stands in the paths of a document. -/
def Pointer.InPaths (path : String) : Prop := ∃ rest, path = "#/paths/" ++ rest

/-- Whatever is added to it, a pointer stays in the paths. -/
theorem Pointer.InPaths.append {path : String} (inPaths : InPaths path) (suffix : String) :
    InPaths (path ++ suffix) := by
  obtain ⟨rest, rfl⟩ := inPaths
  exact ⟨rest ++ suffix, String.append_assoc⟩

namespace Synthesis

/--
A property of actions that every step has of which binding an operation consists, if something is known
of the schemas that are written for it.
-/
structure BindingTraversal (context : Context) (known : Schema → Prop)
    (holds : ⦃α : Type⦄ → Synthesis α → Prop) : Prop where
  pure : ∀ {α : Type} (value : α), holds (pure value : Synthesis α)
  bind : ∀ {α β : Type} {action : Synthesis α} {next : α → Synthesis β}, holds action →
    (∀ value, holds (next value)) → holds (action >>= next)
  found : ∀ {α : Type} (found : Except LocatedFailure α), holds (liftM found : Synthesis α)
  schemaType : ∀ {schema : Schema} (candidate : String) {path : String}, known schema →
    Pointer.InPaths path → holds (schemaType context schema candidate path)

namespace BindingTraversal

variable {context : Context} {components : Components} {α β : Type} {known : Schema → Prop}
  {holds : ⦃α : Type⦄ → Synthesis α → Prop} (traversal : BindingTraversal context known holds)

include traversal

/-- What an action gives may be transformed. -/
theorem map {action : Synthesis α} (acts : holds action) (transform : α → β) :
    holds (do return transform (← action)) :=
  traversal.bind acts fun _ => traversal.pure _

/-- Finding the type of a body has the property. -/
theorem mediaType {media : MediaType} (written : ∀ schema ∈ media.schema, known schema)
    (mediaName candidate : String) {path : String} (inPaths : Pointer.InPaths path) :
    holds (Synthesis.mediaType context media mediaName candidate path) := by
  unfold Synthesis.mediaType
  split
  · exact traversal.pure _
  · rename_i schema isSchema
    exact traversal.schemaType _ (written schema isSchema) (((inPaths.append _).append _).append _)

/-- Binding parameters has the property. -/
theorem bindParameters (base : String) {parameters : List (Placed Parameter)}
    (written : ∀ placed ∈ parameters, ∀ schema ∈ placed.value.writtenSchemas, known schema)
    (inPaths : ∀ placed ∈ parameters, Pointer.InPaths placed.path) :
    holds (Synthesis.bindParameters context base parameters) := by
  induction parameters with
  | nil => exact traversal.pure _
  | cons placed rest ih =>
    have ⟨first, later⟩ := List.forall_mem_cons.mp inPaths
    have ⟨firstWritten, laterWritten⟩ := List.forall_mem_cons.mp written
    obtain ⟨parameter, path⟩ := placed
    simp only [Synthesis.bindParameters]
    split
    · exact traversal.bind (traversal.pure _) fun _ => traversal.map (ih laterWritten later) _
    · rename_i isTyped
      have isKnown := firstWritten _ (Parameter.mem_writtenSchemas isTyped)
      exact traversal.bind (traversal.schemaType _ isKnown ((first.append _).append _)) fun _ =>
        traversal.map (ih laterWritten later) _

/-- What is done with something that may be found in the components has the property if that has it. -/
theorem onFound {found : Except LocatedFailure α} {next : α → Synthesis β}
    (later : ∀ value, found = .ok value → holds (next value)) : holds (liftM found >>= next) := by
  cases found with
  | error located => exact traversal.found (.error located)
  | ok value => exact later value rfl

section

variable (inComponents : ∀ schema ∈ components.writtenSchemas, known schema)

include inComponents

/-- Binding the body of a request has the property. -/
theorem bindBody {entry : Referable RequestBody}
    (written : ∀ schema ∈ entry.writtenSchemas RequestBody.writtenSchemas, known schema)
    (base : String) {path : String} (inPaths : Pointer.InPaths path) :
    holds (Synthesis.bindBody context components entry base path) := by
  have ⟨_, _, _, bodies⟩ := Components.forall_writtenSchemas_iff.mp inComponents
  unfold Synthesis.bindBody
  refine traversal.onFound fun body isFound => ?_
  have bodyWritten : ∀ schema ∈ body.writtenSchemas, known schema :=
    Referable.holds_of_followWithin bodies (Referable.forall_writtenSchemas_iff.mp written) isFound
  split
  · exact traversal.pure _
  · rename_i isPreferred
    refine traversal.map (traversal.mediaType (fun schema isSchema => ?_) _ _ inPaths) _
    exact bodyWritten schema (Content.mem_writtenSchemas isPreferred isSchema)

/-- Binding responses has the property. -/
theorem bindResponses (base : String) {path : String} (inPaths : Pointer.InPaths path)
    {responses : List (String × Referable Response)}
    (written : ∀ entry ∈ responses, ∀ schema ∈ entry.2.writtenSchemas Response.writtenSchemas,
      known schema) (successSeen : Bool) :
    holds (Synthesis.bindResponses context components base path responses successSeen) := by
  have ⟨_, inTable, _, _⟩ := Components.forall_writtenSchemas_iff.mp inComponents
  induction responses generalizing successSeen with
  | nil => exact traversal.pure _
  | cons entry rest ih =>
    have ⟨first, later⟩ := List.forall_mem_cons.mp written
    obtain ⟨status, entry⟩ := entry
    simp only [Synthesis.bindResponses]
    refine traversal.onFound fun response isFound => ?_
    have responseWritten : ∀ schema ∈ response.writtenSchemas, known schema :=
      Referable.holds_of_followWithin inTable (Referable.forall_writtenSchemas_iff.mp first) isFound
    -- A response without content has no type to synthesize.
    cases isPreferred : response.content.preferred? with
    | none => exact traversal.bind (traversal.pure none) fun type => traversal.map (ih later _) _
    | some preferred =>
      rw [Option.mapM_some, map_eq_pure_bind]
      refine traversal.bind (traversal.map (traversal.mediaType (fun schema isSchema => ?_) _ _ ?_) _)
        fun type => traversal.map (ih later _) _
      · exact responseWritten schema (Content.mem_writtenSchemas isPreferred isSchema)
      · exact (inPaths.append _).append _

end

omit traversal in
/-- Parameters stand below the list in which they are written. -/
theorem inPaths_of_followParameters {table : Table (Referable Parameter)} {path : String}
    (inPaths : Pointer.InPaths path) {entries : List (Referable Parameter)} {index : Nat}
    {found : List (Placed Parameter)}
    (follows : followParameters table path entries index = .ok found) :
    ∀ placed ∈ found, Pointer.InPaths placed.path := by
  induction entries generalizing index found with
  | nil =>
    cases follows
    simp
  | cons entry rest ih =>
    obtain ⟨value, others, _, isLater, rfl⟩ := of_followParameters_cons follows
    exact List.forall_mem_cons.mpr ⟨(inPaths.append _).append _, ih isLater⟩

/-- Binding an operation has the property. -/
theorem bindOperation (inComponents : ∀ schema ∈ components.writtenSchemas, known schema)
    (method : Method) (path : String) {item : PathItem} {operation : Operation}
    (shared : ∀ part ∈ item.parameters, ∀ schema ∈ part.writtenSchemas Parameter.writtenSchemas,
      known schema)
    (own : ∀ schema ∈ operation.writtenSchemas, known schema) :
    holds (Synthesis.bindOperation context components method path item operation) := by
  have inPaths : Pointer.InPaths ("#/paths/" ++ Pointer.escape path) := ⟨_, rfl⟩
  have ⟨_, _, inTable, _⟩ := Components.forall_writtenSchemas_iff.mp inComponents
  have ⟨ownParameters, ownBody, ownResponses⟩ := Operation.forall_writtenSchemas_iff.mp own
  unfold Synthesis.bindOperation
  -- The parameters of the operation stand below it, and those that it shares below its path.
  refine traversal.onFound fun inherited isShared => traversal.onFound fun listed isOwn => ?_
  have placed : ∀ placed ∈ effective (inherited ++ listed), Pointer.InPaths placed.path ∧
      ∀ schema ∈ placed.value.writtenSchemas, known schema := by
    intro placed isEffective
    rcases List.mem_append.mp (effective_subset _ isEffective) with inItem | inOperation
    · exact ⟨inPaths_of_followParameters inPaths isShared placed inItem,
        holds_of_followParameters inTable
          (fun part isPart => Referable.forall_writtenSchemas_iff.mp (shared part isPart)) isShared
          placed inItem⟩
    · exact ⟨inPaths_of_followParameters ((inPaths.append _).append _) isOwn placed inOperation,
        holds_of_followParameters inTable
          (fun part isPart => Referable.forall_writtenSchemas_iff.mp (ownParameters part isPart)) isOwn
          placed inOperation⟩
  refine traversal.bind (traversal.bindParameters _ (fun entry isEntry => (placed entry isEntry).2)
    fun entry isEntry => (placed entry isEntry).1) fun parameters => ?_
  have place := (inPaths.append "/").append method.key
  have responses := traversal.bindResponses inComponents
    (CasedName.of (operationName context.config.naming method path operation)).pascal place
    (fun entry isEntry => ownResponses entry.2 (List.mem_map_of_mem isEntry)) false
  split
  · exact traversal.bind (traversal.pure _) fun _ => traversal.map responses _
  · rename_i entry isBody
    refine traversal.bind ?_ fun _ => traversal.map responses _
    exact traversal.bindBody inComponents (ownBody entry isBody) _ (place.append _)

end BindingTraversal

/-- An invariant is maintained by bindings if lowering and walks outside of schemas maintain it. -/
theorem bindingTraversal_maintains {context : Context} {invariant : Workspace → Prop}
    {known : Schema → Prop}
    (lowers : ∀ {workspace : Workspace} {diagnostics : List Diagnostic},
      (∀ diagnostic ∈ diagnostics, diagnostic.cause.isOfLowering = true) → invariant workspace →
        invariant { workspace with diagnostics := workspace.diagnostics ++ diagnostics })
    (walks : ∀ {schema : Schema} (scope : Scope), known schema → Pointer.InPaths scope.path →
      Maintains context [] invariant (fun _ _ => True) (((surroundings context).walk
        (schema.lower context.model.version scope.path).collect.1).expression scope 0)) :
    BindingTraversal context known (Maintains context [] invariant fun _ _ => True) where
  pure := .pure
  bind := MaintainsGiven.bind
  found found := by
    intro first last result consistent started _ holds ends
    -- Whatever is found, the workspace is not touched.
    have isLast : (liftM found : Synthesis _).outcome first = (found, first) := by
      cases found <;> rfl
    obtain ⟨_, rfl⟩ := (ends_iff_of_outcome isLast).mp ends
    exact ⟨consistent, .refl _, holds, fun _ _ => trivial⟩
  schemaType {schema} candidate path isKnown inPaths := by
    refine MaintainsGiven.bind ?_ fun _ => walks ⟨candidate, path⟩ isKnown inPaths
    intro first last result consistent started _ holds ends
    have ofLowering := (schema.preliminary_lower context.model.version path).collect
    obtain ⟨_, rfl⟩ := (ends_modify_iff _).mp ends
    have ⟨after, grows⟩ := (runs_append first fun diagnostic isReported =>
      Diagnostic.isError_of_isOfLowering (ofLowering diagnostic isReported)).consistent consistent
    exact ⟨after, grows, lowers ofLowering holds, fun _ _ => trivial⟩

variable {context : Context} {components : Components} (property : Workspace → Prop)

/-- What each single operation preserves, bound or reported, holds after those of a path. -/
theorem bindItem_preserves {path : String} {item : PathItem} {operations : List (Method × Operation)}
    (binds : ∀ {first result last}, ∀ entry ∈ operations, property first →
      (bindOperation context components entry.1 path item entry.2).Ends first result last →
        property last)
    (reports : ∀ {first} located, property first → property (first.reportFailure located))
    {first : Workspace} (holds : property first) :
    property ((bindItem context components path item operations).run first).2 := by
  induction operations generalizing first with
  | nil => exact holds
  | cons operation rest ih =>
    have goesOn {middle : Workspace} (held : property middle) :
        property ((bindItem context components path item rest).run middle).2 :=
      ih (fun entry isLater => binds entry (List.mem_cons_of_mem _ isLater)) held
    obtain ⟨method, operation⟩ := operation
    obtain ⟨result, middle, ends⟩ :=
      (bindOperation context components method path item operation).exists_ends first
    -- The operation may fail, but what it has done stays.
    have bound := binds _ List.mem_cons_self holds ends
    cases result with
    | ok binding =>
      rw [run_bindItem_ok ends]
      exact goesOn bound
    | error located =>
      rw [run_bindItem_error ends]
      exact goesOn (reports located bound)

/-- What each single operation preserves, bound or reported, holds after all of them. -/
theorem bindPaths_preserves {paths : List (String × PathItem)}
    (binds : ∀ {first result last}, ∀ path ∈ paths, ∀ entry ∈ path.2.operations, property first →
      (bindOperation context components entry.1 path.1 path.2 entry.2).Ends first result last →
        property last)
    (reports : ∀ {first} located, property first → property (first.reportFailure located))
    {first : Workspace} (holds : property first) :
    property ((bindPaths context components paths).run first).2 := by
  induction paths generalizing first with
  | nil => exact holds
  | cons path rest ih =>
    refine ih (fun path isLater => binds path (List.mem_cons_of_mem _ isLater)) ?_
    exact bindItem_preserves property (binds path List.mem_cons_self) reports holds

omit property in
/-- What bindings maintain and no report breaks holds after the operations of all paths. -/
theorem bindPaths_maintains {invariant : Workspace → Prop} {known : Schema → Prop}
    (traversal : BindingTraversal context known (Maintains context [] invariant fun _ _ => True))
    (reports : ∀ {first} located, invariant first → invariant (first.reportFailure located))
    (inComponents : ∀ schema ∈ components.writtenSchemas, known schema)
    {paths : List (String × PathItem)}
    (written : ∀ path ∈ paths, ∀ schema ∈ path.2.writtenSchemas, known schema) {first : Workspace}
    (consistent : Consistent context first) (holds : invariant first) :
    Grows first ((bindPaths context components paths).run first).2 ∧
      invariant ((bindPaths context components paths).run first).2 := by
  refine (bindPaths_preserves (fun workspace => Consistent context workspace ∧
      Grows first workspace ∧ invariant workspace) (fun path isPath entry isEntry held ends => ?_)
    (fun located held => ?_) ⟨consistent, .refl _, holds⟩).2
  · have ⟨shared, own⟩ := List.forall_mem_append.mp (written path isPath)
    have ⟨after, grows, kept, _⟩ := traversal.bindOperation inComponents entry.1 path.1
      (List.forall_mem_flatMap.mp shared) (List.forall_mem_flatMap.mp own entry isEntry) _ _ _ held.1
      (by simp [Started]) trivial held.2.2 ends
    exact ⟨after, held.2.1.trans grows, kept⟩
  · have ⟨after, grows⟩ := held.1.report located.path (.failed located.failure)
    exact ⟨after, held.2.1.trans grows, reports located held.2.2⟩

end Synthesis

end ApiTypes
