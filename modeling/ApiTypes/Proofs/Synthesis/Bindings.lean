import ApiTypes.Proofs.DocumentSchemas
import ApiTypes.Proofs.Synthesis.Agreement
import ApiTypes.Synthesis

/-!
Bindings depend on schemas through their types alone. If the schemas of operations are transformed
without a change of their types, then the operations are bound in the same way.
-/

namespace ApiTypes

namespace Referable

variable {α : Type} {kind : String} {table : Table (Referable α)}

/-- What a reference leads to is transformed if everything it may lead to is. -/
theorem followWithin_map {β : Type} (transform : α → β) (path : String) (steps : Nat)
    (start : Referable α) :
    (start.map transform).followWithin kind (table.map (Referable.map transform)) path steps =
      (start.followWithin kind table path steps).map transform := by
  -- The pointer that is followed does not depend on what the parts hold.
  induction steps generalizing start with
  | zero => rfl
  | succ steps ih =>
    cases start with
    | inline value => rfl
    | reference target =>
      simp only [map, followWithin]
      cases Pointer.componentName? kind target with
      | none => rfl
      | some name =>
        simp only [Option.bind_some, Table.get?_map]
        cases table.get? name with
        | none => rfl
        | some next => exact ih next

/-- What holds of every part that is written in place holds of what a reference leads to. -/
theorem holds_of_followWithin {holds : α → Prop}
    (inTable : ∀ part ∈ table.values, ∀ value ∈ part.inline?, holds value) {path : String}
    {steps : Nat} {start : Referable α} (atStart : ∀ value ∈ start.inline?, holds value) {value : α}
    (follows : start.followWithin kind table path steps = .ok value) : holds value := by
  -- What is found is written at the start, or in a part of the table from which the search goes on.
  induction steps generalizing start with
  | zero => cases follows
  | succ steps ih =>
    cases start with
    | inline written =>
      cases follows
      exact atStart value rfl
    | reference target =>
      simp only [followWithin] at follows
      split at follows
      · cases follows
      · rename_i next isNext
        obtain ⟨name, _, found⟩ := Option.bind_eq_some_iff.mp isNext
        have isValue : next ∈ table.values :=
          List.mem_map_of_mem (Table.mem_entries_of_get? found)
        exact ih (inTable next isValue) follows

end Referable

/-- The same place with what stands there transformed. -/
def Placed.map {α β : Type} (transform : α → β) (placed : Placed α) : Placed β :=
  ⟨transform placed.value, placed.path⟩

namespace Synthesis

/-- The parameters of a list are transformed if everything they may lead to is. -/
theorem followParameters_map {table : Table (Referable Parameter)}
    (transform : Parameter → Parameter) (path : String) (entries : List (Referable Parameter))
    (index : Nat) :
    followParameters (table.map (Referable.map transform)) path
        (entries.map (Referable.map transform)) index =
      (followParameters table path entries index).map (List.map (Placed.map transform)) := by
  induction entries generalizing index with
  | nil => rfl
  | cons entry rest ih =>
    simp only [List.map_cons, followParameters, Referable.follow, Referable.followWithin_map, ih]
    cases entry.followWithin "parameters" table (path ++ "/parameters/" ++ toString index)
        Referable.hopLimit with
    | error located => rfl
    | ok value => cases followParameters table path rest (index + 1) <;> rfl

/-- The first parameter of a list is found in its place, and then the others are. -/
theorem of_followParameters_cons {table : Table (Referable Parameter)} {path : String}
    {entry : Referable Parameter} {rest : List (Referable Parameter)} {index : Nat}
    {found : List (Placed Parameter)}
    (follows : followParameters table path (entry :: rest) index = .ok found) :
    ∃ value others,
      entry.follow "parameters" table (path ++ "/parameters/" ++ toString index) = .ok value ∧
        followParameters table path rest (index + 1) = .ok others ∧
        found = ⟨value, path ++ "/parameters/" ++ toString index⟩ :: others := by
  simp only [followParameters] at follows
  cases isFirst : entry.follow "parameters" table (path ++ "/parameters/" ++ toString index) with
  | error located =>
    rw [isFirst] at follows
    cases follows
  | ok value =>
    cases isLater : followParameters table path rest (index + 1) with
    | error located =>
      rw [isFirst, isLater] at follows
      cases follows
    | ok others =>
      rw [isFirst, isLater] at follows
      cases follows
      exact ⟨value, others, rfl, rfl, rfl⟩

/-- What holds of every parameter that is written in place holds of those of a list. -/
theorem holds_of_followParameters {table : Table (Referable Parameter)} {holds : Parameter → Prop}
    (inTable : ∀ part ∈ table.values, ∀ value ∈ part.inline?, holds value) {path : String}
    {entries : List (Referable Parameter)}
    (listed : ∀ part ∈ entries, ∀ value ∈ part.inline?, holds value) {index : Nat}
    {found : List (Placed Parameter)}
    (follows : followParameters table path entries index = .ok found) :
    ∀ placed ∈ found, holds placed.value := by
  induction entries generalizing index found with
  | nil =>
    cases follows
    simp
  | cons entry rest ih =>
    have ⟨first, later⟩ := List.forall_mem_cons.mp listed
    obtain ⟨value, others, isFirst, isLater, rfl⟩ := of_followParameters_cons follows
    exact List.forall_mem_cons.mpr
      ⟨Referable.holds_of_followWithin inTable first isFirst, ih later isLater⟩

/-- Which parameters override others does not depend on their schemas. -/
theorem overrideParameter_map {transform : Parameter → Parameter}
    (keeps : ∀ parameter, (transform parameter).name = parameter.name ∧
      (transform parameter).location = parameter.location) (incoming : Placed Parameter)
    (found : List (Placed Parameter)) :
    overrideParameter (incoming.map transform) (found.map (Placed.map transform)) =
      (overrideParameter incoming found).map (Placed.map transform) := by
  induction found with
  | nil => rfl
  | cons existing rest ih =>
    have same : sameParameter (existing.map transform) (incoming.map transform) =
        sameParameter existing incoming := by
      simp [sameParameter, Placed.map, keeps]
    simp only [List.map_cons, overrideParameter, same, ih]
    split <;> rfl

/-- A parameter that is added overrides another one, and all others stay. -/
theorem mem_overrideParameter {incoming placed : Placed Parameter} {found : List (Placed Parameter)}
    (isMember : placed ∈ overrideParameter incoming found) : placed = incoming ∨ placed ∈ found := by
  induction found with
  | nil => exact .inl (List.mem_singleton.mp isMember)
  | cons existing rest ih =>
    simp only [overrideParameter] at isMember
    split at isMember
    · rcases List.mem_cons.mp isMember with isIncoming | isLater
      · exact .inl isIncoming
      · exact .inr (List.mem_cons_of_mem _ isLater)
    · rcases List.mem_cons.mp isMember with isFirst | isLater
      · exact .inr (isFirst ▸ List.mem_cons_self)
      · exact (ih isLater).imp_right (List.mem_cons_of_mem _)

/-- The parameters of which the last ones override the others. -/
def effective (listed : List (Placed Parameter)) : List (Placed Parameter) :=
  listed.foldl (fun found entry => overrideParameter entry found) []

/-- Which parameters are effective does not depend on their schemas. -/
theorem effective_map {transform : Parameter → Parameter}
    (keeps : ∀ parameter, (transform parameter).name = parameter.name ∧
      (transform parameter).location = parameter.location) (listed : List (Placed Parameter)) :
    effective (listed.map (Placed.map transform)) =
      (effective listed).map (Placed.map transform) := by
  -- Parameters override each other by name and location, which are kept.
  unfold effective
  have overrides : ∀ found : List (Placed Parameter),
      (listed.map (Placed.map transform)).foldl (fun found entry => overrideParameter entry found)
          (found.map (Placed.map transform)) =
        (listed.foldl (fun found entry => overrideParameter entry found) found).map
          (Placed.map transform) := by
    induction listed with
    | nil => exact fun _ => rfl
    | cons entry rest ih =>
      intro found
      simp only [List.map_cons, List.foldl_cons, overrideParameter_map keeps, ih]
  exact overrides []

/-- The effective parameters are among those that are listed. -/
theorem effective_subset (listed : List (Placed Parameter)) : effective listed ⊆ listed := by
  have included : ∀ found : List (Placed Parameter),
      listed.foldl (fun found entry => overrideParameter entry found) found ⊆ found ++ listed := by
    induction listed with
    | nil => simp
    | cons entry rest ih =>
      intro found placed isMember
      rcases List.mem_append.mp (ih _ isMember) with isFound | isLater
      · rcases mem_overrideParameter isFound with rfl | isOld
        · simp
        · exact List.mem_append_left _ isOld
      · exact List.mem_append_right _ (List.mem_cons_of_mem _ isLater)
  simpa [effective] using included []

end Synthesis

/-- What is found before synthesis goes on may be transformed. -/
theorem Agree.found {α β : Type} {found : Except LocatedFailure α} {transform : α → α}
    {leftNext rightNext : α → Synthesis β}
    (later : ∀ value, found = .ok value →
      Agree (leftNext value).run (rightNext (transform value)).run) :
    Agree (liftM found >>= leftNext : Synthesis β).run
      (liftM (found.map transform) >>= rightNext : Synthesis β).run := by
  cases found with
  | error located => exact .pure _
  | ok value => exact later value rfl

namespace Synthesis

variable {context other : Context} {transform : Schema → Schema} {related : Schema → Prop}
  (types : ∀ schema, related schema → ∀ candidate path,
    Agree (schemaType context schema candidate path).run
      (schemaType other (transform schema) candidate path).run)

include types

/-- Bodies have the same types. -/
theorem agree_mediaType {media : MediaType} (isRelated : ∀ schema ∈ media.schema, related schema)
    (mediaName candidate path : String) :
    Agree (mediaType context media mediaName candidate path).run
      (mediaType other (media.mapSchemas transform) mediaName candidate path).run := by
  unfold mediaType MediaType.mapSchemas
  cases isSchema : media.schema with
  | none => exact .pure _
  | some schema => exact types schema (isRelated schema isSchema) _ _

/-- Parameters are bound in the same way. -/
theorem agree_bindParameters (base : String) {parameters : List (Placed Parameter)}
    (written : ∀ placed ∈ parameters, ∀ schema ∈ placed.value.writtenSchemas, related schema) :
    Agree (bindParameters context base parameters).run
      (bindParameters other base
        (parameters.map (Placed.map (Parameter.mapSchemas transform)))).run := by
  -- Parameters without a type bind nothing, before and after.
  induction parameters with
  | nil => exact .pure _
  | cons placed rest ih =>
    have ⟨first, later⟩ := List.forall_mem_cons.mp written
    obtain ⟨parameter, path⟩ := placed
    simp only [List.map_cons, Placed.map, bindParameters, Parameter.typedSchema?_mapSchemas]
    cases isTyped : parameter.typedSchema? with
    | none =>
      simp only [Option.map_none, pure_bind]
      exact (ih later).bindResult fun _ => .pure _
    | some typed =>
      refine (types _ (first _ (Parameter.mem_writtenSchemas isTyped)) _ _).bindResult fun type => ?_
      exact (ih later).bindResult fun _ => .pure _

variable {components : Components}
  (inComponents : ∀ schema ∈ components.writtenSchemas, related schema)

include inComponents

/-- The body of a request is bound in the same way. -/
theorem agree_bindBody {entry : Referable RequestBody}
    (written : ∀ schema ∈ entry.writtenSchemas RequestBody.writtenSchemas, related schema)
    (base path : String) :
    Agree (bindBody context components entry base path).run
      (bindBody other (components.mapSchemas transform)
        (entry.map (RequestBody.mapSchemas transform)) base path).run := by
  -- References are followed alike, so what is found in the one table is found mapped in the other.
  have follows : (entry.map (RequestBody.mapSchemas transform)).follow "requestBodies"
      (components.mapSchemas transform).requestBodies path =
        (entry.follow "requestBodies" components.requestBodies path).map
          (RequestBody.mapSchemas transform) := Referable.followWithin_map _ _ _ _
  unfold bindBody
  rw [follows]
  refine .found fun body isFound => ?_
  have ⟨_, _, _, bodies⟩ := Components.forall_writtenSchemas_iff.mp inComponents
  have bodyWritten : ∀ schema ∈ body.writtenSchemas, related schema :=
    Referable.holds_of_followWithin bodies (Referable.forall_writtenSchemas_iff.mp written) isFound
  simp only [RequestBody.mapSchemas, Content.preferred?_mapSchemas]
  cases isPreferred : body.content.preferred? with
  | none => exact .pure _
  | some preferred =>
    have media := agree_mediaType types (fun schema isSchema =>
      bodyWritten schema (Content.mem_writtenSchemas isPreferred isSchema))
    exact (media _ _ _).bindResult fun _ => .pure _

/-- Responses are bound in the same way. -/
theorem agree_bindResponses (base path : String) {entries : List (String × Referable Response)}
    (written : ∀ entry ∈ entries, ∀ schema ∈ entry.2.writtenSchemas Response.writtenSchemas,
      related schema) (successSeen : Bool) :
    Agree (bindResponses context components base path entries successSeen).run
      (bindResponses other (components.mapSchemas transform) base path
        (entries.map fun entry => (entry.1, entry.2.map (Response.mapSchemas transform)))
        successSeen).run := by
  -- Whether a success has been seen passes from one response to the next.
  induction entries generalizing successSeen with
  | nil => exact .pure _
  | cons entry rest ih =>
    obtain ⟨status, entry⟩ := entry
    have ⟨first, later⟩ := List.forall_mem_cons.mp written
    have follows : (entry.map (Response.mapSchemas transform)).follow "responses"
        (components.mapSchemas transform).responses (path ++ "/responses/" ++ Pointer.escape status) =
          (entry.follow "responses" components.responses
            (path ++ "/responses/" ++ Pointer.escape status)).map (Response.mapSchemas transform) :=
      Referable.followWithin_map _ _ _ _
    simp only [List.map_cons, bindResponses, follows]
    refine .found fun response isFound => ?_
    have ⟨_, responses, _, _⟩ := Components.forall_writtenSchemas_iff.mp inComponents
    have responseWritten : ∀ schema ∈ response.writtenSchemas, related schema :=
      Referable.holds_of_followWithin responses (Referable.forall_writtenSchemas_iff.mp first) isFound
    simp only [Response.mapSchemas, Content.preferred?_mapSchemas]
    cases isPreferred : response.content.preferred? with
    | none =>
      simp only [Option.map_none, Option.mapM_none, pure_bind]
      exact (ih later _).bindResult fun _ => .pure _
    | some preferred =>
      have media := agree_mediaType types (fun schema isSchema =>
        responseWritten schema (Content.mem_writtenSchemas isPreferred isSchema))
      simp only [Option.map_some, Option.mapM_some, map_eq_pure_bind, bind_assoc, pure_bind]
      refine (media _ _ _).bindResult fun type => ?_
      exact (ih later _).bindResult fun _ => .pure _

/-- An operation is bound in the same way. -/
theorem agree_bindOperation (sameConfig : other.config = context.config) (method : Method)
    (path : String) {item : PathItem} {operation : Operation}
    (shared : ∀ part ∈ item.parameters, ∀ schema ∈ part.writtenSchemas Parameter.writtenSchemas,
      related schema)
    (own : ∀ schema ∈ operation.writtenSchemas, related schema) :
    Agree (bindOperation context components method path item operation).run
      (bindOperation other (components.mapSchemas transform) method path
        (item.mapSchemas transform) (operation.mapSchemas transform)).run := by
  have keeps : ∀ parameter : Parameter,
      (parameter.mapSchemas transform).name = parameter.name ∧
        (parameter.mapSchemas transform).location = parameter.location := fun _ => ⟨rfl, rfl⟩
  have follows : ∀ path entries, followParameters (components.mapSchemas transform).parameters path
      (entries.map (Referable.map (Parameter.mapSchemas transform))) 0 =
        (followParameters components.parameters path entries 0).map
          (List.map (Placed.map (Parameter.mapSchemas transform))) := fun path entries =>
    followParameters_map _ path entries 0
  have ⟨_, _, inTable, _⟩ := Components.forall_writtenSchemas_iff.mp inComponents
  have ⟨ownParameters, ownBody, ownResponses⟩ := Operation.forall_writtenSchemas_iff.mp own
  unfold bindOperation
  simp only [PathItem.mapSchemas, Operation.mapSchemas, follows, sameConfig]
  refine .found fun inherited isInherited => .found fun listed isListed => ?_
  -- A parameter in effect is one of the path or one of the operation.
  have written : ∀ placed ∈ effective (inherited ++ listed),
      ∀ schema ∈ placed.value.writtenSchemas, related schema := by
    intro placed isEffective
    rcases List.mem_append.mp (effective_subset _ isEffective) with isShared | isOwn
    · exact holds_of_followParameters inTable
        (fun part isPart => Referable.forall_writtenSchemas_iff.mp (shared part isPart)) isInherited
        placed isShared
    · exact holds_of_followParameters inTable
        (fun part isPart => Referable.forall_writtenSchemas_iff.mp (ownParameters part isPart))
        isListed placed isOwn
  -- Which parameters are in effect depends on names and locations, which are not transformed.
  have overrides : (inherited.map (Placed.map (Parameter.mapSchemas transform)) ++
      listed.map (Placed.map (Parameter.mapSchemas transform))).foldl
        (fun found entry => overrideParameter entry found) [] =
      (effective (inherited ++ listed)).map (Placed.map (Parameter.mapSchemas transform)) := by
    rw [← List.map_append]
    exact effective_map keeps _
  rw [overrides]
  refine (agree_bindParameters types _ written).bindResult fun parameters => ?_
  have responses : ∀ base place, Agree
      (bindResponses context components base place operation.responses.entries false).run
      (bindResponses other (components.mapSchemas transform) base place
        (operation.responses.map (Referable.map (Response.mapSchemas transform))).entries false).run :=
    fun base place => agree_bindResponses types inComponents base place
      (fun entry isEntry => ownResponses entry.2 (List.mem_map_of_mem isEntry)) false
  cases hasBody : operation.requestBody with
  | none =>
    simp only [Option.map_none, pure_bind]
    exact (responses _ _).bindResult fun _ => .pure _
  | some entry =>
    have body := agree_bindBody types inComponents (ownBody entry hasBody)
    exact (body _ _).bindResult fun _ => (responses _ _).bindResult fun _ => .pure _

/-- The operations of a path are bound in the same way. -/
theorem agree_bindItem (sameConfig : other.config = context.config) (path : String)
    {item : PathItem} (shared : ∀ part ∈ item.parameters,
      ∀ schema ∈ part.writtenSchemas Parameter.writtenSchemas, related schema)
    {operations : List (Method × Operation)}
    (own : ∀ entry ∈ operations, ∀ schema ∈ entry.2.writtenSchemas, related schema) :
    Agree (bindItem context components path item operations)
      (bindItem other (components.mapSchemas transform) path (item.mapSchemas transform)
        (operations.map fun entry => (entry.1, entry.2.mapSchemas transform))) := by
  -- A failed operation is reported, and the others are bound all the same.
  induction operations with
  | nil => exact .pure _
  | cons entry rest ih =>
    have ⟨first, later⟩ := List.forall_mem_cons.mp own
    obtain ⟨method, operation⟩ := entry
    refine (agree_bindOperation types inComponents sameConfig method path shared first).bind
      fun result => ?_
    cases result with
    | ok binding => exact (ih later).bind fun _ => .pure _
    | error located =>
      have reports : Agree
          (modify fun workspace => workspace.reportFailure located : StateM Workspace PUnit)
          (modify fun workspace => workspace.reportFailure located) :=
        .modifies fun alike => ⟨alike.resolver, alike.registry⟩
      exact reports.bind fun _ => ih later

/-- The operations of all paths are bound in the same way. -/
theorem agree_bindPaths (sameConfig : other.config = context.config)
    {paths : List (String × PathItem)}
    (written : ∀ entry ∈ paths, ∀ schema ∈ entry.2.writtenSchemas, related schema) :
    Agree (bindPaths context components paths)
      (bindPaths other (components.mapSchemas transform)
        (paths.map fun entry => (entry.1, entry.2.mapSchemas transform))) := by
  induction paths with
  | nil => exact .pure _
  | cons entry rest ih =>
    have ⟨first, later⟩ := List.forall_mem_cons.mp written
    obtain ⟨path, item⟩ := entry
    have ⟨shared, own⟩ := List.forall_mem_append.mp first
    simp only [List.map_cons, bindPaths, PathItem.operations_mapSchemas]
    refine (agree_bindItem types inComponents sameConfig path
      (List.forall_mem_flatMap.mp shared) (List.forall_mem_flatMap.mp own)).bind fun _ => ?_
    exact (ih later).bind fun _ => .pure _

end Synthesis

end ApiTypes
