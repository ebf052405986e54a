import ApiTypes.Proofs.Composition
import ApiTypes.Proofs.Synthesis.Bindings
import ApiTypes.Proofs.Synthesis.Outcome

/-!
Which parameters an operation has. Parameters are told apart by name and location: the last of them
overrides the others, in the place of the first.
-/

namespace ApiTypes

/-- What tells a parameter from others. -/
def Parameter.key (parameter : Parameter) : String × ParameterLocation :=
  (parameter.name, parameter.location)

/-- What tells a bound parameter from others. -/
def ParameterBinding.key (binding : ParameterBinding) : String × ParameterLocation :=
  (binding.name.given, binding.location)

namespace Placed

/-- What tells a parameter from others, wherever it stands. -/
def key (placed : Placed Parameter) : String × ParameterLocation := placed.value.key

/-- A parameter stands in a list, with none behind it that has the same name and location. -/
def IsLast (placed : Placed Parameter) (listed : List (Placed Parameter)) : Prop :=
  ∃ before after, listed = before ++ placed :: after ∧ ∀ later ∈ after, later.key ≠ placed.key

/-- The last one in a list is the last of its name and location, and others are if they were. -/
theorem isLast_concat_iff {placed incoming : Placed Parameter} {listed : List (Placed Parameter)} :
    placed.IsLast (listed ++ [incoming]) ↔
      placed = incoming ∨ placed.IsLast listed ∧ incoming.key ≠ placed.key := by
  constructor
  -- Either nothing follows it, or what is added is the last of those that follow it.
  · rintro ⟨before, after, split, others⟩
    rcases List.eq_nil_or_concat after with rfl | ⟨earlier, last, rfl⟩
    · exact .inl (List.append_inj_right' split rfl |> List.singleton_inj.mp).symm
    · have same : listed ++ [incoming] = (before ++ placed :: earlier) ++ [last] := by
        simpa using split
      obtain ⟨isListed, isLast⟩ := List.append_inj' same rfl
      cases List.singleton_inj.mp isLast
      simp only [List.concat_eq_append, List.forall_mem_append, List.forall_mem_singleton] at others
      exact .inr ⟨⟨before, earlier, isListed, others.1⟩, others.2⟩
  · rintro (rfl | ⟨⟨before, after, rfl, others⟩, differ⟩)
    · exact ⟨listed, [], rfl, nofun⟩
    · refine ⟨before, after ++ [incoming], by simp, ?_⟩
      simpa only [List.forall_mem_append, List.forall_mem_singleton] using ⟨others, differ⟩

/-- What is last behind others that have its name and location among them is last there as well. -/
theorem IsLast.of_append {placed : Placed Parameter} {shared own : List (Placed Parameter)}
    (isLast : placed.IsLast (shared ++ own)) (isOwn : placed.key ∈ own.map key) :
    placed.IsLast own := by
  obtain ⟨before, after, split, others⟩ := isLast
  rcases List.append_eq_append_iff.mp split with ⟨middle, rfl, rfl⟩ | ⟨middle, rfl, isRest⟩
  · exact ⟨middle, after, rfl, others⟩
  · -- The parameter stands before the own ones, none of which could then have its name.
    obtain ⟨other, isOther, same⟩ := List.mem_map.mp isOwn
    cases middle with
    | nil => exact ⟨[], after, isRest.symm, others⟩
    | cons first rest =>
      obtain ⟨-, isAfter⟩ := List.cons.inj isRest
      exact absurd same (others other (isAfter ▸ List.mem_append_right _ isOther))

end Placed

namespace Synthesis

/-- Parameters are one if they are told apart by nothing. -/
theorem sameParameter_iff (left right : Placed Parameter) :
    sameParameter left right = true ↔ left.key = right.key := by
  simp [sameParameter, Placed.key, Parameter.key]

/-- A parameter adds its name and location behind the others, unless they are among them. -/
theorem keys_overrideParameter (incoming : Placed Parameter) (found : List (Placed Parameter)) :
    (overrideParameter incoming found).map Placed.key =
      if incoming.key ∈ found.map Placed.key then found.map Placed.key
      else found.map Placed.key ++ [incoming.key] := by
  induction found with
  | nil => rfl
  | cons existing rest ih =>
    by_cases same : existing.key = incoming.key
    · simp [overrideParameter, (sameParameter_iff existing incoming).mpr same, same]
    · have differ : sameParameter existing incoming = false := by
        rw [← Bool.not_eq_true, sameParameter_iff]
        exact same
      simp only [overrideParameter, differ, Bool.false_eq_true, if_false, List.map_cons, ih,
        List.mem_cons, Ne.symm same, false_or]
      split <;> rfl

/-- Where names and locations are told apart, a parameter replaces the one that has its own. -/
theorem mem_overrideParameter_iff {incoming placed : Placed Parameter}
    {found : List (Placed Parameter)} (distinct : (found.map Placed.key).Nodup) :
    placed ∈ overrideParameter incoming found ↔
      placed = incoming ∨ placed ∈ found ∧ incoming.key ≠ placed.key := by
  induction found with
  | nil => simp [overrideParameter]
  | cons existing rest ih =>
    obtain ⟨fresh, others⟩ := List.nodup_cons.mp distinct
    by_cases same : existing.key = incoming.key
    · -- None of the others has the name and location of the one that is replaced.
      have apart : ∀ placed ∈ rest, incoming.key ≠ placed.key := fun placed isLater equal =>
        fresh (same.trans equal ▸ List.mem_map_of_mem isLater)
      simp only [overrideParameter, (sameParameter_iff existing incoming).mpr same, if_true,
        List.mem_cons]
      refine or_congr_right ⟨fun isLater => ⟨.inr isLater, apart placed isLater⟩, ?_⟩
      rintro ⟨rfl | isLater, differ⟩
      · exact absurd same.symm differ
      · exact isLater
    · have differ : sameParameter existing incoming = false := by
        rw [← Bool.not_eq_true, sameParameter_iff]
        exact same
      simp only [overrideParameter, differ, Bool.false_eq_true, if_false, List.mem_cons, ih others]
      constructor
      · rintro (rfl | rfl | ⟨isLater, apart⟩)
        · exact .inr ⟨.inl rfl, Ne.symm same⟩
        · exact .inl rfl
        · exact .inr ⟨.inr isLater, apart⟩
      · rintro (rfl | ⟨rfl | isLater, apart⟩)
        · exact .inr (.inl rfl)
        · exact .inl rfl
        · exact .inr (.inr ⟨isLater, apart⟩)

/-- One more parameter overrides those that are effective before it. -/
theorem effective_concat (listed : List (Placed Parameter)) (incoming : Placed Parameter) :
    effective (listed ++ [incoming]) = overrideParameter incoming (effective listed) := by
  simp [effective]

/-- The effective parameters have the names and locations of all, in the order of the first ones. -/
theorem keys_effective (listed : List (Placed Parameter)) :
    (effective listed).map Placed.key = (listed.map Placed.key).eraseDups := by
  induction listed using List.reverseRecOn with
  | nil => rfl
  | append_singleton listed incoming ih =>
    rw [effective_concat, keys_overrideParameter, ih, List.map_append, List.map_singleton,
      eraseDups_concat]
    simp only [List.mem_eraseDups, List.contains_iff_mem]

/-- No two effective parameters have the same name and location. -/
theorem nodup_effective (listed : List (Placed Parameter)) :
    ((effective listed).map Placed.key).Nodup :=
  keys_effective listed ▸ nodup_eraseDups _

/-- The effective parameters are the last ones of their names and locations. -/
theorem mem_effective_iff {placed : Placed Parameter} {listed : List (Placed Parameter)} :
    placed ∈ effective listed ↔ placed.IsLast listed := by
  induction listed using List.reverseRecOn with
  | nil => simp [effective, Placed.IsLast]
  | append_singleton listed incoming ih =>
    rw [effective_concat, mem_overrideParameter_iff (nodup_effective listed), ih,
      Placed.isLast_concat_iff]

variable (context : Context) (components : Components)

/-- The type of a parameter of an operation; without a schema it is untyped. -/
def parameterType (base : String) (placed : Placed Parameter) : Synthesis TypeExpr :=
  match placed.value.typedSchema? with
  | none => pure .any
  | some (place, schema) =>
    schemaType context schema (base ++ (CasedName.of placed.value.name).pascal ++ "Param")
      (placed.path ++ "/" ++ place)

/-- A parameter bound with a type. -/
def bound (placed : Placed Parameter) (type : TypeExpr) : ParameterBinding where
  name := CasedName.of placed.value.name
  location := placed.value.location
  type := type
  required := placed.value.required
  description := placed.value.description

/-- The first parameter is bound with its type, and then the others are. -/
theorem bindParameters_cons (base : String) (placed : Placed Parameter)
    (rest : List (Placed Parameter)) :
    bindParameters context base (placed :: rest) = do
      let type ← parameterType context base placed
      let others ← bindParameters context base rest
      return bound placed type :: others := by
  unfold parameterType
  rw [bindParameters]
  cases placed.value.typedSchema? <;> rfl

/-- The schemas of parameters synthesize one after the other. -/
inductive TypesInTurn (base : String) :
    List (Placed Parameter) → Workspace → List TypeExpr → Workspace → Prop
  | nil (workspace : Workspace) : TypesInTurn base [] workspace [] workspace
  | cons {placed : Placed Parameter} {rest : List (Placed Parameter)}
    {first middle last : Workspace} {type : TypeExpr} {types : List TypeExpr}
    (isTyped : (parameterType context base placed).Ends first (.ok type) middle)
    (others : TypesInTurn base rest middle types last) :
    TypesInTurn base (placed :: rest) first (type :: types) last

variable {context components} {base : String} {first middle last : Workspace}

/-- Parameters are bound with their types exactly if their schemas synthesize. -/
theorem ends_bindParameters_iff {listed : List (Placed Parameter)}
    {parameters : List ParameterBinding} :
    (bindParameters context base listed).Ends first (.ok parameters) last ↔
      ∃ types, TypesInTurn context base listed first types last ∧
        parameters = listed.zipWith bound types := by
  induction listed generalizing first parameters with
  | nil =>
    rw [bindParameters, ends_pure_iff, Except.ok.injEq]
    constructor
    · rintro ⟨rfl, rfl⟩
      exact ⟨[], .nil _, rfl⟩
    · rintro ⟨types, typed, rfl⟩
      cases typed
      exact ⟨rfl, rfl⟩
  | cons placed rest ih =>
    simp only [bindParameters_cons, ends_bind_ok_iff, ends_pure_iff, Except.ok.injEq]
    constructor
    · rintro ⟨type, middle, isTyped, others, after, isBound, rfl, rfl⟩
      obtain ⟨types, typed, rfl⟩ := ih.mp isBound
      exact ⟨type :: types, .cons isTyped typed, rfl⟩
    · rintro ⟨types, typed, rfl⟩
      cases typed with
      | cons isTyped typed =>
        exact ⟨_, _, isTyped, _, _, ih.mpr ⟨_, typed, rfl⟩, rfl, rfl⟩

/-- A binding of a parameter has a type to which the schema of that parameter comes. -/
def BindsAs (context : Context) (base : String) (placed : Placed Parameter)
    (parameter : ParameterBinding) : Prop :=
  ∃ type before after, (parameterType context base placed).Ends before (.ok type) after ∧
    parameter = bound placed type

/-- Every binding is one of a parameter. -/
theorem TypesInTurn.exists_bindsAs {listed : List (Placed Parameter)} {types : List TypeExpr}
    (typed : TypesInTurn context base listed first types last) :
    ∀ parameter ∈ listed.zipWith bound types, ∃ placed ∈ listed,
      BindsAs context base placed parameter := by
  induction typed with
  | nil => nofun
  | cons isTyped _ ih =>
    rw [List.zipWith_cons_cons, List.forall_mem_cons]
    refine ⟨⟨_, List.mem_cons_self, _, _, _, isTyped, rfl⟩, fun parameter isLater => ?_⟩
    obtain ⟨placed, isPlaced, binds⟩ := ih parameter isLater
    exact ⟨placed, List.mem_cons_of_mem _ isPlaced, binds⟩

/-- Binding parameters keeps their names and locations. -/
theorem TypesInTurn.keys {listed : List (Placed Parameter)} {types : List TypeExpr}
    (typed : TypesInTurn context base listed first types last) :
    (listed.zipWith bound types).map ParameterBinding.key = listed.map Placed.key := by
  induction typed with
  | nil => rfl
  | cons _ _ ih => exact List.cons_eq_cons.mpr ⟨rfl, ih⟩

variable (context components)

/-- The name of an operation with its casings. -/
def operationCase (method : Method) (path : String) (operation : Operation) : CasedName :=
  CasedName.of (operationName context.config.naming method path operation)

/-- The pointer of a path. -/
def itemPlace (path : String) : String := "#/paths/" ++ Pointer.escape path

/-- The pointer of an operation. -/
def operationPlace (method : Method) (path : String) : String :=
  itemPlace path ++ "/" ++ method.key

/-- What is left of binding an operation once its parameters are bound. -/
def bindRest (method : Method) (path : String) (operation : Operation)
    (parameters : List ParameterBinding) : Synthesis OperationBinding := do
  let name := operationCase context method path operation
  let place := operationPlace method path
  let requestBody ← match operation.requestBody with
    | none => pure none
    | some entry => bindBody context components entry name.pascal (place ++ "/requestBody")
  let responses ←
    bindResponses context components name.pascal place operation.responses.entries false
  return {
    name, method, path, parameters, requestBody, responses
    deprecated := operation.deprecated.getD false }

/-- An operation is bound by following its parameters, binding the effective ones, and going on. -/
theorem bindOperation_eq (method : Method) (path : String) (item : PathItem)
    (operation : Operation) :
    bindOperation context components method path item operation = (do
      let shared ← followParameters components.parameters (itemPlace path) item.parameters 0
      let own ← followParameters components.parameters (operationPlace method path)
        operation.parameters 0
      let parameters ← bindParameters context (operationCase context method path operation).pascal
        (effective (shared ++ own))
      bindRest context components method path operation parameters) := rfl

variable {context components} {method : Method} {path : String} {item : PathItem}
  {operation : Operation} {shared own : List (Placed Parameter)}

/-- Where the references to parameters can be followed, binding begins with the effective ones. -/
theorem bindOperation_of_follows
    (sharedFollow : followParameters components.parameters (itemPlace path) item.parameters 0 =
      .ok shared)
    (ownFollow : followParameters components.parameters (operationPlace method path)
      operation.parameters 0 = .ok own) :
    bindOperation context components method path item operation = (do
      let parameters ← bindParameters context (operationCase context method path operation).pascal
        (effective (shared ++ own))
      bindRest context components method path operation parameters) := by
  rw [bindOperation_eq, sharedFollow, ownFollow]
  rfl

/-- The rest of binding an operation keeps the parameters that it is given. -/
theorem parameters_of_bindRest {parameters : List ParameterBinding} {binding : OperationBinding}
    (ends : (bindRest context components method path operation parameters).Ends first (.ok binding)
      last) : binding.parameters = parameters := by
  unfold bindRest at ends
  split at ends <;>
  · obtain ⟨_, _, _, ends⟩ := (ends_bind_ok_iff _ _ _).mp ends
    obtain ⟨_, _, _, ends⟩ := (ends_bind_ok_iff _ _ _).mp ends
    obtain ⟨isBinding, _⟩ := (ends_pure_iff _).mp ends
    cases isBinding
    rfl

/--
Where the references to parameters can be followed and the schemas of the effective ones synthesize,
an operation goes on with bindings for exactly the names and locations that are listed for its path or
for itself, each of them once, in the order in which they first occur. Each is bound from its last
occurrence, which is one of the operation itself if that lists it.
-/
theorem bindOperation_overrides
    (sharedFollow : followParameters components.parameters (itemPlace path) item.parameters 0 =
      .ok shared)
    (ownFollow : followParameters components.parameters (operationPlace method path)
      operation.parameters 0 = .ok own)
    {types : List TypeExpr}
    (typed : TypesInTurn context (operationCase context method path operation).pascal
      (effective (shared ++ own)) first types middle) :
    ∃ parameters,
      (bindOperation context components method path item operation).outcome first =
        (bindRest context components method path operation parameters).outcome middle ∧
      (∀ binding last, (bindOperation context components method path item operation).Ends first
        (.ok binding) last → binding.parameters = parameters) ∧
      (parameters.map ParameterBinding.key).Nodup ∧
      (∀ key, key ∈ parameters.map ParameterBinding.key ↔
        key ∈ shared.map Placed.key ∨ key ∈ own.map Placed.key) ∧
      parameters.map ParameterBinding.key = ((shared ++ own).map Placed.key).eraseDups ∧
      ∀ parameter ∈ parameters, ∃ placed : Placed Parameter, placed.IsLast (shared ++ own) ∧
        (parameter.key ∈ own.map Placed.key → placed.IsLast own) ∧
        BindsAs context (operationCase context method path operation).pascal placed parameter := by
  -- What is bound are the effective parameters, each with its type.
  have isBound := ends_bindParameters_iff.mpr ⟨types, typed, rfl⟩
  have goesOn : (bindOperation context components method path item operation).outcome first =
      (bindRest context components method path operation
        ((effective (shared ++ own)).zipWith bound types)).outcome middle := by
    rw [bindOperation_of_follows sharedFollow ownFollow, outcome_bind, isBound]
  have keys := typed.keys.trans (keys_effective (shared ++ own))
  refine ⟨_, goesOn, fun binding last ends => ?_, ?_, fun key => ?_, keys,
    fun parameter isParameter => ?_⟩
  · exact parameters_of_bindRest (goesOn.symm.trans ends)
  · exact keys ▸ nodup_eraseDups _
  · rw [keys, List.mem_eraseDups, List.map_append, List.mem_append]
  · obtain ⟨placed, isEffective, binds⟩ := typed.exists_bindsAs parameter isParameter
    have isLast := mem_effective_iff.mp isEffective
    refine ⟨placed, isLast, fun isOwn => isLast.of_append ?_, binds⟩
    obtain ⟨type, _, _, _, rfl⟩ := binds
    exact isOwn

/-- An identifier in a path. -/
def identifier (type : SchemaType) : Parameter where
  name := "id"
  location := .path
  required := true
  schema := some (.inline { type := some (.single type) })

/-- Shared parameters, one of which is a limit in a query. -/
def sharedLimit : Components where
  parameters := ⟨[("Limit", .inline { name := "limit", location := .query })]⟩

/-- A path whose parameters are an identifier that is a text, and the shared limit. -/
def pages : PathItem where
  parameters := [.inline (identifier .string), .reference "#/components/parameters/Limit"]

/-- An operation with an identifier of its own that is a number. -/
def readPage : Operation where
  operationId := some "readPage"
  parameters := [.inline (identifier .integer)]

/-- The settings of a document without component schemas. -/
def schemaless : Context := ⟨⟨.v31, {}⟩, {}⟩

/-- The identifier of the operation overrides that of its path, and stands before the limit. -/
theorem bindOperation_overrides_readPage :
    ∃ parameters,
      (bindOperation schemaless sharedLimit .get "/pages" pages readPage).outcome
          (Workspace.ofContext schemaless) =
        (bindRest schemaless sharedLimit .get "/pages" readPage parameters).outcome
          (Workspace.ofContext schemaless) ∧
      parameters.map ParameterBinding.key = [("id", .path), ("limit", .query)] := by
  have sharedFollow : followParameters sharedLimit.parameters (itemPlace "/pages")
      pages.parameters 0 = .ok [⟨identifier .string, "#/paths/~1pages/parameters/0"⟩,
        ⟨{ name := "limit", location := .query }, "#/paths/~1pages/parameters/1"⟩] := rfl
  have ownFollow : followParameters sharedLimit.parameters (operationPlace .get "/pages")
      readPage.parameters 0 =
        .ok [⟨identifier .integer, "#/paths/~1pages/get/parameters/0"⟩] := rfl
  have typed : TypesInTurn schemaless "ReadPage"
      [⟨identifier .integer, "#/paths/~1pages/get/parameters/0"⟩,
        ⟨{ name := "limit", location := .query }, "#/paths/~1pages/parameters/1"⟩]
      (Workspace.ofContext schemaless) [⟨.primitive .integer none, false, {}⟩, .any]
      (Workspace.ofContext schemaless) :=
    .cons rfl (.cons rfl (.nil _))
  obtain ⟨parameters, goesOn, -, -, -, keys, -⟩ :=
    bindOperation_overrides sharedFollow ownFollow typed
  exact ⟨parameters, goesOn, keys.trans (by decide)⟩

end Synthesis

end ApiTypes
