import ApiTypes.Proofs.Arrays
import ApiTypes.Proofs.Invariance
import ApiTypes.Proofs.Synthesis.BoundTypes
import ApiTypes.Proofs.Synthesis.Inclusion

/-!
Limits for arrays. In whatever is returned, no array may have more items than the settings allow, nor
are more arrays nested than they allow unless a component schema hands on arrays to the intersections
that include it. The depth at which a node is walked counts the arrays around it, up to the nearest
record; whatever comes of the node is within the limits there.
-/

namespace ApiTypes

/-- The types of a contribution are within the limits; those of a record stand inside no arrays. -/
def MemberShape.Fits (context : Context) (depth : Nat) : MemberShape → Prop
  | .record shape => ∀ type ∈ shape.types, type.Fits context 0
  | .scalar type => type.Fits context depth
  | .required _ | .unconstrained | .union => True

/-- The types of a shape are within the limits; those of a record stand inside no arrays. -/
def Shape.Fits (context : Context) (depth : Nat) : Shape → Prop
  | .record shape => ∀ type ∈ shape.types, type.Fits context 0
  | .alias target => target.Fits context depth
  | .enum _ _ | .union _ => True

/--
What comes of a task is within the limits. A contribution to an intersection is so at every depth,
unless it may be an array that is written there.
-/
def FitsTask (context : Context) : Task → Value → Prop
  | .declare _ depth, .shape shape => shape.Fits context depth
  | .expression _ depth, .type type => type.Fits context depth
  | .contribute node depth, .member shape => ∀ place,
    place = depth ∨ (context.KeepsArraysOut → node.givesArray = false) → shape.Fits context place
  | .expand node _, .member shape => ∀ place,
    place = 0 ∨ (context.KeepsArraysOut → node.combinesArray = false) → shape.Fits context place
  | .schema _, .member shape => ∀ place, shape.Fits context place
  | .reference _, .type type => type.arrays = []
  | .fields _, .fields fields => ∀ field ∈ fields, field.type.Fits context 0
  | .record .., .record shape => ∀ type ∈ shape.types, type.Fits context 0
  | .members nodes depth, .inputs inputs => ∀ place,
    place = depth ∨ (context.KeepsArraysOut → ∀ node ∈ nodes, node.givesArray = false) →
      ∀ input ∈ inputs, input.shape.Fits context place
  | .intersection nodes depth, .shape shape => ∀ place,
    place = depth ∨ (context.KeepsArraysOut → ∀ node ∈ nodes, node.givesArray = false) →
      shape.Fits context place
  | .take shape, .member taken => ∀ place, shape.Fits context place → taken.Fits context place
  | _, _ => True

section

variable {context : Context} {expanding : List String} {first last : Workspace} {depth : Nat}

namespace Shape

/-- A shape that stands inside no arrays is within the limits if its types are. -/
theorem fits_zero_iff (shape : Shape) :
    shape.Fits context 0 ↔ ∀ type ∈ shape.types, type.Fits context 0 := by
  cases shape <;> simp [Fits, types]

/-- Admitting null keeps to the limits. -/
@[simp] theorem fits_admitting_iff (shape : Shape) (nullable : Bool) :
    (shape.admitting nullable).Fits context depth ↔ shape.Fits context depth := by
  cases shape <;> simp [admitting, Fits]

/-- What a shape contributes is within the limits where the shape is. -/
theorem Fits.taken {shape : Shape} (fits : shape.Fits context depth) :
    shape.taken.Fits context depth := by
  cases shape with
  | record => exact fits
  | enum => exact .of_arrays_eq_nil TypeExpr.arrays_any
  | union => trivial
  | «alias» target =>
    rw [Shape.taken]
    split
    · trivial
    · exact fits

end Shape

/-- A choice has no arrays in it. -/
theorem Shape.fits_of_unionOf {kind : CompositionKind} {names : List String} {nullable : Bool}
    {discriminator : Option Discriminator} {shape : Shape}
    (unites : unionOf kind names nullable discriminator = .ok shape) : shape.Fits context depth := by
  unfold unionOf at unites
  split at unites
  · cases unites
  · cases unites
    exact .of_arrays_eq_nil (by simp)
  · cases unites
    trivial

/-- Members within the limits merge into a shape that is within the limits. -/
theorem Shape.fits_of_mergeAllOf {inputs : List IntersectionMember} {merged : Merged}
    {registry : Registry} (isMerged : mergeAllOf inputs registry.equivalent = .ok merged)
    (fits : ∀ input ∈ inputs, input.shape.Fits context depth) : merged.shape.Fits context depth := by
  -- A record counts no arrays around it, so its types have another limit than a type on its own.
  have scalars : ∀ input ∈ inputs, ∀ type, input.shape = .scalar type → type.Fits context depth :=
    fun input isInput type isScalar => by
      have inside := fits input isInput
      rwa [isScalar] at inside
  have records : ∀ input ∈ inputs, ∀ record, input.shape = .record record →
      ∀ type ∈ record.types, type.Fits context 0 := fun input isInput record isRecord => by
    have inside := fits input isInput
    rwa [isRecord] at inside
  rcases Intersection.Stable.mergeAllOf (TypeExpr.Fits.stable context 0 registry)
    (.of_arrays_eq_nil TypeExpr.arrays_any) (fun name => .of_arrays_eq_nil (TypeExpr.arrays_named name))
    isMerged scalars records with ⟨type, isAlias, inside⟩ | ⟨record, isRecord, inside⟩
  · exact isAlias ▸ inside
  · exact isRecord ▸ inside

/-- A node without nodes inside it has no arrays in its type. -/
theorem SchemaNode.arrays_of_constant? {node : SchemaNode} {type : TypeExpr}
    (isConstant : node.constant? = some type) : type.arrays = [] := by
  unfold constant? at isConstant
  split at isConstant <;> cases isConstant <;> simp [TypeExpr.arrays, TypeExpr.any, TypeExpr.withNullable]

/-- A node that contributes a type but is no array has no arrays in its type. -/
theorem Yields.arrays_of_contributesType {node : SchemaNode} {type : TypeExpr}
    (yields : Yields context expanding first (.expression node depth) (.type type) last)
    (isType : node.contributesType = true) (isOther : node.givesArray = false) :
    type.arrays = [] := by
  cases yields with
  | constant isConstant => exact SchemaNode.arrays_of_constant? isConstant
  | array => cases isOther
  | map | use => cases isType
  | promote => simp
  | promoteAlias isDeclared declares =>
    -- Only enumerations are declared and contribute their types, and they declare no aliases.
    obtain ⟨kind, traits⟩ := node
    cases kind with
    | primitive | array | any | null => cases isDeclared
    | map | object | composed | reference => cases isType
    | enum =>
      cases declares with
      | declarePlain isPlain => cases isPlain

/-- Whatever comes of a task is within the limits. -/
theorem Yields.fits {task : Task} {value : Value}
    (yields : Yields context expanding first task value last) : FitsTask context task value := by
  -- Only `array` goes a level down, and there the limit has been checked; records start again at 0.
  induction yields with
  | constant isConstant => exact .of_arrays_eq_nil (SchemaNode.arrays_of_constant? isConstant)
  | array allowed _ ih => exact .array allowed ih
  | map _ ih => exact .map ih
  | use _ ih => exact .of_arrays_eq_nil ((TypeExpr.arrays_withNullable _ _).trans ih)
  | promoteAlias _ _ ih => simpa [FitsTask, Shape.Fits] using ih
  | promote => exact .of_arrays_eq_nil (by simp)
  | declarePlain _ _ _ ih => exact ih
  | declareEnum | casesNil | casesNull | casesCons | mappingNil | mappingCons => trivial
  | declareRecord _ _ _ ih => exact ih
  | declareIntersection _ _ ih => exact (Shape.fits_admitting_iff _ _).mpr (ih _ (.inl rfl))
  | declareChoice _ _ _ unites | declareDiscriminated _ _ _ _ unites =>
    exact Shape.fits_of_unionOf unites
  -- A type that is contributed elsewhere is no array, so its depth does not matter.
  | contributeType isType inside ih =>
    rintro place (rfl | isOther)
    · exact ih
    · exact TypeExpr.Fits.anywhere ih
        (fun keeps => inside.arrays_of_contributesType isType (isOther keeps)) place
  | contributeRestriction | expandRestriction =>
    intro place _
    unfold SchemaNode.restriction
    split <;> trivial
  | contributeMap _ ih =>
    rintro place isPlace type isType
    cases List.mem_singleton.mp isType
    exact TypeExpr.Fits.outside ih (Nat.zero_le _)
  | contributeRecord _ ih | expandRecord _ ih => exact fun _ _ => ih
  | @contributeIntersection _ _ _ _ members discriminator traits _ _ _ _ _ ih takesIh =>
    intro place isPlace
    refine takesIh place (ih place (isPlace.imp_right fun isOther keeps => ?_))
    have none_gives := isOther keeps
    rw [SchemaNode.givesArray_allOf] at none_gives
    simpa using none_gives
  | contributeChoice => exact fun _ _ => trivial
  | expandAtomic => exact fun _ _ => .of_arrays_eq_nil (TypeExpr.arrays_named _)
  | expandReference _ _ _ ih => exact fun place _ => ih place
  | @expandIntersection _ _ _ members discriminator traits _ _ _ ih =>
    intro place isPlace
    refine ih place (isPlace.imp_right fun isOther keeps => ?_)
    rw [SchemaNode.givesArray_allOf]
    exact isOther keeps
  | schemaChoice => exact fun _ => trivial
  | schema _ found _ _ _ ih => exact fun place => ih place (.inr fun keeps => keeps _ _ found)
  | reference => simp [FitsTask]
  | fieldsNil | membersNil => simp [FitsTask]
  | fieldsCons _ _ ih laterIh => exact List.forall_mem_cons.mpr ⟨ih, laterIh⟩
  | recordClosed _ ih => exact (RecordShape.forall_types_iff _).mpr ⟨ih, nofun⟩
  | recordOpen _ _ ih furtherIh =>
    refine (RecordShape.forall_types_iff _).mpr ⟨ih, fun type isType => ?_⟩
    cases isType
    exact furtherIh
  | membersReference _ _ _ _ insideIh laterIh =>
    intro place isPlace
    refine List.forall_mem_cons.mpr ⟨insideIh place, laterIh place (isPlace.imp_right ?_)⟩
    exact fun isOther keeps => (List.forall_mem_cons.mp (isOther keeps)).2
  | membersOther isOther _ _ ih laterIh =>
    intro place isPlace
    refine List.forall_mem_cons.mpr ⟨ih place (isPlace.imp_right ?_), ?_⟩
    · exact fun none_gives keeps => (List.forall_mem_cons.mp (none_gives keeps)).1
    · refine List.forall_mem_append.mpr ⟨fun input isRequired => ?_, laterIh place (isPlace.imp_right ?_)⟩
      · obtain ⟨names, rfl⟩ := SchemaNode.required_of_requiredMembers isRequired
        trivial
      · exact fun none_gives keeps => (List.forall_mem_cons.mp (none_gives keeps)).2
  | intersectionReference _ _ _ ih => exact fun _ _ => .of_arrays_eq_nil ih
  | intersectionMembers _ _ merges _ ih =>
    exact fun place isPlace => Shape.fits_of_mergeAllOf merges (ih place isPlace)
  | takeSchema _ _ _ ih => exact fun place _ => ih place
  | take => exact fun _ fits => fits.taken

end

/-- A shape that gets a name inside a schema is within the limits. -/
theorem Shape.Derived.fits {context : Context} {shape : Shape} (derived : shape.Derived context) :
    shape.Fits context 0 := by
  cases derived with
  | @declared _ _ _ node depth _ _ declares =>
    have fits : shape.Fits context depth := declares.fits
    cases shape with
    | record | enum | union => exact fits
    | «alias» target => exact TypeExpr.Fits.outside fits (Nat.zero_le depth)
  | @case _ _ _ node depth type _ used =>
    have fits : type.Fits context depth := used.fits
    exact (TypeExpr.Fits.withNullable_iff false).mpr (fits.outside (Nat.zero_le depth))

/-- Everything that is declared is within the limits. -/
def Workspace.IsLimited (context : Context) (workspace : Workspace) : Prop :=
  ∀ name declaration, workspace.registry.get? name = some declaration →
    declaration.shape.Fits context 0

/-- A declaration may be added if its shape is within the limits. -/
theorem Workspace.IsLimited.declare {context : Context} {first last : Workspace}
    (limited : first.IsLimited context) {declaration : Declaration}
    (isDeclared : last.registry = first.registry.declare declaration)
    (fits : declaration.shape.Fits context 0) : last.IsLimited context := by
  intro name found isFound
  rw [isDeclared, Registry.get?_declare] at isFound
  split at isFound
  · cases isFound
    exact fits
  · exact limited name found isFound

/-- Only shapes within the limits are declared. -/
theorem invariance_isLimited (context : Context) :
    Invariance context (Workspace.IsLimited context) where
  alike limited alike := by simpa only [Workspace.IsLimited, alike.registry] using limited
  notes notes limited := by simpa only [Workspace.IsLimited, notes.registry_eq] using limited
  registers {_ _ first last shape _} _ _ derived _ registers limited := by
    obtain ⟨candidate, doc, deprecated, path, isRegistered, isLast⟩ := registers
    rcases first.registry.register_cases candidate shape doc deprecated (.inline path) with
      ⟨_, _, _, _, isSame⟩ | ⟨_, _, isDeclared⟩
    · intro name declaration found
      rw [← (Prod.mk.inj (isSame.symm.trans isRegistered)).2] at found
      exact limited name declaration found
    · exact limited.declare (Prod.mk.inj (isDeclared.symm.trans isRegistered)).2.symm derived.fits
  begin _ limited := limited
  conclude _ _ _ _ concludes limited := by
    cases concludes with
    | succeeds declares => exact limited.declare rfl declares.fits
    | fails | circular => exact limited

/-- The type that is found for a schema of an operation is within the limits. -/
theorem Synthesis.finds_schemaType (context : Context) (schema : Schema) (candidate path : String) :
    Finds context (TypeExpr.Fits context 0) (fun type => [type])
      (schemaType context schema candidate path) := by
  intro first type last consistent ends
  unfold schemaType at ends
  obtain ⟨_, middle, lowers, walks⟩ := (ends_bind_ok_iff _ _ _).mp ends
  -- Lowering only adds diagnostics, and the walk outside of schemas counts no arrays around it.
  have harmless : ∀ diagnostic ∈ (schema.lower context.model.version path).collect.2,
      diagnostic.isError = false := fun diagnostic isReported =>
    Diagnostic.isError_of_isOfLowering ((schema.preliminary_lower _ path).collect diagnostic isReported)
  obtain ⟨_, rfl⟩ := (ends_modify_iff _).mp lowers
  have between := ((runs_append first harmless).consistent consistent).1
  have yields : Yields context [] _ (.expression _ 0) (.type type) last :=
    ((adequate_within context false [] []).walkFollows _).expression _ 0 _ _ _ between (by simp [Started])
      walks
  have fits : type.Fits context 0 := yields.fits
  exact ⟨(yields.advances between).1, by simpa using fits⟩

namespace Document

variable (document : Document) (config : Config)

/-- Everything that is declared in the end is within the limits. -/
theorem isLimited_unfinished :
    (document.unfinished config).IsLimited (document.context config) :=
  (document.holds_unfinished config (invariance_isLimited _)
    (document.holds_entered config (invariance_isLimited _).toStepInvariant
      fun name declaration found => by simp [Workspace.get?_ofContext] at found)).2

/-- The types of all operations are within the limits. -/
theorem fits_bound : ∀ binding ∈ document.bound config, ∀ type ∈ binding.types,
    type.Fits (document.context config) 0 := by
  unfold bound
  rw [run_bindAll]
  split
  · exact Synthesis.types_bindPaths (.of_arrays_eq_nil TypeExpr.arrays_any)
      (Synthesis.finds_schemaType _) _ _ (document.consistent_entered config)
  · exact nofun

/-- All types of an output are within the limits. -/
theorem fits_synthesize : ∀ type ∈ (document.synthesize config).types,
    type.Fits (document.context config) 0 := by
  classical
  refine List.forall_mem_append.mpr ⟨?_, ?_⟩ <;> refine List.forall_mem_flatMap.mpr ?_
  · intro declaration isEmitted
    have found := ((document.mem_declarations_synthesize_iff config declaration).mp isEmitted).1
    exact (Shape.fits_zero_iff _).mp (document.isLimited_unfinished config _ _ found)
  · intro binding isReturned
    rw [synthesize_eq, Workspace.operations_finish (document.consistent_unfinished config).wellFormed]
      at isReturned
    exact document.fits_bound config binding (List.mem_filter.mp isReturned).1

/--
In all types that are returned, an array whose number of items is bounded has a bound within the limit.
If no component schema is an intersection with an array in it, no type nests more arrays than it may.
-/
theorem synthesize_arrays : ∀ type ∈ (document.synthesize config).types,
    (∀ limit, config.maxItems = some limit → ∀ constraints ∈ type.arrays,
      ∀ count, constraints.maxItems = some count → count ≤ limit) ∧
    ((document.context config).KeepsArraysOut → type.arrays.length ≤ config.maxArrayDepth) := by
  intro type isType
  have fits := document.fits_synthesize config type isType
  refine ⟨fits.items, fun keepsOut => ?_⟩
  by_cases isEmpty : type.arrays = []
  · simp [isEmpty]
  · have nesting := fits.nesting keepsOut isEmpty
    rwa [Nat.zero_add] at nesting

/--
Rows of at most two cells, sheets of at most nine rows, and an operation for lists of lists of numbers.
-/
def sheets : Document where
  openapi := "3.1.0"
  info := { title := "Sheets", version := "1" }
  components := some {
    schemas := ⟨[
      ("Row", .inline {
        type := some (.single .array)
        maxItems := some 2
        items := some (.inline { type := some (.single .string) }) }),
      ("Sheet", .inline {
        type := some (.single .array)
        maxItems := some 9
        items := some (.inline {
          allOf := [.inline { allOf := [.ref "#/components/schemas/Row"] }] }) })]⟩ }
  paths := ⟨[("/sums", {
    operation := fun method => if method = .get then some {
      parameters := [.inline {
        name := "numbers"
        location := .query
        schema := some (.inline {
          type := some (.single .array)
          items := some (.inline {
            type := some (.single .array)
            items := some (.inline { type := some (.single .integer) }) }) }) }] }
      else none })]⟩

/-- All that is returned for sheets keeps to the limits. -/
theorem synthesize_arrays_sheets :
    let config : Config := { maxArrayDepth := 2, maxItems := some 9 }
    (sheets.synthesize config).types.map (fun type => type.arrays.map Constraints.maxItems) =
        [[some 2], [some 9], [none, none]] ∧
      (sheets.context config).KeepsArraysOut ∧
      ∀ type ∈ (sheets.synthesize config).types, type.arrays.length ≤ 2 := by
  intro config
  have unmixed : ∀ entry ∈ (sheets.context config).model.nodes.entries,
      entry.2.combinesArray = false := by decide
  have keepsOut : (sheets.context config).KeepsArraysOut := fun schema node found =>
    unmixed _ (Table.mem_entries_of_get? found)
  exact ⟨by decide +kernel, keepsOut, fun type isType =>
    (synthesize_arrays sheets config type isType).2 keepsOut⟩

/--
A schema hands on two arrays to an intersection inside an intersection, which is the item of an array.
-/
def handedOnArrays : Document where
  openapi := "3.1.0"
  info := { title := "Handed-on arrays", version := "1" }
  components := some {
    schemas := ⟨[
      ("C", .inline { allOf := [.inline {
        type := some (.single .array)
        items := some (.inline {
          type := some (.single .array)
          items := some (.inline { type := some (.single .string) }) }) }] }),
      ("E", .inline {
        type := some (.single .array)
        items := some (.inline {
          allOf := [.inline { allOf := [.ref "#/components/schemas/C"] }] }) })]⟩ }

/--
The arrays that are handed on are not counted, so that a type nests three arrays where two are allowed.
-/
theorem not_limited_handedOnArrays :
    ¬∀ (document : Document) (config : Config), ∀ type ∈ (document.synthesize config).types,
      type.arrays.length ≤ config.maxArrayDepth := by
  intro limited
  have exceeding : ∃ type ∈ (handedOnArrays.synthesize { maxArrayDepth := 2 }).types,
      type.arrays.length = 3 := by decide +kernel
  obtain ⟨type, isType, isThree⟩ := exceeding
  have within : type.arrays.length ≤ 2 := limited handedOnArrays { maxArrayDepth := 2 } type isType
  omega

end Document

end ApiTypes
