import ApiTypes.Proofs.Registry.Bisimulation
import ApiTypes.Proofs.Synthesis.Agreement
import ApiTypes.Proofs.Synthesis.Concurrence
import ApiTypes.Proofs.Synthesis.Exploration
import ApiTypes.Proofs.Synthesis.Outlines

/-!
Schemas that are expanded once they are registered. If all to which a component schema leads is registered,
what the walk of its node has given is found again: nothing is declared, and nothing fails.
-/

namespace ApiTypes

open Relation

variable {context : Context} {first last other : Workspace}

/--
Component schemas that refer to none but further ones of them, of which none leads to itself. No name that
is made up inside them is held for a component schema.
-/
structure Context.Secludes (context : Context) (uses : String → Prop) : Prop where
  closed : ∀ schema target, uses schema → context.Refers schema target → uses target
  acyclic : ∀ schema, uses schema → ¬TransGen context.Refers schema schema
  frees : ∀ {schema node name}, uses schema → context.model.node? schema = some node →
    context.emitted? schema = some name → ∀ candidate, node.Tries context .declared name candidate →
      context.Frees candidate

namespace Context.Secludes

variable {uses : String → Prop} (secludes : context.Secludes uses)

include secludes

/-- Whatever such a schema leads to is one of them. -/
theorem uses_of_leads {schema target : String} (isUsed : uses schema)
    (leads : TransGen context.Refers schema target) : uses target := by
  induction leads with
  | single refers => exact secludes.closed _ _ isUsed refers
  | tail _ refers ih => exact secludes.closed _ _ ih refers

/-- Fewer schemas are secluded if they refer to none but further ones of them. -/
theorem restrict {fewer : String → Prop} (included : ∀ schema, fewer schema → uses schema)
    (closed : ∀ schema target, fewer schema → context.Refers schema target → fewer target) :
    context.Secludes fewer where
  closed := closed
  acyclic schema isOne := secludes.acyclic schema (included schema isOne)
  frees isOne := secludes.frees (included _ isOne)

/-- Those to which one of them leads are secluded as well. -/
theorem below {schema : String} (isUsed : uses schema) :
    context.Secludes (TransGen context.Refers schema) :=
  secludes.restrict (fun _ => secludes.uses_of_leads isUsed) fun _ _ => .tail

end Context.Secludes

/--
An orderly workspace in which some schemas are registered. What is registered has been declared, and every
declared shape equals itself.
-/
structure Workspace.Settles (context : Context) (active : List String) (uses : String → Prop)
    (workspace : Workspace) : Prop where
  orderly : workspace.Orderly context active
  declared : workspace.HasDeclaredAll context
  reflexive : workspace.registry.IsReflexive
  registered : ∀ schema, uses schema → workspace.resolver.state schema = .registered

/-- Whatever an action has given, another action gives it again later, and does nothing but report. -/
structure Recurs (context : Context) (active otherActive : List String) (uses : String → Prop)
    ⦃α : Type⦄ (action also : Synthesis α) : Prop where
  keeps : Maintains context active (Workspace.Spelled context) (fun _ _ => True) action
  recurs : ∀ {first last other value}, first.Orderly context active →
    action.Ends first (.ok value) last → other.Settles context otherActive uses →
    last.KeptIn other.registry →
    ∃ otherLast, also.Ends other (.ok value) otherLast ∧ other.Notes otherLast

section

variable {active otherActive : List String} {uses : String → Prop} {α β : Type}

/-- Notes follow each other. -/
theorem Workspace.Notes.trans {middle : Workspace} (notes : first.Notes middle)
    (more : middle.Notes last) : first.Notes last :=
  ⟨more.resolver_eq.trans notes.resolver_eq, more.registry_eq.trans notes.registry_eq,
    notes.diagnostics.trans more.diagnostics, fun diagnostic isOne =>
      (more.harmless diagnostic isOne).elim (notes.harmless diagnostic) .inr⟩

/-- Notes leave a workspace settled. -/
theorem Workspace.Settles.notes (settles : first.Settles context active uses)
    (notes : first.Notes last) : last.Settles context active uses where
  orderly := settles.orderly.notes notes
  declared := settles.declared.mono (fun _ _ stands => notes.registry_eq ▸ stands) fun _ isRegistered =>
    notes.resolver_eq ▸ isRegistered
  reflexive := notes.registry_eq ▸ settles.reflexive
  registered := notes.resolver_eq ▸ settles.registered

/-- Fewer schemas may be asked for. -/
theorem Workspace.Settles.mono {fewer : String → Prop} (settles : first.Settles context active uses)
    (included : ∀ schema, fewer schema → uses schema) : first.Settles context active fewer :=
  { settles with registered := fun schema isUsed => settles.registered schema (included schema isUsed) }

namespace Recurs

/-- A value is given again. -/
theorem pure (value : α) :
    Recurs context active otherActive uses (pure value : Synthesis α) (pure value) where
  keeps := .pure value
  recurs {_ _ other _} _ ends _ _ := by
    cases ((Synthesis.ends_pure_iff value).mp ends).1
    exact ⟨other, rfl, Surroundings.notes_refl other⟩

/-- A failure gives nothing. -/
theorem fail (path place : String) (failure also : Failure) :
    Recurs context active otherActive uses (Synthesis.fail path failure : Synthesis α)
      (Synthesis.fail place also) where
  keeps := .fail fun _ _ => trivial
  recurs _ ends := by cases ((Synthesis.ends_fail_iff path failure).mp ends).1

/-- Actions may follow each other, and it may be used what is known of the first value. -/
theorem bindKnowing {action also : Synthesis α} {next alsoNext : α → Synthesis β}
    (earlier : Recurs context active otherActive uses action also) (known : α → Prop)
    (keeps : ∀ value,
      Maintains context active (Workspace.Spelled context) (fun _ _ => True) (next value))
    (gives : ∀ {first last value}, first.Orderly context active → action.Ends first (.ok value) last →
      known value)
    (later : ∀ value, known value →
      Recurs context active otherActive uses (next value) (alsoNext value)) :
    Recurs context active otherActive uses (action >>= next) (also >>= alsoNext) where
  keeps := earlier.keeps.bind keeps
  recurs orderly ends settles kept := by
    -- What is declared in between stays as well, so the value in between is given again.
    obtain ⟨found, middle, acts, goesOn⟩ := (Synthesis.ends_bind_ok_iff _ _ _).mp ends
    have ⟨between, _⟩ := orderly.follow earlier.keeps acts
    have ⟨_, grows⟩ := between.follow (keeps found) goesOn
    obtain ⟨otherMiddle, alsoActs, notes⟩ := earlier.recurs orderly acts settles (grows.keptIn kept)
    obtain ⟨otherLast, alsoGoesOn, more⟩ := (later found (gives orderly acts)).recurs between goesOn
      (settles.notes notes) (notes.registry_eq ▸ kept)
    exact ⟨otherLast, (Synthesis.ends_bind_ok_iff _ _ _).mpr ⟨_, _, alsoActs, alsoGoesOn⟩,
      notes.trans more⟩

/-- Actions may follow each other. -/
theorem bind {action also : Synthesis α} {next alsoNext : α → Synthesis β}
    (earlier : Recurs context active otherActive uses action also)
    (later : ∀ value, Recurs context active otherActive uses (next value) (alsoNext value)) :
    Recurs context active otherActive uses (action >>= next) (also >>= alsoNext) :=
  earlier.bindKnowing (fun _ => True) (fun value => (later value).keeps) (fun _ _ => trivial)
    fun value _ => later value

/-- What is read of both workspaces may be such that the same is done with it. -/
theorem reads {next alsoNext : Workspace → Synthesis α}
    (later : ∀ workspace, workspace.Orderly context active →
      Recurs context active otherActive uses (next workspace) (alsoNext workspace))
    (same : ∀ {first other}, first.Orderly context active → other.Orderly context otherActive →
      alsoNext other = alsoNext first) :
    Recurs context active otherActive uses (get >>= next) (get >>= alsoNext) where
  keeps first _ _ consistent started isGiven spelled ends :=
    (later first ⟨consistent, started, spelled⟩).keeps _ _ _ consistent started isGiven spelled ends
  recurs {first _ other _} orderly ends settles kept := by
    have goesOn := (later first orderly).recurs orderly (Surroundings.ends_of_get ends) settles kept
    rw [← same orderly settles.orderly] at goesOn
    exact goesOn

/-- Both actions may report. -/
theorem reports {action also : Synthesis Unit}
    (notes : ∀ {first last result}, action.Ends first result last →
      result = .ok () ∧ first.Notes last)
    (alsoNotes : ∀ {first last result}, also.Ends first result last →
      result = .ok () ∧ first.Notes last) :
    Recurs context active otherActive uses action also where
  keeps := .reports notes fun ends spelled => spelled.notes (notes ends).2
  recurs {_ _ other _} _ _ _ _ := by
    obtain ⟨result, otherLast, alsoEnds⟩ := also.exists_ends other
    obtain ⟨rfl, noted⟩ := alsoNotes alsoEnds
    exact ⟨otherLast, alsoEnds, noted⟩

end Recurs

end

namespace Registry

/-- What is declared may be reused for an equal shape. -/
theorem isReusable_of_get? {registry : Registry} {name : String} {declaration : Declaration}
    (found : registry.get? name = some declaration) (shape : Shape) :
    isReusable shape (registry.slots.get? name) = (declaration.shape == shape) := by
  obtain ⟨slot, isSlot, isDeclared⟩ := Option.bind_eq_some_iff.mp found
  rw [isSlot]
  cases slot with
  | reserved => cases isDeclared
  | declared existing =>
    cases isDeclared
    rfl

/-- A shape that is declared already gets its name again, if no name that is tried for it is reserved. -/
theorem register_eq_of_kept {registry more : Registry} (reflexive : more.IsReflexive)
    (sameWords : more.reservedWords = registry.reservedWords) {candidate : String} {shape : Shape}
    {doc : Option String} {deprecated : Bool} {origin : Origin}
    (free : ∀ tried, registry.slots.get? (suffixed (registry.typeName candidate) tried) ≠ some .reserved)
    (kept : ∀ name declaration,
      (registry.register candidate shape doc deprecated origin).2.get? name = some declaration →
        more.get? name = some declaration) :
    more.register candidate shape doc deprecated origin =
      ((registry.register candidate shape doc deprecated origin).1, more) := by
  obtain ⟨tried, declaration, isName, declared, stands, rejected⟩ :=
    registry.exists_declared_register candidate shape doc deprecated origin
  have sameBase : more.typeName candidate = registry.typeName candidate := by
    rw [typeName, typeName, sameWords]
  have found := kept _ _ declared
  have same : (declaration.shape == shape) = true :=
    stands.elim (fun isSame => isSame ▸ reflexive _ _ found) id
  have accepted : isReusable shape (more.slots.get? (suffixed (registry.typeName candidate) tried)) =
      true := by
    rw [isReusable_of_get? found]
    exact same
  -- What stands under a name that was tried before still does, and is not equal to the shape.
  have alsoRejected : ∀ earlier < tried, isReusable shape
      (more.slots.get? (suffixed (registry.typeName candidate) earlier)) = false := by
    intro earlier isLess
    have isRejected := rejected earlier isLess
    cases isSlot : registry.slots.get? (suffixed (registry.typeName candidate) earlier) with
    | none =>
      rw [isSlot] at isRejected
      cases isRejected
    | some slot =>
      cases slot with
      | reserved => exact absurd isSlot (free earlier)
      | declared existing =>
        rw [isSlot] at isRejected
        have stood : registry.get? (suffixed (registry.typeName candidate) earlier) = some existing := by
          rw [get?, isSlot, Option.bind_some, Slot.declaration?]
        rw [isReusable_of_get? (kept _ _ (get?_register stood candidate shape doc deprecated origin))]
        exact isRejected
  have isFirst : more.firstName (isReusable shape) (more.typeName candidate) =
      suffixed (registry.typeName candidate) tried := by
    rw [sameBase]
    exact firstName_eq rfl accepted alsoRejected
  have isDeclared : more.isDeclared (suffixed (registry.typeName candidate) tried) = true :=
    (isDeclared_iff _ _).mpr ⟨_, found⟩
  rw [isName]
  unfold register
  dsimp only
  rw [isFirst, if_pos isDeclared]

end Registry

section

variable {active otherActive expanding otherExpanding : List String} {uses : String → Prop} {α : Type}
  {outside also : Surroundings}

namespace Recurs

/-- A shape is found again under its name. -/
theorem register {candidate : String} (free : context.Frees candidate) (shape : Shape)
    (doc : Option String) (deprecated : Bool) (path : String) :
    Recurs context active otherActive uses
      (Synthesis.register candidate shape doc deprecated (.inline path))
      (Synthesis.register candidate shape doc deprecated (.inline path)) where
  keeps := .register (fun registers spelled => spelled.registers registers) _ _ _ _ _
  recurs {first _ other _} orderly ends settles kept := by
    obtain ⟨isName, rfl⟩ := (Synthesis.ends_register_iff candidate shape doc deprecated _).mp ends
    cases isName
    have isSame := Registry.register_eq_of_kept settles.reflexive
      (settles.orderly.spelled.reservedWords_eq.trans orderly.spelled.reservedWords_eq.symm)
      (fun tried => orderly.spelled.typeName_eq candidate ▸ orderly.spelled.not_reserved free tried) kept
    refine ⟨other, (Synthesis.ends_register_iff _ _ _ _ _).mpr ⟨?_, ?_⟩, Surroundings.notes_refl other⟩
    · rw [isSame]
    · rw [isSame]

/-- A case gets its name again, for a type that its node turns out to have. -/
theorem nameMember {type : TypeExpr} {parent place : Scope}
    (free : type.name? = none → context.Frees
      (Surroundings.memberCandidate (Workspace.ofContext context).registry parent.name type)) :
    Recurs context active otherActive uses (Surroundings.nameMember type parent place)
      (Surroundings.nameMember type parent place) := by
  have sameCandidate {workspace : Workspace} (spelled : workspace.Spelled context) :
      Surroundings.memberCandidate workspace.registry parent.name type =
        Surroundings.memberCandidate (Workspace.ofContext context).registry parent.name type := by
    simp only [Surroundings.memberCandidate, Registry.arrayName, spelled.arraySuffix_eq,
      (Workspace.Spelled.ofContext context).arraySuffix_eq]
  refine ⟨Concurs.maintains_nameMember _ _ _ _, fun {first last other name} orderly ends settles kept => ?_⟩
  unfold Surroundings.nameMember at ends ⊢
  cases isName : type.name? with
  | some found =>
    rw [isName] at ends
    have isFound := ((Synthesis.ends_pure_iff found).mp ends).1
    exact ⟨other, (Synthesis.ends_pure_iff found).mpr ⟨isFound, rfl⟩, Surroundings.notes_refl other⟩
  | none =>
    -- The candidate depends on nothing of the registry but the ending of names of arrays.
    rw [isName] at ends
    have registers := Surroundings.ends_of_get ends
    rw [sameCandidate orderly.spelled] at registers
    obtain ⟨otherLast, again, notes⟩ := (register (free isName) (.alias (type.withNullable false)) none
      false place.path).recurs orderly registers settles kept
    rw [← sameCandidate settles.orderly.spelled] at again
    exact ⟨otherLast, (Synthesis.ends_bind_iff _ _).mpr (.inr ⟨other, other, rfl, again⟩), notes⟩

/-- The case of a choice gets its name again. -/
theorem nameCase (adequate : outside.Adequate context active expanding) {member : SchemaNode}
    {parent place : Scope} {depth : Nat} {next alsoNext : TypeExpr → String → Synthesis α}
    (free : ∀ candidate, member.CaseName context parent.name candidate → context.Frees candidate)
    (used : Recurs context active otherActive uses ((outside.walk member).expression place depth)
      ((also.walk member).expression place depth))
    (later : ∀ type name, Recurs context active otherActive uses (next type name) (alsoNext type name)) :
    Recurs context active otherActive uses
      (do
        let type ← (outside.walk member).expression place depth
        let name ← Surroundings.nameMember type parent place
        next type name)
      (do
        let type ← (also.walk member).expression place depth
        let name ← Surroundings.nameMember type parent place
        alsoNext type name) := by
  refine used.bindKnowing (fun type => member.MayBe context type.kind)
    (fun type => (Concurs.maintains_nameMember _ type _ _).bind fun name => (later type name).keeps)
    (fun orderly ends => ?_) fun type mayBe => ?_
  · have follows := (adequate.walkFollows member).expression place depth
    exact Yields.mayBe (follows _ _ _ orderly.consistent orderly.started ends)
  · exact (nameMember fun unnamed => free _ ⟨type, mayBe, unnamed, rfl⟩).bind fun name =>
      later type name

/-- Members that have combined do so again. -/
theorem combine (inputs : List IntersectionMember) (path : String) :
    Recurs context active otherActive uses
      (get >>= fun workspace => Synthesis.liftComposition path
        (mergeAllOf inputs workspace.registry.equivalent) : Synthesis Merged)
      (get >>= fun workspace => Synthesis.liftComposition path
        (mergeAllOf inputs workspace.registry.equivalent)) where
  keeps := Concurs.maintains_combine inputs path active
  recurs {first last other merged} _ ends _ kept := by
    obtain ⟨isMerged, rfl⟩ :=
      (Synthesis.ends_liftComposition_ok_iff path _ _).mp (Surroundings.ends_of_get ends)
    -- What was equivalent then still is.
    have isAgain : mergeAllOf inputs other.registry.equivalent = .ok merged :=
      Intersection.mergeAllOf_mono (fun _ _ => Registry.equivalent_mono kept) isMerged
    exact ⟨other, (Synthesis.ends_bind_iff _ _).mpr (.inr ⟨other, other, rfl,
      (Synthesis.ends_liftComposition_ok_iff path _ _).mpr ⟨isAgain, rfl⟩⟩), Surroundings.notes_refl other⟩

/-- A schema that is registered is used again, without being entered. -/
theorem reference (adequate : outside.Adequate context active expanding)
    (alsoAdequate : also.Adequate context otherActive otherExpanding) {target : String}
    (isUsed : uses target) (scope : Scope) :
    Recurs context active otherActive uses (outside.reference target scope)
      (also.reference target scope) where
  keeps := (adequate.reference target scope).maintains_spelled
  recurs {_ _ other _} orderly ends settles _ := by
    have looked := adequate.reference target scope _ _ _ orderly.consistent orderly.started ends
    have registered := settles.registered target isUsed
    have notEntered : also.entered target other = other := by
      rw [Surroundings.entered, if_neg (by simp [registered])]
    obtain ⟨result, otherLast, again⟩ := (also.reference target scope).exists_ends other
    cases looked with
    | reference found emitted =>
      cases also.referenceEnds again with
      | undefined isUndefined =>
        rw [alsoAdequate.context_eq, found] at isUndefined
        cases isUndefined
      | ready isFound =>
        rw [alsoAdequate.context_eq, found] at isFound
        cases isFound
        rw [notEntered, settles.orderly.consistent.emitted_get?, emitted] at again
        exact ⟨other, again, Surroundings.notes_refl other⟩
      | unready _ isUnready =>
        rw [notEntered] at isUnready
        simp [registered] at isUnready

/-- What a shape contributes is contributed again if what it names is. -/
theorem contributionOf {shape : Shape}
    (expands : ∀ type schema path, shape = .alias type → context.schemaOf? type = some schema →
      Recurs context active otherActive uses (outside.expand schema path) (also.expand schema path))
    (scope : Scope) :
    Recurs context active otherActive uses (outside.contributionOf shape scope)
      (also.contributionOf shape scope) := by
  cases shape with
  | record | enum | union => exact pure _
  | «alias» type =>
    refine reads (fun workspace orderly => ?_) fun orderly alsoOrderly => ?_
    · dsimp only
      rw [orderly.consistent.schemas_eq]
      split
      · rename_i schema named _
        exact expands type schema _ rfl named
      · exact pure _
      · exact pure _
    · rw [orderly.consistent.schemas_eq, alsoOrderly.consistent.schemas_eq]

/-- What is included in a used schema, by whatever chain, is used if a single inclusion leads to used ones. -/
theorem uses_of_chain (closed : ∀ schema target, uses schema → context.Includes schema target → uses target)
    {schema target : String} (isUsed : uses schema)
    (chain : ReflTransGen context.Includes schema target) : uses target := by
  induction chain with
  | refl => exact isUsed
  | tail _ includes ih => exact closed _ _ ih includes

/-- What an intersection names whose members refer to used schemas is used as well, or it is atomic. -/
theorem uses_of_alias (adequate : outside.Adequate context active expanding)
    (closed : ∀ schema target, uses schema → context.Includes schema target → uses target)
    {members : List SchemaNode} {scope : Scope} {depth : Nat} {shape : Shape}
    (refers : ∀ member ∈ members, ∀ target, member.Refers target → uses target)
    (orderly : first.Orderly context active)
    (ends : (outside.intersection (members.map outside.walked) scope depth).Ends first (.ok shape) last)
    (type : TypeExpr) (schema : String) (isAlias : shape = .alias type)
    (named : context.schemaOf? type = some schema) : uses schema ∨ context.IsAtomic schema := by
  subst isAlias
  have walks : ∀ node ∈ members, Surroundings.WalkFollows context active expanding node
      (outside.walk node) := fun node _ => adequate.walkFollows node
  have yields : Yields context expanding first (.intersection members depth) (.shape (.alias type)) last :=
    adequate.follows_intersection walks scope depth _ _ _ orderly.consistent orderly.started ends
  rcases yields.taken orderly.consistent schema named with
    ⟨⟨target, ⟨member, isMember, includes⟩, chain⟩, _⟩ | isAtomic
  · exact .inl (uses_of_chain closed (refers member isMember target includes.refers) chain)
  · exact .inr isAtomic

/-- Every step of a walk is made again if the expansions of used schemas are. -/
theorem correspondence (adequate : outside.Adequate context active expanding)
    (alsoAdequate : also.Adequate context otherActive otherExpanding)
    (closed : ∀ schema target, uses schema → context.Includes schema target → uses target)
    (expands : ∀ target path, uses target ∨ context.IsAtomic target →
      Recurs context active otherActive uses (outside.expand target path) (also.expand target path)) :
    Correspondence outside also (fun _ => True) uses (fun _ => True) context.Frees
      (Recurs context active otherActive uses) where
  maxArrayDepth_eq := by rw [adequate.context_eq, alsoAdequate.context_eq]
  maxItems_eq := by rw [adequate.context_eq, alsoAdequate.context_eq]
  leadsToChoice_eq _ := by rw [adequate.context_eq, alsoAdequate.context_eq]
  below _ := id
  pure := .pure
  bind := .bind
  fail failure _ _ := .fail _ _ failure failure
  register shape doc deprecated path free := .register free shape doc deprecated path
  nameCase free used later := .nameCase adequate (adequate.context_eq ▸ free) used later
  combine inputs _ _ := .combine inputs _
  undeclared _ _ _ := .reports Surroundings.ends_reportUndeclared Surroundings.ends_reportUndeclared
  notes _ _ _ := .reports Surroundings.notes_of_reportNotes Surroundings.notes_of_reportNotes
  reference isUsed _ := .reference adequate alsoAdequate isUsed _
  merge isUsed _ _ later := (reference adequate alsoAdequate isUsed _).bind fun type =>
    (expands _ _ (.inl isUsed)).bind fun shape => later type shape
  take {members scope depth} refers _ _ intersects := by
    -- What a nested intersection names is used, by a chain of inclusions, or it is atomic.
    refine intersects.bindKnowing (fun shape => ∀ type schema, shape = .alias type →
      context.schemaOf? type = some schema → uses schema ∨ context.IsAtomic schema)
      (fun shape => ?_) (uses_of_alias adequate closed refers) fun shape known => ?_
    · exact (adequate.follows_take shape scope).maintains_spelled
    · exact contributionOf (fun type schema path isAlias named =>
        expands schema path (known type schema isAlias named)) scope

/-- The record of an object that has been declared is found again. -/
theorem exists_record {properties : List (Property SchemaNode)} {additional : Option SchemaNode}
    {traits : NodeTraits} {scope : Scope} {shape : Shape}
    (records : Recurs context active otherActive uses
      (Surroundings.record (properties.map outside.walkedProperty) (additional.map outside.walked) scope)
      (Surroundings.record (properties.map also.walkedProperty) (additional.map also.walked) scope))
    (orderly : first.Orderly context active)
    (declares : ((outside.walk ⟨.object properties additional, traits⟩).declare scope 0).Ends first
      (.ok shape) last)
    (settles : other.Settles context otherActive uses) (kept : last.KeptIn other.registry) :
    ∃ record otherLast, (Surroundings.record (properties.map also.walkedProperty)
      (additional.map also.walked) scope).Ends other (.ok record) otherLast ∧ other.Notes otherLast := by
  rw [Surroundings.walk_object, Surroundings.objectWalk] at declares
  simp only [List.isEmpty_map, Option.isNone_map] at declares
  split at declares
  · -- Without any parts it is declared as a map, and its record is empty.
    rename_i isEmpty
    simp only [Bool.and_eq_true, List.isEmpty_iff, Option.isNone_iff_eq_none] at isEmpty
    obtain ⟨rfl, rfl⟩ := isEmpty
    exact ⟨_, other, rfl, Surroundings.notes_refl other⟩
  · obtain ⟨middle, noted, declares⟩ := Surroundings.ends_of_reportUndeclared declares
    obtain ⟨record, _, walks, isShape⟩ := (Synthesis.ends_bind_ok_iff _ _ _).mp declares
    cases ((Synthesis.ends_pure_iff _).mp isShape).2
    obtain ⟨otherLast, again, notes⟩ := records.recurs (orderly.notes noted) walks settles kept
    exact ⟨record, otherLast, again, notes⟩

/-- A shape contributes something if what it names can be expanded. -/
theorem exists_contribution
    (expands : ∀ schema path workspace, uses schema ∨ context.IsAtomic schema →
      workspace.Settles context otherActive uses → ∃ shape last,
        (also.expand schema path).Ends workspace (.ok shape) last ∧ workspace.Notes last)
    {shape : Shape} (settles : other.Settles context otherActive uses)
    (isUsed : ∀ type schema, shape = .alias type → context.schemaOf? type = some schema →
      uses schema ∨ context.IsAtomic schema) (scope : Scope) :
    ∃ taken last, (also.contributionOf shape scope).Ends other (.ok taken) last ∧ other.Notes last := by
  cases shape with
  | record | enum | union => exact ⟨_, other, rfl, Surroundings.notes_refl other⟩
  | «alias» type =>
    -- How it ends is what comes of expanding the schema, or what is given back at once.
    obtain ⟨result, last, ends⟩ := (also.contributionOf (.alias type) scope).exists_ends other
    have goesOn := Surroundings.ends_of_get ends
    dsimp only at goesOn
    rw [settles.orderly.consistent.schemas_eq] at goesOn
    split at goesOn
    · rename_i schema named _
      obtain ⟨taken, otherLast, expanded, notes⟩ :=
        expands schema scope.path other (isUsed type schema rfl named) settles
      obtain ⟨rfl, rfl⟩ := goesOn.unique expanded
      exact ⟨taken, _, ends, notes⟩
    all_goals
      obtain ⟨rfl, rfl⟩ := (Synthesis.ends_pure_iff _).mp goesOn
      exact ⟨_, _, ends, Surroundings.notes_refl _⟩

/--
A node that has been declared can be expanded once what it refers to is settled, if that can be expanded.
-/
theorem exists_expand (corresponds : Correspondence outside also (fun _ => True) uses (fun _ => True)
      context.Frees (Recurs context active otherActive uses))
    (adequate : outside.Adequate context active expanding)
    (closed : ∀ schema target, uses schema → context.Includes schema target → uses target)
    {node : SchemaNode} {scope : Scope} (refers : ∀ target, node.Refers target → uses target)
    (allowed : scope.Allows context context.Frees .declared node)
    (expands : ∀ schema path workspace, uses schema ∨ context.IsAtomic schema →
      workspace.Settles context otherActive uses → ∃ shape last,
        (also.expand schema path).Ends workspace (.ok shape) last ∧ workspace.Notes last)
    {shape : Shape} (orderly : first.Orderly context active)
    (declares : ((outside.walk node).declare scope 0).Ends first (.ok shape) last)
    (settles : other.Settles context otherActive uses) (kept : last.KeptIn other.registry) :
    ∃ taken otherLast, ((also.walk node).expand scope).Ends other (.ok taken) otherLast ∧
      other.Notes otherLast := by
  have walks (part : SchemaNode) (inside : ∀ target, part.Refers target → uses target) :=
    corresponds.walk part inside fun _ _ => trivial
  have isAllowed : scope.Allows outside.context context.Frees .declared node := by
    rw [adequate.context_eq]
    exact allowed
  obtain ⟨kind, traits⟩ := node
  cases kind with
  | primitive | enum | array | map | null => exact ⟨_, other, rfl, Surroundings.notes_refl other⟩
  | any =>
    rw [Surroundings.walk_any, Surroundings.anyWalk]
    split <;> exact ⟨_, other, rfl, Surroundings.notes_refl other⟩
  | object properties additional =>
    have isRecord := corresponds.record (corresponds.inside trivial) isAllowed
      (fun property isListed => walks _ fun target inside => refers target (.property isListed inside))
      fun value isValue => walks _ fun target inside => refers target (.additional isValue inside)
    obtain ⟨record, otherLast, again, notes⟩ := isRecord.exists_record orderly declares settles kept
    refine ⟨.record record, otherLast, ?_, notes⟩
    rw [Surroundings.walk_object]
    exact (Synthesis.ends_bind_ok_iff _ _ _).mpr ⟨_, _, again, rfl⟩
  | reference target =>
    rw [Surroundings.walk_reference] at declares ⊢
    obtain ⟨middle, noted, declares⟩ := Surroundings.ends_of_reportUndeclared declares
    obtain ⟨_, _, uses, isShape⟩ := (Synthesis.ends_bind_ok_iff _ _ _).mp declares
    obtain ⟨_, _, looks, isType⟩ := (Synthesis.ends_bind_ok_iff _ _ _).mp uses
    cases ((Synthesis.ends_pure_iff _).mp isShape).2
    cases ((Synthesis.ends_pure_iff _).mp isType).2
    obtain ⟨otherMiddle, again, notes⟩ := (corresponds.reference (refers target .reference)
      trivial).recurs (orderly.notes noted) looks settles kept
    obtain ⟨taken, otherLast, expands, more⟩ :=
      expands target scope.path otherMiddle (.inl (refers target .reference)) (settles.notes notes)
    exact ⟨taken, otherLast, (Synthesis.ends_bind_ok_iff _ _ _).mpr ⟨_, _, again, expands⟩,
      notes.trans more⟩
  | composed kind members discriminator =>
    cases kind with
    | oneOf | anyOf => exact ⟨_, other, rfl, Surroundings.notes_refl other⟩
    | allOf =>
      rw [Surroundings.walk_allOf] at declares ⊢
      obtain ⟨middle, noted, declares⟩ := Surroundings.ends_of_reportUndeclared declares
      obtain ⟨found, inner, intersects, isShape⟩ := (Synthesis.ends_bind_ok_iff _ _ _).mp declares
      have stays : inner.KeptIn other.registry := by
        cases found <;> cases ((Synthesis.ends_pure_iff _).mp isShape).2 <;> exact kept
      have atMiddle := orderly.notes noted
      have memberRefers : ∀ member ∈ members, ∀ target, member.Refers target → uses target :=
        fun member isMember target inside => refers target (.member isMember inside)
      obtain ⟨otherMiddle, again, notes⟩ := (corresponds.intersection trivial 0 memberRefers
        (fun _ _ _ _ => trivial) (fun member isMember _ candidate tries =>
          isAllowed candidate (.member isMember tries)) fun member isMember =>
            walks member (memberRefers member isMember)).recurs atMiddle intersects settles stays
      obtain ⟨taken, otherLast, takes, more⟩ := exists_contribution expands (settles.notes notes)
        (uses_of_alias adequate closed memberRefers atMiddle intersects) scope
      exact ⟨taken, otherLast, (Synthesis.ends_bind_ok_iff _ _ _).mpr ⟨_, _, again, takes⟩,
        notes.trans more⟩

end Recurs

end

namespace Synthesis

/-- A component schema that is not in expansion is expanded by its node unless it is a choice. -/
theorem ends_expandWithin {active expanding : List String} {name path : String} {node : SchemaNode}
    {result : Except LocatedFailure MemberShape} (fresh : name ∉ expanding)
    (found : context.model.node? name = some node) (notChoice : context.model.isUnion node = false)
    (ends : (((within context true active (name :: expanding)).walk node).expand
      ⟨emittedName first name name, Pointer.ofSchema name⟩).Ends first result last) :
    (expandWithin context active expanding name path).Ends first result last := by
  rw [expandWithin_eq, if_neg (by simpa using fresh), found]
  dsimp only
  rw [if_neg (by simp [notChoice])]
  exact (ends_bind_iff _ _).mpr (.inr ⟨first, first, rfl, ends⟩)

/-- A choice is not walked when it is expanded. -/
theorem ends_expandWithin_choice {active expanding : List String} {name path : String}
    {node : SchemaNode} (fresh : name ∉ expanding) (found : context.model.node? name = some node)
    (isChoice : context.model.isUnion node = true) (workspace : Workspace) :
    (expandWithin context active expanding name path).Ends workspace (.ok .union) workspace := by
  rw [expandWithin_eq, if_neg (by simpa using fresh), found]
  dsimp only
  rw [if_pos isChoice]
  rfl

/-- An atomic schema stands for its name when it is expanded. -/
theorem expand_of_isAtomic (outside : Surroundings) {node : SchemaNode} (isAtomic : node.isAtomic = true)
    (scope : Scope) : (outside.walk node).expand scope = pure (.scalar (.named scope.name)) := by
  obtain ⟨kind, traits⟩ := node
  cases kind with
  | object | composed | reference => cases isAtomic
  | primitive | enum | array | map | null => rfl
  | any =>
    have restricts : (!traits.constraints.isEmpty) = true := isAtomic
    rw [Surroundings.walk_any, Surroundings.anyWalk, if_pos restricts]
    rfl

/--
What secluded schemas contribute they contribute again once they are registered, and so do atomic schemas,
if no expansion of them is in progress then.
-/
theorem recurs_within {uses : String → Prop} (secludes : context.Secludes uses) (muted alsoMuted : Bool)
    (active expanding otherActive otherExpanding : List String)
    (apart : ∀ schema ∈ otherExpanding, ¬uses schema ∧ ¬context.IsAtomic schema) {target : String}
    (path : String) (isUsed : uses target ∨ context.IsAtomic target) :
    Recurs context active otherActive uses
      ((within context muted active expanding).expand target path)
      ((within context alsoMuted otherActive otherExpanding).expand target path) := by
  -- The induction is on the schemas that are not expanded in the first walk; below the target there are
  -- fewer that are used, and the target is none of them.
  induction active, expanding using withinInduction context.model
    generalizing uses muted alsoMuted otherExpanding target path with
  | step active expanding inside expansion =>
    have adequate := adequate_within context muted active expanding
    refine ⟨(adequate.expand target path).maintains_spelled, ?_⟩
    intro first last other value orderly ends settles kept
    have alsoFresh : target ∉ otherExpanding := fun isExpanding =>
      isUsed.elim (apart target isExpanding).1 (apart target isExpanding).2
    rcases expandWithin_cases ends with ⟨_, isError, _⟩ | ⟨_, isError, _⟩ |
      ⟨node, found, fresh, ⟨isChoice, isValue, _⟩ | ⟨notChoice, expands⟩⟩
    · cases isError
    · cases isError
    · cases isValue
      exact ⟨other, ends_expandWithin_choice alsoFresh found isChoice other,
        Surroundings.notes_refl other⟩
    obtain ⟨name, isEmitted⟩ :=
      (context.exists_emitted?_iff target).mpr (context.model.mem_names found)
    have isName : emittedName first target target = name := by
      simp [emittedName, orderly.consistent.emitted_get?, isEmitted]
    have sameName : emittedName other target target = name := by
      simp [emittedName, settles.orderly.consistent.emitted_get?, isEmitted]
    suffices again : ∃ otherLast, (((within context true otherActive (target :: otherExpanding)).walk
        node).expand ⟨name, Pointer.ofSchema target⟩).Ends other (.ok value) otherLast ∧
          other.Notes otherLast by
      obtain ⟨otherLast, alsoExpands, notes⟩ := again
      exact ⟨otherLast, ends_expandWithin alsoFresh found notChoice (sameName ▸ alsoExpands), notes⟩
    rw [isName] at expands
    cases isAtomic : node.isAtomic with
    | true =>
      rw [expand_of_isAtomic _ isAtomic] at expands ⊢
      exact ⟨other, (ends_pure_iff _).mpr ⟨((ends_pure_iff _).mp expands).1, rfl⟩,
        Surroundings.notes_refl other⟩
    | false =>
      have notAtomic : ¬context.IsAtomic target := context.not_isAtomic found (by simp [isAtomic])
      have isOne := isUsed.resolve_right notAtomic
      have below := secludes.below isOne
      have alsoApart : ∀ schema ∈ target :: otherExpanding,
          ¬TransGen context.Refers target schema ∧ ¬context.IsAtomic schema :=
        List.forall_mem_cons.mpr ⟨⟨secludes.acyclic target isOne, notAtomic⟩, fun schema isExpanding =>
          ⟨fun leads => (apart schema isExpanding).1 (secludes.uses_of_leads isOne leads),
            (apart schema isExpanding).2⟩⟩
      have corresponds := Recurs.correspondence (adequate_within context true active (target :: expanding))
        (adequate_within context true otherActive (target :: otherExpanding))
        (fun _ _ leads includes => leads.tail includes.refers)
        fun target path =>
          expansion _ node found fresh below true true _ alsoApart path
      exact (corresponds.expand node (fun _ refers => .single ⟨node, found, refers⟩) (fun _ _ => trivial)
        (fun _ _ => trivial) trivial (secludes.frees isOne found isEmitted)).recurs orderly expands
        (settles.mono fun schema => secludes.uses_of_leads isOne) kept

/-- Nothing happens when an atomic schema is expanded. -/
theorem exists_expansion_of_isAtomic {active expanding : List String} {target : String}
    (fresh : target ∉ expanding) (isAtomic : context.IsAtomic target) (path : String)
    (workspace : Workspace) :
    ∃ shape, (expandWithin context active expanding target path).Ends workspace (.ok shape) workspace := by
  obtain ⟨node, found, isAtomic⟩ := isAtomic
  refine ⟨.scalar (.named (emittedName workspace target target)),
    ends_expandWithin fresh found (context.model.not_isUnion_of_isAtomic isAtomic) ?_⟩
  rw [expand_of_isAtomic _ isAtomic]
  rfl

/--
A secluded schema that is registered can be expanded, if no expansion of what it leads to is in progress.
-/
theorem exists_expansion (active expanding : List String) {target : String} (path : String)
    (secludes : context.Secludes (ReflTransGen context.Refers target))
    (apart : ∀ schema ∈ expanding,
      ¬ReflTransGen context.Refers target schema ∧ ¬context.IsAtomic schema)
    {workspace : Workspace}
    (settles : workspace.Settles context active (ReflTransGen context.Refers target)) :
    ∃ shape last, (expandWithin context active expanding target path).Ends workspace (.ok shape) last ∧
      workspace.Notes last := by
  -- The walk that has declared the schema is made again, and what it comes to is expanded in turn.
  induction active, expanding using withinInduction context.model
    generalizing target path workspace with
  | step active expanding inside expansion =>
    have fresh : target ∉ expanding := fun isExpanding => (apart target isExpanding).1 .refl
    cases settles.declared target (settles.registered target .refl) with
    | @component node declaration found emitted stands given =>
    cases given with
    | @walk muted oldActive oldExpanding oldFirst oldLast orderly declares kept =>
    cases isChoice : context.model.isUnion node with
    | true =>
      exact ⟨_, _, ends_expandWithin_choice fresh found isChoice workspace,
        Surroundings.notes_refl workspace⟩
    | false =>
    suffices again : ∃ shape last, (((within context true active (target :: expanding)).walk node).expand
        ⟨declaration.name, Pointer.ofSchema target⟩).Ends workspace (.ok shape) last ∧
          workspace.Notes last by
      obtain ⟨shape, last, expands, notes⟩ := again
      have isName : emittedName workspace target target = declaration.name := by
        simp [emittedName, settles.orderly.consistent.emitted_get?, emitted]
      exact ⟨shape, last, ends_expandWithin fresh found isChoice (isName ▸ expands), notes⟩
    cases isAtomic : node.isAtomic with
    | true =>
      rw [expand_of_isAtomic _ isAtomic]
      exact ⟨_, workspace, rfl, Surroundings.notes_refl workspace⟩
    | false =>
      have notAtomic : ¬context.IsAtomic target := context.not_isAtomic found (by simp [isAtomic])
      have below := secludes.below .refl
      have alsoApart : ∀ schema ∈ target :: expanding,
          ¬TransGen context.Refers target schema ∧ ¬context.IsAtomic schema :=
        List.forall_mem_cons.mpr ⟨⟨secludes.acyclic target .refl, notAtomic⟩, fun schema isExpanding =>
          ⟨fun leads => (apart schema isExpanding).1 leads.to_reflTransGen, (apart schema isExpanding).2⟩⟩
      have includes : ∀ schema target', TransGen context.Refers target schema →
          context.Includes schema target' → TransGen context.Refers target target' :=
        fun _ _ leads includes => leads.tail includes.refers
      have adequate := adequate_within context muted oldActive oldExpanding
      have corresponds := Recurs.correspondence adequate
        (adequate_within context true active (target :: expanding)) includes fun schema path =>
          recurs_within below muted true oldActive oldExpanding active _ alsoApart path
      refine Recurs.exists_expand corresponds adequate includes
        (fun _ refers => .single ⟨node, found, refers⟩) (secludes.frees .refl found emitted)
        (fun schema path workspace isUsed settles => ?_) orderly declares
        (settles.mono fun schema leads => leads.to_reflTransGen) kept
      rcases isUsed with leads | isAtomic
      · have within (other : String) (chain : ReflTransGen context.Refers schema other) :
            TransGen context.Refers target other := leads.trans_left chain
        exact expansion target node found fresh path
          (below.restrict within fun _ _ => .tail)
          (fun other isExpanding =>
            ⟨fun chain => (alsoApart other isExpanding).1 (within other chain),
              (alsoApart other isExpanding).2⟩)
          (settles.mono within)
      · have notExpanding : schema ∉ target :: expanding := fun isExpanding =>
          (alsoApart schema isExpanding).2 isAtomic
        obtain ⟨shape, expands⟩ := exists_expansion_of_isAtomic notExpanding isAtomic path workspace
        exact ⟨shape, workspace, expands, Surroundings.notes_refl workspace⟩

end Synthesis

end ApiTypes
