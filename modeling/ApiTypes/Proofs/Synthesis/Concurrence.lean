import ApiTypes.Proofs.MergedMembers
import ApiTypes.Proofs.Synthesis.Entries
import ApiTypes.Proofs.Synthesis.Maintenance
import ApiTypes.Proofs.Synthesis.Records

/-!
Repeated walks. A node that is walked twice, at different times and inside different schemas in
progress, comes to the same if all that is declared stays, and no name that is made up for a candidate of
the node is held for a component schema.
-/

namespace ApiTypes

variable {context : Context} {registry : Registry} {first last : Workspace}

namespace Workspace.Spelled

/-- A shape that gets a name does not change how names are made up. -/
theorem registers (spelled : first.Spelled context) {shape : Shape} {name : String}
    (registers : first.Registers shape name last) : last.Spelled context := by
  obtain ⟨candidate, doc, deprecated, path, isRegistered, isLast⟩ := registers
  have registered := spelled.register candidate shape doc deprecated (.inline path)
  rw [isRegistered] at registered
  exact isLast ▸ registered

/-- Notes do not change it either. -/
theorem notes (spelled : first.Spelled context) (notes : first.Notes last) : last.Spelled context :=
  spelled.same notes.registry_eq

/-- Nor do the steps of a task. -/
theorem steps {expanding : List String} {task : Task} (spelled : first.Spelled context)
    (steps : Steps context expanding task first last) (consistent : Consistent context first) :
    last.Spelled context := by
  induction steps with
  | refl => exact spelled
  | notes notes => exact spelled.notes notes
  | registers _ _ registers => exact spelled.registers registers
  | entry _ _ _ entry => exact spelled.runs (entry.runs consistent)
  | trans earlier _ ih laterIh =>
    exact laterIh (ih spelled consistent) (earlier.advances consistent).1

/-- The base of the names for a candidate is the one that the settings say. -/
theorem typeName_eq (spelled : first.Spelled context) (candidate : String) :
    typeName context.config.reservedWords candidate = first.registry.typeName candidate := by
  rw [Registry.typeName, spelled.reservedWords_eq]

/-- No name that is made up for a free candidate is held for anything. -/
theorem not_reserved (spelled : first.Spelled context) {candidate : String}
    (free : context.Frees candidate) (tried : Nat) :
    first.registry.slots.get? (Registry.suffixed
      (typeName context.config.reservedWords candidate) tried) ≠ some .reserved := by
  intro isReserved
  obtain ⟨schema, isEmitted⟩ := spelled.of_reserved isReserved
  exact free schema _ tried isEmitted rfl

end Workspace.Spelled

/-- What comes of a task keeps to how names are made up. -/
theorem Follows.maintains_spelled {α : Type} {active expanding : List String} {task : Task}
    {wrap : α → Value} {action : Synthesis α}
    (follows : Follows context active expanding task wrap action) :
    Maintains context active (Workspace.Spelled context) (fun _ _ => True) action := by
  intro first last result consistent started _ spelled ends
  have steps := (follows _ _ _ consistent started ends).steps consistent
  have ⟨after, grows⟩ := steps.advances consistent
  exact ⟨after, grows, spelled.steps steps consistent, fun _ _ => trivial⟩

/--
Whatever two actions give, at different times and inside different active schemas, is the same if all
that is declared by then stays in a registry.
-/
structure Concurs (context : Context) (registry : Registry) (active otherActive : List String)
    ⦃α : Type⦄ (action also : Synthesis α) : Prop where
  keeps : Maintains context active (Workspace.Spelled context) (fun _ _ => True) action
  alsoKeeps : Maintains context otherActive (Workspace.Spelled context) (fun _ _ => True) also
  agrees : ∀ {first last value otherFirst otherLast other}, first.Orderly context active →
    otherFirst.Orderly context otherActive → action.Ends first (.ok value) last →
    also.Ends otherFirst (.ok other) otherLast → last.KeptIn registry → otherLast.KeptIn registry →
    value = other

section

variable {active otherActive : List String} {α β : Type}

/-- An orderly workspace is left orderly, with all that was declared in it. -/
theorem Workspace.Orderly.follow {action : Synthesis α} {result : Except LocatedFailure α}
    (orderly : first.Orderly context active)
    (keeps : Maintains context active (Workspace.Spelled context) (fun _ _ => True) action)
    (ends : action.Ends first result last) : last.Orderly context active ∧ Grows first last := by
  obtain ⟨after, grows, spelled, _⟩ :=
    keeps _ _ _ orderly.consistent orderly.started trivial orderly.spelled ends
  exact ⟨⟨after, grows.started orderly.started, spelled⟩, grows⟩

/-- Notes leave a workspace orderly. -/
theorem Workspace.Orderly.notes (orderly : first.Orderly context active) (notes : first.Notes last) :
    last.Orderly context active :=
  have ⟨after, grows⟩ := notes.advances orderly.consistent
  ⟨after, grows.started orderly.started, orderly.spelled.notes notes⟩

/-- What is kept of a later workspace is kept of an earlier one. -/
theorem Grows.keptIn (grows : Grows first last) (kept : last.KeptIn registry) : first.KeptIn registry :=
  fun name declaration stands => kept name declaration (grows.get?_eq stands)

namespace Concurs

/-- Returning a value concurs with returning it. -/
theorem pure (value : α) :
    Concurs context registry active otherActive (pure value : Synthesis α) (pure value) where
  keeps := .pure value
  alsoKeeps := .pure value
  agrees _ _ ends alsoEnds _ _ := by
    cases ((Synthesis.ends_pure_iff value).mp ends).1
    cases ((Synthesis.ends_pure_iff value).mp alsoEnds).1
    rfl

/-- Failing gives nothing. -/
theorem fail (path otherPath : String) (failure other : Failure) :
    Concurs context registry active otherActive (Synthesis.fail path failure : Synthesis α)
      (Synthesis.fail otherPath other) where
  keeps := .fail fun _ _ => trivial
  alsoKeeps := .fail fun _ _ => trivial
  agrees _ _ ends := by cases ((Synthesis.ends_fail_iff path failure).mp ends).1

/-- Actions that concur may follow each other, and it may be used what is known of the first value. -/
theorem bindKnowing {action also : Synthesis α} {next alsoNext : α → Synthesis β}
    (earlier : Concurs context registry active otherActive action also) (known : α → Prop)
    (keeps : ∀ value,
      Maintains context active (Workspace.Spelled context) (fun _ _ => True) (next value))
    (alsoKeeps : ∀ value,
      Maintains context otherActive (Workspace.Spelled context) (fun _ _ => True) (alsoNext value))
    (gives : ∀ {first last value}, first.Orderly context active → action.Ends first (.ok value) last →
      known value)
    (later : ∀ value, known value →
      Concurs context registry active otherActive (next value) (alsoNext value)) :
    Concurs context registry active otherActive (action >>= next) (also >>= alsoNext) where
  keeps := earlier.keeps.bind keeps
  alsoKeeps := earlier.alsoKeeps.bind alsoKeeps
  agrees orderly alsoOrderly ends alsoEnds kept alsoKept := by
    obtain ⟨found, middle, acts, goesOn⟩ := (Synthesis.ends_bind_ok_iff _ _ _).mp ends
    obtain ⟨other, otherMiddle, alsoActs, alsoGoesOn⟩ := (Synthesis.ends_bind_ok_iff _ _ _).mp alsoEnds
    have ⟨between, _⟩ := orderly.follow earlier.keeps acts
    have ⟨alsoBetween, _⟩ := alsoOrderly.follow earlier.alsoKeeps alsoActs
    have ⟨_, grows⟩ := between.follow (keeps found) goesOn
    have ⟨_, alsoGrows⟩ := alsoBetween.follow (alsoKeeps other) alsoGoesOn
    -- What is declared in between stays as well, and so the values in between are the same.
    obtain rfl := earlier.agrees orderly alsoOrderly acts alsoActs (grows.keptIn kept)
      (alsoGrows.keptIn alsoKept)
    exact (later found (gives orderly acts)).agrees between alsoBetween goesOn alsoGoesOn kept alsoKept

/-- Actions that concur may follow each other. -/
theorem bind {action also : Synthesis α} {next alsoNext : α → Synthesis β}
    (earlier : Concurs context registry active otherActive action also)
    (later : ∀ value, Concurs context registry active otherActive (next value) (alsoNext value)) :
    Concurs context registry active otherActive (action >>= next) (also >>= alsoNext) :=
  earlier.bindKnowing (fun _ => True) (fun value => (later value).keeps)
    (fun value => (later value).alsoKeeps) (fun _ _ => trivial) fun value _ => later value

/-- What is read of both workspaces may be such that the same is done with it. -/
theorem reads {next alsoNext : Workspace → Synthesis α}
    (later : ∀ workspace, Concurs context registry active otherActive (next workspace)
      (alsoNext workspace))
    (same : ∀ {first other}, first.Orderly context active → other.Orderly context otherActive →
      alsoNext other = alsoNext first) :
    Concurs context registry active otherActive (get >>= next) (get >>= alsoNext) where
  keeps first _ _ consistent started isGiven spelled ends :=
    (later first).keeps _ _ _ consistent started isGiven spelled ends
  alsoKeeps first _ _ consistent started isGiven spelled ends :=
    (later first).alsoKeeps _ _ _ consistent started isGiven spelled ends
  agrees {first _ _ _ _ _} orderly alsoOrderly ends alsoEnds kept alsoKept := by
    refine (later first).agrees orderly alsoOrderly ends ?_ kept alsoKept
    rw [← same orderly alsoOrderly]
    exact alsoEnds

/-- Reports give nothing. -/
theorem reports {action also : Synthesis Unit}
    (notes : ∀ {first last result}, action.Ends first result last →
      result = .ok () ∧ first.Notes last)
    (alsoNotes : ∀ {first last result}, also.Ends first result last →
      result = .ok () ∧ first.Notes last) :
    Concurs context registry active otherActive action also where
  keeps := .reports notes fun ends spelled => spelled.notes (notes ends).2
  alsoKeeps := .reports alsoNotes fun ends spelled => spelled.notes (alsoNotes ends).2
  agrees _ _ _ _ _ _ := rfl

/-- A shape gets the same name, if no name that is made up for it is held for a component schema. -/
theorem register (reflexive : registry.IsReflexive) {candidate : String}
    (free : context.Frees candidate) (shape : Shape) (doc : Option String) (deprecated : Bool)
    (path : String) :
    Concurs context registry active otherActive
      (Synthesis.register candidate shape doc deprecated (.inline path))
      (Synthesis.register candidate shape doc deprecated (.inline path)) where
  keeps := .register (fun registers spelled => spelled.registers registers) _ _ _ _ _
  alsoKeeps := .register (fun registers spelled => spelled.registers registers) _ _ _ _ _
  agrees orderly alsoOrderly ends alsoEnds kept alsoKept := by
    obtain ⟨isName, rfl⟩ := (Synthesis.ends_register_iff candidate shape doc deprecated _).mp ends
    obtain ⟨isOther, rfl⟩ := (Synthesis.ends_register_iff candidate shape doc deprecated _).mp alsoEnds
    cases isName
    cases isOther
    exact reflexive.register_eq
      (alsoOrderly.spelled.reservedWords_eq.trans orderly.spelled.reservedWords_eq.symm)
      (fun tried => orderly.spelled.typeName_eq candidate ▸ orderly.spelled.not_reserved free tried)
      (fun tried => orderly.spelled.typeName_eq candidate ▸ alsoOrderly.spelled.not_reserved free tried)
      kept alsoKept

/-- Giving a name to a case does not change how names are made up. -/
theorem maintains_nameMember (active : List String) (type : TypeExpr) (parent place : Scope) :
    Maintains context active (Workspace.Spelled context) (fun _ _ => True)
      (Surroundings.nameMember type parent place) := by
  have registers (registry : Registry) : Maintains context active (Workspace.Spelled context)
      (fun _ _ => True) (Synthesis.register (Surroundings.memberCandidate registry parent.name type)
        (.alias (type.withNullable false)) none false (.inline place.path)) :=
    .register (fun registers spelled => spelled.registers registers) _ _ _ _ _
  unfold Surroundings.nameMember
  split
  · exact .pure _
  · exact Maintains.registry registers

/-- A case gets the same name for a type that its node turns out to have. -/
theorem nameMember (reflexive : registry.IsReflexive) {type : TypeExpr} {parent place : Scope}
    (free : type.name? = none → context.Frees
      (Surroundings.memberCandidate (Workspace.ofContext context).registry parent.name type)) :
    Concurs context registry active otherActive (Surroundings.nameMember type parent place)
      (Surroundings.nameMember type parent place) := by
  refine ⟨maintains_nameMember _ _ _ _, maintains_nameMember _ _ _ _, ?_⟩
  intro first last name otherFirst otherLast other orderly alsoOrderly ends alsoEnds kept alsoKept
  -- The candidate depends on nothing of the registry but the ending of names of arrays.
  have sameCandidate {workspace : Workspace} (spelled : workspace.Spelled context) :
      Surroundings.memberCandidate workspace.registry parent.name type =
        Surroundings.memberCandidate (Workspace.ofContext context).registry parent.name type := by
    simp only [Surroundings.memberCandidate, Registry.arrayName, spelled.arraySuffix_eq,
      (Workspace.Spelled.ofContext context).arraySuffix_eq]
  unfold Surroundings.nameMember at ends alsoEnds
  cases isName : type.name? with
  | some found =>
    rw [isName] at ends alsoEnds
    have isFound := ((Synthesis.ends_pure_iff found).mp ends).1
    have isOther := ((Synthesis.ends_pure_iff found).mp alsoEnds).1
    exact Except.ok.inj (isFound.trans isOther.symm)
  | none =>
    rw [isName] at ends alsoEnds
    have registers := Surroundings.ends_of_get ends
    have alsoRegisters := Surroundings.ends_of_get alsoEnds
    rw [sameCandidate orderly.spelled] at registers
    rw [sameCandidate alsoOrderly.spelled] at alsoRegisters
    exact (register reflexive (free isName) _ _ _ _).agrees orderly alsoOrderly registers alsoRegisters
      kept alsoKept

/-- The case of a choice gets the same name. -/
theorem nameCase {expanding : List String} {outside other : Surroundings}
    (reflexive : registry.IsReflexive) (adequate : outside.Adequate context active expanding)
    {member : SchemaNode} {parent place : Scope} {depth : Nat}
    {next alsoNext : TypeExpr → String → Synthesis α}
    (free : ∀ candidate, member.CaseName context parent.name candidate → context.Frees candidate)
    (uses : Concurs context registry active otherActive
      ((outside.walk member).expression place depth) ((other.walk member).expression place depth))
    (later : ∀ type name,
      Concurs context registry active otherActive (next type name) (alsoNext type name)) :
    Concurs context registry active otherActive
      (do
        let type ← (outside.walk member).expression place depth
        let name ← Surroundings.nameMember type parent place
        next type name)
      (do
        let type ← (other.walk member).expression place depth
        let name ← Surroundings.nameMember type parent place
        alsoNext type name) := by
  refine uses.bindKnowing (fun type => member.MayBe context type.kind)
    (fun type => (maintains_nameMember _ type _ _).bind fun name => (later type name).keeps)
    (fun type => (maintains_nameMember _ type _ _).bind fun name => (later type name).alsoKeeps)
    (fun orderly ends => ?_) fun type mayBe => ?_
  · have follows := (adequate.walkFollows member).expression place depth
    exact Yields.mayBe (follows _ _ _ orderly.consistent orderly.started ends)
  · exact (nameMember reflexive fun unnamed => free _ ⟨type, mayBe, unnamed, rfl⟩).bind fun name =>
      later type name

/-- Combining members changes nothing. -/
theorem maintains_combine (inputs : List IntersectionMember) (path : String) (active : List String) :
    Maintains context active (Workspace.Spelled context) (fun _ _ => True)
      (get >>= fun workspace => Synthesis.liftComposition path
        (mergeAllOf inputs workspace.registry.equivalent) : Synthesis Merged) := by
  refine @Maintains.registry context active _ _ Merged (fun registry =>
    Synthesis.liftComposition path (mergeAllOf inputs registry.equivalent)) fun registry => ?_
  cases mergeAllOf inputs registry.equivalent with
  | ok merged => exact .pure merged
  | error error => exact .fail fun _ _ => trivial

/-- Members that combine do so into the same. -/
theorem combine (inputs : List IntersectionMember) (path : String) :
    Concurs context registry active otherActive
      (get >>= fun workspace => Synthesis.liftComposition path
        (mergeAllOf inputs workspace.registry.equivalent) : Synthesis Merged)
      (get >>= fun workspace => Synthesis.liftComposition path
        (mergeAllOf inputs workspace.registry.equivalent)) where
  keeps := maintains_combine inputs path active
  alsoKeeps := maintains_combine inputs path otherActive
  agrees _ _ ends alsoEnds _ _ := Intersection.mergeAllOf_unique
    ((Synthesis.ends_liftComposition_ok_iff path _ _).mp (Surroundings.ends_of_get ends)).1
    ((Synthesis.ends_liftComposition_ok_iff path _ _).mp (Surroundings.ends_of_get alsoEnds)).1

/-- A reference is the use of the same name. -/
theorem reference {outside other : Surroundings} {expanding otherExpanding : List String}
    (adequate : outside.Adequate context active expanding)
    (alsoAdequate : other.Adequate context otherActive otherExpanding) (target : String)
    (scope : Scope) :
    Concurs context registry active otherActive (outside.reference target scope)
      (other.reference target scope) where
  keeps := (adequate.reference target scope).maintains_spelled
  alsoKeeps := (alsoAdequate.reference target scope).maintains_spelled
  agrees orderly alsoOrderly ends alsoEnds _ _ := by
    have looked := adequate.reference target scope _ _ _ orderly.consistent orderly.started ends
    have alsoLooked :=
      alsoAdequate.reference target scope _ _ _ alsoOrderly.consistent alsoOrderly.started alsoEnds
    cases looked with
    | reference found emitted =>
      cases alsoLooked with
      | reference alsoFound alsoEmitted =>
        cases found.symm.trans alsoFound
        cases emitted.symm.trans alsoEmitted
        rfl

/-- What a shape contributes is the same if what schemas contribute is. -/
theorem contributionOf {outside other : Surroundings}
    (expands : ∀ target path, Concurs context registry active otherActive (outside.expand target path)
      (other.expand target path)) (shape : Shape) (scope : Scope) :
    Concurs context registry active otherActive (outside.contributionOf shape scope)
      (other.contributionOf shape scope) := by
  cases shape with
  | record | enum | union => exact pure _
  | «alias» type =>
    refine reads (fun workspace => ?_) fun orderly alsoOrderly => ?_
    · dsimp only
      split
      · exact expands _ _
      · exact pure _
      · exact pure _
    · rw [orderly.consistent.schemas_eq, alsoOrderly.consistent.schemas_eq]

/-- Every step of a walk concurs with that of another one if their expansions do. -/
theorem correspondence {outside other : Surroundings} {expanding otherExpanding : List String}
    (reflexive : registry.IsReflexive) (adequate : outside.Adequate context active expanding)
    (alsoAdequate : other.Adequate context otherActive otherExpanding)
    (expands : ∀ target path, Concurs context registry active otherActive (outside.expand target path)
      (other.expand target path)) :
    Correspondence outside other (fun _ => True) (fun _ => True) (fun _ => True) context.Frees
      (Concurs context registry active otherActive) where
  maxArrayDepth_eq := by rw [adequate.context_eq, alsoAdequate.context_eq]
  maxItems_eq := by rw [adequate.context_eq, alsoAdequate.context_eq]
  leadsToChoice_eq _ := by rw [adequate.context_eq, alsoAdequate.context_eq]
  below _ := id
  pure := .pure
  bind := .bind
  fail failure _ _ := .fail _ _ failure failure
  register shape doc deprecated path free := .register reflexive free shape doc deprecated path
  nameCase free uses later :=
    .nameCase reflexive adequate (adequate.context_eq ▸ free) uses later
  combine inputs _ _ := .combine inputs _
  undeclared _ _ _ := .reports Surroundings.ends_reportUndeclared Surroundings.ends_reportUndeclared
  notes _ _ _ := .reports Surroundings.notes_of_reportNotes Surroundings.notes_of_reportNotes
  reference _ _ := .reference adequate alsoAdequate _ _
  merge _ _ _ later := (reference adequate alsoAdequate _ _).bind fun type =>
    (expands _ _).bind fun shape => later type shape
  take _ _ _ intersects := intersects.bind fun shape => contributionOf expands shape _

end Concurs

namespace Synthesis

/-- What a component schema contributes is the same whenever it is expanded. -/
theorem concurs_within (reflexive : registry.IsReflexive) (apart : context.Apart)
    (muted otherMuted : Bool)
    (active expanding otherActive otherExpanding : List String) :
    Correspondence (within context muted active expanding)
      (within context otherMuted otherActive otherExpanding) (fun _ => True) (fun _ => True)
      (fun _ => True) context.Frees (Concurs context registry active otherActive) := by
  -- The induction is on the schemas that the first walk has not expanded.
  induction active, expanding using withinInduction context.model
    generalizing muted otherMuted otherActive otherExpanding with
  | step active expanding inside expansion =>
    have adequate := adequate_within context muted active expanding
    have alsoAdequate := adequate_within context otherMuted otherActive otherExpanding
    refine Concurs.correspondence reflexive adequate alsoAdequate fun target path => ?_
    refine ⟨(adequate.expand target path).maintains_spelled,
      (alsoAdequate.expand target path).maintains_spelled, ?_⟩
    intro first last value otherFirst otherLast other orderly alsoOrderly ends alsoEnds kept alsoKept
    rcases expandWithin_cases ends with ⟨_, isError, _⟩ | ⟨_, isError, _⟩ |
      ⟨node, found, fresh, expands⟩
    · cases isError
    · cases isError
    rcases expandWithin_cases alsoEnds with ⟨_, isError, _⟩ | ⟨_, isError, _⟩ |
      ⟨alsoNode, alsoFound, alsoFresh, alsoExpands⟩
    · cases isError
    · cases isError
    cases found.symm.trans alsoFound
    rcases expands with ⟨isChoice, isValue, _⟩ | ⟨notChoice, expands⟩ <;>
      rcases alsoExpands with ⟨alsoChoice, isOther, _⟩ | ⟨alsoNot, alsoExpands⟩
    · cases isValue
      cases isOther
      rfl
    · cases isChoice.symm.trans alsoNot
    · cases notChoice.symm.trans alsoChoice
    · have sameName : emittedName otherFirst target target = emittedName first target target := by
        rw [emittedName, emittedName, orderly.consistent.emitted_eq, alsoOrderly.consistent.emitted_eq]
      rw [sameName] at alsoExpands
      obtain ⟨name, isEmitted⟩ :=
        (context.exists_emitted?_iff target).mpr (context.model.mem_names found)
      have isName : emittedName first target target = name := by
        simp [emittedName, orderly.consistent.emitted_get?, isEmitted]
      rw [isName] at expands alsoExpands
      have corresponds := expansion target node found fresh true true otherActive
        (target :: otherExpanding)
      exact (corresponds.expand node (fun _ _ => trivial) (fun _ _ => trivial) (fun _ _ => trivial)
        trivial (apart found isEmitted)).agrees orderly alsoOrderly expands alsoExpands kept alsoKept

end Synthesis

end

end ApiTypes
