import ApiTypes.Synthesis.Workspace

/-! How steps of synthesis end: with a value or a failure, and always with some workspace. -/

namespace ApiTypes.Synthesis

variable {α β : Type}

/-- What an action gives, and the workspace that it leaves behind. -/
def outcome (action : Synthesis α) (workspace : Workspace) :
    Except LocatedFailure α × Workspace :=
  action.run.run workspace

/-- From the first workspace, an action ends with a result in the last workspace. -/
def Ends (action : Synthesis α) (first : Workspace) (result : Except LocatedFailure α)
    (last : Workspace) : Prop :=
  action.outcome first = (result, last)

/-- Every action ends. -/
theorem exists_ends (action : Synthesis α) (first : Workspace) :
    ∃ result last, action.Ends first result last := ⟨_, _, rfl⟩

variable {first last : Workspace} {result : Except LocatedFailure α}

/-- An action ends in the one way that its outcome says. -/
theorem ends_iff_of_outcome {action : Synthesis α} {value : Except LocatedFailure α}
    {after : Workspace} (isOutcome : action.outcome first = (value, after)) :
    action.Ends first result last ↔ result = value ∧ last = after := by
  rw [Ends, isOutcome, Prod.mk.injEq]
  exact and_congr eq_comm eq_comm

/-- An action ends in one way only. -/
theorem Ends.unique {action : Synthesis α} {other : Workspace}
    {another : Except LocatedFailure α} (ends : action.Ends first result last)
    (also : action.Ends first another other) : result = another ∧ last = other :=
  (ends_iff_of_outcome also).mp ends

/-- Returning a value changes nothing. -/
@[simp] theorem ends_pure_iff (value : α) :
    (pure value : Synthesis α).Ends first result last ↔ result = .ok value ∧ last = first :=
  ends_iff_of_outcome rfl

/-- Failing changes nothing. -/
@[simp] theorem ends_fail_iff (path : String) (failure : Failure) :
    (fail path failure : Synthesis α).Ends first result last ↔
      result = .error ⟨path, failure⟩ ∧ last = first :=
  ends_iff_of_outcome rfl

/-- Failing because members do not combine changes nothing. -/
@[simp] theorem ends_failComposition_iff (path : String) (error : CompositionError) :
    (failComposition path error : Synthesis α).Ends first result last ↔
      result = .error ⟨path, .composition error⟩ ∧ last = first :=
  ends_fail_iff path _

/-- Reading the workspace changes nothing. -/
@[simp] theorem ends_get_iff {result : Except LocatedFailure Workspace} :
    (get : Synthesis Workspace).Ends first result last ↔ result = .ok first ∧ last = first :=
  ends_iff_of_outcome rfl

/-- Changing the workspace gives nothing back. -/
@[simp] theorem ends_modify_iff (change : Workspace → Workspace)
    {result : Except LocatedFailure Unit} :
    (modify change : Synthesis Unit).Ends first result last ↔
      result = .ok () ∧ last = change first :=
  ends_iff_of_outcome rfl

/-- A report adds a diagnostic. -/
@[simp] theorem ends_report_iff (path : String) (cause : Cause)
    {result : Except LocatedFailure Unit} :
    (report path cause).Ends first result last ↔
      result = .ok () ∧ last = first.report path cause :=
  ends_modify_iff _

/-- Registering a shape changes the registry. -/
@[simp] theorem ends_register_iff (candidate : String) (shape : Shape) (doc : Option String)
    (deprecated : Bool) (origin : Origin) {result : Except LocatedFailure String} :
    (register candidate shape doc deprecated origin).Ends first result last ↔
      result = .ok (first.registry.register candidate shape doc deprecated origin).1 ∧
        last = { first with
          registry := (first.registry.register candidate shape doc deprecated origin).2 } :=
  ends_iff_of_outcome rfl

/-- An action that cannot fail ends with what it gives. -/
@[simp] theorem ends_lift_iff (action : StateM Workspace α) :
    (liftM action : Synthesis α).Ends first result last ↔
      result = .ok (action.run first).1 ∧ last = (action.run first).2 :=
  ends_iff_of_outcome rfl

/-- A result that is located stays as it is. -/
theorem mapError_ok {ε δ : Type} (locate : ε → δ) (value : α) :
    (Except.ok value : Except ε α).mapError locate = .ok value := rfl

/-- An error is located. -/
theorem mapError_error {ε δ : Type} (locate : ε → δ) (error : ε) :
    (Except.error error : Except ε α).mapError locate = .error (locate error) := rfl

/-- Taking the result of combining members changes nothing. -/
@[simp] theorem ends_liftComposition_iff (path : String) (combined : Except CompositionError α) :
    (liftComposition path combined).Ends first result last ↔
      result = combined.mapError (fun error => ⟨path, .composition error⟩) ∧ last = first := by
  cases combined <;> simp [liftComposition, mapError_ok, mapError_error]

/-- Taking the result of combining members gives that result. -/
theorem ends_liftComposition_ok_iff (path : String) (combined : Except CompositionError α)
    (value : α) : (liftComposition path combined).Ends first (.ok value) last ↔
      combined = .ok value ∧ last = first := by
  cases combined <;> simp [mapError_ok, mapError_error, eq_comm]

/-- Two actions in a row run one after the other, unless the first one fails. -/
theorem outcome_bind (action : Synthesis α) (next : α → Synthesis β) (first : Workspace) :
    (action >>= next).outcome first =
      match action.outcome first with
      | (.ok found, middle) => (next found).outcome middle
      | (.error error, middle) => (.error error, middle) := by
  simp only [outcome, ExceptT.run_bind, StateT.run_bind]
  -- The workspace that is passed on is the one in which the first action ended.
  generalize action.run.run first = ended
  obtain ⟨result, middle⟩ := ended
  cases result <;> rfl

/-- Two actions in a row end with a value if both of them do. -/
@[simp] theorem ends_bind_ok_iff (action : Synthesis α) (next : α → Synthesis β) (value : β) :
    (action >>= next).Ends first (.ok value) last ↔
      ∃ found middle, action.Ends first (.ok found) middle ∧
        (next found).Ends middle (.ok value) last := by
  simp only [Ends, outcome_bind]
  rcases action.outcome first with ⟨result, middle⟩
  cases result <;> simp [and_assoc]

/-- Two actions in a row fail if the first does, or the second after the first. -/
@[simp] theorem ends_bind_error_iff (action : Synthesis α) (next : α → Synthesis β)
    (error : LocatedFailure) :
    (action >>= next).Ends first (.error error) last ↔
      action.Ends first (.error error) last ∨
        ∃ found middle, action.Ends first (.ok found) middle ∧
          (next found).Ends middle (.error error) last := by
  simp only [Ends, outcome_bind]
  rcases action.outcome first with ⟨result, middle⟩
  cases result <;> simp [and_assoc]

/-- Two actions in a row end as the first one fails, or as the second one ends after it. -/
theorem ends_bind_iff (action : Synthesis α) (next : α → Synthesis β)
    {result : Except LocatedFailure β} :
    (action >>= next).Ends first result last ↔
      (∃ error, result = .error error ∧ action.Ends first (.error error) last) ∨
        ∃ found middle, action.Ends first (.ok found) middle ∧
          (next found).Ends middle result last := by
  cases result <;> simp

/-- Two actions in a row end as the second one does after the first, if that never fails. -/
theorem exists_of_ends_bind {action : Synthesis α} {next : α → Synthesis β}
    {result : Except LocatedFailure β} (succeeds : ∀ error, ¬action.Ends first (.error error) last)
    (ends : (action >>= next).Ends first result last) :
    ∃ found middle, action.Ends first (.ok found) middle ∧ (next found).Ends middle result last :=
  ((ends_bind_iff action next).mp ends).resolve_left fun ⟨error, _, failed⟩ => succeeds error failed

/-- A loop of reports always ends, having added one diagnostic after the other. -/
theorem ends_reports {γ : Type} {entries : List γ} {place : γ → String} {cause : γ → Cause}
    {result : Except LocatedFailure Unit}
    (ends : (do
      for entry in entries do
        report (place entry) (cause entry) : Synthesis Unit).Ends first result last) :
    result = .ok () ∧ last = { first with
      diagnostics := first.diagnostics ++ entries.map fun entry => ⟨place entry, cause entry⟩ } := by
  -- What is left of the loop starts from the workspace with the first report.
  have listed : ∀ start : Workspace, (forIn entries PUnit.unit fun entry _ => do
      report (place entry) (cause entry)
      return ForInStep.yield PUnit.unit : Synthesis PUnit).Ends start (.ok .unit) { start with
        diagnostics := start.diagnostics ++ entries.map fun entry => ⟨place entry, cause entry⟩ } := by
    clear ends
    induction entries with
    | nil => exact fun start => (ends_pure_iff _).mpr ⟨rfl, by simp⟩
    | cons entry rest ih =>
      intro start
      rw [List.forIn_cons, bind_assoc, ends_bind_ok_iff]
      refine ⟨(), _, (ends_report_iff _ _).mpr ⟨rfl, rfl⟩, ?_⟩
      simpa [Workspace.report] using ih (start.report (place entry) (cause entry))
  exact ends.unique ((ends_bind_ok_iff _ (fun _ => pure ()) ()).mpr
    ⟨_, _, listed first, (ends_pure_iff ()).mpr ⟨rfl, rfl⟩⟩)

/-- Transforming the value of an action changes nothing else. -/
@[simp] theorem ends_map_iff (transform : α → β) (action : Synthesis α)
    {result : Except LocatedFailure β} :
    (transform <$> action).Ends first result last ↔
      ∃ found, action.Ends first found last ∧ result = found.map transform := by
  rw [map_eq_pure_bind]
  cases result with
  -- A transformed value comes of a value, and an error of an error.
  | ok value =>
    simp only [ends_bind_ok_iff, ends_pure_iff]
    constructor
    · rintro ⟨found, middle, ends, isValue, rfl⟩
      exact ⟨.ok found, ends, isValue⟩
    · rintro ⟨found, ends, isValue⟩
      cases found with
      | ok found => exact ⟨found, last, ends, isValue, rfl⟩
      | error error => cases isValue
  | error error =>
    simp only [ends_bind_error_iff, ends_pure_iff]
    constructor
    · rintro (ends | ⟨_, _, _, isValue, _⟩)
      · exact ⟨.error error, ends, rfl⟩
      · cases isValue
    · rintro ⟨found, ends, isValue⟩
      cases found with
      | ok found => cases isValue
      | error other =>
        cases isValue
        exact .inl ends

end ApiTypes.Synthesis
