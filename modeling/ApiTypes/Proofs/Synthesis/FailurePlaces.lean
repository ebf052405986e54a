import ApiTypes.Proofs.Pointer
import ApiTypes.Proofs.Synthesis.Exploration
import ApiTypes.Proofs.Synthesis.Maintenance

/-!
Failures of component schemas. Every failed schema has an error of its own: at or below its own pointer,
or that of a schema that is expanded for an intersection inside it and leads back to it or is registered.
What is said to include itself is expanded inside itself, unless two other schemas on cycles with it
expand it.
-/

namespace ApiTypes

open Relation

namespace Context

variable (context : Context)

/-- An intersection inside a component schema takes in another one, at once or by what it takes in. -/
def TakesIn (schema target : String) : Prop :=
  ∃ member, context.Merges schema member ∧ ReflTransGen context.Expands member target

/-- A component schema expands another one that leads back to it. -/
def Surrounds (schema member : String) : Prop :=
  TransGen context.Expands schema member ∧ TransGen context.Refers member schema

/--
Two other component schemas expand one that leads to both. While it is expanded for the first of them,
the second may begin, which then finds it in expansion.
-/
def Contested (member : String) : Prop :=
  ∃ first second, first ≠ second ∧ first ≠ member ∧ second ≠ member ∧
    context.Surrounds first member ∧ context.Surrounds second member

/-- What may be reported to include itself is expanded inside itself, or contested. -/
def Alarmed (member : String) : Prop :=
  TransGen context.Expands member member ∨ context.Contested member

/-- Only what may be is reported to include itself. -/
def Accuses (located : LocatedFailure) : Prop :=
  ∀ member, located.failure = .composition (.cyclicIntersection member) → context.Alarmed member

/--
How the schemas in expansion stand to the one that was begun last, the owner, and to the source, which
is walked for it: they expand the source for the owner, or they lead to the owner and were expanded for
another schema in progress.
-/
structure Nests (active expanding : List String) (owner source : String) : Prop where
  isActive : owner ∈ active
  origin : source = owner ∨ context.TakesIn owner source ∧ source ∈ expanding
  waits : ∀ other ∈ active, ReflTransGen context.Refers other owner
  refined : ∀ member ∈ expanding, ¬context.IsAtomic member
  stacked : ∀ member ∈ expanding,
    (TransGen context.Expands owner member ∧ ReflTransGen context.Expands member source) ∨
      TransGen context.Refers member owner ∧
        ∃ other ∈ active, other ≠ owner ∧ context.Surrounds other member

variable {context}

/-- What is taken in is expanded. -/
theorem TakesIn.expands {schema target : String} (takesIn : context.TakesIn schema target) :
    TransGen context.Expands schema target := by
  obtain ⟨member, ⟨node, found, merges⟩, leads⟩ := takesIn
  exact .head' ⟨node, found, .inl merges⟩ leads

/-- What is surrounded by two schemas may be reported. -/
theorem alarmed_of_surrounds {first second member : String} (distinct : first ≠ second)
    (surrounds : context.Surrounds first member) (also : context.Surrounds second member) :
    context.Alarmed member := by
  -- One that surrounds itself is expanded inside itself.
  by_cases isFirst : first = member
  · exact .inl (isFirst ▸ surrounds.1)
  by_cases isSecond : second = member
  · exact .inl (isSecond ▸ also.1)
  exact .inr ⟨first, second, distinct, isFirst, isSecond, surrounds, also⟩

/-- What may be reported lies on a cycle of references. -/
theorem Alarmed.cyclic {member : String} (alarmed : context.Alarmed member) :
    TransGen context.Refers member member := by
  have refers {first last : String} (expands : TransGen context.Expands first last) :
      TransGen context.Refers first last := expands.lift id fun _ _ => Expands.refers
  rcases alarmed with expands | ⟨first, _, _, _, _, ⟨expands, leads⟩, _⟩
  · exact refers expands
  · exact leads.trans (refers expands)

namespace Nests

variable {active : List String} {owner source target : String}
  (nests : context.Nests active expanding owner source)

/-- In the beginning of a component schema outside of all others, nothing is in expansion. -/
theorem outermost (name : String) : context.Nests [name] [] name name where
  isActive := List.mem_cons_self
  origin := .inl rfl
  waits other isActive := by
    obtain rfl := List.mem_singleton.mp isActive
    exact .refl
  refined _ isExpanding := absurd isExpanding List.not_mem_nil
  stacked _ isExpanding := absurd isExpanding List.not_mem_nil

include nests

/-- The owner is the source, or expands it. -/
theorem owns : ReflTransGen context.Expands owner source := by
  rcases nests.origin with rfl | ⟨takesIn, _⟩
  · exact .refl
  · exact takesIn.expands.to_reflTransGen

/-- The source is in progress, or in expansion. -/
theorem isSource : source ∈ active ∨ source ∈ expanding := by
  rcases nests.origin with rfl | ⟨_, isExpanding⟩
  · exact .inl nests.isActive
  · exact .inr isExpanding

/-- The owner leads wherever the source does. -/
theorem leads : ReflTransGen context.Refers owner source :=
  nests.owns.lift id fun _ _ => Expands.refers

/-- A schema to which the source refers is begun where the source is in progress. -/
theorem enter (isSource : source ∈ active) (refers : context.Refers source target)
    (fresh : target ∉ active) :
    context.Nests (target :: active) expanding target target where
  isActive := List.mem_cons_self
  origin := .inl rfl
  waits := List.forall_mem_cons.mpr
    ⟨.refl, fun other isActive => ((nests.waits other isActive).trans nests.leads).tail refers⟩
  refined := nests.refined
  stacked member isExpanding := by
    -- What is in expansion leads to the source, so to the schema that begins.
    right
    rcases nests.stacked member isExpanding with ⟨owned, path⟩ | ⟨leads, other, isActive, _, surrounds⟩
    · have leads : ReflTransGen context.Refers member source :=
        path.lift id fun _ _ => Expands.refers
      refine ⟨.tail' leads refers, owner, List.mem_cons_of_mem _ nests.isActive, ?_, owned, ?_⟩
      · exact fun isSame => fresh (isSame ▸ nests.isActive)
      -- The source is in progress, so it leads back to the owner, which expands the member.
      · have back := leads.trans (nests.waits source isSource)
        have further : TransGen context.Refers owner member :=
          owned.lift id fun _ _ => Expands.refers
        exact (further.trans_right back).trans_left back
    · refine ⟨(leads.trans_left nests.leads).tail refers, other, List.mem_cons_of_mem _ isActive, ?_,
        surrounds⟩
      exact fun isSame => fresh (isSame ▸ isActive)

/-- What the source expands and the owner takes in becomes the source. -/
theorem expand (expands : TransGen context.Expands source target)
    (takesIn : context.TakesIn owner target) (isRefined : ¬context.IsAtomic target) :
    context.Nests active (target :: expanding) owner target where
  isActive := nests.isActive
  origin := .inr ⟨takesIn, List.mem_cons_self⟩
  waits := nests.waits
  refined := List.forall_mem_cons.mpr ⟨isRefined, nests.refined⟩
  stacked := List.forall_mem_cons.mpr ⟨.inl ⟨expands.trans_right nests.owns, .refl⟩,
    fun member isExpanding => (nests.stacked member isExpanding).imp_left
      (And.imp_right (·.trans expands.to_reflTransGen))⟩

/-- What the source expands may be reported if it is in expansion. -/
theorem alarmed (expands : TransGen context.Expands source target)
    (isExpanding : target ∈ expanding) : context.Alarmed target := by
  -- For the owner it is in expansion inside itself, and for another schema it is surrounded by both.
  rcases nests.stacked target isExpanding with ⟨_, path⟩ | ⟨leads, other, _, notSame, surrounds⟩
  · exact .inl (expands.trans_right path)
  · exact alarmed_of_surrounds notSame surrounds ⟨expands.trans_right nests.owns, leads⟩

end Nests

end Context

namespace Workspace

/--
A component schema may fail at or below its own pointer, or that of a schema that is taken in inside it,
and that leads back to it or is registered.
-/
def FailsAt (context : Context) (workspace : Workspace) (schema path : String) : Prop :=
  Pointer.IsAt (Pointer.ofSchema schema) path ∨
    ∃ other, context.TakesIn schema other ∧ Pointer.IsAt (Pointer.ofSchema other) path ∧
      (TransGen context.Refers other schema ∨ workspace.resolver.state other = .registered)

/-- Some diagnostics belong to one component schema each, and every failed one has an error of its own. -/
structure ExplainedBy (context : Context) (workspace : Workspace)
    (reports : List (String × Diagnostic)) : Prop where
  reported : (reports.map Prod.snd).Sublist workspace.diagnostics
  isPlace : ∀ report ∈ reports,
    report.2.isError = true ∧ workspace.FailsAt context report.1 report.2.path
  covers : ∀ schema, workspace.resolver.state schema = .failed → schema ∈ reports.map Prod.fst

variable {context : Context} {first last : Workspace} {active expanding : List String}

/-- The places of a component schema stay so while nothing registered is lost. -/
theorem FailsAt.mono {schema path : String} (fails : first.FailsAt context schema path)
    (kept : ∀ other, first.resolver.state other = .registered →
      last.resolver.state other = .registered) : last.FailsAt context schema path :=
  fails.imp_right fun ⟨other, takesIn, isAt, leads⟩ =>
    ⟨other, takesIn, isAt, leads.imp_right (kept other)⟩

/-- The source fails at places of its owner. -/
theorem Underway.failsAt (underway : first.Underway context active expanding) {owner source path : String}
    (nests : context.Nests active expanding owner source)
    (isAt : Pointer.IsAt (Pointer.ofSchema source) path) : first.FailsAt context owner path := by
  by_cases isOwner : source = owner
  · exact .inl (isOwner ▸ isAt)
  obtain ⟨takesIn, isExpanding⟩ := nests.origin.resolve_left isOwner
  refine .inr ⟨source, takesIn, isAt, ?_⟩
  -- Whatever is expanded is registered, or in progress and waits for the owner.
  rcases underway.ready source isExpanding with isResolving | isRegistered
  · have waits := nests.waits source (underway.inProgress source isResolving)
    exact .inl ((reflTransGen_iff_eq_or_transGen.mp waits).resolve_left fun isSame =>
      isOwner isSame.symm)
  · exact .inr isRegistered

namespace ExplainedBy

variable {reports : List (String × Diagnostic)}

/-- Nothing explained is lost while nothing fails. -/
theorem mono (explained : first.ExplainedBy context reports)
    (kept : first.diagnostics.Sublist last.diagnostics)
    (registered : ∀ schema, first.resolver.state schema = .registered →
      last.resolver.state schema = .registered)
    (failed : ∀ schema, last.resolver.state schema = .failed →
      first.resolver.state schema = .failed) : last.ExplainedBy context reports where
  reported := explained.reported.trans kept
  isPlace report isReport :=
    (explained.isPlace report isReport).imp_right fun fails => fails.mono registered
  covers schema isFailed := explained.covers schema (failed schema isFailed)

/-- A schema that fails where it may is explained by that. -/
theorem conclude {schema name : String} {node : SchemaNode} {result : Except LocatedFailure Shape}
    (explained : first.ExplainedBy context reports)
    (inProgress : first.resolver.state schema = .resolving)
    (fails : ∀ located, result = .error located → first.FailsAt context schema located.path) :
    ∃ more, (first.conclude schema name node result).ExplainedBy context more := by
  have registered (other : String) (isRegistered : first.resolver.state other = .registered) :
      (first.conclude schema name node result).resolver.state other = .registered := by
    have isOther : other ≠ schema := by
      rintro rfl
      cases inProgress.symm.trans isRegistered
    rw [state_conclude, if_neg isOther]
    exact isRegistered
  cases result with
  | ok shape =>
    exact ⟨reports, explained.mono (.refl _) registered fun other isFailed =>
      state_of_conclude isFailed (by simp)⟩
  | error located =>
    refine ⟨reports ++ [(schema, .ofFailure located)], ?_, ?_, fun other isFailed => ?_⟩
    · rw [List.map_append]
      exact explained.reported.append (.refl _)
    · intro report isReport
      rcases List.mem_append.mp isReport with isOld | isNew
      · exact (explained.isPlace report isOld).imp_right fun isPlace => isPlace.mono registered
      · cases List.mem_singleton.mp isNew
        exact ⟨rfl, (fails located rfl).mono registered⟩
    · rw [state_conclude] at isFailed
      rw [List.map_append, List.mem_append]
      split at isFailed
      · exact .inr (by simp_all)
      · exact .inl (explained.covers other isFailed)

end ExplainedBy

/--
The states of all schemas are known, whatever has failed is explained, and only what may be is reported to
include itself.
-/
structure Alarms (context : Context) (active expanding : List String) (workspace : Workspace) : Prop
    extends workspace.Underway context active expanding where
  explained : ∃ reports, workspace.ExplainedBy context reports
  accused : ∀ diagnostic ∈ workspace.diagnostics, ∀ failure,
    diagnostic.cause.failure? = some failure → context.Accuses ⟨diagnostic.path, failure⟩

/-- The owner of what is walked fails only at its places, and rightly accuses others. -/
def Allows (context : Context) (owner : String) (workspace : Workspace) (located : LocatedFailure) :
    Prop :=
  context.Accuses located ∧ workspace.FailsAt context owner located.path

namespace Alarms

/-- In the beginning nothing is reported. -/
theorem ofContext (context : Context)
    (silent : (Workspace.ofContext context).diagnostics = []) :
    (Workspace.ofContext context).Alarms context [] [] where
  toUnderway := .ofContext context
  explained := ⟨[], List.nil_sublist _, fun _ isReport => absurd isReport List.not_mem_nil,
    fun schema isFailed => by simp [state_ofContext] at isFailed⟩
  accused _ isReported := by
    rw [silent] at isReported
    cases isReported

/-- Notes accuse nothing and explain nothing. -/
theorem notes (alarms : first.Alarms context active expanding) (notes : first.Notes last) :
    last.Alarms context active expanding where
  toUnderway := alarms.steady notes.resolver_eq
  explained := alarms.explained.imp fun _ explained =>
    explained.mono notes.diagnostics.sublist (fun _ => notes.resolver_eq ▸ id)
      fun _ => notes.resolver_eq ▸ id
  accused diagnostic isReported failure isFailure := by
    rcases notes.harmless diagnostic isReported with isOld | isHarmless
    · exact alarms.accused diagnostic isOld failure isFailure
    · simp [isHarmless] at isFailure

/-- What begins is explained later. -/
theorem begin (alarms : first.Alarms context active expanding) {schema : String}
    (pending : first.resolver.state schema = .pending) :
    (first.begin schema).Alarms context (schema :: active) expanding where
  toUnderway := alarms.toUnderway.begin schema
  explained := alarms.explained.imp fun _ explained => explained.mono (.refl _)
    (fun other isRegistered => by
      have isOther : other ≠ schema := by
        rintro rfl
        cases pending.symm.trans isRegistered
      rw [state_begin, if_neg isOther]
      exact isRegistered)
    fun _ isFailed => state_of_begin isFailed (by simp)
  accused := alarms.accused

/-- What is concluded adds no more than its own failure. -/
theorem conclude {further : List String} {schema name : String} {node : SchemaNode}
    {result : Except LocatedFailure Shape} (alarms : first.Alarms context further expanding)
    (inProgress : first.resolver.state schema = .resolving)
    (allowed : ∀ located, result = .error located → first.Allows context schema located)
    (underway : (first.conclude schema name node result).Underway context active expanding) :
    (first.conclude schema name node result).Alarms context active expanding where
  toUnderway := underway
  explained := by
    obtain ⟨reports, explained⟩ := alarms.explained
    exact explained.conclude inProgress fun located isError => (allowed located isError).2
  accused diagnostic isReported failure isFailure := by
    cases result with
    | ok shape => exact alarms.accused diagnostic isReported failure isFailure
    | error located =>
      rcases List.mem_append.mp isReported with isOld | isNew
      · exact alarms.accused diagnostic isOld failure isFailure
      · cases List.mem_singleton.mp isNew
        cases isFailure
        exact (allowed located rfl).1

end Alarms

end Workspace

namespace Synthesis

variable {context : Context} {active expanding : List String} {first : Workspace}
  {owner source : String}

/-- Whatever is asked for inside schemas that are in progress and in expansion fails only as allowed. -/
structure KeepsAlarms (context : Context) (active expanding : List String) : Prop where
  enter : ∀ target first, (target ∉ active → context.Nests (target :: active) expanding target target) →
    Consistent context first → Started active first → first.Alarms context active expanding →
      ((enterWithin context active expanding target).run first).2.Alarms context active expanding
  expand : ∀ owner source target path, context.Nests active expanding owner source →
    TransGen context.Expands source target → context.TakesIn owner target →
    Pointer.IsAt (Pointer.ofSchema source) path →
    MaintainsGiven context active (fun workspace => workspace.Ready target)
      (Workspace.Alarms context active expanding) (Workspace.Allows context owner)
      (expandWithin context active expanding target path)

/-- What the source of an owner fails with is allowed unless it is said to include itself. -/
theorem allows_of_ne_cyclic (nests : context.Nests active expanding owner source)
    (alarms : first.Alarms context active expanding) {path : String} {failure : Failure}
    (isAt : Pointer.IsAt (Pointer.ofSchema source) path)
    (notCyclic : ∀ member, failure ≠ .composition (.cyclicIntersection member)) :
    first.Allows context owner ⟨path, failure⟩ :=
  ⟨fun member isCyclic => absurd isCyclic (notCyclic member), alarms.failsAt nests isAt⟩

/-- Walks fail only as allowed if that holds of what they refer to and of what they merge. -/
theorem KeepsAlarms.traversal (keeps : KeepsAlarms context active expanding)
    (nests : context.Nests active expanding owner source) {merges : String → Prop}
    (takesIn : ∀ target, merges target →
      context.Expands source target ∧ context.TakesIn owner target) (muted : Bool) :
    Traversal (within context muted active expanding) (Pointer.IsAt (Pointer.ofSchema source))
      (context.Refers source) merges
      (Maintains context active (Workspace.Alarms context active expanding)
        (Workspace.Allows context owner)) := by
  have adequate := adequate_within context muted active expanding
  refine Maintains.traversal adequate (fun rest isAt => isAt.below rest) (fun isOwn isAt alarms => ?_)
    (fun registers alarms => ?_)
    (fun _ ends alarms => alarms.notes (Surroundings.ends_reportUndeclared ends).2)
    (fun _ ends alarms => alarms.notes (Surroundings.notes_of_reportNotes ends).2)
    (fun isUsed isAt => ?_) (fun _ isMerged chain isAt => ?_) fun isAtomic _ => ?_
  · -- No walk comes to the failure of an inclusion by itself.
    refine allows_of_ne_cyclic nests alarms isAt fun member isCyclic => ?_
    subst isCyclic
    cases isOwn
  · obtain ⟨_, _, _, _, _, isLast⟩ := registers
    rw [isLast]
    refine { alarms with toUnderway := alarms.steady rfl, explained := ?_ }
    exact alarms.explained.imp fun _ explained => explained.mono (.refl _) (fun _ => id) fun _ => id
  · refine Maintains.reference adequate _ (fun _ alarms => allows_of_ne_cyclic nests alarms isAt nofun)
      (fun _ alarms => allows_of_ne_cyclic nests alarms isAt nofun)
      fun first consistent started pending alarms => ?_
    have isActive : source ∈ active :=
      nests.isSource.elim id fun isExpanding => alarms.mem_active isExpanding isUsed pending
    exact keeps.enter _ first (nests.enter isActive isUsed) consistent started alarms
  · have further : ReflTransGen context.Expands _ _ :=
      chain.lift id fun _ _ ⟨node, found, includes⟩ => ⟨node, found, .inr includes⟩
    obtain ⟨expands, member, merges, leads⟩ := takesIn _ isMerged
    exact keeps.expand owner source _ _ nests (.head' expands further)
      ⟨member, merges, leads.trans further⟩ isAt
  · -- Atomic schemas are never in expansion.
    intro first last result consistent started _ alarms ends
    obtain ⟨rfl, fails⟩ := expandWithin_of_isAtomic isAtomic consistent started ends
    exact ⟨consistent, .refl _, alarms, fun located isError =>
      absurd isAtomic (nests.refined _ (fails located isError).1)⟩

/-- What is entered fails only as allowed if that holds while it is in progress. -/
theorem alarms_enterWithin {target : String}
    (inside : ∀ node, context.model.node? target = some node → target ∉ active →
      KeepsAlarms context (target :: active) expanding)
    (nests : target ∉ active → context.Nests (target :: active) expanding target target)
    (consistent : Consistent context first) (started : Started active first)
    (alarms : first.Alarms context active expanding) :
    ((enterWithin context active expanding target).run first).2.Alarms context active expanding := by
  have runs : Runs context first ((enterWithin context active expanding target).run first).2 :=
    (sound_within context false active expanding).enter consistent started
  have underway := alarms.toUnderway.runs runs consistent
  rcases enterWithin_cases context active expanding target first with
    ⟨same, _⟩ | ⟨node, result, inner, found, fresh, pending, ends, isLast⟩
  · rw [same]
    exact alarms
  -- The schema is its own source while it is declared.
  rw [isLast] at underway ⊢
  have isPlace : Pointer.IsAt (Pointer.ofSchema target) (first.scopeOf target).path := .inl rfl
  have declares := ((inside node found fresh).traversal (nests fresh)
    (fun _ merges => ⟨⟨node, found, .inl merges⟩, _, ⟨node, found, merges⟩, .refl⟩)
    (!expanding.isEmpty)).walk node (fun other refers => ⟨node, found, refers⟩) fun _ => id
  have ⟨_, grows, held, allowed⟩ := Maintains.shapeWithin
    (fun _ _ held => allows_of_ne_cyclic (nests fresh) held isPlace nofun)
    (declares.declare 0 isPlace) _ _ _ (consistent.begin found pending) (started_begin started) trivial
    (alarms.begin pending) ends
  have inProgress : (first.begin target).resolver.state target = .resolving := by
    simp [Workspace.state_begin]
  exact held.conclude ((grows.state_eq (by simp [inProgress])).trans inProgress) allowed underway

/-- What is expanded fails only as allowed if that holds in its expansion. -/
theorem alarms_expandWithin {target path : String}
    (inside : ∀ node, context.model.node? target = some node → target ∉ expanding →
      KeepsAlarms context active (target :: expanding))
    (nests : context.Nests active expanding owner source)
    (expands : TransGen context.Expands source target) (takesIn : context.TakesIn owner target)
    (isAt : Pointer.IsAt (Pointer.ofSchema source) path) :
    MaintainsGiven context active (fun workspace => workspace.Ready target)
      (Workspace.Alarms context active expanding) (Workspace.Allows context owner)
      (expandWithin context active expanding target path) := by
  intro first last result consistent started isReady alarms ends
  by_cases isAtomic : context.IsAtomic target
  · obtain ⟨rfl, fails⟩ := expandWithin_of_isAtomic isAtomic consistent started ends
    exact ⟨consistent, .refl _, alarms, fun located isError =>
      absurd isAtomic (nests.refined _ (fails located isError).1)⟩
  rcases expandWithin_cases ends with ⟨isExpanding, rfl, rfl⟩ | ⟨_, rfl, rfl⟩ |
    ⟨node, found, fresh, ⟨_, rfl, rfl⟩ | ⟨_, walks⟩⟩
  · refine ⟨consistent, .refl _, alarms, fun located isError => ?_⟩
    cases isError
    refine ⟨fun member isCyclic => ?_, alarms.failsAt nests isAt⟩
    cases isCyclic
    exact nests.alarmed expands isExpanding
  · refine ⟨consistent, .refl _, alarms, fun located isError => ?_⟩
    cases isError
    exact allows_of_ne_cyclic nests alarms isAt nofun
  · exact ⟨consistent, .refl _, alarms, nofun⟩
  · -- The schema is the source while it is in expansion.
    have deeper : first.Alarms context active (target :: expanding) :=
      { alarms with toUnderway := alarms.expand isReady }
    have further : ∀ other, context.Expands target other →
        context.Expands target other ∧ context.TakesIn owner other :=
      fun other further => ⟨further, takesIn.imp fun _ => And.imp_right (·.tail further)⟩
    have traversal := (inside node found fresh).traversal (nests.expand expands takesIn isAtomic)
      further true
    have ⟨after, grows, held, allowed⟩ := traversal.expand node
      (fun other refers => ⟨node, found, refers⟩) (fun other merges => ⟨node, found, .inl merges⟩)
      (fun other includes => ⟨node, found, .inr includes⟩) (.inl rfl) _ _ _ consistent started trivial
      deeper walks
    exact ⟨after, grows, { held with toUnderway := held.leave }, allowed⟩

/-- Whatever is asked for fails only as allowed. -/
theorem keepsAlarms_within (context : Context) (active expanding : List String) :
    KeepsAlarms context active expanding := by
  -- One more schema is in progress, or in expansion, in whatever is asked for inside.
  induction active, expanding using withinInduction context.model with
  | step active expanding inside expansion =>
    exact ⟨fun target first => alarms_enterWithin (inside target),
      fun owner source target path => alarms_expandWithin (expansion target)⟩

end Synthesis

end ApiTypes
