import ApiTypes.Proofs.Invariance
import ApiTypes.Proofs.Synthesis.Alarms
import ApiTypes.Proofs.Synthesis.FailurePlaces

/-!
What is reported of component schemas. Each one that is missing from the output has an error of its own,
which may stand at a schema that its intersections take in instead of itself. Schemas that are said to be
aliases of themselves or to include themselves lie on cycles of references, which are cycles of aliases or
inclusions if nothing else is on them, and if a schema is not expanded for two others at once.
-/

namespace ApiTypes

open Relation

/-- What stands at a place begins with the pointer of the place. -/
theorem Pointer.IsAt.isPrefix {place path : String} (isAt : IsAt place path) :
    place.toList.isPrefixOf path.toList = true := by
  rw [List.isPrefixOf_iff_prefix]
  rcases isAt with rfl | ⟨rest, rfl⟩
  · exact List.prefix_rfl
  · rw [String.append_assoc, String.toList_append]
    exact List.prefix_append _ _

/-- The withdrawn component schemas have their own reports, which stand at their pointers. -/
private theorem Registry.exists_reports_of_losses {registry : Registry} {lost : List Declaration}
    {losses : List Diagnostic} (reports : List.Forall₂ registry.ReportsLoss lost losses) :
    ∃ pairs : List (String × Diagnostic), pairs.map Prod.snd = losses ∧
      (∀ pair ∈ pairs, pair.2.isError = true ∧ pair.2.path = Pointer.ofSchema pair.1) ∧
      ∀ declaration ∈ lost, ∀ schema, declaration.origin = .component schema →
        schema ∈ pairs.map Prod.fst := by
  induction reports with
  | nil => exact ⟨[], rfl, by simp, by simp⟩
  | @cons declaration diagnostic _ _ isLoss _ ih =>
    obtain ⟨pairs, rfl, areErrors, covers⟩ := ih
    obtain ⟨schema, missing, origin, _, _, rfl⟩ := isLoss
    refine ⟨(schema, _) :: pairs, rfl, List.forall_mem_cons.mpr ⟨⟨rfl, rfl⟩, areErrors⟩, ?_⟩
    refine List.forall_mem_cons.mpr ⟨fun other isOther => ?_, fun later isLater other isOther => ?_⟩
    · cases origin.symm.trans isOther
      exact List.mem_cons_self
    · exact List.mem_cons_of_mem _ (covers later isLater other isOther)

namespace Document

variable (document : Document) (config : Config)

/-- Synthesis of the component schemas explains what fails, and accuses no others of including themselves. -/
theorem alarms_entered :
    (document.entered config).Alarms (document.context config) [] [] := by
  refine Synthesis.enterAll_preserves (fun name first consistent alarms => ?_) (Consistent.ofContext _)
    (.ofContext _ (Workspace.reserves_ofContext _).diagnostics_eq)
  exact (Synthesis.keepsAlarms_within _ [] []).enter name first
    (fun _ => .outermost name) consistent (fun _ isActive => absurd isActive List.not_mem_nil) alarms

/-- A record with a reference that leads nowhere, and an intersection that takes it in. -/
def brokenRecord : Document where
  openapi := "3.1.0"
  info := { title := "Broken record", version := "1" }
  components := some {
    schemas := ⟨[
      ("B", .inline {
        type := some (.single .object)
        properties := ⟨[("a", .ref "#/components/schemas/A"),
          ("m", .ref "#/components/schemas/Missing")]⟩ }),
      ("A", .inline { allOf := [.ref "#/components/schemas/B", .inline { required := ["a"] }] })]⟩ }

end Document

namespace SchemaNode

/--
The schema of which a schema is only another name: that of a reference, of the only significant
member of an intersection, or of the only case of a choice besides null.
-/
def aliasTarget? (node : SchemaNode) : Option String :=
  match node.kind with
  | .reference target => some target
  | .composed .allOf members _ => onlyReference? members
  | .composed _ members none =>
    match distinctCases members with
    | [only] => only.kind.referenceTarget?
    | _ => none
  | _ => none

end SchemaNode

namespace Context

variable (context : Context)

/-- A component schema is only another name of a component schema. -/
def Renames (schema target : String) : Prop :=
  ∃ node, context.model.node? schema = some node ∧ node.aliasTarget? = some target

/-- What is on a cycle of references with a component schema is only another name of the next one. -/
structure OnlyNames (schema : String) : Prop where
  renames : ∀ source target, ReflTransGen context.Refers schema source → context.Refers source target →
    ReflTransGen context.Refers target schema → context.Renames source target

/-- What is expanded on the way from a component schema back to it is included. -/
structure OnlyIncludes (schema : String) : Prop where
  isInclusion : ∀ source target, ReflTransGen context.Expands schema source →
    context.Expands source target → ReflTransGen context.Expands target schema →
      context.Includes source target

variable {context}

/-- If nothing but inclusions lead back to a component schema, it includes what it expands. -/
theorem OnlyIncludes.includes {schema : String} (onlyIncludes : context.OnlyIncludes schema)
    (expands : TransGen context.Expands schema schema) : TransGen context.Includes schema schema := by
  -- Every step of the way starts at what the schema expands, and what it ends at leads back.
  have reaches (other : String) (path : TransGen context.Expands other schema)
      (reached : ReflTransGen context.Expands schema other) :
      TransGen context.Includes other schema := by
    induction path using TransGen.head_induction_on with
    | single last => exact .single (onlyIncludes.isInclusion _ _ reached last .refl)
    | head first path ih =>
      exact .head (onlyIncludes.isInclusion _ _ reached first path.to_reflTransGen)
        (ih (reached.tail first))
  exact reaches schema expands .refl

/-- A component schema is another name of one schema at most. -/
theorem Renames.unique {schema first second : String} (renames : context.Renames schema first)
    (other : context.Renames schema second) : first = second := by
  obtain ⟨node, found, isTarget⟩ := renames
  obtain ⟨_, alsoFound, alsoTarget⟩ := other
  cases found.symm.trans alsoFound
  exact Option.some.inj (isTarget.symm.trans alsoTarget)

/-- A schema that is composed of another name of itself is on a cycle of references. -/
theorem NamesItself.cyclic {schema name : String} (namesItself : context.NamesItself schema name) :
    TransGen context.Refers schema schema :=
  (namesItself.composes.lift id fun _ _ => Composes.refers).trans namesItself.leads

/-- On a cycle of nothing but names, no name is the last. -/
theorem OnlyNames.endless {schema other : String} (onlyNames : context.OnlyNames schema)
    (cyclic : TransGen context.Refers schema schema)
    (reached : ReflTransGen context.Renames schema other) :
    ∃ target, context.Renames other target := by
  -- Every name that is reached is on the cycle, and so is the next one, as there is no other way on.
  have onCycle : ReflTransGen context.Refers schema other ∧ TransGen context.Refers other schema := by
    induction reached with
    | refl => exact ⟨.refl, cyclic⟩
    | @tail source next _ renames ih =>
      obtain ⟨leads, back⟩ := ih
      obtain ⟨target, refers, rest⟩ := TransGen.head'_iff.mp back
      obtain rfl := (onlyNames.renames source target leads refers rest).unique renames
      exact ⟨leads.tail refers, .trans_right rest cyclic⟩
  obtain ⟨leads, back⟩ := onCycle
  obtain ⟨target, refers, rest⟩ := TransGen.head'_iff.mp back
  exact ⟨target, onlyNames.renames other target leads refers rest⟩

end Context

namespace Document

variable (document : Document) (config : Config)

/-- A failure is reported at a place while the component schemas are synthesized. -/
def Raises (path : String) (failure : Failure) : Prop :=
  ∃ diagnostic ∈ (document.entered config).diagnostics,
    diagnostic.path = path ∧ diagnostic.cause.failure? = some failure

/-- Synthesis of the component schemas reports only cycles of references. -/
theorem justified_entered :
    (document.entered config).Justified (document.context config) :=
  (document.holds_entered config stepInvariant_justified fun diagnostic isReported => by
    simp [(Workspace.reserves_ofContext _).diagnostics_eq] at isReported).2

/-- What is reported to include itself is expanded inside itself, or contested. -/
theorem alarmed_of_cyclicIntersection {path member : String}
    (raised : document.Raises config path (.composition (.cyclicIntersection member))) :
    (document.context config).Alarmed member := by
  obtain ⟨diagnostic, isReported, rfl, isFailure⟩ := raised
  exact (document.alarms_entered config).accused diagnostic isReported _ isFailure member rfl

/-- Two schemas that are names of each other. -/
def mutualNames : Document where
  openapi := "3.1.0"
  info := { title := "Mutual names", version := "1" }
  components := some {
    schemas := ⟨[("A", .ref "#/components/schemas/B"), ("B", .ref "#/components/schemas/A")]⟩ }

/-- There is nothing but names in the document. -/
theorem onlyNames_mutualNames (schema : String) :
    (mutualNames.context {}).OnlyNames schema := by
  have areReferences : ∀ entry ∈ (mutualNames.context {}).model.nodes.entries,
      entry.2.kind.referenceTarget? = entry.2.aliasTarget? ∧
        entry.2.kind.referenceTarget?.isSome = true := by
    decide
  refine ⟨fun source target _ refers _ => ?_⟩
  obtain ⟨node, found, refers⟩ := refers
  obtain ⟨isTarget, isReference⟩ := areReferences _ (Table.mem_entries_of_get? found)
  refine ⟨node, found, isTarget.symm.trans ?_⟩
  cases refers with
  | reference => rfl
  | _ => cases isReference

/-- A name of a name of a record whose field comes back to the first of them. -/
def aliasedRecord : Document where
  openapi := "3.1.0"
  info := { title := "Aliased record", version := "1" }
  components := some {
    schemas := ⟨[
      ("T", .ref "#/components/schemas/U"),
      ("U", .inline {
        type := some (.single .object)
        properties := ⟨[("s", .ref "#/components/schemas/S")]⟩ }),
      ("S", .ref "#/components/schemas/T")]⟩ }

/-- Two schemas that extend each other. -/
def mutualExtensions : Document where
  openapi := "3.1.0"
  info := { title := "Mutual extensions", version := "1" }
  components := some {
    schemas := ⟨[
      ("A", .inline { allOf := [.ref "#/components/schemas/B", .inline { required := ["a"] }] }),
      ("B", .inline { allOf := [.ref "#/components/schemas/A", .inline { required := ["b"] }] })]⟩ }

/-- The schema to which the first member of an intersection refers. -/
def firstIncluded? (node : SchemaNode) : Option String :=
  match node.kind with
  | .composed .allOf (first :: _) _ => first.kind.referenceTarget?
  | _ => none

/-- The first member of an intersection is included. -/
theorem includes_of_firstIncluded? {node : SchemaNode} {target : String}
    (isFirst : firstIncluded? node = some target) : node.Includes target := by
  unfold firstIncluded? at isFirst
  obtain ⟨kind, traits⟩ := node
  split at isFirst
  · rename_i first rest discriminator isAllOf
    cases isAllOf
    obtain ⟨memberKind, memberTraits⟩ := first
    cases memberKind <;> cases isFirst
    exact .member List.mem_cons_self .reference
  · cases isFirst

/-- Each of the schemas refers to the other one, which it includes. -/
theorem refers_mutualExtensions {source target : String}
    (refers : (mutualExtensions.context {}).Refers source target) :
    (source = "A" ∨ source = "B") ∧ (mutualExtensions.context {}).Includes source target := by
  have areIntersections : ∀ entry ∈ (mutualExtensions.context {}).model.nodes.entries,
      (entry.1 = "A" ∨ entry.1 = "B") ∧ entry.2.references = (firstIncluded? entry.2).toList := by
    decide
  obtain ⟨node, found, refers⟩ := refers
  obtain ⟨isEither, references_eq⟩ := areIntersections _ (Table.mem_entries_of_get? found)
  have isListed := refers.mem_references
  rw [references_eq, Option.mem_toList] at isListed
  exact ⟨isEither, node, found, includes_of_firstIncluded? isListed⟩

/-- A record with fields for two schemas that include it. -/
def includedRecord : Document where
  openapi := "3.1.0"
  info := { title := "Included record", version := "1" }
  components := some {
    schemas := ⟨[
      ("B", .inline {
        type := some (.single .object)
        properties := ⟨[("a", .ref "#/components/schemas/A"), ("c", .ref "#/components/schemas/C")]⟩ }),
      ("A", .inline { allOf := [.ref "#/components/schemas/B", .inline { required := ["a"] }] }),
      ("C", .inline { allOf := [.ref "#/components/schemas/B", .inline { required := ["c"] }] })]⟩ }

/-- Whether a schema is a record that is written in place. -/
def isRecord (node : SchemaNode) : Bool :=
  match node.kind with
  | .object _ _ => true
  | _ => false

/-- A record with a field for an extension of itself that is written in place. -/
def extendedInPlace : Document where
  openapi := "3.1.0"
  info := { title := "Extended in place", version := "1" }
  components := some {
    schemas := ⟨[
      ("B", .inline {
        type := some (.single .object)
        properties := ⟨[
          ("p", .inline { allOf := [.ref "#/components/schemas/B", .inline { required := ["q"] }] })]⟩ })]⟩ }

-- Such a record is expanded inside itself without being included, which is reported as well.
example : extendedInPlace.Raises {} (Pointer.ofSchema "B" ++ "/properties/p/allOf/0")
    (.composition (.cyclicIntersection "B")) := by
  unfold Raises
  decide +kernel

end Document

end ApiTypes
