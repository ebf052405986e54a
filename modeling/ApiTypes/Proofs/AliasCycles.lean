import Mathlib.Order.WellFoundedSet
import ApiTypes.Proofs.Emission

/-!
Declarations that are only other names of declared types. Following them ends, unless it comes to a
cycle through a component schema that is not recognised as another name.
-/

namespace ApiTypes

/-- What holds at any time of synthesis of declarations that are only other names. -/
structure AliasesPrecede (context : Context) (workspace : Workspace) : Prop where
  /-- A shape inside a schema is never declared as another name. -/
  of_inline : ∀ {name declaration path}, workspace.registry.get? name = some declaration →
    declaration.origin = .inline path → declaration.shape.synonym? = none
  /-- What is named is declared before, or in progress without being recognised, or has failed. -/
  precedes : ∀ {name declaration target schema node},
    workspace.registry.get? name = some declaration → declaration.shape.synonym? = some target →
    context.emitted? schema = some target → context.model.node? schema = some node →
    node.declaresAlias = true →
    [target, name].Sublist workspace.registry.order ∨ workspace.resolver.state schema = .failed

/-- Nothing is declared in the beginning. -/
theorem AliasesPrecede.ofContext (context : Context) :
    AliasesPrecede context (Workspace.ofContext context) := by
  have undeclared : ∀ name, (Workspace.ofContext context).registry.get? name = none := by
    intro name
    rw [Registry.get?, (Workspace.reserves_ofContext context).slots_eq]
    cases (Workspace.ofContext context).resolver.schemas.get? name <;> rfl
  exact ⟨fun found => by simp [undeclared] at found, fun found => by simp [undeclared] at found⟩

/-- Another name mentions the type that it names. -/
theorem Shape.mem_mentions_of_synonym? {shape : Shape} {target : String}
    (isSynonym : shape.synonym? = some target) : target ∈ shape.mentions := by
  cases shape with
  | «alias» type => simp [mentions, TypeExpr.mentions_of_name? isSynonym]
  | record | enum | union => simp [synonym?] at isSynonym

/-- A shape in progress names a schema that is declared, or failed, or not recognised. -/
theorem declared_of_ends {context : Context} {muted : Bool} {active expanding : List String}
    {node other : SchemaNode} {scope : Scope} {first last : Workspace} {shape : Shape}
    {target schema : String} (consistent : Consistent context first)
    (started : ∀ schema ∈ active, first.resolver.state schema ≠ .pending)
    (ends : (Synthesis.shapeWithin (Synthesis.within context muted active expanding) node
      scope).Ends first (.ok shape) last)
    (isSynonym : shape.synonym? = some target) (emitted : context.emitted? schema = some target)
    (found : context.model.node? schema = some other) (recognised : other.declaresAlias = true) :
    target ∈ last.registry.order ∨ last.resolver.state schema = .failed := by
  have sound := Synthesis.sound_within context muted active expanding
  obtain ⟨runs, known⟩ := Synthesis.keeps_shapeWithin sound node scope _ _ _ consistent started
    (by simp) ends
  have ⟨after, _⟩ := runs.consistent consistent
  have isMentioned := shape.mem_mentions_of_synonym? isSynonym
  have isStarted := after.started_of_knows emitted (known shape rfl target isMentioned)
  -- The check has passed, so the schema is not in progress.
  have notResolving : last.resolver.state schema ≠ .resolving := by
    have passed := ((Synthesis.ends_shapeWithin_ok_iff _ _ _ _).mp ends).2
    intro resolving
    simp [Synthesis.circular?, isSynonym, (after.schemas_get?_iff schema target).mpr emitted,
      Resolver.isVisiting, resolving, Synthesis.within, found, recognised] at passed
  cases state : last.resolver.state schema with
  | pending => exact absurd state isStarted
  | resolving => exact absurd state notResolving
  | failed => exact .inr rfl
  | registered =>
    obtain ⟨name, declaration, held, stands, _⟩ := after.registered state
    cases held.symm.trans emitted
    exact .inl ((after.wellFormed.mem_order_iff target).mpr
      ((Registry.isDeclared_iff _ _).mpr ⟨declaration, stands⟩))

namespace AliasesPrecede

variable {context : Context}

/-- What is declared before stays so, and what has failed does too. -/
theorem grow {first last : Workspace} (before : AliasesPrecede context first)
    (grows : Grows first last)
    (added : ∀ name declaration, last.registry.get? name = some declaration →
      first.registry.get? name = some declaration ∨ declaration.shape.synonym? = none) :
    AliasesPrecede context last where
  of_inline {name declaration path} found origin :=
    (added name declaration found).elim (fun old => before.of_inline old origin) id
  precedes {name declaration target schema node} found isSynonym emitted isNode recognised := by
    rcases added name declaration found with old | plain
    · rcases before.precedes old isSynonym emitted isNode recognised with earlier | failed
      · exact .inl (earlier.trans grows.order.sublist)
      · exact .inr (by rw [grows.state_eq (by simp [failed]), failed])
    · simp [plain] at isSynonym

/-- Beginning a schema declares nothing, and restores none that has failed. -/
theorem begin {workspace : Workspace} (before : AliasesPrecede context workspace) {name : String}
    (pending : workspace.resolver.state name = .pending) :
    AliasesPrecede context (workspace.begin name) where
  of_inline := before.of_inline
  precedes {_ _ _ schema _} found isSynonym emitted isNode recognised := by
    refine (before.precedes found isSynonym emitted isNode recognised).imp_right fun failed => ?_
    rw [Workspace.begin, Resolver.state_start, if_neg, failed]
    rintro rfl
    simp [pending] at failed

/-- A schema that fails declares nothing. -/
theorem fail {inner : Workspace} (before : AliasesPrecede context inner) (name emitted : String)
    (node : SchemaNode) (located : LocatedFailure) :
    AliasesPrecede context (inner.conclude name emitted node (.error located)) where
  of_inline := before.of_inline
  precedes {_ _ _ schema _} found isSynonym emitted isNode recognised := by
    refine (before.precedes found isSynonym emitted isNode recognised).imp_right fun failed => ?_
    simp only [Workspace.conclude, Resolver.state_finish]
    split
    · rfl
    · exact failed

end AliasesPrecede

/-- A run declares nothing but another name before what is named, unless that is not recognised. -/
theorem Runs.aliasesPrecede {context : Context} {first last : Workspace}
    (runs : Runs context first last) (consistent : Consistent context first)
    (before : AliasesPrecede context first) : AliasesPrecede context last := by
  induction runs with
  | refl => exact before
  | register runs candidate shape doc deprecated path isPlain ih =>
    rename_i middle
    have grows := ((runs.consistent consistent).1.register candidate shape doc deprecated path).2
    refine (ih consistent before).grow grows fun name declaration found => ?_
    rcases middle.registry.register_cases candidate shape doc deprecated (.inline path) with
      ⟨_, _, _, _, isSame⟩ | ⟨fresh, _, isDeclared⟩
    · exact .inl (by simpa [isSame] using found)
    · simp only [isDeclared, Registry.get?_declare] at found
      split at found
      · cases found
        exact .inr isPlain
      · exact .inl found
  | report runs path cause _ ih =>
    have grows := ((runs.consistent consistent).1.report path cause).2
    exact (ih consistent before).grow grows fun _ _ found => .inl found
  | component runs found pending muted started ends inside ih insideIh =>
    rename_i middle inner name node active expanding result
    have ⟨middleConsistent, _⟩ := runs.consistent consistent
    have begun := middleConsistent.begin found pending
    have precede := insideIh begun ((ih consistent before).begin pending)
    cases result with
    | error located => exact precede.fail _ _ _ _
    | ok shape =>
      have ⟨innerConsistent, innerGrows⟩ := inside.consistent begun
      have isEmitted := middleConsistent.emitted?_eq_scopeOf found
      have resolving := innerGrows.resolving
      have undeclared := innerConsistent.undeclared_of_resolving isEmitted resolving
      have order_eq : (inner.conclude name (middle.scopeOf name).name node (.ok shape)).registry.order =
          inner.registry.order ++ [(middle.scopeOf name).name] := by
        simp [Workspace.conclude, Registry.fill, Registry.order_declare, Registry.isDeclared,
          undeclared]
      have failed_of : ∀ {schema}, inner.resolver.state schema = .failed →
          (inner.conclude name (middle.scopeOf name).name node (.ok shape)).resolver.state schema =
            .failed := by
        intro schema failed
        simp only [Workspace.conclude, Resolver.state_finish]
        rw [if_neg, failed]
        rintro rfl
        simp [resolving] at failed
      constructor
      · intro other declaration path stands origin
        simp only [Workspace.conclude, Registry.fill, Registry.get?_declare] at stands
        split at stands
        · cases stands
          cases origin
        · exact precede.of_inline stands origin
      · intro other declaration target schema targetNode stands isSynonym held isNode recognised
        simp only [Workspace.conclude, Registry.fill, Registry.get?_declare] at stands
        rw [order_eq]
        split at stands
        · rename_i isName
          cases stands
          -- The schema itself is another name, so it comes after what it names.
          rcases declared_of_ends begun (Synthesis.started_begin started) ends isSynonym held isNode
            recognised with isDeclared | failed
          · left
            rw [isName]
            exact (List.singleton_sublist.mpr isDeclared).append (List.Sublist.refl _)
          · exact .inr (failed_of failed)
        · rcases precede.precedes stands isSynonym held isNode recognised with earlier | failed
          · exact .inl (earlier.trans (List.sublist_append_left _ _))
          · exact .inr (failed_of failed)

/-- In a list without repetitions, what comes first has the smaller position. -/
theorem idxOf_lt_idxOf_of_sublist {items : List String} (distinct : items.Nodup)
    {first second : String} (ordered : [first, second].Sublist items) :
    items.idxOf first < items.idxOf second := by
  induction items with
  | nil => cases ordered
  | cons item rest ih =>
    obtain ⟨notInRest, restDistinct⟩ := List.nodup_cons.mp distinct
    cases ordered with
    | cons _ later =>
      have firstOther : item ≠ first := fun same => notInRest (same ▸ later.subset (by simp))
      have secondOther : item ≠ second := fun same => notInRest (same ▸ later.subset (by simp))
      rw [List.idxOf_cons_ne _ firstOther, List.idxOf_cons_ne _ secondOther]
      exact Nat.succ_lt_succ (ih restDistinct later)
    | cons_cons _ later =>
      have secondOther : first ≠ second := fun same =>
        notInRest (same ▸ List.singleton_sublist.mp later)
      rw [List.idxOf_cons_self, List.idxOf_cons_ne _ secondOther]
      exact Nat.succ_pos _

/-- At any time of synthesis what is named comes first, unless it has failed or is not recognised. -/
theorem Reachable.aliasesPrecede {context : Context} {workspace : Workspace}
    (reachable : Reachable context workspace) : AliasesPrecede context workspace := by
  induction reachable with
  | initial => exact .ofContext context
  | runs before runs ih => exact runs.aliasesPrecede before.consistent ih
  | failure before located ih =>
    exact ih.grow (before.consistent.report _ _).2 fun _ _ found => .inl found

namespace Output

/-- An emitted declaration is nothing but another name of a type. -/
def Aliases (output : Output) (name target : String) : Prop :=
  ∃ declaration ∈ output.declarations, declaration.name = name ∧
    declaration.shape.synonym? = some target

/-- Following other names from any emitted declaration ends at one that is more than that. -/
def AliasesEnd (output : Output) : Prop :=
  ∀ declaration ∈ output.declarations, ∃ last ∈ output.declarations,
    Relation.ReflTransGen output.Aliases declaration.name last.name ∧ last.shape.synonym? = none

end Output

namespace Document

variable (document : Document) (config : Config)

/-- No two emitted declarations share a name. -/
theorem emitted_unique {declaration other : Declaration}
    (isEmitted : declaration ∈ (document.synthesize config).declarations)
    (otherEmitted : other ∈ (document.synthesize config).declarations)
    (sameName : declaration.name = other.name) : declaration = other := by
  have found := ((document.mem_declarations_synthesize_iff config declaration).mp isEmitted).1
  have otherFound := ((document.mem_declarations_synthesize_iff config other).mp otherEmitted).1
  exact Option.some.inj (found.symm.trans (sameName ▸ otherFound))

/-- What an emitted declaration mentions is emitted. -/
theorem exists_emitted_of_mention {declaration : Declaration} {name : String}
    (isEmitted : declaration ∈ (document.synthesize config).declarations)
    (isMentioned : name ∈ declaration.mentions) :
    ∃ other ∈ (document.synthesize config).declarations, other.name = name := by
  have wellFormed := (document.consistent_unfinished config).wellFormed
  obtain ⟨found, kept⟩ := (document.mem_declarations_synthesize_iff config declaration).mp isEmitted
  have mentionedKept := kept.of_mentions ⟨declaration, found, isMentioned⟩
  obtain ⟨other, otherFound, _⟩ := Registry.isClosed_supported _ name mentionedKept.supported
  have sameName := wellFormed.name_eq otherFound
  exact ⟨other, (document.mem_declarations_synthesize_iff config other).mpr
    (sameName.symm ▸ ⟨otherFound, mentionedKept⟩), sameName⟩

/-- The emitted component schema is not recognised as another name, though its name leads to itself. -/
def MissedCycle (schema : String) : Prop :=
  ∃ name node, (document.synthesize config).names.get? schema = some name ∧
    (document.context config).model.node? schema = some node ∧ node.declaresAlias = false ∧
    Relation.TransGen (document.synthesize config).Aliases name name

/-- On a cycle without unrecognised schemas, what is named is declared first. -/
theorem idxOf_lt_of_aliases (notMissed : ∀ schema, ¬document.MissedCycle config schema)
    {name target : String} (aliases : (document.synthesize config).Aliases name target)
    (cycle : Relation.TransGen (document.synthesize config).Aliases target target) :
    (document.unfinished config).registry.order.idxOf target <
      (document.unfinished config).registry.order.idxOf name := by
  have consistent := document.consistent_unfinished config
  have precede := (document.binds_unfinished config).reachable.aliasesPrecede
  obtain ⟨declaration, isEmitted, rfl, isSynonym⟩ := aliases
  obtain ⟨found, _⟩ := (document.mem_declarations_synthesize_iff config declaration).mp isEmitted
  -- The target is another name itself, so it is a component schema.
  obtain ⟨next, ⟨other, otherEmitted, rfl, otherSynonym⟩, _⟩ :=
    Relation.TransGen.head'_iff.mp cycle
  obtain ⟨otherFound, kept⟩ := (document.mem_declarations_synthesize_iff config other).mp otherEmitted
  cases origin : other.origin with
  | inline path => simp [precede.of_inline otherFound origin] at otherSynonym
  | component schema =>
    obtain ⟨held, registered⟩ := consistent.of_component otherFound origin
    have isName := (document.names_synthesize_get?_iff config schema other.name).mpr
      ⟨held, kept.supported⟩
    obtain ⟨node, isNode⟩ := (Table.mem_keys_iff (document.context config).model.nodes schema).mp
      (((document.context config).exists_emitted?_iff schema).mp ⟨other.name, held⟩)
    have recognised : node.declaresAlias = true := by
      cases isRecognised : node.declaresAlias with
      | true => rfl
      | false =>
        exact absurd ⟨other.name, node, isName, isNode, isRecognised, cycle⟩ (notMissed schema)
    rcases precede.precedes found isSynonym held isNode recognised with earlier | failed
    · exact idxOf_lt_idxOf_of_sublist consistent.wellFormed.nodup_order earlier
    · simp [registered] at failed

/-- Without unrecognised schemas on it, there is no cycle. -/
theorem no_cycle (notMissed : ∀ schema, ¬document.MissedCycle config schema) (name : String) :
    ¬Relation.TransGen (document.synthesize config).Aliases name name := by
  intro cycle
  -- Along the cycle everything is declared before where it starts.
  have earlier : ∀ {other}, Relation.TransGen (document.synthesize config).Aliases name other →
      Relation.ReflTransGen (document.synthesize config).Aliases other name →
      (document.unfinished config).registry.order.idxOf other <
        (document.unfinished config).registry.order.idxOf name := by
    intro other leads
    induction leads with
    | single aliases =>
      intro back
      exact document.idxOf_lt_of_aliases config notMissed aliases (.tail' back aliases)
    | tail leads aliases ih =>
      intro back
      have further := document.idxOf_lt_of_aliases config notMissed aliases
        ((Relation.TransGen.trans_right back leads).tail aliases)
      exact further.trans (ih (.head aliases back))
  exact absurd (earlier cycle .refl) (lt_irrefl _)

/-- Without cycles, following other names from an emitted declaration ends. -/
theorem aliasesEnd_of_no_cycle
    (acyclic : ∀ name, ¬Relation.TransGen (document.synthesize config).Aliases name name) :
    (document.synthesize config).AliasesEnd := by
  have isStrictOrder : IsStrictOrder String
      (Function.swap (Relation.TransGen (document.synthesize config).Aliases)) :=
    { irrefl := acyclic
      trans := fun _ _ _ first second => second.trans first }
  -- There are only finitely many emitted names, so what is named comes before in a well-founded order.
  have finite : {name | name ∈ (document.synthesize config).declarations.map
    Declaration.name}.Finite := List.finite_toSet _
  have wellFounded := finite.wellFoundedOn
    (r := Function.swap (Relation.TransGen (document.synthesize config).Aliases))
  have ends : ∀ name ∈ {name | name ∈ (document.synthesize config).declarations.map
      Declaration.name}, ∀ declaration ∈ (document.synthesize config).declarations,
      declaration.name = name → ∃ last ∈ (document.synthesize config).declarations,
        Relation.ReflTransGen (document.synthesize config).Aliases name last.name ∧
          last.shape.synonym? = none := by
    intro name isName
    apply wellFounded.induction isName
    rintro _ _ ih declaration isEmitted rfl
    cases isSynonym : declaration.shape.synonym? with
    | none => exact ⟨declaration, isEmitted, .refl, isSynonym⟩
    | some target =>
      obtain ⟨other, otherEmitted, rfl⟩ := document.exists_emitted_of_mention config isEmitted
        (declaration.shape.mem_mentions_of_synonym? isSynonym)
      have aliases : (document.synthesize config).Aliases declaration.name other.name :=
        ⟨declaration, isEmitted, rfl, isSynonym⟩
      obtain ⟨last, lastEmitted, leads, isLast⟩ := ih other.name
        (List.mem_map_of_mem otherEmitted) (.single aliases) other otherEmitted rfl
      exact ⟨last, lastEmitted, .head aliases leads, isLast⟩
  intro declaration isEmitted
  exact ends _ (List.mem_map_of_mem isEmitted) declaration isEmitted rfl

/-- An emitted declaration is another name of at most one type. -/
theorem aliases_unique {name target other : String}
    (first : (document.synthesize config).Aliases name target)
    (second : (document.synthesize config).Aliases name other) : target = other := by
  obtain ⟨declaration, isEmitted, rfl, isSynonym⟩ := first
  obtain ⟨also, alsoEmitted, sameName, alsoSynonym⟩ := second
  cases document.emitted_unique config alsoEmitted isEmitted sameName
  exact Option.some.inj (isSynonym.symm.trans alsoSynonym)

/-- If following other names ends, nothing is another name of itself. -/
theorem no_cycle_of_aliasesEnd (ends : (document.synthesize config).AliasesEnd) (name : String) :
    ¬Relation.TransGen (document.synthesize config).Aliases name name := by
  intro cycle
  -- Whatever a cycle leads to lies on a cycle, for it has only one continuation.
  have onCycle : ∀ {other}, Relation.ReflTransGen (document.synthesize config).Aliases name other →
      Relation.TransGen (document.synthesize config).Aliases other other := by
    intro other leads
    induction leads with
    | refl => exact cycle
    | tail _ aliases ih =>
      obtain ⟨next, also, back⟩ := Relation.TransGen.head'_iff.mp ih
      cases document.aliases_unique config aliases also
      exact .tail' back aliases
  obtain ⟨_, ⟨declaration, isEmitted, rfl, _⟩, _⟩ := Relation.TransGen.head'_iff.mp cycle
  obtain ⟨last, lastEmitted, leads, isLast⟩ := ends declaration isEmitted
  obtain ⟨_, ⟨other, otherEmitted, sameName, isSynonym⟩, _⟩ :=
    Relation.TransGen.head'_iff.mp (onCycle leads)
  cases document.emitted_unique config otherEmitted lastEmitted sameName
  simp [isLast] at isSynonym

/-- Following other names ends everywhere, unless a cycle passes through an unrecognised schema. -/
theorem synthesize_aliasesEnd_iff :
    (document.synthesize config).AliasesEnd ↔ ∀ schema, ¬document.MissedCycle config schema := by
  constructor
  · rintro ends schema ⟨name, node, _, _, _, cycle⟩
    exact document.no_cycle_of_aliasesEnd config ends name cycle
  · exact fun notMissed => document.aliasesEnd_of_no_cycle config
      (document.no_cycle config notMissed)


/-- Two schemas that name each other, the first of them by a choice that comes to one type twice. -/
def doubledChoice : Document where
  openapi := "3.1.0"
  info := { title := "Doubled choice", version := "1" }
  components := some {
    schemas := ⟨[
      ("D", .inline { oneOf := [
        .ref "#/components/schemas/C",
        .inline { oneOf := [.ref "#/components/schemas/C"] }] }),
      ("C", .ref "#/components/schemas/D")]⟩ }

/-- The choice is not recognised as another name, so both schemas are emitted as names of each other. -/
theorem not_aliasesEnd_doubledChoice :
    ¬∀ (document : Document) (config : Config), (document.synthesize config).AliasesEnd := by
  intro ends
  have first : (doubledChoice.synthesize {}).Aliases "D" "C" := by
    unfold Output.Aliases
    decide +kernel
  have second : (doubledChoice.synthesize {}).Aliases "C" "D" := by
    unfold Output.Aliases
    decide +kernel
  exact doubledChoice.no_cycle_of_aliasesEnd {} (ends doubledChoice {}) "D"
    (.tail (.single first) second)

end Document

end ApiTypes
