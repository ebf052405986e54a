import ApiTypes.Proofs.Reports
import ApiTypes.Proofs.Dependents
import ApiTypes.Proofs.Precedence
import ApiTypes.Proofs.SchemaNodes
import ApiTypes.Proofs.Synthesis.Blame

/-!
Documents with their component schemas in another order. The same ones are emitted, however they refer to
each other, unless it is reported in one of the orders that merged properties do not agree, or that there is
a cycle through names or intersections.
-/

namespace ApiTypes

open Relation

namespace Document

variable {document reordered : Document}

/-- A document of the same version has the same component schemas in another order. -/
structure Reorders (document reordered : Document) : Prop where
  version_eq : reordered.version = document.version
  perm : reordered.schemas.entries.Perm document.schemas.entries
  distinct : document.schemas.keys.Nodup

namespace Reorders

variable (reorders : document.Reorders reordered)

include reorders

/-- The order may be changed back. -/
theorem symm : reordered.Reorders document where
  version_eq := reorders.version_eq.symm
  perm := reorders.perm.symm
  distinct := (reorders.perm.map Prod.fst).nodup_iff.mpr reorders.distinct

/-- Look-ups find the same schemas. -/
theorem get?_eq (name : String) : reordered.schemas.get? name = document.schemas.get? name := by
  ext schema
  constructor
  all_goals intro found
  · exact Table.get?_of_mem_entries reorders.distinct
      (reorders.perm.mem_iff.mp (Table.mem_entries_of_get? found))
  · exact Table.get?_of_mem_entries reorders.symm.distinct
      (reorders.perm.mem_iff.mpr (Table.mem_entries_of_get? found))

/-- Synthesis sees the same nodes. -/
theorem same_context (config : Config) :
    (document.context config).Same (reordered.context config) where
  node?_eq := funext fun name => by
    simp only [context, SchemaModel.node?_ofDocument, reorders.get?_eq, reorders.version_eq]
  maxArrayDepth_eq := rfl
  maxItems_eq := rfl

end Reorders

variable (document reordered) (config : Config)

/-- What is emitted in one order is so in another one in which nothing clashes. -/
theorem emits_of_emits_reordered (reorders : document.Reorders reordered)
    (calm : ¬(reordered.entered config).Clashes) {schema : String}
    (emits : document.Emits config schema) : reordered.Emits config schema := by
  have same := reorders.symm.same_context config
  -- What is involved in the one order can be declared in the other one, so it is registered there.
  refine emits_of_registered
    (fun _ => registered_of_founds (document.founds_involves config) same calm)
    (fun source target involves refers => involves.refers ?_) (.inl emits)
  obtain ⟨node, found, refers⟩ := refers
  exact ⟨node, (congrFun same.node?_eq source).trans found, refers⟩

/--
The same component schemas are emitted in any order, unless it is reported in one of the orders that merged
properties do not agree, or that there is a cycle through names or intersections.
-/
theorem emits_iff_of_reorders (reorders : document.Reorders reordered)
    (calm : ¬(document.entered config).Clashes) (alsoCalm : ¬(reordered.entered config).Clashes)
    (schema : String) : reordered.Emits config schema ↔ document.Emits config schema :=
  ⟨reordered.emits_of_emits_reordered document config reorders.symm calm,
    document.emits_of_emits_reordered reordered config reorders alsoCalm⟩

/-- A document of component schemas in some order. -/
def ofEntries (entries : List (String × Schema)) : Document where
  openapi := "3.1.0"
  info := { title := "Schemas in order", version := "1" }
  components := some { schemas := ⟨entries⟩ }

/-- The schemas may be written the other way around. -/
theorem reorders_reverse {entries : List (String × Schema)} (distinct : (entries.map Prod.fst).Nodup) :
    (ofEntries entries).Reorders (ofEntries entries.reverse) :=
  ⟨rfl, entries.reverse_perm, distinct⟩

/-- An object schema with the given properties. -/
def objectOf (title : Option String) (properties : List (String × Schema)) : Schema :=
  .inline { title, type := some (.single .object), properties := ⟨properties⟩ }

/-- A schema of texts. -/
def textSchema : Schema := .inline { type := some (.single .string) }

/-- A record and an extension of it, which have fields of each other, and the name of what is missing. -/
def extendedEntries : List (String × Schema) :=
  [("A", .inline { allOf := [.ref "#/components/schemas/B", objectOf none [("note", textSchema)]] }),
    ("B", objectOf none [("a", .ref "#/components/schemas/A"), ("b", .ref "#/components/schemas/B")]),
    ("C", objectOf none [("a", .ref "#/components/schemas/A")]),
    ("D", .ref "#/components/schemas/E")]

/-- In either order the records are emitted, and the name of nothing is not. -/
theorem emits_iff_extendedEntries :
    (ofEntries extendedEntries).Reorders (ofEntries extendedEntries.reverse) ∧
      ¬((ofEntries extendedEntries).entered {}).Clashes ∧
      ¬((ofEntries extendedEntries.reverse).entered {}).Clashes ∧
      ((ofEntries extendedEntries).synthesize {}).names.keys = ["A", "B", "C"] ∧
      ∀ schema, (ofEntries extendedEntries.reverse).Emits {} schema ↔
        (ofEntries extendedEntries).Emits {} schema := by
  have reorders : (ofEntries extendedEntries).Reorders (ofEntries extendedEntries.reverse) :=
    reorders_reverse (by decide)
  have calm {workspace : Workspace} (agrees : ∀ diagnostic ∈ workspace.diagnostics,
      ∀ failure ∈ diagnostic.cause.failure?, failure.isClash = false) : ¬workspace.Clashes := by
    rintro ⟨diagnostic, isReported, failure, isFailure, isClash⟩
    cases (agrees diagnostic isReported failure isFailure).symm.trans isClash
  have first : ¬((ofEntries extendedEntries).entered {}).Clashes := calm (by decide +kernel)
  have second : ¬((ofEntries extendedEntries.reverse).entered {}).Clashes := calm (by decide +kernel)
  exact ⟨reorders, first, second, by decide +kernel, fun schema =>
    emits_iff_of_reorders _ _ {} reorders first second schema⟩

/-- A choice of a single record, whose field has another name of the choice. -/
def aliasedChoice : List (String × Schema) :=
  [("A", .inline { oneOf := [objectOf none [("p", .ref "#/components/schemas/B")]] }),
    ("B", .ref "#/components/schemas/A")]

/-- In one order, the other name is said to be an alias of itself, and neither schema is emitted. -/
theorem not_emits_iff_aliasedChoice :
    ¬∀ (document reordered : Document) (config : Config) (schema : String),
      document.Reorders reordered →
        (reordered.Emits config schema ↔ document.Emits config schema) := by
  intro independent
  obtain ⟨isNamed, isMissing⟩ :
      ((((ofEntries aliasedChoice.reverse).synthesize {}).names.get? "A").isSome = true) ∧
        ((ofEntries aliasedChoice).synthesize {}).names.get? "A" = none := by
    decide +kernel
  have ⟨name, isName⟩ := (independent _ _ {} "A" (reorders_reverse (by decide))).mp
    (Option.isSome_iff_exists.mp isNamed)
  cases isMissing.symm.trans isName

/-- A property is once a choice of two records that are the same, and once the second of them. -/
def mergedNamesakes : List (String × Schema) :=
  let record (title : Option String) := objectOf title [("k", textSchema)]
  [("B", .inline { allOf := [
      objectOf none [("p", .inline { oneOf := [record (some "A"), record (some "A2")] })],
      objectOf none [("p", record (some "A2"))]] }),
    ("A", record none)]

/--
Where `A` is declared first, one of the records of the choice is that schema and the other is not, so
that the choice is no longer the same as the record.
-/
theorem not_emits_iff_mergedNamesakes :
    ¬∀ (document reordered : Document) (config : Config) (schema : String),
      document.Reorders reordered → (document.context config).Acyclic →
        (reordered.Emits config schema ↔ document.Emits config schema) := by
  intro independent
  obtain ⟨isNamed, isMissing⟩ :
      ((((ofEntries mergedNamesakes).synthesize {}).names.get? "B").isSome = true) ∧
        ((ofEntries mergedNamesakes.reverse).synthesize {}).names.get? "B" = none := by
    decide +kernel
  have ⟨name, isName⟩ := (independent _ _ {} "B" (reorders_reverse (by decide))
    (Context.acyclic_of_ascending (by decide))).mpr (Option.isSome_iff_exists.mp isNamed)
  cases isMissing.symm.trans isName

end Document

end ApiTypes
