import ApiTypes.Proofs.Inlining
import ApiTypes.Proofs.Synthesis.Splicing

/-!
Intersections as members of intersections. The members of an inner intersection may be listed among
those of the outer one instead: records of the same fields come of both, unless types conflict, as long
as the inner intersection hands on all that its members say.
-/

namespace ApiTypes

namespace Document

variable {document replaced : Document} {config : Config} {keywords spliced : Keywords Schema}
  {before members after : List Schema}

/-- An intersection among the members of another one is replaced by its own members. -/
structure Splicing (document replaced : Document) (keywords spliced : Keywords Schema)
    (before members after : List Schema) : Prop where
  listed : members ≠ []
  nested : keywords.allOf = before ++ .inline { allOf := members } :: after
  inPlace : spliced = { keywords with allOf := before ++ (members ++ after) }
  sameVersion : replaced.version = document.version
  /-- Schemas stay as they are but for those that refer to all that the intersection does, as its part. -/
  unchanged : ∀ name, replaced.schemas.get? name = document.schemas.get? name ∨
    ∃ whole, document.schemas.get? name = some whole ∧ ∀ target,
      ((Schema.inline keywords).node document.version).Refers target →
        (whole.node document.version).Refers target

/-- Nothing stands beside an intersection that lists members alone. -/
theorem besideNodes_of_bare (version : SpecVersion) (members : List Schema) :
    Schema.besideNodes version { allOf := members } = [] := by
  rfl

/-- The nodes of an intersection of which a member is one, and of one that has its members instead. -/
theorem Splicing.splices (splicing : document.Splicing replaced keywords spliced before members after)
    (acyclic : (document.context config).Acyclic)
    (handsOn : (document.context config).HandsOn (members.map (Schema.node document.version))
      ((before ++ after).map (Schema.node document.version) ++
        Schema.besideNodes document.version keywords))
    (contributes : ∃ member ∈ before ++ after, ∃ outline,
      (member.node document.version).Outlines (document.context config) .written outline ∧
        outline.isRecord = true) : ∃ first inside last traits schemas,
      ((Schema.inline keywords).node document.version).kind = .composed .allOf
        (first ++ ⟨.composed .allOf inside none, traits⟩ :: last) none ∧
      ((Schema.inline spliced).node replaced.version).kind =
        .composed .allOf (first ++ (inside ++ last)) none ∧
      (document.context config).Splices (replaced.context config) first inside last schemas := by
  -- The inner intersection has the nodes of its members and nothing beside them.
  have isNested : ((Schema.inline { allOf := members }).node document.version).kind =
      .composed .allOf (members.map (Schema.node document.version)) none := by
    rw [Schema.kind_node_of_several document.version splicing.listed, besideNodes_of_bare,
      List.append_nil]
  have isWhole := Schema.kind_node_of_several document.version
    (show keywords.allOf ≠ [] by simp [splicing.nested])
  rw [splicing.nested] at isWhole
  refine ⟨before.map (Schema.node document.version), members.map (Schema.node document.version),
    after.map (Schema.node document.version) ++ Schema.besideNodes document.version keywords,
    ((Schema.inline { allOf := members }).node document.version).traits, _, ?_, ?_,
    agreesOn_of_unchanged acyclic splicing.sameVersion splicing.unchanged, ?_, ?_, ?_⟩
  · rw [isWhole, ← isNested, List.map_append, List.map_cons, List.append_assoc]
    rfl
  · rw [splicing.sameVersion, splicing.inPlace, Schema.kind_node_of_several document.version (by
      simp [splicing.listed])]
    simp only [List.map_append, List.append_assoc]
    rfl
  · -- All of them are members of the whole, or of the intersection that is a member of it.
    intro member isMember target refers
    refine ⟨target, ?_, .refl⟩
    simp only [List.mem_append] at isMember
    rcases isMember with isBefore | isInside | isAfter
    · exact .of_member isWhole (by simp only [List.map_append, List.mem_append]; tauto) refers
    · exact .of_member isWhole (List.mem_append_left _ (List.mem_map_of_mem
        (List.mem_append_right before List.mem_cons_self))) (.of_member isNested isInside refers)
    · refine .of_member isWhole ?_ refers
      simp only [List.map_append, List.map_cons, List.mem_append, List.mem_cons]
      tauto
  · -- What stands beside the outer intersection counts as one of its last members.
    rwa [List.map_append, List.append_assoc] at handsOn
  · obtain ⟨member, isMember, outline, outlines, isRecord⟩ := contributes
    refine ⟨member.node document.version, ?_, by rwa [outlines.outlineOf_eq]⟩
    have isNode := List.mem_map_of_mem (f := Schema.node document.version) isMember
    rw [List.map_append] at isNode
    rw [← List.append_assoc]
    exact List.mem_append_left _ isNode

/-- An intersection that stands for the base. -/
def inner : Schema := .inline { allOf := [shared] }

/-- The reference to the base may be listed in place of the intersection that stands for it. -/
theorem splicing_extended (base : Schema) :
    (extended base inner).Splicing (extended base shared) (extending inner) (extending shared) []
      [shared] [ownField] where
  listed := List.cons_ne_nil _ _
  nested := rfl
  inPlace := rfl
  sameVersion := rfl
  unchanged := unchanged_extended base inner shared

/-- The intersection hands on what the base says, unless the use of that admits null. -/
theorem handsOn_extended {base : Schema} (direct : (base.node .v31).inheritsNull = false)
    (others : List SchemaNode) :
    ((extended base inner).context {}).HandsOn ([shared].map (Schema.node .v31)) others where
  direct target node isOnly found := by
    -- The only reference is that to the base.
    have isTarget : target = "Shared" := by
      cases isOnly
      decide
    subst isTarget
    have isNode := (SchemaModel.node?_ofDocument (extended base inner) "Shared").symm.trans found
    rw [version_extended] at isNode
    cases isNode
    exact direct
  unrestricted member isMember isAny := by
    cases List.mem_singleton.mp isMember
    cases isAny
  declared several := by cases several

/-- The other member contributes an object. -/
theorem outlines_ownField (context : Context) : ∃ outline,
    (ownField.node .v31).Outlines context .written outline ∧ outline.isRecord = true := by
  obtain ⟨keywords, isInline, single⟩ : ∃ keywords, ownField = .inline keywords ∧ keywords.allOf = [] :=
    ⟨_, rfl, rfl⟩
  have isListed : (ownField.node .v31).kind.isUnlisted = false := by decide
  rw [isInline] at isListed ⊢
  obtain ⟨additional, isObject⟩ := (Schema.kind_node_of_single .v31 single).resolve_right
    (by rw [isListed]; exact Bool.false_ne_true)
  generalize (Schema.inline keywords).node .v31 = node at isObject
  obtain ⟨kind, traits⟩ := node
  cases isObject
  exact ⟨_, .object, rfl⟩

/-- It does so among the members of the extension. -/
theorem contributes_extended (base : Schema) : ∃ member ∈ [] ++ [ownField], ∃ outline,
    (member.node (extended base inner).version).Outlines ((extended base inner).context {}) .written
      outline ∧ outline.isRecord = true := by
  rw [version_extended]
  exact ⟨ownField, List.mem_singleton_self _, outlines_ownField _⟩

/-- A base that admits null. -/
def nullableField : Keywords Schema where
  type := some (.several [.object, .null])
  properties := ⟨[("common", .inline { type := some (.single .string) })]⟩

end Document

end ApiTypes
