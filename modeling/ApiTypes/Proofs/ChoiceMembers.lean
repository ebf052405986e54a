import ApiTypes.Proofs.Dependents
import ApiTypes.Proofs.Synthesis.Choices

/-!
Choices in the intersections of emitted schemas. There are none, however they are written: as members, behind
references, or in members that are intersections themselves.
-/

namespace ApiTypes

namespace Document

variable (document : Document) (config : Config)

/-- What an emitted schema uses is emitted, and its intersections have no choices but behind that. -/
theorem cleared_of_emits {schema : String} {node : SchemaNode} (emits : document.Emits config schema)
    (found : (document.context config).model.node? schema = some node) :
    (∀ target, node.Uses target → document.Emits config target) ∧
      node.Cleared (document.context config).model (document.Emits config) := by
  obtain ⟨also, _, _, declares⟩ := document.exists_declares config emits
  cases found.symm.trans declares.found
  obtain ⟨_, ⟨_, _, _, _, _, yields, _⟩, _⟩ := declares.stands
  obtain ⟨shape, rfl⟩ := yields.exists_shape
  exact ⟨fun _ uses => declares.uses uses, yields.excludes.mono fun _ uses => declares.uses uses⟩

variable {document config}

/-- A member that leads to a choice is the reference for which an intersection stands. -/
theorem reference_of_chooses {schema : String} {outer node : SchemaNode} {members : List SchemaNode}
    (emits : document.Emits config schema)
    (found : (document.context config).model.node? schema = some outer)
    (intersects : outer.Intersects members) (isMember : node ∈ members)
    (chooses : node.Chooses (document.context config).model.node?) :
    ∃ target next, node.kind = .reference target ∧ document.Emits config target ∧
      (document.context config).model.node? target = some next ∧
      (document.context config).model.isUnion next = false := by
  rcases (document.cleared_of_emits config emits found).2 members intersects with noChoice |
    ⟨target, ⟨isOnly, next, isNext, notChoice⟩, isEmitted⟩
  · exact absurd chooses (noChoice node isMember)
  · refine ⟨target, next, ?_, isEmitted, isNext, notChoice⟩
    refine (SchemaNode.cases_of_onlyReference? isOnly node isMember).resolve_left ?_
    exact fun isUnconstrained => SchemaNode.not_chooses_of_isUnconstrained isUnconstrained chooses

/--
A node that leads to a choice is no member of an intersection in an emitted schema; and if it is the node
of one, then references alone lead from it to the choice.
-/
theorem excluded_of_chooses {node : SchemaNode}
    (chooses : node.Chooses (document.context config).model.node?) :
    (∀ schema, document.Emits config schema →
      (document.context config).model.node? schema = some node →
        (document.context config).model.isUnion node = true) ∧
    ∀ schema outer members, document.Emits config schema →
      (document.context config).model.node? schema = some outer → outer.Intersects members →
        node ∉ members := by
  -- The induction is on the way to the choice, which passes through references and members.
  induction chooses with
  | @choice kind _ _ _ isChoice =>
    refine ⟨fun _ _ _ => ?_, fun schema outer members emits found intersects isMember => ?_⟩
    · refine (SchemaModel.isUnion_iff _).mpr (.choice ?_)
      cases kind with
      | allOf => exact absurd rfl isChoice
      | oneOf | anyOf => rfl
    · obtain ⟨_, _, isReference, _⟩ :=
        reference_of_chooses emits found intersects isMember (.choice isChoice)
      cases isReference
  | reference isNext inside ih =>
    refine ⟨fun schema emits found => ?_, fun schema outer members emits found intersects isMember => ?_⟩
    · -- The target is emitted as well, and by induction it leads to the choice by references alone.
      have isEmitted := (document.cleared_of_emits config emits found).1 _ .reference
      have isChoice := (SchemaModel.isUnion_iff _).mp (ih.1 _ isEmitted isNext)
      exact (SchemaModel.isUnion_iff _).mpr (.reference isNext isChoice)
    · obtain ⟨_, next, isReference, isEmitted, isTarget, notChoice⟩ :=
        reference_of_chooses emits found intersects isMember (.reference isNext inside)
      cases isReference
      -- An intersection stands for a reference only to what is no choice, but by induction this is one.
      cases isNext.symm.trans isTarget
      rw [ih.1 _ isEmitted isNext] at notChoice
      cases notChoice
  | member isInner inside ih =>
    refine ⟨fun schema emits found => ?_, fun schema outer members emits found intersects isMember => ?_⟩
    · -- The member itself would stand in an intersection of an emitted schema.
      exact absurd isInner (ih.2 schema _ _ emits found .here)
    · obtain ⟨_, _, isReference, _⟩ :=
        reference_of_chooses emits found intersects isMember (.member isInner inside)
      cases isReference

/-- No member of an intersection in an emitted schema is a choice or leads to one. -/
theorem not_chooses_of_emits {schema : String} {node : SchemaNode} (emits : document.Emits config schema)
    (found : (document.context config).model.node? schema = some node) {members : List SchemaNode}
    (intersects : node.Intersects members) {member : SchemaNode} (isMember : member ∈ members) :
    ¬member.Chooses (document.context config).model.node? :=
  fun chooses => (excluded_of_chooses chooses).2 schema node members emits found intersects isMember

/-- Records that take in each other, one of which has a choice as a property. -/
def layeredRecords : Document :=
  let object (name : String) (schema : Schema) : Schema :=
    .inline { type := some (.single .object), properties := ⟨[(name, schema)]⟩ }
  let string : Schema := .inline { type := some (.single .string) }
  { openapi := "3.1.0"
    info := { title := "Layered records", version := "1" }
    components := some {
      schemas := ⟨[
        ("Base", object "id" string),
        ("Pick", .inline { oneOf := [string, .inline { type := some (.single .integer) }] }),
        ("Middle", .inline { allOf := [
          .ref "#/components/schemas/Base", object "pick" (.ref "#/components/schemas/Pick")] }),
        ("Top", .inline { allOf := [
          .inline { allOf := [.ref "#/components/schemas/Middle", .inline { required := ["id"] }] },
          object "base" (.inline { allOf := [.ref "#/components/schemas/Base"] })] })]⟩ } }

/-- The component schema to which the first member of an inner intersection refers. -/
def innerTarget? (node : SchemaNode) : Option String :=
  match node.kind with
  | .composed .allOf (⟨.composed .allOf (first :: _) _, _⟩ :: _) _ => first.kind.referenceTarget?
  | _ => none

/-- The record that is taken in by the inner intersection leads to no choice, though it has one. -/
theorem not_chooses_layeredRecords :
    ∃ node members member, layeredRecords.Emits {} "Top" ∧
      (layeredRecords.context {}).model.node? "Top" = some node ∧ node.Intersects members ∧
      member ∈ members ∧ member.kind = .reference "Middle" ∧
      ¬member.Chooses (layeredRecords.context {}).model.node? := by
  have emits : layeredRecords.Emits {} "Top" := Option.isSome_iff_exists.mp (by decide +kernel)
  have isInside : ((layeredRecords.context {}).model.node? "Top").bind innerTarget? =
      some "Middle" := by
    decide
  obtain ⟨⟨kind, traits⟩, found, isInside⟩ := Option.bind_eq_some_iff.mp isInside
  unfold innerTarget? at isInside
  split at isInside
  · rename_i first rest discriminator others more further isComposed
    cases isComposed
    have intersects : SchemaNode.Intersects
        ⟨.composed .allOf (⟨.composed .allOf (first :: rest) discriminator, others⟩ :: more) further,
          traits⟩ (first :: rest) := .member List.mem_cons_self .here
    have isMember : first ∈ first :: rest := List.mem_cons_self
    obtain ⟨kind, traits⟩ := first
    cases kind <;> cases isInside
    exact ⟨_, _, _, emits, found, intersects, isMember, rfl,
      not_chooses_of_emits emits found intersects isMember⟩
  · cases isInside

end Document

end ApiTypes
