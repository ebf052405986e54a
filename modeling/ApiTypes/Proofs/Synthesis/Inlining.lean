import ApiTypes.Proofs.Synthesis.Outlines
import ApiTypes.Proofs.Synthesis.Reachability

/-!
Nodes of intersections by reference and in place. A reference and the node to which it leads have the same
outline, unless that is a type and no object type, and other contexts that agree on what is referred to
make no difference.
-/

namespace ApiTypes

open Relation

section

variable {context : Context}

/-- Two contexts have the same nodes for component schemas that lead to no others. -/
structure Context.AgreesOn (context other : Context) (schemas : String → Prop) : Prop where
  same : ∀ schema, schemas schema → other.model.node? schema = context.model.node? schema
  closed : ∀ schema target, schemas schema → context.Refers schema target → schemas target

namespace Context.AgreesOn

variable {other : Context} {schemas : String → Prop}

/-- Contexts agree with each other. -/
theorem symm (agrees : context.AgreesOn other schemas) : other.AgreesOn context schemas where
  same schema isIn := (agrees.same schema isIn).symm
  closed schema target isIn := by
    rintro ⟨node, found, refers⟩
    exact agrees.closed schema target isIn ⟨node, (agrees.same schema isIn).symm.trans found, refers⟩

/-- A node that is a choice in one of them is one in the other. -/
theorem isChoice (agrees : context.AgreesOn other schemas) {node : SchemaNode}
    (inside : ∀ target, node.Refers target → schemas target)
    (isChoice : node.IsChoice context.model.node?) : node.IsChoice other.model.node? := by
  induction isChoice with
  | choice isUnion => exact .choice isUnion
  | reference found _ ih =>
    have isIn := inside _ .reference
    exact .reference ((agrees.same _ isIn).trans found)
      (ih fun target refers => agrees.closed _ _ isIn ⟨_, found, refers⟩)

/-- The contexts agree on what is a choice. -/
theorem isUnion_eq (agrees : context.AgreesOn other schemas) {node : SchemaNode}
    (inside : ∀ target, node.Refers target → schemas target) :
    other.model.isUnion node = context.model.isUnion node := by
  rw [Bool.eq_iff_iff, SchemaModel.isUnion_iff, SchemaModel.isUnion_iff]
  exact ⟨agrees.symm.isChoice inside, agrees.isChoice inside⟩

/-- A node has the same outline in both of them. -/
theorem outlines (agrees : context.AgreesOn other schemas) {placement : Placement}
    {node : SchemaNode} {outline : Outline}
    (inside : ∀ target, node.Refers target → schemas target)
    (outlines : node.Outlines context placement outline) : node.Outlines other placement outline := by
  -- The documents agree on all that a node refers to, and on what that refers to in turn.
  induction outlines with
  | atomic isAtomic => exact .atomic isAtomic
  | type isType => exact .type isType
  | map => exact .map
  | restriction isEmpty => exact .restriction isEmpty
  | object => exact .object
  | choice isChoice => exact .choice isChoice
  | referenceChoice found isChoice =>
    have isIn := inside _ .reference
    refine .referenceChoice ((agrees.same _ isIn).trans found) ?_
    rwa [agrees.isUnion_eq fun target refers => agrees.closed _ _ isIn ⟨_, found, refers⟩]
  | reference found notChoice _ ih =>
    have isIn := inside _ .reference
    have further := fun target refers => agrees.closed _ target isIn ⟨_, found, refers⟩
    refine .reference ((agrees.same _ isIn).trans found) ?_ (ih further)
    rwa [agrees.isUnion_eq further]
  | only isOnly found direct _ ih =>
    obtain ⟨_, isMember⟩ := SchemaNode.mem_of_onlyReference? isOnly
    have isIn := inside _ (.member isMember .reference)
    refine .only isOnly ((agrees.same _ isIn).trans found) direct (ih fun target refers => ?_)
    cases refers
    exact isIn
  | onlyNullable isOnly found nullable =>
    obtain ⟨_, isMember⟩ := SchemaNode.mem_of_onlyReference? isOnly
    exact .onlyNullable isOnly
      ((agrees.same _ (inside _ (.member isMember .reference))).trans found) nullable
  | members several outline _ merges ih =>
    exact .members several outline
      (fun member isMember => ih member isMember fun target refers =>
        inside target (.member isMember refers)) merges

end Context.AgreesOn

/--
What is referred to has the outline that it has where it is written, unless it is taken by its name.
-/
theorem SchemaNode.Outlines.written {node : SchemaNode} {outline : Outline}
    (outlines : node.Outlines context .referred outline) :
    node.Outlines context .written outline ∨ node.isAtomic = true ∧ outline = .scalar false := by
  generalize isReferred : Placement.referred = placement at outlines
  cases outlines with
  | atomic isAtomic => exact .inr ⟨isAtomic, rfl⟩
  | type | map | choice => cases isReferred
  | restriction isEmpty => exact .inl (.restriction isEmpty)
  | object => exact .inl .object
  | referenceChoice found isChoice => exact .inl (.referenceChoice found isChoice)
  | reference found notChoice inside => exact .inl (.reference found notChoice inside)
  | only isOnly found direct inside => exact .inl (.only isOnly found direct inside)
  | onlyNullable isOnly found nullable => exact .inl (.onlyNullable isOnly found nullable)
  | members several outline inside merges => exact .inl (.members several outline inside merges)

/-- What is taken by its name is a type but no object type where it is written, unless it is a map. -/
theorem SchemaNode.Outlines.isTyped_of_isAtomic {node : SchemaNode} {outline : Outline}
    (outlines : node.Outlines context .written outline) (isAtomic : node.isAtomic = true)
    (notMap : ∀ value, node.kind ≠ .map value) :
    outline.isTyped = true ∧ outline.isRecord = false := by
  cases outlines with
  | type => exact ⟨rfl, rfl⟩
  | map => exact absurd rfl (notMap _)
  | restriction isEmpty => simp [SchemaNode.isAtomic, isEmpty] at isAtomic
  | _ => cases isAtomic

/-- What a choice contributes where it is written is one. -/
theorem SchemaNode.Outlines.eq_union_of_isUnion {node : SchemaNode} {outline : Outline}
    (outlines : node.Outlines context .written outline)
    (isUnion : context.model.isUnion node = true) : outline = .union := by
  cases (context.model.isUnion_iff node).mp isUnion with
  | choice isKind =>
    refine outlines.eq_union rfl ?_
    rintro rfl
    cases isKind
  | reference found isChoice =>
    exact outlines.unique (.referenceChoice found ((context.model.isUnion_iff _).mpr isChoice))

/-- What a node contributes to an intersection, with whether that is a reference, and what it requires. -/
noncomputable def Context.flagsOf (context : Context) (node : SchemaNode) : List (Outline × Bool) :=
  (context.outlineOf node, node.kind.referenceTarget?.isSome) ::
    node.requiredOutlines.map fun outline => (outline, false)

/-- The outlines among what nodes contribute. -/
theorem Context.map_fst_flagsOf (context : Context) (nodes : List SchemaNode) :
    (nodes.flatMap context.flagsOf).map Prod.fst =
      nodes.flatMap fun node => context.outlineOf node :: node.requiredOutlines := by
  simp [List.map_flatMap, flagsOf, Function.comp_def]

/--
Entries of nodes have names exactly where the nodes are references, if these lead to declared types.
-/
theorem Context.map_entriesOf {nodes : List SchemaNode}
    (emitted : ∀ node ∈ nodes, ∀ target, node.kind.referenceTarget? = some target →
      (context.emitted? target).isSome = true) :
    ((nodes.flatMap context.entriesOf).map fun entry => (entry.1, entry.2.isSome)) =
      nodes.flatMap context.flagsOf := by
  rw [List.map_flatMap]
  refine List.flatMap_congr fun node isNode => ?_
  have same : (node.kind.referenceTarget?.bind context.emitted?).isSome =
      node.kind.referenceTarget?.isSome := by
    cases isTarget : node.kind.referenceTarget? with
    | none => rfl
    | some target => exact emitted node isNode target isTarget
  simp [Context.entriesOf, Context.flagsOf, same, Function.comp_def]

end

namespace Outline

/-- The members merge into an object type with fields of the given names, open or not. -/
def MergesTo (members : List Outline) (keys : List String) (opens : Bool) : Prop :=
  ∃ fields, merge members = some (.record fields opens) ∧ fields.map Prod.fst = keys

/-- The only type that members contribute is that of a reference, and nothing is required beside it. -/
def StandsAlone (flags : List (Outline × Bool)) : Prop :=
  (∃ outline, (flags.filter fun flag => flag.1.isTyped) = [(outline, true)]) ∧
    (flags.map Prod.fst).flatMap names = []

variable {keys : List String} {opens : Bool}

/-- All types that merge into an object type are object types, and there is one. -/
theorem MergesTo.isRecord {members : List Outline} (merges : MergesTo members keys opens) :
    members.filter isTyped ≠ [] ∧ ∀ member ∈ members, member.isTyped = true → member.isRecord = true := by
  obtain ⟨fields, merges, _⟩ := merges
  refine ⟨fun untyped => ?_, fun member isMember => isRecord_of_merge merges isMember⟩
  simp [merge, any_isUnion members, untyped, isSingleRecord, single] at merges

/-- What is required beside a member changes no names of the merge, if its own are distinct. -/
theorem mergesTo_beside_iff {before after beside : List Outline} {outline : Outline}
    (untyped : ∀ entry ∈ beside, entry.isTyped = false)
    (distinct : beside = [] ∨ outline.isTyped = true ∧ (outline.fields.map Prod.fst).Nodup) :
    MergesTo (before ++ outline :: (beside ++ after)) keys opens ↔
      MergesTo (before ++ outline :: after) keys opens := by
  -- What is untyped makes a difference only where a single record is taken as it is.
  have noType : beside.filter isTyped = [] :=
    List.filter_eq_nil_iff.mpr fun entry isEntry => by simp [untyped entry isEntry]
  have sameTyped : (before ++ outline :: (beside ++ after)).filter isTyped =
      (before ++ outline :: after).filter isTyped := by
    simp [List.filter_append, List.filter_cons, noType]
  have asSingle {fields opens} (isSingle : (before ++ outline :: after).filter isTyped =
      [record fields opens]) : beside = [] ∨ (fields.map Prod.fst).Nodup := by
    refine distinct.imp_right fun ⟨isTyped, distinct⟩ => ?_
    have isMember : outline ∈ (before ++ outline :: after).filter Outline.isTyped :=
      List.mem_filter.mpr ⟨by simp, isTyped⟩
    rw [isSingle, List.mem_singleton] at isMember
    rwa [isMember] at distinct
  constructor <;> rintro ⟨fields, merges, rfl⟩
  · obtain ⟨also, alsoMerges, same⟩ := merge_congr sameTyped.symm (fun fields opens isSingle =>
      (asSingle (sameTyped ▸ isSingle)).imp_left fun isEmpty => by rw [isEmpty, List.nil_append])
      merges
    exact ⟨also, alsoMerges, same⟩
  · obtain ⟨also, alsoMerges, same⟩ := merge_congr sameTyped (fun fields opens isSingle =>
      (asSingle isSingle).imp_left fun isEmpty => by rw [isEmpty, List.nil_append]) merges
    exact ⟨also, alsoMerges, same⟩

/-- A name for which entries stand is that of an entry that stands alone. -/
theorem standsAlone_iff (entries : List (Outline × Option String)) :
    StandsAlone (entries.map fun entry => (entry.1, entry.2.isSome)) ↔
      ∃ name, StandFor entries name := by
  simp only [StandsAlone, StandFor, List.filter_map, List.map_map, Function.comp_def]
  constructor
  · rintro ⟨⟨outline, isOnly⟩, unnamed⟩
    obtain ⟨⟨_, reference⟩, isEntry, same⟩ := List.map_eq_singleton_iff.mp isOnly
    obtain ⟨rfl, isSome⟩ := Prod.mk.inj same
    obtain ⟨name, rfl⟩ := Option.isSome_iff_exists.mp isSome
    exact ⟨name, ⟨_, isEntry⟩, unnamed⟩
  · rintro ⟨name, ⟨outline, isOnly⟩, unnamed⟩
    exact ⟨⟨outline, by simp [isOnly]⟩, unnamed⟩

variable {before after : List (Outline × Bool)} {outline : Outline} {flag : Bool}

/-- What is required beside a member makes no reference stand alone that would not do so without. -/
theorem StandsAlone.of_beside {beside : List (Outline × Bool)}
    (alone : StandsAlone (before ++ (outline, flag) :: (beside ++ after)))
    (untyped : ∀ entry ∈ beside, entry.1.isTyped = false) :
    StandsAlone (before ++ (outline, true) :: after) := by
  -- The only typed outline is the one in the middle or another one, which remains either way.
  obtain ⟨⟨only, isOnly⟩, unnamed⟩ := alone
  have noType : (beside.filter fun entry => entry.1.isTyped) = [] :=
    List.filter_eq_nil_iff.mpr fun entry isEntry => by simp [untyped entry isEntry]
  simp only [List.map_append, List.map_cons, List.flatMap_append, List.flatMap_cons,
    List.append_eq_nil_iff] at unnamed
  refine ⟨?_, by simp [unnamed]⟩
  simp only [List.filter_append, List.filter_cons, noType, List.nil_append] at isOnly ⊢
  cases isTyped : outline.isTyped with
  | true =>
    simp only [isTyped, if_true] at isOnly ⊢
    rcases List.append_eq_singleton_iff.mp isOnly with ⟨isFirst, isRest⟩ | ⟨_, isRest⟩
    · obtain ⟨_, isLast⟩ := List.cons.inj isRest
      exact ⟨outline, by rw [isFirst, isLast]; rfl⟩
    · cases isRest
  | false => exact ⟨only, by simpa [isTyped] using isOnly⟩

/-- A member that contributes no type stands alone for no other. -/
theorem StandsAlone.of_untyped (alone : StandsAlone (before ++ (outline, true) :: after))
    (untyped : outline.isTyped = false) : StandsAlone (before ++ (outline, flag) :: after) := by
  simpa [StandsAlone, untyped] using alone

/-- If a single reference contributes all that is merged into a record, it stands alone. -/
theorem StandsAlone.of_rest
    (merges : MergesTo ((before ++ (.unconstrained, flag) :: after).map Prod.fst) keys opens)
    (typedRest : ((before ++ after).filter fun entry => entry.1.isTyped) =
      [(outline, true)].filter fun entry => entry.1.isTyped)
    (namesRest : ((before ++ after).map Prod.fst).flatMap names =
      ([(outline, true)].map Prod.fst).flatMap names) :
    StandsAlone (before ++ (.unconstrained, flag) :: after) := by
  -- The record that is merged into is that of the only typed outline, which requires no names.
  obtain ⟨someType, records⟩ := merges.isRecord
  have isTypedRest : ((before ++ (.unconstrained, flag) :: after).filter
      fun entry => entry.1.isTyped) = [(outline, true)].filter fun entry => entry.1.isTyped := by
    simpa [isTyped] using typedRest
  have isNamesRest : ((before ++ (.unconstrained, flag) :: after).map Prod.fst).flatMap names =
      outline.names := by
    simpa [names] using namesRest
  rw [List.filter_map] at someType
  cases isType : outline.isTyped with
  | false => exact absurd (by simp [Function.comp_def, isTypedRest, isType]) someType
  | true =>
    simp only [List.filter_cons, isType, if_true, List.filter_nil] at isTypedRest
    have isMember : (outline, true) ∈ before ++ (.unconstrained, flag) :: after :=
      List.mem_of_mem_filter (isTypedRest ▸ List.mem_singleton_self _)
    have isRecord := records outline (List.mem_map_of_mem isMember) isType
    refine ⟨⟨outline, isTypedRest⟩, ?_⟩
    rw [isNamesRest]
    cases outline with
    | record => rfl
    | required | unconstrained | scalar | union => cases isRecord

end Outline

/-- The names of the fields of a record in order. -/
def RecordShape.keys (shape : RecordShape) : List String := shape.fields.map Field.key

/-- What an intersection of nodes makes of them, if it comes to merge what they contribute. -/
inductive Context.Combines (context : Context) (nodes : List SchemaNode) :
    Except CompositionError Shape → Prop
  | only {target : String} {type : TypeExpr} (isOnly : SchemaNode.onlyReference? nodes = some target) :
    Combines context nodes (.ok (.alias type))
  | several {expanding : List String} {depth : Nat} {first last : Workspace}
    {inputs : List IntersectionMember} {nullable : Bool}
    {equivalent : TypeKind TypeExpr → TypeKind TypeExpr → Bool}
    (several : SchemaNode.onlyReference? nodes = none) (consistent : Consistent context first)
    (inside : Yields context expanding first (.members nodes depth) (.inputs inputs) last) :
    Combines context nodes
      ((mergeAllOf inputs equivalent).map fun merged => merged.shape.admitting nullable)

namespace Context

variable {context : Context}

/-- What several nodes combine to is decided by their outlines and by which of them are references. -/
structure Decides (context : Context) (nodes : List SchemaNode)
    (result : Except CompositionError Shape) : Prop where
  outlines : ∀ node ∈ nodes, node.Outlines context .written (context.outlineOf node)
  isMerged : ∀ shape, result = .ok (.record shape) →
    Outline.merge ((nodes.flatMap context.flagsOf).map Prod.fst) = some shape.outline ∧
      ¬Outline.StandsAlone (nodes.flatMap context.flagsOf)
  isGiven : ∀ fields opens,
    Outline.merge ((nodes.flatMap context.flagsOf).map Prod.fst) = some (.record fields opens) →
      (∃ shape, result = .ok (.record shape) ∧ shape.outline = .record fields opens) ∨
        (∃ error, result = .error error ∧ error.isConflict = true) ∨
        Outline.StandsAlone (nodes.flatMap context.flagsOf) ∧ ∃ name type,
          Outline.StandFor (nodes.flatMap context.entriesOf) name ∧ type.name? = some name ∧
            result = .ok (.alias type)

namespace Decides

variable {nodes : List SchemaNode} {result : Except CompositionError Shape}

/-- Nodes that combine to a record merge to one with fields of the same names. -/
theorem merges (decides : context.Decides nodes result) (shape : RecordShape)
    (isRecord : result = .ok (.record shape)) :
    Outline.MergesTo ((nodes.flatMap context.flagsOf).map Prod.fst) shape.keys
        shape.additional.isSome ∧
      ¬Outline.StandsAlone (nodes.flatMap context.flagsOf) := by
  obtain ⟨isMerged, notAlone⟩ := decides.isMerged shape isRecord
  exact ⟨⟨_, isMerged, by simp [RecordShape.keys, Field.entry]⟩, notAlone⟩

/-- Nodes that merge to a record combine to one with fields of the same names, as far as they combine. -/
theorem gives (decides : context.Decides nodes result) (keys : List String) (opens : Bool)
    (records : Outline.MergesTo ((nodes.flatMap context.flagsOf).map Prod.fst) keys opens) :
    (∃ shape, result = .ok (.record shape) ∧ shape.keys = keys ∧ shape.additional.isSome = opens) ∨
      (∃ error, result = .error error ∧ error.isConflict = true) ∨
      Outline.StandsAlone (nodes.flatMap context.flagsOf) ∧ ∃ name type,
        Outline.StandFor (nodes.flatMap context.entriesOf) name ∧ type.name? = some name ∧
          result = .ok (.alias type) := by
  obtain ⟨fields, merges, isKeys⟩ := records
  refine (decides.isGiven fields opens merges).imp_left ?_
  rintro ⟨shape, isRecord, isOutline⟩
  obtain ⟨rfl, isOpen⟩ := Outline.record.inj isOutline
  exact ⟨shape, isRecord, by simp [← isKeys, RecordShape.keys, Field.entry], isOpen⟩

end Decides

/-- Several nodes combine in that way. -/
theorem Combines.decides {nodes : List SchemaNode} {result : Except CompositionError Shape}
    (combines : context.Combines nodes result)
    (several : SchemaNode.onlyReference? nodes = none) : context.Decides nodes result := by
  -- A merge gives a record, a conflict, or the name of the only typed member; which of them is decided
  -- by the outlines of the members.
  cases combines with
  | only isOnly => cases several.symm.trans isOnly
  | @several _ _ _ _ inputs nullable equivalent _ consistent inside =>
    obtain ⟨outlines, entries, _, emitted⟩ := inside.outlined consistent
    have isOutline : inputs.map IntersectionMember.outline =
        (nodes.flatMap context.flagsOf).map Prod.fst := by
      rw [map_fst_flagsOf, ← map_fst_entriesOf, ← entries]
      simp [IntersectionMember.entry]
    have standsAlone : Outline.StandsAlone (nodes.flatMap context.flagsOf) ↔
        ∃ name, Outline.StandFor (inputs.map IntersectionMember.entry) name := by
      rw [← map_entriesOf emitted, ← entries, Outline.standsAlone_iff]
    refine ⟨outlines, fun shape isRecord => ?_, fun fields opens merges => ?_⟩
    · cases isMerged : mergeAllOf inputs equivalent with
      | error error => simp [isMerged, Except.map] at isRecord
      | ok merged =>
        obtain ⟨_, merges, into⟩ := Intersection.mergesInto_mergeAllOf isMerged
        have isShape : merged.shape = .record shape := by
          cases isShape : merged.shape <;>
            simp [isMerged, isShape, Except.map, Shape.admitting] at isRecord ⊢
          exact isRecord
        rw [isShape] at into
        generalize isInto : Shape.record shape = into' at into
        cases into <;> cases isInto
        refine ⟨isOutline ▸ merges, fun alone => ?_⟩
        obtain ⟨name, stands⟩ := standsAlone.mp alone
        rcases Intersection.shape_mergeAllOf merges isMerged with ⟨_, _, isAlias⟩ | ⟨notStands, _⟩
        · cases isShape.symm.trans isAlias
        · exact notStands name stands
    · rw [← isOutline] at merges
      cases isMerged : mergeAllOf inputs equivalent with
      | error error =>
        exact .inr (.inl ⟨error, rfl, Intersection.isConflict_mergeAllOf merges isMerged⟩)
      | ok merged =>
        rcases Intersection.shape_mergeAllOf merges isMerged with
          ⟨name, stands, isAlias⟩ | ⟨_, shape, isRecord, isRecordOutline⟩
        · refine .inr (.inr ⟨standsAlone.mpr ⟨name, stands⟩, name, _, entries ▸ stands, ?_,
            by simp only [Except.map, isAlias]; rfl⟩)
          rfl
        · exact .inl ⟨shape, by simp only [Except.map, isRecord]; rfl, isRecordOutline⟩

end Context

section

variable {context other : Context} {schemas : String → Prop} {before after : List SchemaNode}
  {target : String} {traits : NodeTraits} {node : SchemaNode}

/--
Where a reference or the node to which it leads contributes no type that is not an object, both contribute
the same, but for the type of a map.
-/
theorem SchemaNode.Outlines.eq_of_reference (found : context.model.node? target = some node)
    {outline inPlace : Outline}
    (byReference : Outlines context .written ⟨.reference target, traits⟩ outline)
    (outlines : node.Outlines context .written inPlace)
    (fits : (outline.isTyped = true → outline.isRecord = true) ∨
      (inPlace.isTyped = true → inPlace.isRecord = true) ∧ ∀ value, node.kind ≠ .map value) :
    inPlace = outline := by
  -- Atomic schemas alone are outlined differently behind a reference, as types that are no records.
  cases byReference with
  | type isType => cases isType
  | referenceChoice isFound isChoice =>
    cases found.symm.trans isFound
    exact outlines.eq_union_of_isUnion isChoice
  | reference isFound _ inside =>
    cases found.symm.trans isFound
    rcases inside.written with written | ⟨isAtomic, rfl⟩
    · exact outlines.unique written
    · rcases fits with isRecord | ⟨isRecord, notMap⟩
      · cases isRecord rfl
      · obtain ⟨isTyped, notRecord⟩ := outlines.isTyped_of_isAtomic isAtomic notMap
        cases notRecord.symm.trans (isRecord isTyped)

/-- What is required beside a member is no type. -/
theorem SchemaNode.not_isTyped_of_requiredOutlines {node : SchemaNode} {entry : Outline}
    (isEntry : entry ∈ node.requiredOutlines) : entry.isTyped = false := by
  unfold requiredOutlines at isEntry
  split at isEntry
  · split at isEntry
    · cases isEntry
    · cases List.mem_singleton.mp isEntry
      rfl
  · cases isEntry

/-- Something is required only beside an object, of which the outline lists the properties. -/
theorem SchemaNode.Outlines.requiredOutlines_cases {outline : Outline}
    (outlines : node.Outlines context .written outline) : node.requiredOutlines = [] ∨
      ∃ properties additional, node.kind = .object properties additional ∧
        outline.isTyped = true ∧ outline.fields.map Prod.fst = properties.map Property.name := by
  cases outlines with
  | object => exact .inr ⟨_, _, rfl, rfl, by simp [Outline.fields]⟩
  | type isType =>
    obtain ⟨kind, traits⟩ := node
    cases kind <;> first | exact .inl rfl | cases isType
  | _ => exact .inl rfl

namespace Context

/-- What a result has in common with that of a record: names and order of fields, or types conflict. -/
def Resembles (result : Except CompositionError Shape) (shape : RecordShape) : Prop :=
  (∃ also, result = .ok (.record also) ∧ also.keys = shape.keys ∧
    also.additional.isSome = shape.additional.isSome) ∨
      ∃ error, result = .error error ∧ error.isConflict = true

/-- Nodes that have outlines and agree on references contribute the same in both contexts. -/
theorem AgreesOn.flagsOf_eq (agrees : context.AgreesOn other schemas) {nodes : List SchemaNode}
    (inside : ∀ node ∈ nodes, ∀ target, node.Refers target → schemas target)
    (outlines : ∀ node ∈ nodes, node.Outlines context .written (context.outlineOf node)) :
    nodes.flatMap other.flagsOf = nodes.flatMap context.flagsOf :=
  List.flatMap_congr fun node isNode => by
    rw [flagsOf, (agrees.outlines (inside node isNode) (outlines node isNode)).outlineOf_eq, flagsOf]

/-- What a node contributes is among what the members do of which it is one. -/
theorem outlineOf_mem_flagsOf {nodes : List SchemaNode} (isNode : node ∈ nodes) :
    context.outlineOf node ∈ (nodes.flatMap context.flagsOf).map Prod.fst := by
  rw [map_fst_flagsOf]
  exact List.mem_flatMap.mpr ⟨node, isNode, List.mem_cons_self⟩

/-- Members without a meaning contribute no types and require no names. -/
theorem flagsOf_significant (context : Context) (nodes : List SchemaNode) :
    ((nodes.flatMap context.flagsOf).filter fun flag => flag.1.isTyped) =
        (((SchemaNode.significant nodes).flatMap context.flagsOf).filter fun flag => flag.1.isTyped) ∧
      ((nodes.flatMap context.flagsOf).map Prod.fst).flatMap Outline.names =
        (((SchemaNode.significant nodes).flatMap context.flagsOf).map Prod.fst).flatMap
          Outline.names := by
  -- Members without a meaning are outlined as unconstrained, without names.
  induction nodes with
  | nil => exact ⟨rfl, rfl⟩
  | cons node rest ih =>
    rw [SchemaNode.significant, List.filter_cons, ← SchemaNode.significant, List.flatMap_cons]
    cases isUnconstrained : node.isUnconstrained with
    | true =>
      have isFlag : context.flagsOf node = [(.unconstrained, false)] := by
        have isOutline : context.outlineOf node = .unconstrained :=
          (SchemaNode.outlines_of_isUnconstrained isUnconstrained).outlineOf_eq
        obtain ⟨kind, traits⟩ := node
        cases kind <;> first | cases isUnconstrained | skip
        simp [flagsOf, isOutline, SchemaNode.requiredOutlines, NodeKind.referenceTarget?]
      simpa [isFlag, Outline.isTyped, Outline.names] using ih
    | false =>
      simp only [Bool.not_false, if_true, List.flatMap_cons, List.filter_append, List.map_append,
        List.flatMap_append, ih, and_self]

/-- What members contribute of which one is a reference. -/
theorem flagsOf_reference (context : Context) (before after : List SchemaNode) (target : String)
    (traits : NodeTraits) :
    (before ++ ⟨.reference target, traits⟩ :: after).flatMap context.flagsOf =
      before.flatMap context.flagsOf ++
        (context.outlineOf ⟨.reference target, traits⟩, true) :: after.flatMap context.flagsOf := by
  simp [flagsOf, SchemaNode.requiredOutlines, NodeKind.referenceTarget?]

/-- What members contribute of which one is written in place. -/
theorem flagsOf_inPlace (context : Context) (before after : List SchemaNode) (node : SchemaNode) :
    (before ++ node :: after).flatMap context.flagsOf = before.flatMap context.flagsOf ++
      (context.outlineOf node, node.kind.referenceTarget?.isSome) ::
        (node.requiredOutlines.map (fun outline => (outline, false)) ++
          after.flatMap context.flagsOf) := by
  simp [flagsOf]

/-- A reference in an intersection and the node to which it leads, written there in another context. -/
structure Inlines (context other : Context) (before after : List SchemaNode) (target : String)
    (traits : NodeTraits) (node : SchemaNode) (schemas : String → Prop) : Prop where
  agrees : context.AgreesOn other schemas
  inside : ∀ member ∈ before ++ ⟨.reference target, traits⟩ :: after, ∀ further,
    member.Refers further → schemas further
  found : context.model.node? target = some node
  distinct : ∀ properties additional, node.kind = .object properties additional →
    (properties.map Property.name).Nodup

variable {result inlined : Except CompositionError Shape}

namespace Inlines

/-- All other members contribute the same in both intersections. -/
theorem flagsOf_eq (inlines : context.Inlines other before after target traits node schemas)
    (byReference : context.Decides (before ++ ⟨.reference target, traits⟩ :: after) result) :
    (before ++ node :: after).flatMap other.flagsOf = before.flatMap context.flagsOf ++
      (other.outlineOf node, node.kind.referenceTarget?.isSome) ::
        (node.requiredOutlines.map (fun outline => (outline, false)) ++
          after.flatMap context.flagsOf) := by
  have same {nodes : List SchemaNode} (included : ∀ member ∈ nodes,
      member ∈ before ++ (⟨.reference target, traits⟩ : SchemaNode) :: after) :
      nodes.flatMap other.flagsOf = nodes.flatMap context.flagsOf :=
    inlines.agrees.flagsOf_eq (fun member isMember => inlines.inside member (included member isMember))
      fun member isMember => byReference.outlines member (included member isMember)
  rw [flagsOf_inPlace, same fun member isMember => by simp [isMember],
    same fun member isMember => by simp [isMember]]

/-- The node contributes what the reference does, unless one of them contributes a type and no object. -/
theorem outlineOf_eq (inlines : context.Inlines other before after target traits node schemas)
    (byReference : context.Decides (before ++ ⟨.reference target, traits⟩ :: after) result)
    (inPlace : other.Decides (before ++ node :: after) inlined)
    (fits : (∀ outline ∈ ((before ++ ⟨.reference target, traits⟩ :: after).flatMap
          context.flagsOf).map Prod.fst, outline.isTyped = true → outline.isRecord = true) ∨
      (∀ outline ∈ ((before ++ node :: after).flatMap other.flagsOf).map Prod.fst,
          outline.isTyped = true → outline.isRecord = true) ∧ ∀ value, node.kind ≠ .map value) :
    other.outlineOf node = context.outlineOf ⟨.reference target, traits⟩ := by
  have isIn : schemas target := inlines.inside ⟨.reference target, traits⟩ (by simp) _ .reference
  have outlines : node.Outlines context .written (other.outlineOf node) :=
    inlines.agrees.symm.outlines
      (fun further refers => inlines.agrees.closed _ further isIn ⟨node, inlines.found, refers⟩)
      (inPlace.outlines node (by simp))
  refine SchemaNode.Outlines.eq_of_reference inlines.found (byReference.outlines _ (by simp))
    outlines ?_
  exact fits.imp (fun fits => fits _ (outlineOf_mem_flagsOf (by simp))) fun ⟨fits, notMap⟩ =>
    ⟨fits _ (outlineOf_mem_flagsOf (by simp)), notMap⟩

/-- A record by reference is that of several members in place as well. -/
theorem several_inPlace (inlines : context.Inlines other before after target traits node schemas)
    (several : 2 ≤ (SchemaNode.significant (before ++ ⟨.reference target, traits⟩ :: after)).length)
    (byReference : context.Decides (before ++ ⟨.reference target, traits⟩ :: after) result)
    {shape : RecordShape} (isRecord : result = .ok (.record shape)) :
    SchemaNode.onlyReference? (before ++ node :: after) = none := by
  obtain ⟨merges, notAlone⟩ := byReference.merges shape isRecord
  refine Option.eq_none_iff_forall_ne_some.mpr fun further isOnly => ?_
  obtain ⟨others, isSignificant⟩ := SchemaNode.significant_of_onlyReference? isOnly
  rw [SchemaNode.significant, List.filter_append, List.filter_cons] at isSignificant several
  cases isUnconstrained : node.isUnconstrained with
  | false =>
    -- If the node is the only one that says something, the reference to it was so as well.
    simp only [isUnconstrained, Bool.not_false, if_true] at isSignificant
    rcases List.append_eq_singleton_iff.mp isSignificant with ⟨isBefore, isAfter⟩ | ⟨_, isAfter⟩
    · rw [isBefore, (List.cons.inj isAfter).2] at several
      simp [SchemaNode.isUnconstrained, NodeKind.isAny] at several
    · cases isAfter
  | true =>
    -- Otherwise another reference stands alone, as the reference to the node says nothing.
    simp only [isUnconstrained, Bool.not_true, Bool.false_eq_true, if_false] at isSignificant
    have silent : context.outlineOf ⟨.reference target, traits⟩ = .unconstrained := by
      refine (SchemaNode.Outlines.reference inlines.found ?_
        (SchemaNode.outlines_of_isUnconstrained isUnconstrained)).outlineOf_eq
      refine Bool.eq_false_iff.mpr fun isUnion => ?_
      have isChoice := (context.model.isUnion_iff node).mp isUnion
      cases isChoice <;> cases isUnconstrained
    have isRest : SchemaNode.significant (before ++ after) = [⟨.reference further, others⟩] := by
      rw [SchemaNode.significant, List.filter_append, isSignificant]
    obtain ⟨typedRest, namesRest⟩ := context.flagsOf_significant (before ++ after)
    rw [isRest, List.flatMap_singleton, List.flatMap_append] at typedRest namesRest
    refine notAlone ?_
    rw [flagsOf_reference, silent] at merges ⊢
    exact .of_rest merges typedRest namesRest

/-- If both contribute the same, the intersections merge into records with the same names. -/
theorem mergesTo_iff (inlines : context.Inlines other before after target traits node schemas)
    (byReference : context.Decides (before ++ ⟨.reference target, traits⟩ :: after) result)
    (inPlace : other.Decides (before ++ node :: after) inlined)
    (same : other.outlineOf node = context.outlineOf ⟨.reference target, traits⟩)
    (keys : List String) (opens : Bool) :
    Outline.MergesTo (((before ++ node :: after).flatMap other.flagsOf).map Prod.fst) keys opens ↔
      Outline.MergesTo
        (((before ++ ⟨.reference target, traits⟩ :: after).flatMap context.flagsOf).map Prod.fst)
        keys opens := by
  rw [inlines.flagsOf_eq byReference, flagsOf_reference, ← same]
  simp only [List.map_append, List.map_cons, List.map_map, Function.comp_def, List.map_id']
  refine Outline.mergesTo_beside_iff (fun _ => SchemaNode.not_isTyped_of_requiredOutlines) ?_
  rcases (inPlace.outlines node (by simp)).requiredOutlines_cases with
    isEmpty | ⟨properties, additional, isObject, isTyped, isFields⟩
  · exact .inl isEmpty
  · exact .inr ⟨isTyped, isFields ▸ inlines.distinct properties additional isObject⟩

/-- A record by reference gives one in place, or types conflict there. -/
theorem resembles_inPlace (inlines : context.Inlines other before after target traits node schemas)
    (byReference : context.Decides (before ++ ⟨.reference target, traits⟩ :: after) result)
    (inPlace : other.Decides (before ++ node :: after) inlined) {shape : RecordShape}
    (isRecord : result = .ok (.record shape)) : Resembles inlined shape := by
  obtain ⟨merges, notAlone⟩ := byReference.merges shape isRecord
  have same := inlines.outlineOf_eq byReference inPlace (.inl merges.isRecord.2)
  rcases inPlace.gives _ _ ((inlines.mergesTo_iff byReference inPlace same _ _).mpr merges) with
    alsoRecord | conflicts | ⟨alone, _⟩
  · exact .inl alsoRecord
  · exact .inr conflicts
  · -- The reference would have stood alone as well.
    rw [inlines.flagsOf_eq byReference] at alone
    refine absurd ?_ notAlone
    rw [flagsOf_reference, ← same]
    refine alone.of_beside fun entry isEntry => ?_
    obtain ⟨outline, isRequired, rfl⟩ := List.mem_map.mp isEntry
    exact SchemaNode.not_isTyped_of_requiredOutlines isRequired

/-- A record in place gives one by reference, or types conflict, or the reference stands alone. -/
theorem resembles_byReference (inlines : context.Inlines other before after target traits node schemas)
    (byReference : context.Decides (before ++ ⟨.reference target, traits⟩ :: after) result)
    (inPlace : other.Decides (before ++ node :: after) inlined) {shape : RecordShape}
    (isRecord : inlined = .ok (.record shape)) (notMap : ∀ value, node.kind ≠ .map value) :
    Resembles result shape ∨ ∃ name type, context.emitted? target = some name ∧
      type.name? = some name ∧ result = .ok (.alias type) := by
  obtain ⟨merges, notAlone⟩ := inPlace.merges shape isRecord
  have same := inlines.outlineOf_eq byReference inPlace (.inr ⟨merges.isRecord.2, notMap⟩)
  rcases byReference.gives _ _ ((inlines.mergesTo_iff byReference inPlace same _ _).mp merges) with
    alsoRecord | conflicts | ⟨alone, name, type, stands, isName, isAlias⟩
  · exact .inl (.inl alsoRecord)
  · exact .inl (.inr conflicts)
  · refine .inr ⟨name, type, ?_, isName, isAlias⟩
    cases isTyped : (context.outlineOf ⟨.reference target, traits⟩).isTyped with
    | true =>
      have isEntry : (context.outlineOf ⟨.reference target, traits⟩, context.emitted? target) ∈
          (before ++ (⟨.reference target, traits⟩ : SchemaNode) :: after).flatMap context.entriesOf :=
        List.mem_flatMap.mpr ⟨⟨.reference target, traits⟩, by simp, List.mem_cons_self⟩
      obtain ⟨outline, isOnly⟩ := stands.1
      have isStanding := (List.mem_filter (p := fun entry => entry.1.isTyped)).mpr ⟨isEntry, isTyped⟩
      rw [isOnly, List.mem_singleton] at isStanding
      exact (Prod.mk.inj isStanding).2
    | false =>
      -- The node requires nothing beside an outline without a type, so that another one stands alone.
      have isEmpty : node.requiredOutlines = [] := by
        rcases (inPlace.outlines node (by simp)).requiredOutlines_cases with
          isEmpty | ⟨_, _, _, alsoTyped, _⟩
        · exact isEmpty
        · rw [same, isTyped] at alsoTyped
          cases alsoTyped
      refine absurd ?_ notAlone
      rw [inlines.flagsOf_eq byReference, isEmpty, same]
      exact (flagsOf_reference context before after target traits ▸ alone).of_untyped isTyped

end Inlines

end Context

end

end ApiTypes
