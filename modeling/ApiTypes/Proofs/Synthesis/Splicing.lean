import ApiTypes.Proofs.Synthesis.Inlining

/-!
Intersections inside intersections. The members of an intersection that is a member itself may be written
in its place among the others: all that they say of the names of fields, and of which are required, is
handed on, unless the intersection stands for a reference that admits null, or restricts values without a
type, or requires a name that it does not declare and another member does.
-/

namespace ApiTypes

namespace Outline

/-- A single type requires no names beside itself. -/
theorem names_single (typed : List Outline) : (single typed).names = [] := by
  unfold single
  split <;> rfl

/-- A single type stays what it is, unless it is a choice or restricts values without a type. -/
theorem filter_single {typed : List Outline} (few : typed.length ≤ 1)
    (each : ∀ member ∈ typed, member.isTyped = true ∧ member.isUnion = false ∧
      member ≠ .scalar true) :
    [single typed].filter isTyped = typed := by
  match typed, few, each with
  -- Nothing is taken as what says nothing, which has no type.
  | [], _, _ => rfl
  | [only], _, each =>
    obtain ⟨isTyped, notUnion, notAny⟩ := each only (List.mem_singleton_self only)
    match only with
    | .record .. | .scalar false => rfl
    | .scalar true => exact absurd rfl notAny
    | .required _ | .unconstrained => cases isTyped
    | .union => cases notUnion

/-- A single type is no object type unless it is a record. -/
theorem not_isRecord_of_few {typed : List Outline} (few : typed.length ≤ 1)
    (notSingle : isSingleRecord typed = false) : ∀ member ∈ typed, member.isRecord = false := by
  intro member isMember
  cases typed with
  | nil => cases isMember
  | cons first rest =>
    -- There is nothing behind the first type, which is no record, as it would be a single one.
    have isEmpty : rest = [] := List.length_eq_zero_iff.mp (by simpa using few)
    subst isEmpty
    cases List.mem_singleton.mp isMember
    cases member with
    | record => cases notSingle
    | required | unconstrained | scalar | union => rfl

/-- What members say together, as a single member that may stand among others in their place. -/
inductive Gathers (others members : List Outline) : Outline → Prop
  | same {outline : Outline} (types : [outline].filter isTyped = members.filter isTyped)
    (names : outline.names = members.flatMap names) : Gathers others members outline
  | records (some : members.filter isTyped ≠ [])
    (records : (members.filter isTyped).all isRecord = true)
    (declared : ∀ name ∈ members.flatMap names, name ∈ (members.flatMap fields).map Prod.fst ∨
      name ∉ (others.flatMap fields).map Prod.fst) :
    Gathers others members (.record
      (requireEntries (members.flatMap names) (addEntries (members.flatMap fields) []))
      ((members.filter isTyped).any isOpen))

/--
What members merge into gathers them, unless one of them restricts values without a type, or they require
what none of them declares: they may do so only beside an object, and if no other member declares it.
-/
theorem gathers_of_merge {others members : List Outline} {merged : Outline}
    (merges : merge members = some merged) (restricts : .scalar true ∉ members)
    (declared : ∀ name ∈ members.flatMap names, name ∈ (members.flatMap fields).map Prod.fst ∨
      (∃ member ∈ members, member.isRecord = true) ∧ name ∉ (others.flatMap fields).map Prod.fst) :
    Gathers others members merged := by
  obtain ⟨noUnion, ⟨few, single, rfl⟩ | ⟨records, rfl⟩⟩ := merge_cases merges
  · -- A single type requires nothing, as it would have been merged into a record with that.
    have unnamed : members.flatMap names = [] := by
      cases isRecord : isSingleRecord (members.filter isTyped) with
      | true => exact single isRecord
      | false =>
        refine List.eq_nil_iff_forall_not_mem.mpr fun name isName => ?_
        -- There would be an object beside the name: the one that declares it, or another one.
        obtain ⟨member, isMember, isObject⟩ : ∃ member ∈ members, member.isRecord = true := by
          rcases declared name isName with isField | ⟨isObject, _⟩
          · obtain ⟨field, isField, _⟩ := List.mem_map.mp isField
            obtain ⟨member, isMember, isField⟩ := List.mem_flatMap.mp isField
            exact ⟨member, isMember, isRecord_of_mem_fields isField⟩
          · exact isObject
        cases (not_isRecord_of_few few isRecord member (List.mem_filter.mpr
          ⟨isMember, isTyped_of_isRecord isObject⟩)).symm.trans isObject
    refine .same (filter_single few fun member isMember => ?_) (by rw [names_single, unnamed])
    have ⟨isMember, isTyped⟩ := List.mem_filter.mp isMember
    exact ⟨isTyped, noUnion member isMember, fun isAny => restricts (isAny ▸ isMember)⟩
  · -- Without types there would have been nothing to merge.
    rw [flatMap_fields]
    refine .records (fun isEmpty => ?_) (List.all_eq_true.mpr records) fun name isName =>
      (declared name isName).imp_right And.right
    simp [merge, any_isUnion members, isEmpty, isSingleRecord, single] at merges

/-- Fields that have been merged on their own are those that they would have been among others. -/
theorem requireEntries_nested {inner : List String} {before fields after : List (String × Bool)}
    (declared : ∀ name ∈ inner, name ∈ fields.map Prod.fst ∨ name ∉ (before ++ after).map Prod.fst)
    (earlier later : List String) :
    requireEntries (earlier ++ later)
        (addEntries (before ++ (requireEntries inner (addEntries fields []) ++ after)) []) =
      requireEntries (earlier ++ (inner ++ later)) (addEntries (before ++ (fields ++ after)) []) := by
  refine eq_of_required_iff ?_ ?_ fun name => ?_
  · simp only [map_fst_requireEntries, map_fst_addEntries, List.map_append,
      distinctNames_append_distinctNames]
  · rw [map_fst_requireEntries, map_fst_addEntries]
    exact nodup_distinctNames _
  · simp only [mem_requireEntries_iff, mem_addEntries_iff, map_fst_addEntries, mem_distinctNames_iff,
      List.map_append, List.mem_append, map_fst_requireEntries, List.not_mem_nil, or_false]
    refine and_congr_right fun isKey => ?_
    -- Whatever is required inside has become a required field there, if it is a field at all.
    have inside : (name ∈ fields.map Prod.fst ∧ (name ∈ inner ∨ (name, true) ∈ fields)) ↔
        name ∈ inner ∨ (name, true) ∈ fields := by
      refine and_iff_right_of_imp (Or.rec (fun isInner => ?_) List.mem_map_of_mem)
      rcases declared name isInner with isField | notOther
      · exact isField
      · rw [List.map_append, List.mem_append, not_or] at notOther
        exact (isKey.resolve_left notOther.1).resolve_right notOther.2
    simp only [inside, or_assoc, or_left_comm]

/-- What gathers members has a type if one of them has. -/
theorem Gathers.filter_eq_nil_iff {others members : List Outline} {outline : Outline}
    (gathers : Gathers others members outline) :
    [outline].filter isTyped = [] ↔ members.filter isTyped = [] := by
  cases gathers with
  | same types => rw [types]
  | records some =>
    exact ⟨fun isEmpty => by simp [isTyped] at isEmpty, fun isEmpty => absurd isEmpty some⟩

/-- Beside other types, members are merged into the same as what gathers them. -/
theorem Gathers.merge_eq {before members after : List Outline} {outline : Outline}
    (gathers : Gathers (before ++ after) members outline)
    (others : (before ++ after).filter isTyped ≠ []) :
    merge (before ++ outline :: after) = merge (before ++ (members ++ after)) := by
  cases gathers with
  | same types names =>
    -- A merge depends on types and names alone.
    refine merge_eq_of_same ?_ (by simp [names])
    rw [← List.singleton_append]
    simp only [List.filter_append, types]
  | records isSome records declared =>
    -- With the other types there are at least two on either side.
    have some : 0 < (members.filter isTyped).length := List.length_pos_iff.mpr isSome
    have others : 0 < ((before ++ after).filter isTyped).length := List.length_pos_iff.mpr others
    rw [List.filter_append, List.length_append] at others
    rw [List.flatMap_append] at declared
    have typed (fields : List (String × Bool)) (opens : Bool) :
        (record fields opens :: after).filter isTyped = record fields opens :: after.filter isTyped :=
      List.filter_cons_of_pos rfl
    rw [merge_of_two_le (by
      rw [List.filter_append, typed, List.length_append, List.length_cons]
      omega), merge_of_two_le (by simp only [List.filter_append, List.length_append]; omega)]
    simp only [List.filter_append, typed, List.flatMap_append, List.flatMap_cons, List.all_append,
      List.all_cons, List.any_append, List.any_cons, isRecord, isOpen, records, Outline.fields,
      Outline.names, List.nil_append, Bool.true_and, requireEntries_nested declared]

/-- Of what stands alone, only one outline is typed. -/
theorem StandsAlone.length_eq {flags : List (Outline × Bool)} (alone : StandsAlone flags) :
    ((flags.map Prod.fst).filter isTyped).length = 1 := by
  obtain ⟨⟨outline, isOnly⟩, _⟩ := alone
  rw [List.filter_map, List.length_map, Function.comp_def, isOnly, List.length_singleton]

/-- Beside other types, members leave a reference alone if what gathers them does. -/
theorem Gathers.standsAlone_iff {before inside after : List (Outline × Bool)} {outline : Outline}
    (gathers : Gathers ((before ++ after).map Prod.fst) (inside.map Prod.fst) outline)
    (others : ((before ++ after).map Prod.fst).filter isTyped ≠ []) :
    StandsAlone (before ++ (outline, false) :: after) ↔
      StandsAlone (before ++ (inside ++ after)) := by
  have some := List.length_pos_iff.mpr others
  have whole : (outline, false) :: after = [(outline, false)] ++ after := rfl
  rw [List.map_append, List.filter_append, List.length_append] at some
  rw [whole]
  by_cases isSilent : (inside.map Prod.fst).filter isTyped = []
  · -- No types are added to the others on either side.
    have notTyped : [outline].filter isTyped = [] := gathers.filter_eq_nil_iff.mpr isSilent
    have sameNames : outline.names = (inside.map Prod.fst).flatMap names := by
      cases gathers with
      | same _ names => exact names
      | records isSome => exact absurd isSilent isSome
    rw [List.filter_map, List.map_eq_nil_iff, Function.comp_def] at isSilent
    have silent : ([(outline, false)].filter fun flag => flag.1.isTyped) = [] := by
      simpa [List.filter_cons] using notTyped
    simp only [StandsAlone, List.filter_append, isSilent, silent, List.map_append, List.flatMap_append,
      sameNames, List.map_cons, List.map_nil, List.flatMap_cons, List.flatMap_nil, List.append_nil]
  · -- There are at least two types on either side.
    have isTyped := List.length_pos_iff.mpr (gathers.filter_eq_nil_iff.not.mpr isSilent)
    have alsoTyped := List.length_pos_iff.mpr isSilent
    constructor <;> intro alone <;> have isOne := alone.length_eq <;>
      simp only [List.map_append, List.filter_append, List.length_append, List.map_cons,
        List.map_nil] at isOne <;> omega

end Outline

namespace SchemaNode

/-- An intersection to which a member of one of its own leads. -/
theorem Refers.of_member {node member : SchemaNode} {kind : CompositionKind} {members : List SchemaNode}
    {discriminator : Option Discriminator} (isKind : node.kind = .composed kind members discriminator)
    (isMember : member ∈ members) {target : String} (inside : member.Refers target) :
    node.Refers target := by
  obtain ⟨_, traits⟩ := node
  cases isKind
  exact .member isMember inside

/-- An intersection with another one among its members stands for no reference. -/
theorem several_of_intersection (before after : List SchemaNode) {members : List SchemaNode}
    {discriminator : Option Discriminator} {traits : NodeTraits} :
    onlyReference? (before ++ ⟨.composed .allOf members discriminator, traits⟩ :: after) = none := by
  refine Option.eq_none_iff_forall_ne_some.mpr fun target isOnly => ?_
  obtain ⟨others, isSignificant⟩ := significant_of_onlyReference? isOnly
  have isMember : (⟨.composed .allOf members discriminator, traits⟩ : SchemaNode) ∈
      significant (before ++ ⟨.composed .allOf members discriminator, traits⟩ :: after) :=
    List.mem_filter.mpr ⟨by simp, rfl⟩
  rw [isSignificant] at isMember
  cases List.mem_singleton.mp isMember

end SchemaNode

/-- A member without a type that restricts no values contributes nothing that says so. -/
theorem SchemaNode.Outlines.ne_any_of_isEmpty {context : Context} {node : SchemaNode}
    {outline : Outline} (outlines : node.Outlines context .written outline)
    (unrestricted : node.kind.isAny = true → node.traits.constraints.isEmpty = true) :
    outline ≠ .scalar true := by
  cases outlines with
  | type isType =>
    -- Without a type, only constraints make a contribution of the node.
    intro isAny
    have isAny := Outline.scalar.inj isAny
    have isEmpty := unrestricted isAny
    obtain ⟨kind, traits⟩ := node
    cases kind with
    | any =>
      have isEmpty : traits.constraints.isEmpty = true := isEmpty
      simp [SchemaNode.contributesType, isEmpty] at isType
    | _ => cases isAny
  | restriction =>
    unfold SchemaNode.restriction
    split <;> exact Outline.noConfusion
  | reference _ _ inside => exact inside.ne_any
  | only _ _ _ inside => exact inside.ne_any
  | members _ _ _ merges => exact fun isAny => Outline.merge_ne_any _ (isAny ▸ merges)
  | map | object | choice | referenceChoice | onlyNullable => exact fun isAny => by cases isAny

/--
All that the members of an intersection say of an object is handed on to an intersection around it, which
has other members as well.
-/
structure Context.HandsOn (context : Context) (members others : List SchemaNode) : Prop where
  /-- A reference for which the intersection stands does not lead to null. -/
  direct : ∀ target node, SchemaNode.onlyReference? members = some target →
    context.model.node? target = some node → node.inheritsNull = false
  /-- Values are restricted only by members with a type. -/
  unrestricted : ∀ member ∈ members, member.kind.isAny = true →
    member.traits.constraints.isEmpty = true
  /-- Required names are those of fields, or beside an object at least not those of fields elsewhere. -/
  declared : SchemaNode.onlyReference? members = none → ∀ member ∈ members,
    ∀ outline ∈ context.outlineOf member :: member.requiredOutlines, ∀ name ∈ outline.names,
      (∃ declaring ∈ members, name ∈ (context.outlineOf declaring).fields.map Prod.fst) ∨
        (∃ object ∈ members, (context.outlineOf object).isRecord = true) ∧
          ∀ other ∈ others, name ∉ (context.outlineOf other).fields.map Prod.fst

namespace Context

variable {context other : Context} {members before after : List SchemaNode}

/-- The fields that nodes contribute are those of their outlines. -/
theorem mem_fields_flagsOf_iff (context : Context) (nodes : List SchemaNode) (name : String) :
    name ∈ (((nodes.flatMap context.flagsOf).map Prod.fst).flatMap Outline.fields).map Prod.fst ↔
      ∃ node ∈ nodes, name ∈ (context.outlineOf node).fields.map Prod.fst := by
  rw [map_fst_flagsOf, List.map_flatMap, List.mem_flatMap]
  constructor
  · rintro ⟨outline, isOutline, isField⟩
    obtain ⟨node, isNode, isOutline⟩ := List.mem_flatMap.mp isOutline
    rcases List.mem_cons.mp isOutline with rfl | isRequired
    · exact ⟨node, isNode, isField⟩
    · -- What is required beside a contribution has no fields.
      obtain ⟨_, isField, _⟩ := List.mem_map.mp isField
      cases (SchemaNode.not_isTyped_of_requiredOutlines isRequired).symm.trans
        (Outline.isTyped_of_mem_fields isField)
  · rintro ⟨node, isNode, isField⟩
    exact ⟨_, List.mem_flatMap.mpr ⟨node, isNode, List.mem_cons_self⟩, isField⟩

/-- An intersection that hands on all that its members say gathers them. -/
theorem HandsOn.gathers {others : List SchemaNode} (handsOn : context.HandsOn members others)
    {discriminator : Option Discriminator} {traits : NodeTraits} {outline : Outline}
    (outlines : (⟨.composed .allOf members discriminator, traits⟩ : SchemaNode).Outlines context
      .written outline) :
    Outline.Gathers ((others.flatMap context.flagsOf).map Prod.fst)
      ((members.flatMap context.flagsOf).map Prod.fst) outline := by
  cases outlines with
  | type isType => cases isType
  | choice isChoice => exact absurd rfl isChoice
  | @only _ _ _ _ target node _ isOnly found direct inside =>
    -- All other members say nothing.
    obtain ⟨traits, isSignificant⟩ := SchemaNode.significant_of_onlyReference? isOnly
    obtain ⟨types, names⟩ := context.flagsOf_significant members
    have isOutline : context.outlineOf ⟨.reference target, traits⟩ = outline :=
      (inside.outlinesSchema .written traits).outlineOf_eq
    simp only [isSignificant, List.flatMap_singleton, flagsOf, isOutline,
      SchemaNode.requiredOutlines] at types names
    refine .same ?_ (by simpa using names.symm)
    rw [List.filter_map, Function.comp_def, types]
    cases isTyped : outline.isTyped <;> simp [isTyped]
  | onlyNullable isOnly found nullable =>
    -- The name of a type that admits null would have been contributed instead of its fields.
    cases (handsOn.direct _ _ isOnly found).symm.trans nullable
  | members several outlineOf inside merges =>
    have isOutline : (members.flatMap fun member => outlineOf member :: member.requiredOutlines) =
        (members.flatMap context.flagsOf).map Prod.fst := by
      rw [map_fst_flagsOf]
      exact List.flatMap_congr fun member isMember => by rw [(inside member isMember).outlineOf_eq]
    rw [isOutline] at merges
    refine Outline.gathers_of_merge merges (fun isAny => ?_) fun name isName => ?_
    · -- Neither a contribution nor what is required beside it restricts values without a type.
      rw [map_fst_flagsOf] at isAny
      obtain ⟨member, isMember, isAny⟩ := List.mem_flatMap.mp isAny
      rcases List.mem_cons.mp isAny with isAny | isRequired
      · have isInside := (inside member isMember)
        rw [← isInside.outlineOf_eq, ← isAny] at isInside
        exact isInside.ne_any_of_isEmpty (handsOn.unrestricted member isMember) rfl
      · cases SchemaNode.not_isTyped_of_requiredOutlines isRequired
    · -- What a member requires is declared inside, or nowhere.
      rw [map_fst_flagsOf] at isName
      obtain ⟨outline, isOutline, isName⟩ := List.mem_flatMap.mp isName
      obtain ⟨member, isMember, isOutline⟩ := List.mem_flatMap.mp isOutline
      rcases handsOn.declared several member isMember outline isOutline name isName with
        isField | ⟨⟨object, isMember, isObject⟩, notOther⟩
      · exact .inl ((context.mem_fields_flagsOf_iff members name).mpr isField)
      · refine .inr ⟨⟨_, outlineOf_mem_flagsOf isMember, isObject⟩, fun isField => ?_⟩
        obtain ⟨other, isOther, isField⟩ := (context.mem_fields_flagsOf_iff others name).mp isField
        exact notOther other isOther isField

/-- A record with fields of the same names in the same order, required and open alike, or types conflict. -/
def Matches (result : Except CompositionError Shape) (shape : RecordShape) : Prop :=
  (∃ also, result = .ok (.record also) ∧ also.outline = shape.outline) ∨
    ∃ error, result = .error error ∧ error.isConflict = true

/-- Nodes that merge to the same, and leave a reference alone alike, combine to the same records. -/
theorem Decides.matches {nodes others : List SchemaNode} {result also : Except CompositionError Shape}
    (decides : context.Decides nodes result) (alsoDecides : other.Decides others also)
    (sameMerge : Outline.merge ((others.flatMap other.flagsOf).map Prod.fst) =
      Outline.merge ((nodes.flatMap context.flagsOf).map Prod.fst))
    (sameAlone : Outline.StandsAlone (others.flatMap other.flagsOf) →
      Outline.StandsAlone (nodes.flatMap context.flagsOf))
    {shape : RecordShape} (isRecord : result = .ok (.record shape)) : Matches also shape := by
  obtain ⟨isMerged, notAlone⟩ := decides.isMerged shape isRecord
  -- The outlines merge on the other side as well, where nothing but types may be in the way.
  rcases alsoDecides.isGiven _ _ (sameMerge.trans isMerged) with alsoRecord | conflicts | ⟨alone, _⟩
  · exact .inl alsoRecord
  · exact .inr conflicts
  · exact absurd (sameAlone alone) notAlone

/-- An intersection inside another one, and its members written there in another context. -/
structure Splices (context other : Context) (before members after : List SchemaNode)
    (schemas : String → Prop) : Prop where
  agrees : context.AgreesOn other schemas
  inside : ∀ member ∈ before ++ (members ++ after), ∀ target, member.Refers target → schemas target
  handsOn : context.HandsOn members (before ++ after)
  /-- The other members contribute an object. -/
  contributes : ∃ member ∈ before ++ after, (context.outlineOf member).isRecord = true

namespace Splices

variable {schemas : String → Prop} {discriminator : Option Discriminator} {traits : NodeTraits}
  {result spliced : Except CompositionError Shape}

/-- The types that the other members contribute. -/
theorem others (splices : context.Splices other before members after schemas) :
    ((before.flatMap context.flagsOf ++ after.flatMap context.flagsOf).map Prod.fst).filter
      Outline.isTyped ≠ [] := by
  obtain ⟨member, isMember, isRecord⟩ := splices.contributes
  have isOutline : context.outlineOf member ∈ ((before ++ after).flatMap context.flagsOf).map Prod.fst :=
    outlineOf_mem_flagsOf isMember
  rw [List.flatMap_append] at isOutline
  refine List.ne_nil_of_mem (List.mem_filter.mpr ⟨isOutline, ?_⟩)
  exact Outline.isTyped_of_isRecord isRecord

/-- What an intersection among the members contributes with the others. -/
theorem flagsOf_eq (context : Context) (before members after : List SchemaNode) :
    (before ++ ⟨.composed .allOf members discriminator, traits⟩ :: after).flatMap context.flagsOf =
      before.flatMap context.flagsOf ++
        (context.outlineOf ⟨.composed .allOf members discriminator, traits⟩, false) ::
          after.flatMap context.flagsOf := by
  rw [flagsOf_inPlace]
  rfl

/-- The intersection gathers its members. -/
theorem gathers (splices : context.Splices other before members after schemas)
    (nested : context.Decides
      (before ++ ⟨.composed .allOf members discriminator, traits⟩ :: after) result) :
    Outline.Gathers ((before.flatMap context.flagsOf ++ after.flatMap context.flagsOf).map Prod.fst)
      ((members.flatMap context.flagsOf).map Prod.fst)
      (context.outlineOf ⟨.composed .allOf members discriminator, traits⟩) := by
  rw [← List.flatMap_append]
  exact splices.handsOn.gathers
    (nested.outlines _ (List.mem_append_right before List.mem_cons_self))

/-- What the members contribute in place is merged to the same. -/
theorem merge_eq (splices : context.Splices other before members after schemas)
    (nested : context.Decides
      (before ++ ⟨.composed .allOf members discriminator, traits⟩ :: after) result) :
    Outline.merge (((before ++ ⟨.composed .allOf members discriminator, traits⟩ :: after).flatMap
        context.flagsOf).map Prod.fst) =
      Outline.merge (((before ++ (members ++ after)).flatMap context.flagsOf).map Prod.fst) := by
  have gathers := splices.gathers nested
  have others := splices.others
  rw [List.map_append] at others gathers
  rw [flagsOf_eq]
  simpa only [List.flatMap_append, List.map_append, List.map_cons] using gathers.merge_eq others

/-- They leave a reference alone if the intersection does. -/
theorem standsAlone_iff (splices : context.Splices other before members after schemas)
    (nested : context.Decides
      (before ++ ⟨.composed .allOf members discriminator, traits⟩ :: after) result) :
    Outline.StandsAlone ((before ++ ⟨.composed .allOf members discriminator, traits⟩ :: after).flatMap
        context.flagsOf) ↔
      Outline.StandsAlone ((before ++ (members ++ after)).flatMap context.flagsOf) := by
  rw [flagsOf_eq, List.flatMap_append, List.flatMap_append]
  exact (splices.gathers nested).standsAlone_iff splices.others

/-- If the nested intersection leads to a record, then no single reference is left in place. -/
theorem several_inPlace (splices : context.Splices other before members after schemas)
    (nested : context.Decides
      (before ++ ⟨.composed .allOf members discriminator, traits⟩ :: after) result)
    {shape : RecordShape} (isRecord : result = .ok (.record shape)) :
    SchemaNode.onlyReference? (before ++ (members ++ after)) = none := by
  refine Option.eq_none_iff_forall_ne_some.mpr fun target isOnly => ?_
  -- The reference is what contributes an object, and so it would have stood alone before.
  obtain ⟨further, isSignificant⟩ := SchemaNode.significant_of_onlyReference? isOnly
  obtain ⟨types, names⟩ := context.flagsOf_significant (before ++ (members ++ after))
  simp only [isSignificant, List.flatMap_singleton, flagsOf, SchemaNode.requiredOutlines,
    NodeKind.referenceTarget?, Option.isSome_some] at types names
  generalize context.outlineOf ⟨.reference target, further⟩ = outline at types names
  have isObject : outline.isRecord = true := by
    -- What the other members contribute is typed, and only the reference is.
    obtain ⟨member, isMember, isRecord⟩ := splices.contributes
    have isListed : member ∈ before ++ (members ++ after) := by
      simp only [List.mem_append] at isMember ⊢
      tauto
    have isContributed : context.outlineOf member ∈
        ((before ++ (members ++ after)).flatMap context.flagsOf).map Prod.fst :=
      outlineOf_mem_flagsOf isListed
    obtain ⟨flag, isFlag, isOutline⟩ := List.mem_map.mp isContributed
    have isTyped := (List.mem_filter (p := fun flag => flag.1.isTyped)).mpr
      ⟨isFlag, Outline.isTyped_of_isRecord (isOutline ▸ isRecord)⟩
    rw [types] at isTyped
    cases List.mem_singleton.mp (List.mem_of_mem_filter isTyped)
    exact (congrArg Outline.isRecord isOutline).trans isRecord
  refine (nested.isMerged shape isRecord).2 ((splices.standsAlone_iff nested).mpr ⟨⟨outline, ?_⟩, ?_⟩)
  · simpa [List.filter_cons, Outline.isTyped_of_isRecord isObject] using types
  · rw [names]
    cases outline with
    | record => rfl
    | required | unconstrained | scalar | union => cases isObject

/-- The intersections combine to the same records, unless types conflict. -/
theorem matches_of_decides
    (splices : context.Splices other before members after schemas)
    (nested : context.Decides
      (before ++ ⟨.composed .allOf members discriminator, traits⟩ :: after) result)
    (inPlace : other.Decides (before ++ (members ++ after)) spliced) :
    (∀ shape, result = .ok (.record shape) → Matches spliced shape) ∧
      ∀ shape, spliced = .ok (.record shape) → Matches result shape := by
  -- In place the members contribute what they do in the other context.
  have same := splices.agrees.symm.flagsOf_eq splices.inside inPlace.outlines
  have sameMerge := splices.merge_eq nested
  have sameAlone := splices.standsAlone_iff nested
  rw [same] at sameMerge sameAlone
  exact ⟨fun shape => nested.matches inPlace sameMerge.symm sameAlone.mpr,
    fun shape => inPlace.matches nested sameMerge sameAlone.mp⟩

end Splices

end Context

end ApiTypes
