import ApiTypes.Proofs.Synthesis.Concurrence
import ApiTypes.Proofs.Synthesis.Outlines

/-!
What an intersection inherits. A member that refers to a component schema with a record contributes that
very record, and the fields of the others are those that their nodes declare.
-/

namespace ApiTypes

/-- A node has a property of a name, or includes what has one. -/
inductive SchemaNode.Declares (context : Context) (name : String) : SchemaNode → Prop
  | property {properties : List (Property SchemaNode)} {additional : Option SchemaNode}
    {traits : NodeTraits} {property : Property SchemaNode} (isListed : property ∈ properties)
    (isNamed : property.name = name) : Declares context name ⟨.object properties additional, traits⟩
  | reference {target : String} {traits : NodeTraits} {node : SchemaNode}
    (found : context.model.node? target = some node) (inside : Declares context name node) :
    Declares context name ⟨.reference target, traits⟩
  | member {members : List SchemaNode} {discriminator : Option Discriminator} {traits : NodeTraits}
    {member : SchemaNode} (isMember : member ∈ members) (inside : Declares context name member) :
    Declares context name ⟨.composed .allOf members discriminator, traits⟩

/-- The fields of what members merge into are among those of the members. -/
theorem Outline.exists_of_mem_fields_merge {members : List Outline} {outline : Outline}
    (merges : merge members = some outline) {name : String}
    (isField : name ∈ outline.fields.map Prod.fst) :
    ∃ member ∈ members, name ∈ member.fields.map Prod.fst := by
  -- A single typed outline is kept; otherwise names come from the fields of typed outlines alone.
  obtain ⟨_, ⟨_, _, rfl⟩ | ⟨_, rfl⟩⟩ := merge_cases merges
  · generalize isTyped : members.filter Outline.isTyped = typed at isField
    unfold single at isField
    split at isField
    · have isMember : Outline.record _ _ ∈ members :=
        (List.mem_filter.mp (isTyped ▸ List.mem_singleton_self _)).1
      exact ⟨_, isMember, isField⟩
    · cases isField
    · cases isField
  · simp only [fields, map_fst_requireEntries, map_fst_addEntries, mem_distinctNames_iff] at isField
    obtain ⟨entry, isEntry, rfl⟩ := List.mem_map.mp isField
    obtain ⟨member, isTyped, isEntry⟩ := List.mem_flatMap.mp isEntry
    exact ⟨member, (List.mem_filter.mp isTyped).1, List.mem_map_of_mem isEntry⟩

/-- What a node requires beside its contribution are no fields. -/
theorem SchemaNode.fields_requiredOutlines {node : SchemaNode} {outline : Outline}
    (isRequired : outline ∈ node.requiredOutlines) : outline.fields = [] := by
  unfold requiredOutlines at isRequired
  split at isRequired
  · split at isRequired
    · cases isRequired
    · cases List.mem_singleton.mp isRequired
      rfl
  · cases isRequired

/-- The fields in the outline of a node are declared by it. -/
theorem SchemaNode.Outlines.declares {context : Context} {placement : Placement} {node : SchemaNode}
    {outline : Outline} (outlines : node.Outlines context placement outline) {name : String}
    (isField : name ∈ outline.fields.map Prod.fst) : node.Declares context name := by
  -- Only objects have properties; everything else hands on those of its target or its members.
  induction outlines with
  | atomic | type | map | choice | referenceChoice | onlyNullable => cases isField
  | restriction =>
    unfold SchemaNode.restriction at isField
    split at isField <;> cases isField
  | object =>
    obtain ⟨_, isEntry, rfl⟩ := List.mem_map.mp isField
    obtain ⟨property, isListed, rfl⟩ := List.mem_map.mp isEntry
    exact .property isListed rfl
  | reference found _ _ ih => exact .reference found (ih isField)
  | only isOnly _ _ _ ih =>
    obtain ⟨_, isMember⟩ := SchemaNode.mem_of_onlyReference? isOnly
    cases ih isField with
    | reference found inside => exact .member isMember (.reference found inside)
  | members _ _ _ merges ih =>
    obtain ⟨outline, isOutline, isField⟩ := Outline.exists_of_mem_fields_merge merges isField
    obtain ⟨member, isMember, isOutline⟩ := List.mem_flatMap.mp isOutline
    rcases List.mem_cons.mp isOutline with rfl | isRequired
    · exact .member isMember (ih member isMember isField)
    · rw [SchemaNode.fields_requiredOutlines isRequired] at isField
      cases isField

/-- The outline of a contribution says which fields it has. -/
theorem MemberShape.map_fst_fields_outline (shape : MemberShape) :
    shape.outline.fields.map Prod.fst = shape.fields.map Field.key := by
  cases shape with
  | record shape =>
    simp [MemberShape.outline, RecordShape.outline, Outline.fields, MemberShape.fields, Field.entry,
      Function.comp_def]
  | required | unconstrained | scalar | union => rfl

variable {context : Context} {expanding : List String} {first last : Workspace}

/-- What members contribute has no field of a name that none of them declares. -/
theorem Yields.fieldsNamed_eq_nil {nodes : List SchemaNode} {depth : Nat}
    {inputs : List IntersectionMember} {name : String}
    (yields : Yields context expanding first (.members nodes depth) (.inputs inputs) last)
    (consistent : Consistent context first)
    (undeclared : ∀ node ∈ nodes, ¬node.Declares context name) :
    fieldsNamed name (inputs.flatMap fun input => input.shape.fields) = [] := by
  -- What a member contributes has the outline of its node, and listed names are no fields.
  obtain ⟨outlines, entries, _⟩ := yields.outlined consistent
  refine List.filter_eq_nil_iff.mpr fun field isField => ?_
  rw [beq_iff_eq]
  rintro rfl
  obtain ⟨input, isInput, isField⟩ := List.mem_flatMap.mp isField
  have isEntry : input.entry ∈ nodes.flatMap context.entriesOf :=
    entries ▸ List.mem_map_of_mem isInput
  obtain ⟨node, isNode, isEntry⟩ := List.mem_flatMap.mp isEntry
  have isNamed : field.key ∈ input.outline.fields.map Prod.fst := by
    rw [IntersectionMember.outline, MemberShape.map_fst_fields_outline]
    exact List.mem_map_of_mem isField
  rcases List.mem_cons.mp isEntry with same | isRequired
  · have isOutline : input.outline = context.outlineOf node := congrArg Prod.fst same
    exact undeclared node isNode ((outlines node isNode).declares (isOutline ▸ isNamed))
  · obtain ⟨outline, isRequired, same⟩ := List.mem_map.mp isRequired
    have isOutline : outline = input.outline := congrArg Prod.fst same
    rw [← isOutline, SchemaNode.fields_requiredOutlines isRequired] at isNamed
    cases isNamed

namespace Surroundings

variable (outside : Surroundings)

/-- The members of an intersection are walked one after the other. -/
theorem members_append (scope : Scope) (depth : Nat) (before after : List WalkedNode) (index : Nat) :
    outside.members scope depth (before ++ after) index = do
      let inputs ← outside.members scope depth before index
      return inputs ++ (← outside.members scope depth after (index + before.length)) := by
  -- Members are told apart by their position, so the later ones are counted on from the earlier ones.
  induction before generalizing index with
  | nil => simp [members]
  | cons node rest ih =>
    have sameIndex : index + 1 + rest.length = index + (rest.length + 1) := by omega
    obtain ⟨node, walk⟩ := node
    cases isReference : node.kind.referenceTarget? with
    | some target =>
      obtain ⟨kind, traits⟩ := node
      cases kind <;> cases isReference
      simp only [List.cons_append, members_cons_reference, ih, bind_assoc, pure_bind, List.length_cons,
        sameIndex]
    | none =>
      simp only [List.cons_append, outside.members_cons isReference, ih, bind_assoc, pure_bind,
        List.length_cons, sameIndex, List.append_assoc]

variable {outside : Surroundings} {scope : Scope} {depth : Nat} {traits : NodeTraits}

/-- A node that is used directly is declared as another name of its type. -/
theorem isAlias_of_plainWalk {walk : NodeWalk} {expression : Scope → Nat → Synthesis TypeExpr}
    {shape : Shape} (ends : (walk.declare scope depth).Ends first (.ok shape) last)
    (isPlain : walk.declare = (outside.plainWalk traits expression).declare) :
    shape.isAlias = true := by
  rw [isPlain] at ends
  obtain ⟨_, _, ends⟩ := ends_of_reportUndeclared ends
  obtain ⟨type, _, _, isShape⟩ := (Synthesis.ends_bind_ok_iff _ _ _).mp ends
  cases ((Synthesis.ends_pure_iff _).mp isShape).1
  rfl

/-- No choice is declared as a record. -/
theorem ne_record_of_union {kind : CompositionKind} {members : List WalkedNode}
    {discriminator : Option Discriminator} {nullable : Bool} {shape : RecordShape} :
    ¬(outside.union kind members discriminator nullable scope depth).Ends first (.ok (.record shape))
      last := by
  intro ends
  rw [union_eq] at ends
  obtain ⟨_, _, _, ends⟩ := (Synthesis.ends_bind_ok_iff _ _ _).mp ends
  obtain ⟨_, _, _, ends⟩ := (Synthesis.ends_bind_ok_iff _ _ _).mp ends
  have unites := ((Synthesis.ends_liftComposition_ok_iff _ _ _).mp ends).1
  unfold unionOf at unites
  split at unites <;> cases unites

/-- An intersection that is declared as a record is merged to that. -/
theorem ends_intersection_of_declare {members : List SchemaNode}
    {discriminator : Option Discriminator} {shape : RecordShape}
    (ends : ((outside.walk ⟨.composed .allOf members discriminator, traits⟩).declare scope depth).Ends
      first (.ok (.record shape)) last) :
    ∃ middle, first.Notes middle ∧ (outside.intersection (members.map outside.walked) scope depth).Ends
      middle (.ok (.record shape)) last := by
  rw [walk_allOf] at ends
  obtain ⟨middle, notes, ends⟩ := ends_of_reportUndeclared ends
  obtain ⟨found, _, merges, isShape⟩ := (Synthesis.ends_bind_ok_iff _ _ _).mp ends
  -- Only a record is passed on as a record.
  cases found with
  | enum | union | «alias» => cases ((Synthesis.ends_pure_iff _).mp isShape).1
  | record found =>
    obtain ⟨same, rfl⟩ := (Synthesis.ends_pure_iff _).mp isShape
    cases same
    exact ⟨middle, notes, merges⟩

/-- What is declared as a record would be expanded to that record. -/
theorem ends_expand_of_declare {node : SchemaNode} {shape : RecordShape}
    (ends : ((outside.walk node).declare scope 0).Ends first (.ok (.record shape)) last) :
    ∃ middle, first.Notes middle ∧
      ((outside.walk node).expand scope).Ends middle (.ok (.record shape)) last := by
  obtain ⟨kind, traits⟩ := node
  cases kind with
  | primitive | array | map | reference | null => cases isAlias_of_plainWalk ends rfl
  | any =>
    have isPlain : (outside.walk ⟨.any, traits⟩).declare = (outside.plainWalk traits fun _ _ =>
        return TypeExpr.any.withNullable traits.nullable).declare := by
      rw [walk_any, anyWalk]
      dsimp only
      split <;> rfl
    cases isAlias_of_plainWalk ends isPlain
  | enum base values =>
    obtain ⟨_, _, ends⟩ := ends_of_reportUndeclared ends
    cases ((Synthesis.ends_pure_iff _).mp ends).1
  | object properties additional =>
    rw [walk_object, objectWalk] at ends ⊢
    dsimp only at ends
    split at ends
    · cases isAlias_of_plainWalk ends rfl
    · obtain ⟨middle, notes, ends⟩ := ends_of_reportUndeclared ends
      obtain ⟨found, after, records, isShape⟩ := (Synthesis.ends_bind_ok_iff _ _ _).mp ends
      obtain ⟨same, rfl⟩ := (Synthesis.ends_pure_iff _).mp isShape
      cases same
      exact ⟨middle, notes, (Synthesis.ends_bind_ok_iff _ _ _).mpr
        ⟨_, _, records, (Synthesis.ends_pure_iff _).mpr ⟨rfl, rfl⟩⟩⟩
  | composed kind members discriminator =>
    by_cases isChoice : kind = .allOf
    · subst isChoice
      obtain ⟨middle, notes, merges⟩ := ends_intersection_of_declare ends
      rw [walk_allOf]
      -- A record is contributed as it is.
      exact ⟨middle, notes, (Synthesis.ends_bind_ok_iff _ _ _).mpr
        ⟨_, _, merges, (Synthesis.ends_pure_iff _).mpr ⟨rfl, rfl⟩⟩⟩
    · rw [outside.walk_choice traits isChoice] at ends
      obtain ⟨_, _, ends⟩ := ends_of_reportUndeclared ends
      exact absurd ends ne_record_of_union

/-- An intersection that is merged to a record walks all of its members. -/
theorem ends_members_of_intersection {nodes : List SchemaNode} {shape : RecordShape}
    (ends : (outside.intersection (nodes.map outside.walked) scope depth).Ends first
      (.ok (.record shape)) last) :
    ∃ inputs middle merged, (outside.members scope depth (nodes.map outside.walked) 0).Ends first
      (.ok inputs) middle ∧ mergeAllOf inputs middle.registry.equivalent = .ok merged ∧
        merged.shape = .record shape ∧ last.registry = middle.registry := by
  cases isOnly : SchemaNode.onlyReference? ((nodes.map outside.walked).map Prod.fst) with
  | some target =>
    rw [outside.intersection_of_reference isOnly] at ends
    split at ends
    · cases ((Synthesis.ends_failComposition_iff _ _).mp ends).1
    · obtain ⟨type, _, _, isShape⟩ := (Synthesis.ends_bind_ok_iff _ _ _).mp ends
      cases ((Synthesis.ends_pure_iff _).mp isShape).1
  | none =>
    obtain ⟨inputs, middle, merged, walks, isMerged, isShape, same⟩ :=
      outside.ends_intersection_ok isOnly ends
    exact ⟨inputs, middle, merged, walks, isMerged, isShape.symm, same⟩

/-- A member that refers to a component schema is looked up and expanded between the others. -/
theorem ends_expand_of_members {before after : List SchemaNode} {target : String}
    {inputs : List IntersectionMember}
    (ends : (outside.members scope depth
      ((before ++ ⟨.reference target, traits⟩ :: after).map outside.walked) 0).Ends first (.ok inputs)
        last) :
    ∃ earlier start place type middle contribution expanded index later,
      (outside.members scope depth (before.map outside.walked) 0).Ends first (.ok earlier) start ∧
      (outside.reference target place).Ends start (.ok type) middle ∧
      (outside.expand target place.path).Ends middle (.ok contribution) expanded ∧
      (outside.members scope depth (after.map outside.walked) index).Ends expanded (.ok later) last ∧
      inputs = earlier ++ ⟨target, type.name?, contribution⟩ :: later := by
  -- The members before the reference, the reference, and those after it run one after the other.
  rw [List.map_append, List.map_cons, members_append, walked] at ends
  obtain ⟨earlier, start, walks, goesOn⟩ := (Synthesis.ends_bind_ok_iff _ _ _).mp ends
  obtain ⟨rest, _, others, isInputs⟩ := (Synthesis.ends_bind_ok_iff _ _ _).mp goesOn
  obtain ⟨same, rfl⟩ := (Synthesis.ends_pure_iff _).mp isInputs
  cases same
  rw [members_cons_reference] at others
  obtain ⟨type, middle, looks, goesOn⟩ := (Synthesis.ends_bind_ok_iff _ _ _).mp others
  obtain ⟨contribution, expanded, expands, goesOn⟩ := (Synthesis.ends_bind_ok_iff _ _ _).mp goesOn
  obtain ⟨later, _, walksLater, isRest⟩ := (Synthesis.ends_bind_ok_iff _ _ _).mp goesOn
  obtain ⟨same, rfl⟩ := (Synthesis.ends_pure_iff _).mp isRest
  cases same
  exact ⟨earlier, start, _, type, middle, contribution, expanded, _, later, walks, looks, expands,
    walksLater, rfl⟩

/-- Members of which none declares a name are walked without contributing a field of it. -/
theorem Adequate.members_undeclared {active : List String}
    (adequate : outside.Adequate context active expanding) {nodes : List SchemaNode} {index : Nat}
    {inputs : List IntersectionMember} {key : String} (orderly : first.Orderly context active)
    (walks : (outside.members scope depth (nodes.map outside.walked) index).Ends first (.ok inputs) last)
    (undeclared : ∀ node ∈ nodes, ¬node.Declares context key) :
    last.Orderly context active ∧ Grows first last ∧
      fieldsNamed key (inputs.flatMap fun input => input.shape.fields) = [] := by
  have follows := adequate.follows_members scope depth
    (fun node (_ : node ∈ nodes) => adequate.walkFollows node) index
  have ⟨after, grows⟩ := orderly.follow follows.maintains_spelled walks
  have yields : Yields context expanding first (.members nodes depth) (.inputs inputs) last :=
    follows _ _ _ orderly.consistent orderly.started walks
  exact ⟨after, grows, yields.fieldsNamed_eq_nil orderly.consistent undeclared⟩

end Surroundings

namespace Synthesis

variable {registry : Registry} {active otherActive otherExpanding : List String} {otherMuted : Bool}
  {node : SchemaNode} {scope : Scope} {shape : RecordShape}

/-- What has been declared as a record is expanded to that record, whenever that is. -/
theorem HasGiven.expand_eq (given : HasGiven context registry node scope (.record shape))
    (reflexive : registry.IsReflexive) (apart : context.Apart)
    (free : ∀ candidate, node.Tries context .declared scope.name candidate → context.Frees candidate)
    {contribution : MemberShape}
    (orderly : first.Orderly context otherActive)
    (expands : (((within context otherMuted otherActive otherExpanding).walk node).expand scope).Ends
      first (.ok contribution) last) (kept : last.KeptIn registry) : contribution = .record shape := by
  -- The schema has been walked from another workspace and inside other schemas. Both walks concur in
  -- what they give, as the registry in the end decides every name.
  cases given with
  | @walk muted active expanding _ _ wasOrderly declares wasKept =>
    have corresponds : Correspondence (within context muted active expanding)
        (within context otherMuted otherActive otherExpanding) (fun _ => True) (fun _ => True)
        (fun _ => True) context.Frees (Concurs context registry active otherActive) :=
      concurs_within reflexive apart _ _ _ _ _ _
    obtain ⟨middle, notes, wasExpanded⟩ := Surroundings.ends_expand_of_declare declares
    have concurs : Concurs context registry active otherActive
        (((within context muted active expanding).walk node).expand scope)
        (((within context otherMuted otherActive otherExpanding).walk node).expand scope) :=
      corresponds.expand node (fun _ _ => trivial) (fun _ _ => trivial) (fun _ _ => trivial) trivial free
    exact (concurs.agrees (wasOrderly.notes notes) orderly wasExpanded expands wasKept kept).symm

/-- A component schema that has been declared as a record contributes that record. -/
theorem HasGiven.eq_record_of_expandWithin {schema name path : String}
    (found : context.model.node? schema = some node) (emitted : context.emitted? schema = some name)
    (given : HasGiven context registry node ⟨name, Pointer.ofSchema schema⟩ (.record shape))
    (reflexive : registry.IsReflexive) (apart : context.Apart) {contribution : MemberShape}
    (orderly : first.Orderly context otherActive)
    (ends : (expandWithin context otherActive otherExpanding schema path).Ends first
      (.ok contribution) last) (noChoice : contribution ≠ .union) (kept : last.KeptIn registry) :
    contribution = .record shape := by
  -- An expansion that gives no choice is the walk of the node under the same name.
  rcases expandWithin_cases ends with ⟨_, isError, _⟩ | ⟨_, isError, _⟩ |
    ⟨other, isFound, _, ⟨_, isUnion, _⟩ | ⟨_, expands⟩⟩
  · cases isError
  · cases isError
  · cases isUnion
    exact absurd rfl noChoice
  · cases found.symm.trans isFound
    have isName : emittedName first schema schema = name := by
      rw [emittedName, orderly.consistent.emitted_get?, emitted]
      rfl
    rw [isName] at expands
    exact given.expand_eq reflexive apart (apart found emitted) orderly expands kept

/--
If an intersection refers to a component schema and both have been declared as records, a field that
none of the other members declares has the same type in both.
-/
theorem HasGiven.types_inherited {base name : String} {before after : List SchemaNode}
    {discriminator : Option Discriminator} {traits referenceTraits : NodeTraits}
    {extended : RecordShape} {key : String} (found : context.model.node? base = some node)
    (emitted : context.emitted? base = some name)
    (given : HasGiven context registry node ⟨name, Pointer.ofSchema base⟩ (.record shape))
    (extension : HasGiven context registry
      ⟨.composed .allOf (before ++ ⟨.reference base, referenceTraits⟩ :: after) discriminator, traits⟩
      scope (.record extended)) (reflexive : registry.IsReflexive) (apart : context.Apart)
    (single : (fieldsNamed key shape.fields).length ≤ 1)
    (undeclared : ∀ member ∈ before ++ after, ¬member.Declares context key) :
    (fieldsNamed key extended.fields).map Field.type = (fieldsNamed key shape.fields).map Field.type := by
  cases extension with
  | @walk muted active expanding first last orderly declares kept =>
  have adequate := adequate_within context muted active expanding
  obtain ⟨noted, notes, merges⟩ := Surroundings.ends_intersection_of_declare declares
  obtain ⟨inputs, done, merged, walksMembers, isMerged, isRecord, sameRegistry⟩ :=
    Surroundings.ends_members_of_intersection merges
  obtain ⟨earlier, start, place, type, middle, contribution, expanded, index, later, walksBefore, looks,
    expands, walksAfter, rfl⟩ := Surroundings.ends_expand_of_members walksMembers
  -- The members beside the reference contribute no field of the name.
  have ⟨atStart, _, noneBefore⟩ := adequate.members_undeclared (orderly.notes notes) walksBefore
    fun node isMember => undeclared node (List.mem_append_left _ isMember)
  have ⟨atMiddle, _⟩ := atStart.follow (Follows.maintains_spelled (adequate.reference _ _)) looks
  have ⟨atExpanded, _⟩ := atMiddle.follow (Follows.maintains_spelled (adequate.expand _ _)) expands
  have ⟨_, grows, noneAfter⟩ := adequate.members_undeclared atExpanded walksAfter
    fun node isMember => undeclared node (List.mem_append_right _ isMember)
  -- The reference contributes the record of the base.
  have keptAfter : done.KeptIn registry := by
    rw [Workspace.KeptIn, ← sameRegistry]
    exact kept
  have noChoice : contribution ≠ .union := by
    rintro rfl
    have notUnion := (Intersection.mergeAllOf_cases isMerged).1 _
      (List.mem_append_right _ List.mem_cons_self)
    cases notUnion
  have isBase : contribution = .record shape := given.eq_record_of_expandWithin found emitted reflexive
    apart atMiddle expands noChoice (grows.keptIn keptAfter)
  have inherited : fieldsNamed key ((earlier ++ ⟨base, type.name?, contribution⟩ :: later).flatMap
      fun input => input.shape.fields) = fieldsNamed key shape.fields := by
    rw [List.flatMap_append, List.flatMap_cons, fieldsNamed_append, fieldsNamed_append, noneBefore,
      noneAfter, isBase, List.nil_append, List.append_nil]
    rfl
  rw [types_fieldsNamed_mergeAllOf isMerged isRecord (inherited ▸ single), inherited]

end Synthesis

end ApiTypes
