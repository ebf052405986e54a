import ApiTypes.Proofs.Synthesis.Coverage

/-!
Tasks that are walked once more. Where what has come of a task in one walk stands, all that comes of it in
another walk rests on names of component schemas that the first one has met.
-/

namespace ApiTypes

namespace Intersection

/-- The only type among the members of an intersection is one that has a name. -/
def Named (inputs : List IntersectionMember) (name : String) : Prop :=
  StandsAlone inputs ∧ ∃ input ∈ inputs, isTyped input = true ∧ input.reference = some name

variable {inputs others : List IntersectionMember} {name : String}

/-- So it is if other members have the same entries. -/
theorem Named.of_entries
    (same : others.map IntersectionMember.entry = inputs.map IntersectionMember.entry)
    (named : Named inputs name) : Named others name := by
  obtain ⟨alone, input, isInput, isTyped, isNamed⟩ := named
  have isEntry : input.entry ∈ others.map IntersectionMember.entry :=
    same ▸ List.mem_map_of_mem isInput
  obtain ⟨other, isOther, isSame⟩ := List.mem_map.mp isEntry
  refine ⟨alone.of_entries same, other, isOther, ?_, (congrArg Prod.snd isSame).trans isNamed⟩
  rw [← other.isTyped_outline, show other.outline = input.outline from congrArg Prod.fst isSame,
    input.isTyped_outline, isTyped]

/-- Members of which only one has a type, with a name, come to the name. -/
theorem Named.shape_eq {merged : Merged}
    {equivalent : TypeKind TypeExpr → TypeKind TypeExpr → Bool} (named : Named inputs name)
    (isMerged : mergeAllOf inputs equivalent = .ok merged) : merged.shape = .alias (.named name) := by
  obtain ⟨alone, input, isInput, isTyped, isNamed⟩ := named
  obtain ⟨_, ⟨_, rfl⟩ | ⟨notAlone, _⟩⟩ := mergeAllOf_eq_ok_iff.mp isMerged
  · have isMember := List.mem_filter.mpr ⟨isInput, isTyped⟩
    obtain ⟨only, isOnly⟩ := List.length_eq_one_iff.mp
      (Nat.le_antisymm alone.1 (List.length_pos_of_mem isMember))
    rw [isOnly] at isMember
    cases List.mem_singleton.mp isMember
    obtain ⟨label, reference, shape⟩ := input
    cases isNamed
    rw [isOnly]
    rfl
  · exact absurd alone notAlone

end Intersection

variable {context : Context} {expanding : List String} {first last start done final : Workspace}
  {isKept : String → Prop}

/-!
What an intersection comes to. Whether that is another name of a component schema depends on the nodes
alone, and where it is no such name all that the members contribute is kept.
-/

/-- A member of an intersection stands with all that it contributes. -/
def SchemaNode.Whole (context : Context) (isKept : String → Prop) (first last : Workspace)
    (depth : Nat) (node : SchemaNode) : Prop :=
  (∃ target traits, node = ⟨.reference target, traits⟩ ∧ context.TakesUp isKept first last target) ∨
    (Task.contribute node depth).Stands context isKept first last

/-- All members of an intersection stand if what it comes to is backed, unless that is a name of one. -/
theorem Task.Gives.whole {nodes : List SchemaNode} {depth : Nat} {shape : Shape}
    (gives : (Task.intersection nodes depth).Gives context first last (.shape shape))
    (backed : shape.Backed context isKept first last) (keeps : last.Keeps isKept)
    (several : SchemaNode.onlyReference? nodes = none) :
    ∃ inputs, inputs.map IntersectionMember.entry = nodes.flatMap context.entriesOf ∧
      ((∀ name, ¬Intersection.Named inputs name) →
        ∀ node ∈ nodes, node.Whole context isKept first last depth) := by
  obtain ⟨_, _, _, consistent, before, yields, after⟩ := gives
  cases yields with
  | intersectionReference isOnly => cases several.symm.trans isOnly
  | @intersectionMembers _ _ _ _ _ _ inputs _ _ inside merges notes =>
    obtain ⟨between, _⟩ := inside.advances consistent
    have grows := (notes.advances between).2.trans after
    obtain ⟨_, entries_eq, each, _⟩ := inside.outlined consistent
    refine ⟨inputs, entries_eq, fun unnamed node isNode => ?_⟩
    obtain ⟨input, isInput, contributed⟩ := inside.contributed consistent before grows node isNode
    have kept : (Value.member input.shape).IsKept isKept := by
      refine (backed.members keeps grows merges (fun input isInput => (each input isInput).1) input
        isInput).resolve_right ?_
      rintro ⟨⟨alone, isTyped⟩, name, isName, _⟩
      exact unnamed name ⟨alone, input, isInput, isTyped, isName⟩
    cases contributed with
    | reference isReady _ gives => exact .inl ⟨_, _, rfl, isReady, _, gives, kept⟩
    | other _ gives => exact .inr ⟨_, gives, kept⟩

/-- An intersection of nodes amounts to a component schema: it is nothing but another name of it. -/
def Context.AmountsTo (context : Context) (nodes : List SchemaNode) (schema : String) : Prop :=
  (SchemaNode.onlyReference? nodes = some schema ∧
    ∀ node, context.model.node? schema = some node → node.inheritsNull = false) ∨
  SchemaNode.onlyReference? nodes = none ∧ ∃ inputs name,
    inputs.map IntersectionMember.entry = nodes.flatMap context.entriesOf ∧
      Intersection.Named inputs name ∧ context.emitted? schema = some name

/-- An intersection that comes to the name of a schema that can be expanded amounts to the schema. -/
theorem Yields.amountsTo {nodes : List SchemaNode} {depth : Nat} {type : TypeExpr} {schema : String}
    (yields : Yields context expanding start (.intersection nodes depth) (.shape (.alias type)) done)
    (consistent : Consistent context start) (named : context.schemaOf? type = some schema)
    (direct : type.nullable = false) (notAtomic : ¬context.IsAtomic schema) :
    context.AmountsTo nodes schema := by
  generalize isAlias : Shape.alias type = shape at yields
  cases yields with
  | intersectionReference isOnly _ looked =>
    cases isAlias
    cases looked.schemaOf?_reference.symm.trans named
    refine .inl ⟨isOnly, fun node found => ?_⟩
    cases looked with
    | reference isFound =>
      cases found.symm.trans isFound
      exact direct
  | @intersectionMembers _ _ _ _ _ _ inputs _ several inside merges =>
    obtain ⟨_, entries_eq, ends, _⟩ := inside.outlined consistent
    obtain ⟨name, isName, emitted⟩ := (context.schemaOf?_eq_some_iff type schema).mp named
    refine .inr ⟨several, inputs, name, entries_eq, ?_, emitted⟩
    obtain ⟨_, ⟨alone, rfl⟩ | ⟨_, _, _, _, rfl⟩⟩ := Intersection.mergeAllOf_eq_ok_iff.mp merges
    · -- Of the single types, only that of a reference has a name that can be expanded.
      have few := alone.1
      refine ⟨alone, ?_⟩
      generalize isTyped : inputs.filter Intersection.isTyped = typed at isAlias few
      match typed, few with
      | [], _ =>
        cases isAlias
        cases isName
      | [member], _ =>
        obtain ⟨isMember, isTyped⟩ :=
          List.mem_filter.mp (isTyped ▸ List.mem_singleton_self member)
        obtain ⟨label, reference, shape⟩ := member
        cases reference with
        | some other =>
          cases isAlias
          cases isName
          exact ⟨_, isMember, isTyped, rfl⟩
        | none =>
          cases shape with
          | record => cases isAlias
          | scalar =>
            cases isAlias
            exact absurd ((ends _ isMember).1 direct schema named) notAtomic
          | required | unconstrained | union =>
            cases isAlias
            cases isName
    · cases isAlias

/-- What amounts to a schema comes to its name wherever it is walked. -/
theorem Context.AmountsTo.eq_alias {nodes : List SchemaNode} {depth : Nat} {shape : Shape}
    {schema : String} (amounts : context.AmountsTo nodes schema)
    (yields : Yields context expanding start (.intersection nodes depth) (.shape shape) done)
    (consistent : Consistent context start) :
    ∃ type, shape = .alias type ∧ context.schemaOf? type = some schema ∧ type.nullable = false ∧
      done.Ready schema := by
  rcases amounts with ⟨isOnly, direct⟩ | ⟨several, inputs, name, entries_eq, named, emitted⟩
  · cases yields with
    | intersectionReference isAlso _ looked =>
      cases isOnly.symm.trans isAlso
      have isReady := looked.ready_reference
      have named := looked.schemaOf?_reference
      cases looked with
      | reference found => exact ⟨_, rfl, named, direct _ found, isReady⟩
    | intersectionMembers several => cases isOnly.symm.trans several
  · cases yields with
    | intersectionReference isOnly => cases several.symm.trans isOnly
    | @intersectionMembers _ _ middle _ _ _ others _ _ inside merges notes =>
      obtain ⟨_, also_eq, _⟩ := inside.outlined consistent
      have alsoNamed := named.of_entries (also_eq.trans entries_eq.symm)
      refine ⟨.named name, alsoNamed.shape_eq merges, context.schemaOf?_named emitted false, rfl, ?_⟩
      -- The name is that of a reference among the nodes, which has been looked up.
      obtain ⟨_, input, isInput, _, isName⟩ := alsoNamed
      obtain ⟨target, traits, isNode, held⟩ := inside.exists_reference consistent isInput isName
      cases Context.emitted?_injective held emitted
      obtain ⟨_, _, contributed⟩ := inside.contributed consistent (.refl _) (.refl _) _ isNode
      obtain ⟨_, grows⟩ := notes.advances (inside.advances consistent).1
      cases contributed with
      | reference isReady => exact grows.ready isReady
      | other isOther => cases isOther

/-- What an intersection contributes is taken up from the schema to which it amounts. -/
theorem Task.Stands.takesUp {members : List SchemaNode} {discriminator : Option Discriminator}
    {traits : NodeTraits} {depth : Nat} {schema : String}
    (stands : (Task.contribute ⟨.composed .allOf members discriminator, traits⟩ depth).Stands context
      isKept first last)
    (amounts : context.AmountsTo members schema) : context.TakesUp isKept first last schema := by
  obtain ⟨value, ⟨_, _, _, consistent, before, yields, after⟩, notUnion, kept⟩ := stands
  cases yields with
  | contributeType isType => cases isType
  | contributeChoice isChoice => exact absurd rfl isChoice
  | contributeIntersection inside takes =>
    obtain ⟨between, grows⟩ := inside.advances consistent
    obtain ⟨_, behind⟩ := takes.advances between
    obtain ⟨type, rfl, named, direct, isReady⟩ := amounts.eq_alias inside consistent
    cases takes with
    | takeSchema alsoNamed _ taken =>
      cases named.symm.trans alsoNamed
      exact ⟨(behind.trans after).ready isReady, _,
        taken.gives between (before.trans grows) after, notUnion, kept⟩
    | take unnamed => cases named.symm.trans (unnamed type rfl direct)

namespace Context.TakesUp

variable {schema target : String} {traits : NodeTraits} {properties : List (Property SchemaNode)}
  {additional : Option SchemaNode} {members : List SchemaNode} {kind : CompositionKind}
  {discriminator : Option Discriminator}

/-- A schema that is taken up has a node and a name. -/
theorem exists_node (takesUp : context.TakesUp isKept first last schema) :
    ∃ node name, context.model.node? schema = some node ∧ context.emitted? schema = some name := by
  obtain ⟨_, value, ⟨_, _, _, _, _, yields, _⟩, notUnion, _⟩ := takesUp
  cases yields with
  | schemaChoice => cases notUnion
  | schema _ found _ emitted => exact ⟨_, _, found, emitted⟩

/-- A schema that is taken up is met. -/
theorem meets (takesUp : context.TakesUp isKept first last schema) :
    context.Meets isKept first last schema := .inr takesUp

/-- The properties of a record that is taken up, and what else it admits. -/
theorem record (takesUp : context.TakesUp isKept first last schema)
    (found : context.model.node? schema = some ⟨.object properties additional, traits⟩) :
    (∀ property ∈ properties,
      (Task.expression property.schema 0).Stands context isKept first last) ∧
    ∀ value ∈ additional, (Task.expression value 0).Stands context isKept first last := by
  obtain ⟨_, value, ⟨_, _, _, consistent, before, yields, after⟩, notUnion, kept⟩ := takesUp
  cases yields with
  | schemaChoice => cases notUnion
  | schema _ isFound _ _ inside =>
    cases found.symm.trans isFound
    cases inside with
    | expandAtomic isAtomic => cases isAtomic
    | expandRecord inside => exact Task.Stands.record ⟨_, inside.gives consistent before after, rfl, kept⟩

/-- The schema to which one refers that is taken up. -/
theorem reference (takesUp : context.TakesUp isKept first last schema)
    (found : context.model.node? schema = some ⟨.reference target, traits⟩) :
    context.TakesUp isKept first last target := by
  obtain ⟨_, value, ⟨_, _, _, consistent, before, yields, after⟩, notUnion, kept⟩ := takesUp
  cases yields with
  | schemaChoice => cases notUnion
  | schema _ isFound _ _ inside =>
    cases found.symm.trans isFound
    cases inside with
    | expandAtomic isAtomic => cases isAtomic
    | expandReference looked inside =>
      obtain ⟨between, grows⟩ := looked.advances consistent
      obtain ⟨_, behind⟩ := inside.advances between
      exact ⟨(behind.trans after).ready looked.ready_reference, _,
        inside.gives between (before.trans grows) after, notUnion, kept⟩

/-- What an intersection contributes that is taken up. -/
theorem intersection (takesUp : context.TakesUp isKept first last schema)
    (found : context.model.node? schema = some ⟨.composed .allOf members discriminator, traits⟩) :
    (Task.contribute ⟨.composed .allOf members discriminator, traits⟩ 0).Stands context isKept first
      last := by
  obtain ⟨_, value, ⟨_, _, _, consistent, before, yields, after⟩, notUnion, kept⟩ := takesUp
  cases yields with
  | schemaChoice => cases notUnion
  | schema _ isFound _ _ inside =>
    cases found.symm.trans isFound
    cases inside with
    | expandAtomic isAtomic => cases isAtomic
    | expandIntersection inside => exact ⟨_, inside.gives consistent before after, notUnion, kept⟩

/-- No choice is taken up. -/
theorem not_choice (takesUp : context.TakesUp isKept first last schema)
    (found : context.model.node? schema = some ⟨.composed kind members discriminator, traits⟩) :
    kind = .allOf := by
  obtain ⟨_, value, ⟨_, _, _, _, _, yields, _⟩, notUnion, _⟩ := takesUp
  cases yields with
  | schemaChoice => cases notUnion
  | schema _ isFound _ _ inside =>
    cases found.symm.trans isFound
    cases inside with
    | expandAtomic isAtomic => cases isAtomic
    | expandIntersection => rfl

/-- The name of an atomic schema that is taken up is kept. -/
theorem retains (takesUp : context.TakesUp isKept first last schema)
    (isAtomic : context.IsAtomic schema) : context.Retains isKept last schema := by
  obtain ⟨isReady, value, ⟨_, _, _, _, _, yields, _⟩, notUnion, kept⟩ := takesUp
  obtain ⟨shape, rfl⟩ : ∃ shape, value = .member shape := by
    cases yields with
    | schemaChoice => exact ⟨_, rfl⟩
    | schema => exact ⟨_, rfl⟩
  obtain ⟨name, emitted, rfl⟩ := yields.eq_named_of_isAtomic isAtomic
  exact ⟨isReady, name, emitted, kept _ (by simp [Value.mentions, MemberShape.mentions, MemberShape.types])⟩

end Context.TakesUp

/-- A schema that is met has a name. -/
theorem Context.Meets.exists_emitted {schema : String}
    (meets : context.Meets isKept first last schema) : ∃ name, context.emitted? schema = some name := by
  rcases meets with ⟨_, name, emitted, _⟩ | takesUp
  · exact ⟨name, emitted⟩
  · obtain ⟨_, name, _, emitted⟩ := takesUp.exists_node
    exact ⟨name, emitted⟩

/-- A name is that of a component schema that is met between two workspaces. -/
def Context.MeetsName (context : Context) (isKept : String → Prop) (first last : Workspace)
    (name : String) : Prop :=
  ∃ schema, context.emitted? schema = some name ∧ context.Meets isKept first last schema

/--
What has come of a task in one walk stands, or of its parts. What an intersection takes has to be rooted
besides.
-/
def Task.Matched (context : Context) (isKept : String → Prop) (first last : Workspace)
    (registry : Registry) : Task → Prop
  | .expand node name => ∃ schema, context.model.node? schema = some node ∧
    context.emitted? schema = some name ∧ context.TakesUp isKept first last schema
  | .schema target => context.TakesUp isKept first last target
  | .fields properties => ∀ property ∈ properties,
    (Task.expression property.schema 0).Stands context isKept first last
  | .record properties additional => (∀ property ∈ properties,
      (Task.expression property.schema 0).Stands context isKept first last) ∧
    ∀ value ∈ additional, (Task.expression value 0).Stands context isKept first last
  | .cases nodes depth => ∀ node ∈ nodes, node.kind.isNull = false →
    (Task.expression node depth).Stands context isKept first last
  | .mapping _ _ => False
  | .members nodes depth => ∀ node ∈ nodes, node.Whole context isKept first last depth
  | .intersection nodes depth => ∃ shape,
    (Task.intersection nodes depth).Gives context first last (.shape shape) ∧
      shape.Backed context isKept first last
  | .take shape => (∀ name ∈ shape.mentions,
      registry.Rooted (context.MeetsName isKept first last) name) ∧
    ∀ type schema, shape = .alias type → context.schemaOf? type = some schema →
      type.nullable = false → ¬context.IsAtomic schema → context.TakesUp isKept first last schema
  | .declare node depth => (Task.declare node depth).Stands context isKept first last
  | .expression node depth => (Task.expression node depth).Stands context isKept first last
  | .contribute node depth => (Task.contribute node depth).Stands context isKept first last
  | .reference target => (Task.reference target).Stands context isKept first last

/-- What a task mentions rests on schemas that another walk has met in which it stands. -/
theorem Yields.rooted {task : Task} {value : Value}
    (yields : Yields context expanding start task value done) (consistent : Consistent context start)
    (grows : Grows done final) (keeps : last.Keeps isKept)
    (matched : task.Matched context isKept first last final.registry) :
    ∀ name ∈ value.mentions,
      final.registry.Rooted (context.MeetsName isKept first last) name := by
  induction yields with
  | constant isConstant =>
    simp [Value.mentions, SchemaNode.mentions_of_constant? isConstant]
  | contributeRestriction | expandRestriction =>
    simp [Value.mentions, SchemaNode.mentions_restriction]
  | declareEnum | contributeChoice | schemaChoice | fieldsNil | casesNil | membersNil =>
    exact fun _ isMentioned => absurd isMentioned List.not_mem_nil
  | array _ _ ih =>
    simpa [Value.mentions, TypeExpr.mentions] using
      ih consistent grows (Task.Stands.items matched)
  | map _ ih =>
    simpa [Value.mentions, TypeExpr.mentions] using
      ih consistent grows (Task.Stands.values matched)
  | use looked =>
    have retains := Task.Stands.use matched
    cases looked with
    | reference _ emitted =>
      simpa [Value.mentions] using Registry.Rooted.held ⟨_, emitted, .inl retains⟩
  | promoteAlias isDeclared _ ih =>
    simpa [Value.mentions, Shape.mentions] using
      ih consistent grows (Task.Stands.promoted keeps isDeclared matched)
  | promote isDeclared declares _ registers _ _ ih =>
    obtain ⟨_, behind⟩ := registers.advances (declares.advances consistent).1
    have inside := ih consistent (behind.trans grows) (Task.Stands.promoted keeps isDeclared matched)
    simpa [Value.mentions] using Registry.Rooted.registers registers grows inside
  | declarePlain isPlain notes _ ih =>
    simpa [Value.mentions, Shape.mentions] using
      ih (notes.advances consistent).1 grows (Task.Stands.plain isPlain matched)
  | declareRecord _ notes _ ih =>
    simpa [Value.mentions, Shape.mentions_record] using
      ih (notes.advances consistent).1 grows (Task.Stands.declaredRecord matched)
  | declareIntersection notes inside ih =>
    obtain ⟨shape, gives, backed⟩ := Task.Stands.declaredBacked matched
    simpa [Value.mentions] using ih (notes.advances consistent).1 grows ⟨shape, gives, backed⟩
  | declareChoice isChoice notes _ unites ih =>
    obtain ⟨cases, _⟩ := Task.Stands.declaredChoice keeps isChoice matched
    refine fun name isMentioned => ih (notes.advances consistent).1 grows cases name ?_
    simpa [Value.mentions] using (mentions_unionOf unites name).mp isMentioned
  | declareDiscriminated isChoice notes inside maps unites ih =>
    obtain ⟨cases, mapped⟩ := Task.Stands.declaredChoice keeps isChoice matched
    obtain ⟨between, _⟩ := notes.advances consistent
    obtain ⟨after, _⟩ := inside.advances between
    obtain ⟨_, behind⟩ := maps.advances after
    intro name isMentioned
    rcases (mentions_unionOf unites name).mp (by simpa [Value.mentions] using isMentioned) with
      isCase | ⟨_, isSame, isMapped⟩
    · exact ih between (behind.trans grows) cases name isCase
    · -- A name in the mapping is that of the schema to which the last entry of its value leads.
      cases isSame
      have names := maps.namesTargets after (.empty context _)
      obtain ⟨⟨value, _⟩, isEntry, rfl⟩ := List.mem_map.mp isMapped
      have isNamed := Table.get?_of_mem_entries names.distinct isEntry
      obtain ⟨target, isTarget, emitted⟩ :=
        Option.bind_eq_some_iff.mp ((names.get?_eq value).symm.trans isNamed)
      exact .held ⟨target, emitted, .inl (mapped _ rfl value target isTarget)⟩
  | contributeType isType _ ih =>
    simpa [Value.mentions, MemberShape.mentions, MemberShape.types] using
      ih consistent grows (Task.Stands.contributedType isType matched)
  | contributeMap _ ih =>
    simpa [Value.mentions, MemberShape.mentions, MemberShape.types, RecordShape.types] using
      ih consistent grows (Task.Stands.contributedValues matched)
  | contributeRecord _ ih => exact ih consistent grows (Task.Stands.contributedRecord matched)
  | contributeIntersection inside takes ih takesIh =>
    obtain ⟨between, _⟩ := inside.advances consistent
    obtain ⟨_, behind⟩ := takes.advances between
    have rooted := ih consistent (behind.trans grows) (Task.Stands.backed matched)
    refine takesIh between grows ⟨rooted, fun type schema isAlias named direct notAtomic => ?_⟩
    subst isAlias
    exact Task.Stands.takesUp matched (inside.amountsTo consistent named direct notAtomic)
  | expandAtomic =>
    obtain ⟨schema, _, emitted, takesUp⟩ := matched
    simpa [Value.mentions, MemberShape.mentions, MemberShape.types] using
      Registry.Rooted.held ⟨schema, emitted, takesUp.meets⟩
  | expandRecord _ ih =>
    obtain ⟨schema, found, _, takesUp⟩ := matched
    exact ih consistent grows (takesUp.record found)
  | expandReference looked inside _ ih =>
    obtain ⟨schema, found, _, takesUp⟩ := matched
    exact ih (looked.advances consistent).1 grows (takesUp.reference found)
  | expandIntersection _ ih =>
    obtain ⟨schema, found, _, takesUp⟩ := matched
    exact ih consistent grows (takesUp.intersection found)
  | schema _ found _ emitted _ ih => exact ih consistent grows ⟨_, found, emitted, matched⟩
  | reference _ emitted =>
    simpa [Value.mentions] using
      Registry.Rooted.held ⟨_, emitted, .inl (Task.Stands.retains matched)⟩
  | fieldsCons inside later ih laterIh =>
    obtain ⟨between, _⟩ := inside.advances consistent
    obtain ⟨_, behind⟩ := later.advances between
    obtain ⟨firstStands, laterStand⟩ := List.forall_mem_cons.mp matched
    simp only [Value.mentions, List.flatMap_cons]
    exact List.forall_mem_append.mpr
      ⟨ih consistent (behind.trans grows) firstStands, laterIh between grows laterStand⟩
  | recordClosed _ ih =>
    simpa [Value.mentions, RecordShape.types, List.flatMap_map] using ih consistent grows matched.1
  | recordOpen inside further ih furtherIh =>
    obtain ⟨between, _⟩ := inside.advances consistent
    obtain ⟨_, behind⟩ := further.advances between
    have listed := ih consistent (behind.trans grows) matched.1
    have others := furtherIh between grows (matched.2 _ rfl)
    simp only [Value.mentions, RecordShape.types, List.flatMap_append, List.flatMap_map]
    exact List.forall_mem_append.mpr ⟨listed, by simpa [Value.mentions] using others⟩
  | casesNull _ _ ih =>
    exact ih consistent grows (List.forall_mem_cons.mp matched).2
  | casesCons notNull inside named later ih laterIh =>
    obtain ⟨between, _⟩ := inside.advances consistent
    obtain ⟨after, more⟩ := named.advances between
    obtain ⟨_, behind⟩ := later.advances after
    obtain ⟨firstStands, laterStand⟩ := List.forall_mem_cons.mp matched
    have rooted := ih consistent ((more.trans behind).trans grows) (firstStands notNull)
    exact List.forall_mem_cons.mpr
      ⟨.names named (behind.trans grows) rooted, laterIh after grows laterStand⟩
  | mappingNil | mappingCons => cases matched
  | membersReference looked inside later _ insideIh laterIh =>
    obtain ⟨between, _⟩ := looked.advances consistent
    obtain ⟨after, _⟩ := inside.advances between
    obtain ⟨_, behind⟩ := later.advances after
    obtain ⟨firstWhole, laterWhole⟩ := List.forall_mem_cons.mp matched
    obtain ⟨_, _, isSame, takesUp⟩ := firstWhole.resolve_right Task.Stands.not_contributedReference
    cases isSame
    simp only [Value.mentions, List.flatMap_cons]
    refine List.forall_mem_append.mpr ⟨List.forall_mem_append.mpr ⟨fun name isName => ?_, ?_⟩, ?_⟩
    · cases looked with
      | reference _ emitted =>
        cases Option.mem_toList.mp isName
        exact .held ⟨_, emitted, takesUp.meets⟩
    · exact insideIh between (behind.trans grows) takesUp
    · exact laterIh after grows laterWhole
  | membersOther isOther inside later ih laterIh =>
    obtain ⟨between, _⟩ := inside.advances consistent
    obtain ⟨_, behind⟩ := later.advances between
    obtain ⟨firstWhole, laterWhole⟩ := List.forall_mem_cons.mp matched
    have stands := firstWhole.resolve_left (by rintro ⟨_, _, rfl, _⟩; cases isOther)
    have listed := ih consistent (behind.trans grows) stands
    have others := laterIh between grows laterWhole
    simp only [Value.mentions, List.flatMap_cons, List.flatMap_append,
      Surroundings.mentions_requiredMembers, List.nil_append, IntersectionMember.mentions,
      Option.toList_none]
    exact List.forall_mem_append.mpr ⟨listed, others⟩
  | intersectionReference isOnly _ looked =>
    obtain ⟨shape, gives, backed⟩ := matched
    obtain ⟨_, isNode⟩ := SchemaNode.mem_of_onlyReference? isOnly
    rcases gives.joins backed keeps _ isNode with ⟨_, _, isSame, meets⟩ | stands
    · cases isSame
      cases looked with
      | reference _ emitted =>
        simpa [Value.mentions, Shape.mentions] using Registry.Rooted.held ⟨_, emitted, meets⟩
    · exact absurd stands Task.Stands.not_contributedReference
  | @intersectionMembers _ _ middle _ _ _ inputs merged several inside merges notes ih =>
    obtain ⟨shape, gives, backed⟩ := matched
    obtain ⟨others, others_eq, whole⟩ := gives.whole backed keeps several
    obtain ⟨_, inputs_eq, _⟩ := inside.outlined consistent
    obtain ⟨_, behind⟩ := notes.advances (inside.advances consistent).1
    by_cases isNamed : ∃ name, Intersection.Named inputs name
    · -- The intersection comes to the name of a reference that is met.
      obtain ⟨name, named⟩ := isNamed
      have isShape := named.shape_eq merges
      obtain ⟨_, input, isInput, _, isName⟩ := named
      obtain ⟨target, traits, isNode, emitted⟩ := inside.exists_reference consistent isInput isName
      rcases gives.joins backed keeps _ isNode with ⟨_, _, isSame, meets⟩ | stands
      · cases isSame
        simpa [Value.mentions, Shape.mentions, isShape] using Registry.Rooted.held ⟨_, emitted, meets⟩
      · exact absurd stands Task.Stands.not_contributedReference
    · have wholly := whole fun name named =>
        isNamed ⟨name, named.of_entries (inputs_eq.trans others_eq.symm)⟩
      intro name isMentioned
      have isInput := List.mem_flatMap.mpr (mentions_mergeAllOf merges isMentioned)
      exact ih consistent (behind.trans grows) wholly name isInput
  | @takeSchema _ _ _ _ schema _ named direct inside ih =>
    by_cases isAtomic : context.IsAtomic schema
    · -- An atomic schema contributes the name to which the intersection comes.
      obtain ⟨name, emitted, rfl⟩ := inside.eq_named_of_isAtomic isAtomic
      obtain ⟨_, isName, isEmitted⟩ := (context.schemaOf?_eq_some_iff _ _).mp named
      cases emitted.symm.trans isEmitted
      simpa [Value.mentions, MemberShape.mentions, MemberShape.types] using
        matched.1 name (by simp [Shape.mentions, TypeExpr.mentions_of_name? isName])
    · exact ih consistent grows (matched.2 _ _ rfl named direct isAtomic)
  | take => exact fun name isMentioned => matched.1 name (Shape.mentions_taken _ isMentioned)

/-- What a schema declares that another walk has taken up rests on schemas which that has met. -/
theorem Context.TakesUp.rooted {schema : String} {node : SchemaNode} {shape : Shape}
    (takesUp : context.TakesUp isKept first last schema)
    (found : context.model.node? schema = some node) (notAtomic : node.isAtomic = false)
    (yields : Yields context expanding start (.declare node 0) (.shape shape) done)
    (consistent : Consistent context start) (grows : Grows done final) (keeps : last.Keeps isKept) :
    ∀ name ∈ shape.mentions, final.registry.Rooted (context.MeetsName isKept first last) name := by
  -- The cases are those of what is declared; a choice cannot be taken up.
  cases yields with
  | declarePlain isPlain _ inside =>
    cases inside with
    | constant isConstant =>
      simp [Shape.mentions, SchemaNode.mentions_of_constant? isConstant]
    | array | map => cases notAtomic
    | promoteAlias isDeclared | promote isDeclared => cases isPlain.symm.trans isDeclared
    | use looked =>
      -- A mere reference mentions the name held for its target.
      cases looked with
      | reference _ emitted =>
        simpa [Shape.mentions] using
          Registry.Rooted.held ⟨_, emitted, (takesUp.reference found).meets⟩
  | declareEnum => exact fun _ isMentioned => absurd isMentioned List.not_mem_nil
  | declareRecord _ notes inside =>
    have rooted := inside.rooted (notes.advances consistent).1 grows keeps (takesUp.record found)
    simpa [Value.mentions, Shape.mentions_record] using rooted
  | declareIntersection notes inside =>
    have rooted := inside.rooted (notes.advances consistent).1 grows keeps
      (takesUp.intersection found).backed
    simpa [Value.mentions] using rooted
  | declareChoice isChoice | declareDiscriminated isChoice =>
    exact absurd (takesUp.not_choice found) isChoice

end ApiTypes
