import ApiTypes.Proofs.Registry.Equivalence
import ApiTypes.Proofs.Synthesis.Reachability

/-!
Where the names come from that the values of tasks mention: they are declared, or held for component
schemas to which the task leads, unless they are given with the task.
-/

namespace ApiTypes

open Relation

/-- The names that are given with a task. -/
def Task.given (context : Context) : Task → List String
  | .expand _ name => [name]
  | .schema name => (context.emitted? name).toList
  | .mapping _ found => found.values
  | .take shape => shape.mentions
  | .declare .. | .expression .. | .contribute .. | .reference _ | .fields _ | .record .. | .cases ..
  | .members .. | .intersection .. => []

/-- The declared types that a value mentions. -/
def Value.mentions : Value → List String
  | .shape declared => declared.mentions
  | .type used => used.mentions
  | .member contribution => contribution.mentions
  | .fields found => found.flatMap fun field => field.type.mentions
  | .record found => found.types.flatMap TypeExpr.mentions
  | .names found _ => found
  | .table mapping => mapping.values
  | .inputs members => members.flatMap IntersectionMember.mentions

/-- A name rests on held names: it is one, or the shape declared for it mentions only such names. -/
inductive Registry.Rooted (registry : Registry) (isHeld : String → Prop) : String → Prop
  | held {name} (held : isHeld name) : Rooted registry isHeld name
  | declared {name declaration} (stands : registry.get? name = some declaration)
    (inside : ∀ mention ∈ declaration.shape.mentions, Rooted registry isHeld mention) :
    Rooted registry isHeld name

namespace Registry.Rooted

variable {registry later : Registry} {isHeld isKept : String → Prop} {name : String}

/-- What is declared stays so, and held names may be replaced by others that are. -/
theorem mono (rooted : registry.Rooted isHeld name)
    (kept : ∀ name declaration, registry.get? name = some declaration →
      later.get? name = some declaration)
    (held : ∀ name, isHeld name → isKept name) : later.Rooted isKept name := by
  induction rooted with
  | held isName => exact .held (held _ isName)
  | declared stands _ ih => exact .declared (kept _ _ stands) ih

/-- A name that is not held is declared. -/
theorem isDeclared_or (rooted : registry.Rooted isHeld name) :
    registry.isDeclared name = true ∨ isHeld name := by
  cases rooted with
  | held isName => exact .inr isName
  | declared stands => exact .inl ((Registry.isDeclared_iff _ _).mpr ⟨_, stands⟩)

/-- What rests on held names is supported if they are declared with shapes that rest on them. -/
theorem supported (rooted : registry.Rooted isHeld name)
    (founded : ∀ name, isHeld name → ∃ declaration, registry.get? name = some declaration ∧
      ∀ mention ∈ declaration.shape.mentions, registry.Rooted isHeld mention) :
    name ∈ registry.supported := by
  refine ⟨{name | registry.Rooted isHeld name}, fun name rooted => ?_, rooted⟩
  cases rooted with
  | held isName => exact founded name isName
  | declared stands inside => exact ⟨_, stands, inside⟩

/-- The name under which a shape is registered is rooted if all that the shape mentions is. -/
theorem registers {first last final : Workspace} {shape : Shape}
    (registers : first.Registers shape name last) (grows : Grows last final)
    (inside : ∀ mention ∈ shape.mentions, final.registry.Rooted isHeld mention) :
    final.registry.Rooted isHeld name := by
  obtain ⟨candidate, doc, deprecated, path, isRegistered, _⟩ := registers
  -- The shape is equal to a declared one, which mentions the same, or it is declared itself.
  rcases first.registry.register_cases candidate shape doc deprecated (.inline path) with
    ⟨standing, other, stands, same, isSame⟩ | ⟨other, _, isNew⟩
  · obtain ⟨rfl, isLast⟩ := Prod.mk.inj (isSame.symm.trans isRegistered)
    exact .declared (grows.get?_eq (isLast ▸ stands)) fun mention isMentioned =>
      inside mention ((Shape.mem_mentions_of_beq same mention).mpr isMentioned)
  · obtain ⟨rfl, isLast⟩ := Prod.mk.inj (isNew.symm.trans isRegistered)
    have stands : last.registry.get? other =
        some { name := other, shape, doc, deprecated, origin := .inline path } := by
      rw [← isLast, Registry.get?_declare, if_pos rfl]
    exact .declared (grows.get?_eq stands) inside

/-- So is the name of a case, if it is not the one of its type. -/
theorem names {first last final : Workspace} {type : TypeExpr}
    (named : first.NamesCase type name last) (grows : Grows last final)
    (inside : ∀ mention ∈ type.mentions, final.registry.Rooted isHeld mention) :
    final.registry.Rooted isHeld name := by
  cases named with
  | named isName => exact inside name (by simp [TypeExpr.mentions_of_name? isName])
  | declared _ isRegistered =>
    exact registers isRegistered grows fun mention isMentioned =>
      inside mention (by simpa [Shape.mentions] using isMentioned)

end Registry.Rooted

/-- A name is held for a component schema that is ready and to which a task leads. -/
def Task.Holds (context : Context) (task : Task) (workspace : Workspace) (name : String) : Prop :=
  ∃ schema, context.emitted? schema = some name ∧ task.Leads context schema ∧ workspace.Ready schema

/-- A name rests on the names of component schemas that are ready and to which a task leads. -/
def Grounded (context : Context) (task : Task) (workspace : Workspace) : String → Prop :=
  workspace.registry.Rooted (task.Holds context workspace)

namespace Grounded

variable {context : Context} {part task : Task} {first last : Workspace} {name : String}

/-- What is declared stays so, and what is ready does too. -/
theorem grow (grounded : Grounded context task first name) (grows : Grows first last) :
    Grounded context task last name :=
  grounded.mono (fun _ _ => grows.get?_eq) fun _ ⟨schema, emitted, leads, ready⟩ =>
    ⟨schema, emitted, leads, grows.ready ready⟩

/-- A task that leads wherever another one does grounds what that does. -/
theorem via (grounded : Grounded context part last name)
    (led : ∀ schema, part.Leads context schema → task.Leads context schema) :
    Grounded context task last name :=
  grounded.mono (fun _ _ => id) fun _ ⟨schema, emitted, leads, ready⟩ =>
    ⟨schema, emitted, led schema leads, ready⟩

/-- What a part of a task grounds the task does. -/
theorem mono (grounded : Grounded context part last name) (included : part.Within context task) :
    Grounded context task last name :=
  grounded.via fun _ leads => leads.mono included

end Grounded

/-- A part of a value is given with the task, or grounded by it. -/
def GroundedValue (context : Context) (task : Task) (workspace : Workspace) (value : Value) : Prop :=
  ∀ name ∈ value.mentions, name ∈ task.given context ∨ Grounded context task workspace name

namespace GroundedValue

variable {context : Context} {part other task : Task} {first last : Workspace}
  {value more whole : Value}

/-- What a task mentions that is given nothing is grounded. -/
theorem grounded (ground : GroundedValue context task last value)
    (nothing : task.given context = []) :
    ∀ name ∈ value.mentions, Grounded context task last name := by
  intro name isMentioned
  exact (ground name isMentioned).resolve_left (by simp [nothing])

/-- A task that is given nothing mentions what a part of it does that is given nothing. -/
theorem mono (ground : GroundedValue context part last value) (nothing : part.given context = [])
    (included : part.Within context task) (fewer : whole.mentions ⊆ value.mentions) :
    GroundedValue context task last whole := fun name isMentioned =>
  .inr ((ground.grounded nothing name (fewer isMentioned)).mono included)

/-- A task of two parts mentions what the one did before, and what the other does. -/
theorem both {names : List String} (before : ∀ name ∈ names, Grounded context part first name)
    (grows : Grows first last) (included : part.Within context task)
    (after : GroundedValue context other last more) (nothing : other.given context = [])
    (alsoIncluded : other.Within context task)
    (fewer : whole.mentions ⊆ names ++ more.mentions) :
    GroundedValue context task last whole := by
  intro name isMentioned
  right
  rcases List.mem_append.mp (fewer isMentioned) with isFirst | isLater
  · exact ((before name isFirst).grow grows).mono included
  · exact (after.grounded nothing name isLater).mono alsoIncluded

end GroundedValue

variable {context : Context} {expanding : List String} {first last : Workspace}

/-- A node without nodes inside it mentions nothing. -/
theorem SchemaNode.mentions_of_constant? {node : SchemaNode} {type : TypeExpr}
    (isConstant : node.constant? = some type) : type.mentions = [] := by
  unfold constant? at isConstant
  split at isConstant <;> cases isConstant <;> rfl

/-- A node without a type contributes no types. -/
theorem SchemaNode.mentions_restriction (traits : NodeTraits) :
    (SchemaNode.restriction traits).mentions = [] := by
  unfold restriction
  split <;> rfl

/-- A shape contributes nothing but what it mentions. -/
theorem Shape.mentions_taken (shape : Shape) : shape.taken.mentions ⊆ shape.mentions := by
  cases shape with
  | record shape => rw [mentions_record]; exact List.Subset.refl _
  | enum | union => exact List.nil_subset _
  | «alias» type =>
    obtain ⟨kind, nullable, constraints⟩ := type
    cases kind with
    | any => exact List.nil_subset _
    | _ => simp [taken, MemberShape.mentions, MemberShape.types, mentions]

/-- Admitting null changes nothing that is mentioned. -/
@[simp] theorem Shape.mentions_admitting (shape : Shape) (nullable : Bool) :
    (shape.admitting nullable).mentions = shape.mentions := by
  cases shape <;> simp [admitting, mentions]

/-!
What the parts of a task ground the task does. Most tasks consist of one part or of two; the lemmas here
are for those that take component schemas in, or hand on what has been found before.
-/

namespace GroundedValue

variable {middle : Workspace} {task : Task} {value : Value} {target name : String}

/-- What a schema contributes is grounded by a reference to it that has been looked up. -/
theorem of_schema {type : TypeExpr} (traits : NodeTraits)
    (looked : Yields context expanding first (.reference target) (.type type) middle)
    (grows : Grows middle last) (ground : GroundedValue context (.schema target) last value) :
    ∀ name ∈ value.mentions, Grounded context (.expression ⟨.reference target, traits⟩ 0) last name := by
  intro name isMentioned
  rcases ground name isMentioned with isGiven | grounded
  · refine .held ⟨target, ?_, ⟨target, .reference, .refl⟩, grows.ready looked.ready_reference⟩
    simpa [Task.given] using isGiven
  · exact grounded.mono (.schema context)

/-- An intersection contributes what it comes to, or what the schema does whose name it comes to. -/
theorem of_intersection {members : List SchemaNode} {discriminator : Option Discriminator}
    {traits : NodeTraits} {depth : Nat} {shape : Shape}
    (inside : Yields context expanding first (.intersection members depth) (.shape shape) middle)
    (consistent : Consistent context first) (grows : Grows middle last)
    (ground : GroundedValue context (.intersection members depth) middle (.shape shape))
    (taken : GroundedValue context (.take shape) last value) :
    GroundedValue context (.contribute ⟨.composed .allOf members discriminator, traits⟩ depth) last
      value := by
  intro name isMentioned
  right
  rcases taken name isMentioned with isGiven | grounded
  · exact ((ground.grounded rfl name isGiven).grow grows).mono (.composed context)
  · -- What is taken by its name is led to by the intersection.
    refine grounded.via fun schema ⟨target, ⟨notAtomic, type, isAlias, named⟩, path⟩ => ?_
    cases isAlias
    have led := (inside.traced consistent target named).resolve_right notAtomic
    exact (led.trans path).mono (.composed context)

/-- What a schema contributes is grounded by it, unless that is its own name. -/
theorem of_expand {node : SchemaNode} {shape : MemberShape}
    (found : context.model.node? target = some node) (emitted : context.emitted? target = some name)
    (inside : Yields context expanding first (.expand node name) (.member shape) last)
    (ground : GroundedValue context (.expand node name) last (.member shape)) :
    GroundedValue context (.schema target) last (.member shape) := by
  have isName : Task.given context (.schema target) = [name] := by simp [Task.given, emitted]
  intro mention isMentioned
  rcases ground mention isMentioned with isGiven | grounded
  · exact .inl (isName ▸ isGiven)
  · cases isAtomic : node.isAtomic with
    | false =>
      refine .inr (grounded.via fun schema leads => ?_)
      exact ⟨target, ⟨rfl, context.not_isAtomic found (by simp [isAtomic])⟩,
        ((Task.leads_expand found).mp leads).to_reflTransGen⟩
    | true =>
      -- An atomic schema contributes its name, or a restriction without any.
      cases inside with
      | expandAtomic =>
        left
        simpa [isName, Value.mentions, MemberShape.mentions, MemberShape.types] using isMentioned
      | expandRestriction => simp [Value.mentions, SchemaNode.mentions_restriction] at isMentioned
      | expandRecord | expandReference | expandIntersection => cases isAtomic

/-- What a schema is taken to contribute is grounded where its name is given. -/
theorem of_take {type : TypeExpr} (named : context.schemaOf? type = some target)
    (ground : GroundedValue context (.schema target) last value) :
    GroundedValue context (.take (.alias type)) last value := by
  intro name isMentioned
  refine (ground name isMentioned).imp (fun isGiven => ?_) (·.mono (.take context named))
  obtain ⟨_, isName, emitted⟩ := (context.schemaOf?_eq_some_iff _ _).mp named
  simp only [Task.given, emitted, Option.toList_some, List.mem_singleton] at isGiven
  simp [Task.given, Shape.mentions, TypeExpr.mentions_of_name? isName, isGiven]

/-- A mapping mentions what its first entry leads to, and what the others do with that. -/
theorem of_entries {key : String} {type : TypeExpr} {rest : List (String × String)}
    {found : Table String}
    (ground : GroundedValue context (.reference target) first (.type type)) (grows : Grows first last)
    (isName : type.name? = some name)
    (later : GroundedValue context (.mapping rest (found.insert key name)) last value) :
    GroundedValue context (.mapping ((key, target) :: rest) found) last value := by
  intro mention isMentioned
  rcases later mention isMentioned with isGiven | grounded
  · rcases Table.mem_values_insert isGiven with rfl | isOld
    · refine .inr (((ground.grounded rfl mention ?_).grow grows).mono (.firstEntry context))
      simp [Value.mentions, TypeExpr.mentions_of_name? isName]
    · exact .inl isOld
  · exact .inr (grounded.mono (.laterEntries context))

end GroundedValue

/-- What a task mentions is given with it, or grounded by it. -/
theorem Yields.grounds {task : Task} {value : Value}
    (yields : Yields context expanding first task value last) (consistent : Consistent context first) :
    GroundedValue context task last value := by
  induction yields with
  | constant isConstant =>
    intro name isMentioned
    simp [Value.mentions, SchemaNode.mentions_of_constant? isConstant] at isMentioned
  | contributeRestriction | expandRestriction =>
    intro name isMentioned
    simp [Value.mentions, SchemaNode.mentions_restriction] at isMentioned
  | declareEnum | contributeChoice | schemaChoice | fieldsNil | casesNil | membersNil =>
    exact fun _ isMentioned => absurd isMentioned List.not_mem_nil
  | array _ _ ih =>
    exact (ih consistent).mono rfl (fun _ => .items) (by simp [Value.mentions, TypeExpr.mentions])
  | map _ ih =>
    exact (ih consistent).mono rfl (.value context) (by simp [Value.mentions, TypeExpr.mentions])
  | use _ ih => exact (ih consistent).mono rfl (.reference context) (by simp [Value.mentions])
  | promoteAlias _ _ ih =>
    exact (ih consistent).mono rfl (fun _ => id) (by simp [Value.mentions, Shape.mentions])
  | promote _ declares _ registers _ _ ih =>
    obtain ⟨_, grows⟩ := registers.advances (declares.advances consistent).1
    intro name isMentioned
    obtain rfl : name = _ := by simpa [Value.mentions] using isMentioned
    exact .inr (.registers registers (.refl _) fun mention isInside =>
      (((ih consistent).grounded rfl mention isInside).grow grows).mono fun _ => id)
  | declarePlain _ notes _ ih =>
    exact (ih (notes.advances consistent).1).mono rfl (fun _ => id)
      (by simp [Value.mentions, Shape.mentions])
  | declareRecord _ notes _ ih =>
    exact (ih (notes.advances consistent).1).mono rfl (.record context)
      (by simp [Value.mentions, Shape.mentions_record])
  | declareIntersection notes _ ih =>
    exact (ih (notes.advances consistent).1).mono rfl (.composed context) (by simp [Value.mentions])
  | declareChoice _ notes _ unites ih =>
    refine (ih (notes.advances consistent).1).mono rfl (.composed context) fun name isMentioned => ?_
    simpa [Value.mentions] using (mentions_unionOf unites name).mp isMentioned
  | declareDiscriminated isChoice notes inside maps unites ih laterIh =>
    obtain ⟨between, _⟩ := notes.advances consistent
    obtain ⟨after, _⟩ := inside.advances between
    obtain ⟨_, grows⟩ := maps.advances after
    refine .both ((ih between).grounded rfl) grows (.composed context) (laterIh after) rfl
      (.mapping context isChoice) fun name isMentioned => ?_
    simpa [Value.mentions] using (mentions_unionOf unites name).mp isMentioned
  | contributeType _ _ ih =>
    exact (ih consistent).mono rfl (fun _ => id)
      (by simp [Value.mentions, MemberShape.mentions, MemberShape.types])
  | contributeMap _ ih =>
    exact (ih consistent).mono rfl (.value context)
      (by simp [Value.mentions, MemberShape.mentions, MemberShape.types, RecordShape.types])
  | contributeRecord _ ih | expandRecord _ ih =>
    exact (ih consistent).mono rfl (.record context) (List.Subset.refl _)
  | contributeIntersection inside takes ih takesIh =>
    obtain ⟨between, _⟩ := inside.advances consistent
    obtain ⟨_, grows⟩ := takes.advances between
    exact .of_intersection inside consistent grows (ih consistent) (takesIh between)
  | expandAtomic =>
    intro name isMentioned
    left
    simpa [Task.given, Value.mentions, MemberShape.mentions, MemberShape.types] using isMentioned
  | expandReference looked inside _ ih =>
    obtain ⟨between, _⟩ := looked.advances consistent
    obtain ⟨_, grows⟩ := inside.advances between
    exact fun name isMentioned =>
      .inr ((GroundedValue.of_schema _ looked grows (ih between) name isMentioned).mono fun _ => id)
  | expandIntersection _ ih =>
    exact fun name isMentioned => .inr ((ih consistent).grounded rfl name isMentioned)
  | schema _ found _ emitted inside ih => exact .of_expand found emitted inside (ih consistent)
  | reference found emitted entry isReady =>
    intro name isMentioned
    obtain rfl : name = _ := by simpa [Value.mentions] using isMentioned
    exact .inr (.held ⟨_, emitted, ⟨_, rfl, .refl⟩, isReady⟩)
  | fieldsCons inside later ih laterIh =>
    obtain ⟨between, _⟩ := inside.advances consistent
    obtain ⟨_, grows⟩ := later.advances between
    exact .both ((ih consistent).grounded rfl) grows (.firstField context) (laterIh between) rfl
      (.laterFields context) (List.Subset.refl _)
  | recordClosed _ ih =>
    refine (ih consistent).mono rfl (.fields context) ?_
    simp [Value.mentions, RecordShape.types, List.flatMap_map]
  | recordOpen inside further ih furtherIh =>
    obtain ⟨between, _⟩ := inside.advances consistent
    obtain ⟨_, grows⟩ := further.advances between
    refine .both ((ih consistent).grounded rfl) grows (.fields context) (furtherIh between) rfl
      (.further context) ?_
    simp [Value.mentions, RecordShape.types, List.flatMap_map]
  | casesNull _ _ ih => exact (ih consistent).mono rfl (.laterNodes context) (List.Subset.refl _)
  | @casesCons _ _ _ _ _ _ _ _ _ name names _ _ inside named later ih laterIh =>
    obtain ⟨between, _⟩ := inside.advances consistent
    obtain ⟨after, grows⟩ := named.advances between
    obtain ⟨_, behind⟩ := later.advances after
    have isGrounded : Grounded context _ _ name := .names named (.refl _) fun mention isInside =>
      ((ih consistent).grounded rfl mention isInside).grow grows
    refine .both (List.forall_mem_singleton.mpr isGrounded) behind (.firstNode context)
      (laterIh after) rfl (.laterNodes context) (List.Subset.refl _)
  | mappingNil => exact fun _ isMentioned => .inl isMentioned
  | mappingCons looked isName later ih laterIh =>
    obtain ⟨between, _⟩ := looked.advances consistent
    obtain ⟨_, grows⟩ := later.advances between
    exact .of_entries (ih consistent) grows isName (laterIh between)
  | membersReference looked inside later ih insideIh laterIh =>
    obtain ⟨between, _⟩ := looked.advances consistent
    obtain ⟨after, insideGrows⟩ := inside.advances between
    obtain ⟨_, grows⟩ := later.advances after
    refine .both ?_ grows (.firstNode context) (laterIh after) rfl (.laterNodes context)
      (List.Subset.refl _)
    -- A member is mentioned with its name, and with what it contributes.
    intro name isFirst
    rcases List.mem_append.mp isFirst with isReference | isInside
    · refine (((ih consistent).grounded rfl name ?_).grow insideGrows).mono (.reference context)
      simp [Value.mentions, TypeExpr.mentions_of_name? (Option.mem_toList.mp isReference)]
    · exact GroundedValue.of_schema _ looked insideGrows (insideIh between) name isInside
  | membersOther _ inside later ih laterIh =>
    obtain ⟨between, _⟩ := inside.advances consistent
    obtain ⟨_, grows⟩ := later.advances between
    refine .both ((ih consistent).grounded rfl) grows (.firstNode context) (laterIh between) rfl
      (.laterNodes context) ?_
    simp [Value.mentions, IntersectionMember.mentions, Surroundings.mentions_requiredMembers]
  | intersectionReference isOnly _ _ ih =>
    exact (ih consistent).mono rfl (.only context isOnly) (List.Subset.refl _)
  | intersectionMembers _ inside merges notes ih =>
    obtain ⟨between, _⟩ := inside.advances consistent
    obtain ⟨_, grows⟩ := notes.advances between
    intro name isMentioned
    have isInput := List.mem_flatMap.mpr (mentions_mergeAllOf merges isMentioned)
    exact .inr (((ih consistent).grounded rfl name isInput).grow grows)
  | takeSchema named _ _ ih => exact .of_take named (ih consistent)
  | take =>
    exact fun name isMentioned => .inl (Shape.mentions_taken _ isMentioned)

end ApiTypes
