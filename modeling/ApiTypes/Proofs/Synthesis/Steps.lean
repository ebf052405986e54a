import ApiTypes.Proofs.Synthesis.Mentions

/-!
The steps of which a task consists: notes, names for shapes, and entries of component schemas to which
the task leads.
-/

namespace ApiTypes

open Relation

variable {context : Context} {expanding : List String} {first last : Workspace}

/-- A shape inside a schema comes of a node: it is what that declares, or another name of its type. -/
inductive Shape.Derived (context : Context) : Shape → Prop
  | declared {expanding : List String} {first last : Workspace} {node : SchemaNode} {depth : Nat}
    {shape : Shape} (consistent : Consistent context first)
    (declares : Yields context expanding first (.declare node depth) (.shape shape) last) :
    Derived context shape
  | case {expanding : List String} {first last : Workspace} {node : SchemaNode} {depth : Nat}
    {type : TypeExpr} (consistent : Consistent context first)
    (used : Yields context expanding first (.expression node depth) (.type type) last) :
    Derived context (.alias (type.withNullable false))

/--
The steps of which a task consists: notes, names for shapes, and entries of component schemas to which
the task leads, while more is expanded that the task leads to and that leads to the entry.
-/
inductive Steps (context : Context) (expanding : List String) (task : Task) :
    Workspace → Workspace → Prop
  | refl {workspace : Workspace} : Steps context expanding task workspace workspace
  | notes {first last : Workspace} (notes : first.Notes last) :
    Steps context expanding task first last
  | registers {first last : Workspace} {shape : Shape} {name : String}
    (derived : shape.Derived context)
    (grounded : ∀ mention ∈ shape.mentions, Grounded context task first mention)
    (registers : first.Registers shape name last) : Steps context expanding task first last
  | entry {first last : Workspace} {further : List String} {target : String}
    (leads : task.Leads context target) (more : expanding ⊆ further)
    (stacked : ∀ schema ∈ further, schema ∈ expanding ∨ task.Leads context schema ∧
      ¬context.IsAtomic schema ∧ TransGen context.Refers schema target)
    (entry : Entry context further target first last) : Steps context expanding task first last
  | trans {first middle last : Workspace} (earlier : Steps context expanding task first middle)
    (later : Steps context expanding task middle last) : Steps context expanding task first last

namespace Steps

/-- The steps of a part are steps of the whole, if that leads to what the part looks up. -/
theorem via {part task : Task} (steps : Steps context expanding part first last)
    (included : ∀ target, part.Refers context target → task.Leads context target) :
    Steps context expanding task first last := by
  have led {schema : String} : part.Leads context schema → task.Leads context schema :=
    fun ⟨target, refers, path⟩ => (included target refers).trans path
  induction steps with
  | refl => exact .refl
  | notes notes => exact .notes notes
  | registers derived grounded registers =>
    exact .registers derived (fun name isMentioned => (grounded name isMentioned).via fun _ => led)
      registers
  | entry leads more stacked entry =>
    refine .entry (led leads) more (fun schema isStacked => ?_) entry
    exact (stacked schema isStacked).imp_right (And.imp_left led)
  | trans _ _ ih laterIh => exact ih.trans laterIh

/-- The steps of a part are steps of the whole. -/
theorem mono {part task : Task} (steps : Steps context expanding part first last)
    (included : part.Within context task) : Steps context expanding task first last :=
  steps.via fun target refers => ⟨target, included target refers, .refl⟩

/-- A case gets a name in a step. -/
theorem names {more : List String} {before : Workspace} {node : SchemaNode} {depth : Nat}
    {type : TypeExpr} {name : String} (consistent : Consistent context before)
    (used : Yields context more before (.expression node depth) (.type type) first)
    (named : first.NamesCase type name last) :
    Steps context expanding (.expression node depth) first last := by
  cases named with
  | named => exact .refl
  | declared _ registers =>
    have grounded := (used.grounds consistent).grounded rfl
    exact .registers (.case consistent used) (by simpa [Shape.mentions, Value.mentions] using grounded)
      registers

/-- What is done for a schema that is expanded is done by its node. -/
theorem expand {schema name : String} {node : SchemaNode}
    (steps : Steps context (schema :: expanding) (.expand node name) first last)
    (found : context.model.node? schema = some node) (notAtomic : ¬context.IsAtomic schema) :
    Steps context expanding (.schema schema) first last := by
  -- What the node leads to, the schema does, which is added to the schemas that are expanded.
  have led {target : String} (path : ReflTransGen context.Refers schema target) :
      (Task.schema schema).Leads context target := ⟨schema, ⟨rfl, notAtomic⟩, path⟩
  induction steps with
  | refl => exact .refl
  | notes notes => exact .notes notes
  | registers derived grounded registers =>
    refine .registers derived
      (fun name isMentioned => (grounded name isMentioned).via fun other leads => ?_) registers
    exact led ((Task.leads_expand found).mp leads).to_reflTransGen
  | entry leads more stacked entry =>
    have path := (Task.leads_expand found).mp leads
    refine .entry (led path.to_reflTransGen) (fun other isOther => more (.tail _ isOther))
      (fun other isOther => ?_) entry
    rcases stacked other isOther with isExpanding | ⟨otherLeads, rest⟩
    · rcases List.mem_cons.mp isExpanding with rfl | isExpanding
      · exact .inr ⟨led .refl, notAtomic, path⟩
      · exact .inl isExpanding
    · exact .inr ⟨led ((Task.leads_expand found).mp otherLeads).to_reflTransGen, rest⟩
  | trans _ _ ih laterIh => exact ih.trans laterIh

end Steps

/-- A task that yields a value does it in steps. -/
theorem Yields.steps {task : Task} {value : Value}
    (yields : Yields context expanding first task value last) (consistent : Consistent context first) :
    Steps context expanding task first last := by
  -- The induction is on how the value is yielded. Each rule adds its own step to those of its parts,
  -- and the parts are within the task, so that they lead to nothing else.
  induction yields with
  | constant | contributeRestriction | contributeChoice | expandAtomic | expandRestriction
  | schemaChoice | fieldsNil | casesNil | mappingNil | membersNil | take => exact .refl
  | array _ _ ih => exact (ih consistent).mono fun _ => .items
  | map _ ih | contributeMap _ ih => exact (ih consistent).mono (.value context)
  | use _ ih => exact (ih consistent).mono (.reference context)
  | promoteAlias _ _ ih | contributeType _ _ ih | expandIntersection _ ih =>
    exact (ih consistent).mono fun _ => id
  | promote _ declares _ registers _ _ ih =>
    have grounded := (declares.grounds consistent).grounded rfl
    exact .trans ((ih consistent).mono fun _ => id)
      (.registers (.declared consistent declares) grounded registers)
  | declarePlain _ notes _ ih =>
    exact .trans (.notes notes) ((ih (notes.advances consistent).1).mono fun _ => id)
  | declareEnum notes => exact .notes notes
  | declareRecord _ notes _ ih =>
    exact .trans (.notes notes) ((ih (notes.advances consistent).1).mono (.record context))
  | contributeRecord _ ih | expandRecord _ ih => exact (ih consistent).mono (.record context)
  | declareIntersection notes _ ih | declareChoice _ notes _ _ ih =>
    exact .trans (.notes notes) ((ih (notes.advances consistent).1).mono (.composed context))
  | declareDiscriminated isChoice notes inside _ _ ih laterIh =>
    have start := (notes.advances consistent).1
    exact .trans (.notes notes) (.trans ((ih start).mono (.composed context))
      ((laterIh (inside.advances start).1).mono (.mapping context isChoice)))
  | contributeIntersection inside takes ih takesIh =>
    refine .trans ((ih consistent).mono (.composed context)) ?_
    have origin := inside.traced consistent
    refine (takesIh (inside.advances consistent).1).via ?_
    rintro target ⟨notAtomic, type, rfl, named⟩
    exact ((origin target named).resolve_right notAtomic).mono (.composed context)
  | expandReference looked _ ih laterIh =>
    exact .trans ((ih consistent).mono (.reference context))
      ((laterIh (looked.advances consistent).1).mono (.schema context))
  | @schema _ _ _ _ node _ _ _ found _ _ inside ih =>
    by_cases isAtomic : node.isAtomic = true
    · rw [inside.eq_of_isAtomic isAtomic]
      exact .refl
    · exact (ih consistent).expand found (context.not_isAtomic found isAtomic)
  | reference found emitted entry isReady =>
    exact .entry ⟨_, rfl, .refl⟩ (fun _ => id) (fun _ => .inl) entry
  | fieldsCons inside _ ih laterIh =>
    exact .trans ((ih consistent).mono (.firstField context))
      ((laterIh (inside.advances consistent).1).mono (.laterFields context))
  | recordClosed _ ih => exact (ih consistent).mono (.fields context)
  | recordOpen inside _ ih laterIh =>
    exact .trans ((ih consistent).mono (.fields context))
      ((laterIh (inside.advances consistent).1).mono (.further context))
  | casesNull _ _ ih => exact (ih consistent).mono (.laterNodes context)
  | casesCons _ inside named _ ih laterIh =>
    have between := (inside.advances consistent).1
    exact .trans ((ih consistent).mono (.firstNode context))
      (.trans ((Steps.names consistent inside named).mono (.firstNode context))
        ((laterIh (named.advances between).1).mono (.laterNodes context)))
  | mappingCons looked _ _ ih laterIh =>
    exact .trans ((ih consistent).mono (.firstEntry context))
      ((laterIh (looked.advances consistent).1).mono (.laterEntries context))
  | membersReference looked inside _ ih insideIh laterIh =>
    have between := (looked.advances consistent).1
    exact .trans ((ih consistent).mono (Task.Within.trans (.reference context) (.firstNode context)))
      (.trans ((insideIh between).mono (Task.Within.trans (.schema context) (.firstNode context)))
        ((laterIh (inside.advances between).1).mono (.laterNodes context)))
  | membersOther _ inside _ ih laterIh =>
    exact .trans ((ih consistent).mono (.firstNode context))
      ((laterIh (inside.advances consistent).1).mono (.laterNodes context))
  | intersectionReference isOnly _ _ ih => exact (ih consistent).mono (.only context isOnly)
  | intersectionMembers _ _ _ notes ih =>
    exact .trans ((ih consistent).mono fun _ => id) (.notes notes)
  | takeSchema named _ _ ih => exact (ih consistent).mono (.take context named)

/-- A task that fails does it in steps. -/
theorem Fails.steps {task : Task} {failure : Failure}
    (fails : Fails context expanding first task failure last) (consistent : Consistent context first) :
    Steps context expanding task first last := by
  -- A failure is the end of some part of the task. The parts before it have yielded values, of which
  -- the steps are known; those of the part that fails are given by the induction.
  induction fails with
  | limit | schemaCyclic | schemaUndefined | referenceUndefined | intersectionChoice => exact .refl
  | array _ _ ih => exact (ih consistent).mono fun _ => .items
  | map _ ih | contributeMap _ ih => exact (ih consistent).mono (.value context)
  | use _ ih | expandReference _ ih => exact (ih consistent).mono (.reference context)
  | promote _ _ ih | contributeType _ _ ih | expandIntersection _ ih | intersectionMembers _ _ ih =>
    exact (ih consistent).mono fun _ => id
  | declarePlain _ notes _ ih =>
    exact .trans (.notes notes) ((ih (notes.advances consistent).1).mono fun _ => id)
  | declareRecord _ notes _ ih =>
    exact .trans (.notes notes) ((ih (notes.advances consistent).1).mono (.record context))
  | declareIntersection notes _ ih | declareCases _ notes _ ih =>
    exact .trans (.notes notes) ((ih (notes.advances consistent).1).mono (.composed context))
  | declareMapping isChoice notes inside _ ih =>
    have start := (notes.advances consistent).1
    exact .trans (.notes notes) (.trans ((inside.steps start).mono (.composed context))
      ((ih (inside.advances start).1).mono (.mapping context isChoice)))
  | declareEmpty isChoice notes inside maps =>
    have start := (notes.advances consistent).1
    refine .trans (.notes notes) (.trans ((inside.steps start).mono (.composed context)) ?_)
    rcases maps with rfl | ⟨_, _, rfl, maps⟩
    · exact .refl
    · exact (maps.steps (inside.advances start).1).mono (.mapping context isChoice)
  | contributeRecord _ ih | expandRecord _ ih => exact (ih consistent).mono (.record context)
  | contributeIntersection _ ih => exact (ih consistent).mono (.composed context)
  | contributeTake inside takes ih =>
    have origin := inside.traced consistent
    refine .trans ((inside.steps consistent).mono (.composed context))
      ((ih (inside.advances consistent).1).via ?_)
    rintro target ⟨notAtomic, type, rfl, named⟩
    exact ((origin target named).resolve_right notAtomic).mono (.composed context)
  | expandSchema looked _ ih =>
    exact .trans ((looked.steps consistent).mono (.reference context))
      ((ih (looked.advances consistent).1).mono (.schema context))
  | schema _ found _ _ inside ih =>
    exact (ih consistent).expand found (context.not_isAtomic found inside.notAtomic)
  | referenceFailed _ entry => exact .entry ⟨_, rfl, .refl⟩ (fun _ => id) (fun _ => .inl) entry
  | fieldsHead _ ih => exact (ih consistent).mono (.firstField context)
  | fieldsTail inside _ ih =>
    exact .trans ((inside.steps consistent).mono (.firstField context))
      ((ih (inside.advances consistent).1).mono (.laterFields context))
  | recordFields _ ih => exact (ih consistent).mono (.fields context)
  | recordFurther inside _ ih =>
    exact .trans ((inside.steps consistent).mono (.fields context))
      ((ih (inside.advances consistent).1).mono (.further context))
  | casesNull _ _ ih => exact (ih consistent).mono (.laterNodes context)
  | casesHead _ _ ih | membersContribute _ _ ih => exact (ih consistent).mono (.firstNode context)
  | casesTail _ inside named _ ih =>
    have between := (inside.advances consistent).1
    exact .trans ((inside.steps consistent).mono (.firstNode context))
      (.trans ((Steps.names consistent inside named).mono (.firstNode context))
        ((ih (named.advances between).1).mono (.laterNodes context)))
  | mappingHead _ ih => exact (ih consistent).mono (.firstEntry context)
  | mappingTail looked _ _ ih =>
    exact .trans ((looked.steps consistent).mono (.firstEntry context))
      ((ih (looked.advances consistent).1).mono (.laterEntries context))
  | membersReference _ ih =>
    exact (ih consistent).mono (Task.Within.trans (.reference context) (.firstNode context))
  | membersSchema looked _ ih =>
    exact .trans ((looked.steps consistent).mono
        (Task.Within.trans (.reference context) (.firstNode context)))
      ((ih (looked.advances consistent).1).mono
        (Task.Within.trans (.schema context) (.firstNode context)))
  | membersReferenceTail looked inside _ ih =>
    have between := (looked.advances consistent).1
    exact .trans ((looked.steps consistent).mono
        (Task.Within.trans (.reference context) (.firstNode context)))
      (.trans ((inside.steps between).mono
          (Task.Within.trans (.schema context) (.firstNode context)))
        ((ih (inside.advances between).1).mono (.laterNodes context)))
  | membersOtherTail _ inside _ ih =>
    exact .trans ((inside.steps consistent).mono (.firstNode context))
      ((ih (inside.advances consistent).1).mono (.laterNodes context))
  | intersectionReference isOnly _ _ ih => exact (ih consistent).mono (.only context isOnly)
  | intersectionMerge _ inside => exact (inside.steps consistent).mono fun _ => id
  | takeSchema named _ _ ih => exact (ih consistent).mono (.take context named)

end ApiTypes
