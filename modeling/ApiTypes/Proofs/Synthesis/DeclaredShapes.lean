import ApiTypes.Proofs.Registry.Bisimulation
import ApiTypes.Proofs.Satisfaction.Intersection
import ApiTypes.Proofs.Synthesis.Entries

/-!
Where declared shapes come from. Whatever is declared is the shape of the node of a component schema or of
one inside the nodes that are walked: enumerations have the base and the values that a node has, and what
such nodes say without undefined numbers is declared without any.
-/

namespace ApiTypes

/-- Something holds of the nodes of component schemas, and of all nodes inside one of which it holds. -/
structure Context.Encloses (context : Context) (known : SchemaNode → Prop) : Prop where
  schema : ∀ {name node}, context.model.node? name = some node → known node
  items : ∀ {items traits}, known ⟨.array items, traits⟩ → known items
  value : ∀ {value traits}, known ⟨.map value, traits⟩ → known value
  property : ∀ {properties additional traits}, known ⟨.object properties additional, traits⟩ →
    ∀ property ∈ properties, known property.schema
  additional : ∀ {properties additional traits}, known ⟨.object properties additional, traits⟩ →
    ∀ value ∈ additional, known value
  member : ∀ {kind members discriminator traits},
    known ⟨.composed kind members discriminator, traits⟩ → ∀ member ∈ members, known member

/-- Something holds of all nodes of which a task asks something. -/
def Task.IsKnown (known : SchemaNode → Prop) : Task → Prop
  | .declare node _ | .expression node _ | .contribute node _ | .expand node _ => known node
  | .fields properties => ∀ property ∈ properties, known property.schema
  | .record properties additional =>
    (∀ property ∈ properties, known property.schema) ∧ ∀ value ∈ additional, known value
  | .cases nodes _ | .members nodes _ | .intersection nodes _ => ∀ node ∈ nodes, known node
  | .schema _ | .reference _ | .mapping .. | .take _ => True

/-- Nodes of some sort declare only shapes of which something holds, also as cases of choices. -/
structure Context.Shapes (context : Context) (known : SchemaNode → Prop) (holds : Shape → Prop) :
    Prop where
  encloses : context.Encloses known
  declared : ∀ {expanding : List String} {first last : Workspace} {node : SchemaNode} {depth : Nat}
    {shape : Shape}, known node →
    Yields context expanding first (.declare node depth) (.shape shape) last → holds shape
  case : ∀ {expanding : List String} {first last : Workspace} {node : SchemaNode} {depth : Nat}
    {type : TypeExpr}, known node →
    Yields context expanding first (.expression node depth) (.type type) last →
    holds (.alias (type.withNullable false))

/--
What is done for nodes of some sort: notes, names for shapes inside schemas, and entries of component
schemas. Of the shapes that get a name something holds.
-/
inductive Moves (context : Context) (holds : Shape → Prop) : Workspace → Workspace → Prop
  | refl {workspace : Workspace} : Moves context holds workspace workspace
  | notes {first last : Workspace} (notes : first.Notes last) : Moves context holds first last
  | registers {first last : Workspace} {shape : Shape} {name : String} (isMet : holds shape)
    (registers : first.Registers shape name last) : Moves context holds first last
  | entry {expanding : List String} {target : String} {first last : Workspace}
    (entry : Entry context expanding target first last) : Moves context holds first last
  | trans {first middle last : Workspace} (earlier : Moves context holds first middle)
    (later : Moves context holds middle last) : Moves context holds first last

variable {context : Context} {known : SchemaNode → Prop} {holds : Shape → Prop}
  {expanding : List String} {first last : Workspace}

/-- A case gets a name for another name of its type. -/
theorem Workspace.NamesCase.moves {type : TypeExpr} {name : String}
    (named : first.NamesCase type name last) (isMet : holds (.alias (type.withNullable false))) :
    Moves context holds first last := by
  cases named with
  | named => exact .refl
  | declared _ registers => exact .registers isMet registers

/-- What yields a value is done for the nodes of which it asks something. -/
theorem Yields.moves (shapes : context.Shapes known holds) {task : Task} {value : Value}
    (yields : Yields context expanding first task value last) (isKnown : task.IsKnown known) :
    Moves context holds first last := by
  -- The induction is on how the value is yielded, and each part asks for nodes inside those of the whole.
  have encloses := shapes.encloses
  induction yields with
  | constant | contributeRestriction | contributeChoice | expandAtomic | expandRestriction
  | schemaChoice | fieldsNil | casesNil | mappingNil | membersNil | take => exact .refl
  | declareEnum notes => exact .notes notes
  | reference _ _ entry => exact .entry entry
  | array _ _ ih => exact ih (encloses.items isKnown)
  | map _ ih | contributeMap _ ih => exact ih (encloses.value isKnown)
  | use _ ih | takeSchema _ _ _ ih | intersectionReference _ _ _ ih => exact ih trivial
  | promoteAlias _ _ ih | contributeType _ _ ih | expandIntersection _ ih => exact ih isKnown
  | promote _ declares _ registers _ _ ih =>
    exact (ih isKnown).trans (.registers (shapes.declared isKnown declares) registers)
  | declarePlain _ notes _ ih => exact .trans (.notes notes) (ih isKnown)
  | declareRecord _ notes _ ih =>
    exact .trans (.notes notes) (ih ⟨encloses.property isKnown, encloses.additional isKnown⟩)
  | contributeRecord _ ih | expandRecord _ ih =>
    exact ih ⟨encloses.property isKnown, encloses.additional isKnown⟩
  | declareIntersection notes _ ih | declareChoice _ notes _ _ ih =>
    exact .trans (.notes notes) (ih (encloses.member isKnown))
  | declareDiscriminated _ notes _ _ _ ih laterIh =>
    exact .trans (.notes notes) (.trans (ih (encloses.member isKnown)) (laterIh trivial))
  | contributeIntersection _ _ ih laterIh =>
    exact (ih (encloses.member isKnown)).trans (laterIh trivial)
  | expandReference _ _ ih laterIh | mappingCons _ _ _ ih laterIh =>
    exact (ih trivial).trans (laterIh trivial)
  | schema _ found _ _ _ ih => exact ih (encloses.schema found)
  | fieldsCons _ _ ih laterIh =>
    have ⟨first, later⟩ := List.forall_mem_cons.mp isKnown
    exact (ih first).trans (laterIh later)
  | recordClosed _ ih => exact ih isKnown.1
  | recordOpen _ _ ih laterIh => exact (ih isKnown.1).trans (laterIh (isKnown.2 _ rfl))
  | casesNull _ _ ih => exact ih (List.forall_mem_cons.mp isKnown).2
  | casesCons _ inside named _ ih laterIh =>
    have ⟨first, later⟩ := List.forall_mem_cons.mp isKnown
    exact (ih first).trans ((named.moves (shapes.case first inside)).trans (laterIh later))
  | membersReference _ _ _ ih insideIh laterIh =>
    exact (ih trivial).trans ((insideIh trivial).trans (laterIh (List.forall_mem_cons.mp isKnown).2))
  | membersOther _ _ _ ih laterIh =>
    have ⟨first, later⟩ := List.forall_mem_cons.mp isKnown
    exact (ih first).trans (laterIh later)
  | intersectionMembers _ _ _ notes ih => exact (ih isKnown).trans (.notes notes)

/-- What fails is done for the nodes of which it asks something. -/
theorem Fails.moves (shapes : context.Shapes known holds) {task : Task} {failure : Failure}
    (fails : Fails context expanding first task failure last) (isKnown : task.IsKnown known) :
    Moves context holds first last := by
  -- The parts before the one that fails have yielded values, and that one is given by the induction.
  have encloses := shapes.encloses
  induction fails with
  | limit | schemaCyclic | schemaUndefined | referenceUndefined | intersectionChoice => exact .refl
  | referenceFailed _ entry => exact .entry entry
  | array _ _ ih => exact ih (encloses.items isKnown)
  | map _ ih | contributeMap _ ih => exact ih (encloses.value isKnown)
  | use _ ih | expandReference _ ih | mappingHead _ ih | membersReference _ ih
  | intersectionReference _ _ _ ih | takeSchema _ _ _ ih => exact ih trivial
  | promote _ _ ih | contributeType _ _ ih | expandIntersection _ ih | intersectionMembers _ _ ih =>
    exact ih isKnown
  | declarePlain _ notes _ ih => exact .trans (.notes notes) (ih isKnown)
  | declareRecord _ notes _ ih =>
    exact .trans (.notes notes) (ih ⟨encloses.property isKnown, encloses.additional isKnown⟩)
  | contributeRecord _ ih | expandRecord _ ih =>
    exact ih ⟨encloses.property isKnown, encloses.additional isKnown⟩
  | declareIntersection notes _ ih | declareCases _ notes _ ih =>
    exact .trans (.notes notes) (ih (encloses.member isKnown))
  | declareMapping _ notes inside _ ih =>
    exact .trans (.notes notes)
      (.trans (inside.moves shapes (encloses.member isKnown)) (ih trivial))
  | declareEmpty _ notes inside maps =>
    refine .trans (.notes notes) (.trans (inside.moves shapes (encloses.member isKnown)) ?_)
    rcases maps with rfl | ⟨_, _, rfl, maps⟩
    · exact .refl
    · exact maps.moves shapes trivial
  | contributeIntersection _ ih => exact ih (encloses.member isKnown)
  | contributeTake inside _ ih =>
    exact (inside.moves shapes (encloses.member isKnown)).trans (ih trivial)
  | expandSchema looked _ ih | mappingTail looked _ _ ih | membersSchema looked _ ih =>
    exact (looked.moves shapes trivial).trans (ih trivial)
  | schema _ found _ _ _ ih => exact ih (encloses.schema found)
  | fieldsHead _ ih => exact ih (List.forall_mem_cons.mp isKnown).1
  | fieldsTail inside _ ih =>
    have ⟨first, later⟩ := List.forall_mem_cons.mp isKnown
    exact (Yields.moves shapes inside first).trans (ih later)
  | recordFields _ ih => exact ih isKnown.1
  | recordFurther inside _ ih =>
    exact (Yields.moves shapes inside isKnown.1).trans (ih (isKnown.2 _ rfl))
  | casesNull _ _ ih => exact ih (List.forall_mem_cons.mp isKnown).2
  | casesHead _ _ ih | membersContribute _ _ ih => exact ih (List.forall_mem_cons.mp isKnown).1
  | casesTail _ inside named _ ih =>
    have ⟨first, later⟩ := List.forall_mem_cons.mp isKnown
    exact (Yields.moves shapes inside first).trans
      ((named.moves (shapes.case first inside)).trans (ih later))
  | membersReferenceTail looked inside _ ih =>
    exact (looked.moves shapes trivial).trans ((inside.moves shapes trivial).trans
      (ih (List.forall_mem_cons.mp isKnown).2))
  | membersOtherTail _ inside _ ih =>
    have ⟨first, later⟩ := List.forall_mem_cons.mp isKnown
    exact (Yields.moves shapes inside first).trans (ih later)
  | intersectionMerge _ inside => exact Yields.moves shapes inside isKnown

/-- What comes of a task is done for the nodes of which it asks something. -/
theorem Comes.moves (shapes : context.Shapes known holds) {α : Type} {task : Task} {wrap : α → Value}
    {result : Except LocatedFailure α} (comes : Comes context expanding first task wrap result last)
    (isKnown : task.IsKnown known) : Moves context holds first last := by
  cases result with
  | ok value => exact Yields.moves shapes comes isKnown
  | error located => exact Fails.moves shapes comes isKnown

/-- How a component schema ends is the end of what is done for its node. -/
theorem Concludes.moves (shapes : context.Shapes known holds) {schema : String} {node : SchemaNode}
    {result : Except LocatedFailure Shape}
    (concludes : Concludes context expanding schema node first last result) (isKnown : known node) :
    Moves context holds first last := by
  cases concludes with
  | succeeds declares | circular declares => exact Yields.moves shapes declares isKnown
  | fails declares => exact Fails.moves shapes declares isKnown

/-- What is done for nodes keeps what was declared before. -/
theorem Moves.advances (moves : Moves context holds first last) : Advances context first last := by
  induction moves with
  | refl => exact .refl _
  | notes notes => exact notes.advances
  | registers _ registers => exact registers.advances
  | entry entry => exact entry.advances
  | trans _ _ ih laterIh => exact ih.trans laterIh

/-- Of every declared shape something holds. -/
def Workspace.DeclaresOnly (holds : Shape → Prop) (workspace : Workspace) : Prop :=
  ∀ name declaration, workspace.registry.get? name = some declaration → holds declaration.shape

/-- A declaration of such a shape may be added. -/
theorem Workspace.DeclaresOnly.declare (held : first.DeclaresOnly holds) {declaration : Declaration}
    (isDeclared : last.registry = first.registry.declare declaration)
    (isMet : holds declaration.shape) : last.DeclaresOnly holds := by
  intro name found isFound
  rw [isDeclared, Registry.get?_declare] at isFound
  split at isFound
  · cases isFound
    exact isMet
  · exact held name found isFound

/-- What is done for nodes declares only such shapes, if the entries in it do. -/
theorem Moves.preserve (moves : Moves context holds first last)
    (entries : ∀ {further : List String} {target : String} {before after : Workspace},
      before.waiting context ⊆ first.waiting context → Entry context further target before after →
      Consistent context before → before.DeclaresOnly holds → after.DeclaresOnly holds)
    (consistent : Consistent context first) (held : first.DeclaresOnly holds) :
    last.DeclaresOnly holds := by
  induction moves with
  | refl => exact held
  | notes notes => simpa only [Workspace.DeclaresOnly, notes.registry_eq] using held
  | @registers first last shape _ isMet registers =>
    obtain ⟨candidate, doc, deprecated, path, isRegistered, isLast⟩ := registers
    rcases first.registry.register_cases candidate shape doc deprecated (.inline path) with
      ⟨_, _, _, _, isSame⟩ | ⟨_, _, isDeclared⟩
    · -- The shape stands already under the name that is found for it.
      intro name declaration found
      rw [← (Prod.mk.inj (isSame.symm.trans isRegistered)).2] at found
      exact held name declaration found
    · exact held.declare (Prod.mk.inj (isDeclared.symm.trans isRegistered)).2.symm isMet
  | entry entry => exact entries (Finset.Subset.refl _) entry consistent held
  | trans earlier _ ih laterIh =>
    have ⟨between, grows⟩ := earlier.advances consistent
    exact laterIh (fun isLess => entries (isLess.trans grows.waiting_subset)) between
      (ih entries consistent held)

/-- A component schema that is asked for declares only such shapes. -/
theorem Entry.declaresOnly (shapes : context.Shapes known holds) {schema : String}
    (entry : Entry context expanding schema first last) (consistent : Consistent context first)
    (held : first.DeclaresOnly holds) : last.DeclaresOnly holds := by
  -- The induction is on the schemas that have not been started.
  generalize isWaiting : first.waiting context = waiting
  induction waiting using Finset.strongInduction generalizing expanding schema first last with
  | H waiting ih =>
    subst isWaiting
    rcases entry.cases consistent with
      rfl | ⟨node, inner, result, name, found, _, pending, concludes, rfl⟩
    · exact held
    have begun := consistent.begin found pending
    have isKnown : known node := shapes.encloses.schema found
    have inside : inner.DeclaresOnly holds :=
      (concludes.moves shapes isKnown).preserve (fun isLess entry consistent held =>
        ih _ (isLess.trans_ssubset (Workspace.waiting_begin found pending)) entry consistent held rfl)
        begun held
    cases concludes with
    | succeeds declares => exact inside.declare rfl (shapes.declared isKnown declares)
    | fails | circular => exact inside

/-- What is done for nodes declares only such shapes. -/
theorem Moves.declaresOnly (shapes : context.Shapes known holds) (moves : Moves context holds first last)
    (consistent : Consistent context first) (held : first.DeclaresOnly holds) :
    last.DeclaresOnly holds :=
  moves.preserve (fun _ entry => entry.declaresOnly shapes) consistent held

/-- A shape that is an enumeration has the base and the values of some node. -/
def Shape.EnumKnown (known : SchemaNode → Prop) (shape : Shape) : Prop :=
  ∀ base values, shape = .enum base values → ∃ traits, known ⟨.enum base values, traits⟩

/-- Admitting null makes no enumeration of a shape. -/
@[simp] theorem Shape.isEnum_admitting (shape : Shape) (nullable : Bool) :
    (shape.admitting nullable).isEnum = shape.isEnum := by
  cases shape <;> rfl

/-- Only an enumeration is declared as one, with the base and the values that it has. -/
theorem Yields.enum_of_declare {node : SchemaNode} {depth : Nat} {base : PrimitiveBase}
    {values : List Data}
    (declares : Yields context expanding first (.declare node depth) (.shape (.enum base values)) last) :
    ∃ traits, node = ⟨.enum base values, traits⟩ := by
  -- A merge and a choice are never enumerations, and null is admitted by other names of types alone.
  generalize isShape : Shape.enum base values = shape at declares
  have isEnum : shape.isEnum = true := isShape ▸ rfl
  cases declares with
  | declarePlain | declareRecord => cases isEnum
  | declareEnum =>
    cases isShape
    exact ⟨_, rfl⟩
  | declareIntersection _ inside =>
    cases inside with
    | intersectionReference => cases isEnum
    | intersectionMembers _ _ merges => simp [isEnum_mergeAllOf merges] at isEnum
  | declareChoice _ _ _ unites | declareDiscriminated _ _ _ _ unites =>
    simp [isEnum_unionOf unites] at isEnum

/-- What is declared for a node of some kind is an enumeration of such a node, if it is one. -/
theorem Yields.enumKnown {node : SchemaNode} {depth : Nat} {shape : Shape}
    (declares : Yields context expanding first (.declare node depth) (.shape shape) last)
    (isKnown : known node) : shape.EnumKnown known := by
  rintro base values rfl
  obtain ⟨traits, rfl⟩ := declares.enum_of_declare
  exact ⟨traits, isKnown⟩

/-- The enumerations that nodes declare have the base and the values of such nodes. -/
theorem Context.Encloses.shapes_enumKnown (encloses : context.Encloses known) :
    context.Shapes known (Shape.EnumKnown known) where
  encloses := encloses
  declared isKnown declares := declares.enumKnown isKnown
  case _ _ _ _ isEnum := by cases isEnum

namespace Binary64

/-- A quotient is rounded to a number. -/
theorem ofRatio_ne_nan (negative : Bool) (numerator denominator : Nat) :
    ofRatio negative numerator denominator ≠ .nan := by
  unfold ofRatio
  split
  · intro isNan
    cases isNan
  · dsimp only [ofRounded]
    split <;> split <;> intro isNan <;> cases isNan

end Binary64

namespace Constraints

/-- A common multiple of two numbers is a number. -/
theorem ne_nan_of_commonMultiple? {left right multiple : Binary64}
    (found : commonMultiple? left right = some multiple) (leftDefined : left ≠ .nan)
    (rightDefined : right ≠ .nan) : multiple ≠ .nan := by
  cases findsMultiple_of_commonMultiple? found with
  | same | left => exact leftDefined
  | right => exact rightDefined
  | computed => exact Binary64.ofRatio_ne_nan _ _ _

/-- The stricter of two bounds is one of them. -/
theorem stricter_eq_or (beyond : Binary64 → Binary64 → Bool) (left right : Option Bound) :
    stricter beyond left right = left ∨ stricter beyond left right = right := by
  unfold stricter
  split
  · split
    · exact .inr rfl
    · exact .inl rfl
  · exact .inl rfl
  · exact .inr rfl

/-- The divisor of an intersection is a number if the given ones are. -/
theorem nan_not_mem_intersectDivisors (field : String) {left right : Option Binary64}
    (leftDefined : .nan ∉ left) (rightDefined : .nan ∉ right) :
    .nan ∉ (intersectDivisors field left right).1 := by
  unfold intersectDivisors
  split
  · rename_i first second
    split
    · rename_i multiple found
      rintro ⟨⟩
      exact ne_nan_of_commonMultiple? found (fun isNan => leftDefined (isNan ▸ rfl))
        (fun isNan => rightDefined (isNan ▸ rfl)) rfl
    · exact leftDefined
  · intro isNan
    rcases Option.or_eq_some_iff.mp isNan with isLeft | ⟨_, isRight⟩
    · exact leftDefined isLeft
    · exact rightDefined isRight

/-- The numbers of an intersection of constraints are defined if those of the given ones are. -/
theorem nan_not_mem_numbers_intersect (field : String) {left right : Constraints}
    (leftDefined : .nan ∉ left.numbers) (rightDefined : .nan ∉ right.numbers) :
    .nan ∉ (left.intersect field right).1.numbers := by
  simp only [numbers, List.mem_append, Option.mem_toList, not_or] at leftDefined rightDefined ⊢
  obtain ⟨⟨leftLeast, leftGreatest⟩, leftDivisor⟩ := leftDefined
  obtain ⟨⟨rightLeast, rightGreatest⟩, rightDivisor⟩ := rightDefined
  refine ⟨⟨?_, ?_⟩, nan_not_mem_intersectDivisors field leftDivisor rightDivisor⟩
  · rcases stricter_eq_or (fun value other => Binary64.lt other value) left.minimum right.minimum with
      isOne | isOne
    · simpa only [intersect, isOne] using leftLeast
    · simpa only [intersect, isOne] using rightLeast
  · rcases stricter_eq_or Binary64.lt left.maximum right.maximum with isOne | isOne
    · simpa only [intersect, isOne] using leftGreatest
    · simpa only [intersect, isOne] using rightGreatest

end Constraints

namespace TypeExpr

/-- The numbers of a type are those of its constraints and those inside its kind. -/
theorem numbers_eq (type : TypeExpr) : type.numbers = type.constraints.numbers ++ type.kind.numbers := by
  obtain ⟨kind, nullable, constraints⟩ := type
  cases kind <;> simp [numbers, TypeKind.numbers, Constraints.numbers]

/-- Admitting null changes no numbers. -/
@[simp] theorem numbers_withNullable (type : TypeExpr) (nullable : Bool) :
    (type.withNullable nullable).numbers = type.numbers := by
  simp [numbers_eq, withNullable]

/-- Types whose numbers are defined merge into one whose numbers are. -/
theorem stable_numbers (equivalent : TypeKind TypeExpr → TypeKind TypeExpr → Bool) :
    Intersection.Stable equivalent fun type => .nan ∉ type.numbers := by
  intro old new key nullable _ oldDefined newDefined
  simp only [numbers_eq, List.mem_append, not_or] at oldDefined newDefined ⊢
  exact ⟨Constraints.nan_not_mem_numbers_intersect key oldDefined.1 newDefined.1, oldDefined.2⟩

end TypeExpr

namespace SchemaNode

/-- The numbers that a node of some kind writes, given those of the nodes inside it. -/
def numbersOfKind (kind : NodeKind (SchemaNode × List Binary64)) (traits : NodeTraits) :
    List Binary64 :=
  traits.constraints.numbers ++ match kind with
    | .enum _ values => values.flatMap Data.reals
    | .array inside | .map inside => inside.2
    | .object properties additional =>
      (properties.flatMap fun property => property.schema.2) ++ additional.toList.flatMap Prod.snd
    | .composed _ members _ => members.flatMap Prod.snd
    | .primitive .. | .reference _ | .any | .null => []

/-- The numbers that a node writes: those of constraints, and in the values of enumerations. -/
def numbers (node : SchemaNode) : List Binary64 := node.recurse numbersOfKind

/-- The numbers in the constraints of a node are written by it. -/
theorem mem_numbers_of_constraints {node : SchemaNode} {number : Binary64}
    (isWritten : number ∈ node.traits.constraints.numbers) : number ∈ node.numbers := by
  obtain ⟨kind, traits⟩ := node
  cases kind <;> exact List.mem_append_left _ isWritten

end SchemaNode

namespace Context

/-- No number that a component schema writes is undefined. -/
def IsDefined (context : Context) : Prop :=
  ∀ {name node}, context.model.node? name = some node → .nan ∉ node.numbers

/-- Of a node that writes no undefined number, neither does any node inside it. -/
theorem IsDefined.encloses {context : Context} (isDefined : context.IsDefined) :
    context.Encloses fun node => .nan ∉ node.numbers where
  schema := isDefined
  items outside isNan := outside (List.mem_append_right _ isNan)
  value outside isNan := outside (List.mem_append_right _ isNan)
  property {properties additional traits} outside property isListed isNan := by
    refine outside (List.mem_append_right _ (List.mem_append_left _ ?_))
    rw [SchemaNode.flatMap_recurseProperties]
    exact List.mem_flatMap.mpr ⟨property, isListed, isNan⟩
  additional outside value isValue isNan := by
    cases isValue
    refine outside (List.mem_append_right _ (List.mem_append_right _ ?_))
    simpa [SchemaNode.recurseOption] using (show .nan ∈ value.recurse SchemaNode.numbersOfKind from isNan)
  member outside member isMember isNan := by
    refine outside (List.mem_append_right _ ?_)
    dsimp only
    rw [SchemaNode.flatMap_recurseList]
    exact List.mem_flatMap.mpr ⟨member, isMember, isNan⟩

end Context

/-- The use of a declared type has no numbers. -/
@[simp] theorem TypeExpr.numbers_named (name : String) : (TypeExpr.named name).numbers = [] := by
  simp [TypeExpr.named, TypeExpr.numbers, Constraints.numbers]

/-- A shape that equals itself: no number in it is undefined, and no value is mapped twice. -/
structure Shape.IsDefined (shape : Shape) : Prop where
  numbers : .nan ∉ shape.numbers
  mapping : ∀ mapping ∈ shape.mapping?, mapping.keys.Nodup

namespace Shape

/-- The numbers of a record are those of its types. -/
theorem numbers_record (shape : RecordShape) :
    (Shape.record shape).numbers = shape.types.flatMap TypeExpr.numbers := by
  cases additional : shape.additional <;>
    simp [numbers, RecordShape.types, List.flatMap_map, additional]

/-- A record is defined if its types are. -/
theorem isDefined_record_iff {shape : RecordShape} :
    (Shape.record shape).IsDefined ↔ ∀ type ∈ shape.types, .nan ∉ type.numbers := by
  constructor
  · intro isDefined type isType isNan
    exact isDefined.numbers (numbers_record shape ▸ List.mem_flatMap.mpr ⟨type, isType, isNan⟩)
  · intro types
    refine ⟨fun isNan => ?_, by simp [mapping?]⟩
    obtain ⟨type, isType, isNan⟩ := List.mem_flatMap.mp (numbers_record shape ▸ isNan)
    exact types type isType isNan

/-- Another name of a type is defined if that is. -/
theorem isDefined_alias_iff {type : TypeExpr} :
    (Shape.alias type).IsDefined ↔ .nan ∉ type.numbers :=
  ⟨IsDefined.numbers, fun numbers => ⟨numbers, by simp [mapping?]⟩⟩

/-- Admitting null makes no number undefined. -/
theorem IsDefined.admitting {shape : Shape} (isDefined : shape.IsDefined) (nullable : Bool) :
    (shape.admitting nullable).IsDefined := by
  cases shape with
  | record | enum | union => exact isDefined
  | «alias» type =>
    rw [isDefined_alias_iff] at isDefined
    simpa only [Shape.admitting, isDefined_alias_iff, TypeExpr.numbers_withNullable] using isDefined

/-- A choice is defined if its mapping is. -/
theorem isDefined_of_unionOf {kind : CompositionKind} {names : List String} {nullable : Bool}
    {discriminator : Option Discriminator} {shape : Shape}
    (unites : unionOf kind names nullable discriminator = .ok shape)
    (distinct : ∀ found ∈ discriminator, found.mapping.keys.Nodup) : shape.IsDefined := by
  unfold unionOf at unites
  split at unites <;> cases unites
  · exact isDefined_alias_iff.mpr (by simp)
  · refine ⟨List.not_mem_nil, fun mapping isMapping => ?_⟩
    obtain ⟨found, isFound, rfl⟩ := Option.map_eq_some_iff.mp isMapping
    exact distinct found isFound

/-- What defined members merge into is defined. -/
theorem isDefined_of_mergeAllOf {members : List IntersectionMember} {merged : Merged}
    {equivalent : TypeKind TypeExpr → TypeKind TypeExpr → Bool}
    (isMerged : mergeAllOf members equivalent = .ok merged)
    (defined : ∀ member ∈ members, ∀ type ∈ member.shape.types, .nan ∉ type.numbers) :
    merged.shape.IsDefined := by
  have scalars : ∀ member ∈ members, ∀ type, member.shape = .scalar type → .nan ∉ type.numbers :=
    fun member isMember type isScalar =>
      defined member isMember type (isScalar ▸ List.mem_singleton_self _)
  have records : ∀ member ∈ members, ∀ record, member.shape = .record record →
      ∀ type ∈ record.types, .nan ∉ type.numbers := fun member isMember record isRecord type isType =>
    defined member isMember type (isRecord ▸ isType)
  have any : .nan ∉ TypeExpr.any.numbers := by
    simp [TypeExpr.any, TypeExpr.numbers, Constraints.numbers]
  rcases @Intersection.Stable.mergeAllOf equivalent (fun type => .nan ∉ type.numbers) _
    (TypeExpr.stable_numbers equivalent) any (by simp) _ _ isMerged scalars records with
    ⟨type, isAlias, types⟩ | ⟨record, isRecord, types⟩
  · exact isAlias ▸ isDefined_alias_iff.mpr types
  · exact isRecord ▸ isDefined_record_iff.mpr types

end Shape

/-- No undefined number stands in what a task is given. -/
def Task.IsDefined : Task → Prop
  | .take shape => shape.IsDefined
  | .mapping _ found => found.keys.Nodup
  | task => task.IsKnown fun node => .nan ∉ node.numbers

/-- No undefined number stands in what comes of a task. -/
def Value.IsDefined : Value → Prop
  | .shape found => found.IsDefined
  | .type found => .nan ∉ found.numbers
  | .member found => ∀ type ∈ found.types, .nan ∉ type.numbers
  | .fields found => ∀ field ∈ found, .nan ∉ field.type.numbers
  | .record found => ∀ type ∈ found.types, .nan ∉ type.numbers
  | .table found => found.keys.Nodup
  | .inputs found => ∀ input ∈ found, ∀ type ∈ input.shape.types, .nan ∉ type.numbers
  | .names .. => True

/-- What a node without a type contributes to an intersection has no types. -/
theorem SchemaNode.types_restriction (traits : NodeTraits) :
    (SchemaNode.restriction traits).types = [] := by
  unfold SchemaNode.restriction
  split <;> rfl

/-- What comes of nodes without undefined numbers has none either. -/
theorem Yields.isDefined {context : Context} {expanding : List String} {first last : Workspace}
    (isDefined : context.IsDefined) {task : Task} {value : Value}
    (yields : Yields context expanding first task value last) (given : task.IsDefined) :
    value.IsDefined := by
  have encloses := isDefined.encloses
  induction yields with
  | @constant _ _ node depth type isConstant =>
    have constraints : .nan ∉ node.traits.constraints.numbers := fun isNan =>
      given (SchemaNode.mem_numbers_of_constraints isNan)
    unfold SchemaNode.constant? at isConstant
    split at isConstant <;> cases isConstant
    · exact constraints
    all_goals simp [Value.IsDefined, TypeExpr.numbers, TypeExpr.withNullable, TypeExpr.any,
      Constraints.numbers]
  | array _ _ ih =>
    have inside : .nan ∉ TypeExpr.numbers _ := ih (encloses.items given)
    exact fun isNan => (List.mem_append.mp isNan).elim
      (fun inConstraints => given (List.mem_append_left _ inConstraints)) inside
  | map _ ih => exact ih (encloses.value given)
  | use _ ih => simpa only [Value.IsDefined, TypeExpr.numbers_withNullable] using ih trivial
  | promoteAlias _ _ ih =>
    have inside := Shape.isDefined_alias_iff.mp (ih given)
    simpa only [Value.IsDefined, TypeExpr.numbers_withNullable] using inside
  | promote | reference =>
    simp [Value.IsDefined]
  | declarePlain _ _ _ ih => exact Shape.isDefined_alias_iff.mpr (ih given)
  | declareEnum =>
    exact ⟨fun isNan => given (List.mem_append_right _ isNan), by simp [Shape.mapping?]⟩
  | declareRecord _ _ _ ih =>
    exact Shape.isDefined_record_iff.mpr (ih ⟨encloses.property given, encloses.additional given⟩)
  | declareIntersection _ _ ih => exact (ih (encloses.member given)).admitting _
  | declareChoice _ _ _ unites => exact Shape.isDefined_of_unionOf unites (by simp)
  | declareDiscriminated _ _ _ _ unites _ mapsIh =>
    refine Shape.isDefined_of_unionOf unites fun found isFound => ?_
    cases isFound
    exact mapsIh List.nodup_nil
  | contributeType _ _ ih =>
    exact List.forall_mem_singleton.mpr (ih given)
  | contributeRestriction | expandRestriction => simp [Value.IsDefined, SchemaNode.types_restriction]
  | contributeMap _ ih =>
    exact List.forall_mem_singleton.mpr (ih (encloses.value given))
  | contributeRecord _ ih | expandRecord _ ih =>
    exact ih ⟨encloses.property given, encloses.additional given⟩
  | contributeIntersection _ _ ih takesIh => exact takesIh (ih (encloses.member given))
  | contributeChoice | schemaChoice => simp [Value.IsDefined, MemberShape.types]
  | expandAtomic => simp [Value.IsDefined, MemberShape.types]
  | expandReference _ _ _ ih => exact ih trivial
  | expandIntersection _ ih => exact ih given
  | schema _ found _ _ _ ih => exact ih (isDefined found)
  | fieldsNil | membersNil => simp [Value.IsDefined]
  | fieldsCons _ _ ih laterIh =>
    obtain ⟨first, later⟩ := List.forall_mem_cons.mp given
    exact List.forall_mem_cons.mpr ⟨ih first, laterIh later⟩
  | recordClosed _ ih => exact (RecordShape.forall_types_iff _).mpr ⟨ih given.1, by simp⟩
  | recordOpen _ _ ih furtherIh =>
    refine (RecordShape.forall_types_iff _).mpr ⟨ih given.1, fun type isType => ?_⟩
    cases isType
    exact furtherIh (given.2 _ rfl)
  | casesNil | casesNull | casesCons => trivial
  | mappingNil => exact given
  | mappingCons _ _ _ _ ih => exact ih (Table.nodup_keys_insert given _ _)
  | membersReference _ _ _ _ insideIh laterIh =>
    exact List.forall_mem_cons.mpr ⟨insideIh trivial, laterIh (List.forall_mem_cons.mp given).2⟩
  | membersOther _ _ _ ih laterIh =>
    obtain ⟨first, later⟩ := List.forall_mem_cons.mp given
    refine List.forall_mem_cons.mpr ⟨ih first, List.forall_mem_append.mpr ⟨fun input isRequired => ?_,
      laterIh later⟩⟩
    obtain ⟨names, rfl⟩ := SchemaNode.required_of_requiredMembers isRequired
    simp [MemberShape.types]
  | intersectionReference _ _ _ ih => exact Shape.isDefined_alias_iff.mpr (ih trivial)
  | intersectionMembers _ _ merges _ ih => exact Shape.isDefined_of_mergeAllOf merges (ih given)
  | takeSchema _ _ _ ih => exact ih trivial
  | @take _ _ shape =>
    cases shape with
    | record => exact Shape.isDefined_record_iff.mp given
    | enum =>
      simp [Value.IsDefined, Shape.taken, MemberShape.types, TypeExpr.any, TypeExpr.numbers,
        Constraints.numbers]
    | union => simp [Value.IsDefined, Shape.taken, MemberShape.types]
    | «alias» type =>
      unfold Shape.taken
      dsimp only
      split
      · simp [Value.IsDefined, MemberShape.types]
      · exact List.forall_mem_singleton.mpr (Shape.isDefined_alias_iff.mp given)

namespace Context

/-- Nodes without undefined numbers declare shapes that equal themselves. -/
theorem IsDefined.shapes {context : Context} (isDefined : context.IsDefined) :
    context.Shapes (fun node => .nan ∉ node.numbers) Shape.IsDefined where
  encloses := isDefined.encloses
  declared isKnown declares := declares.isDefined isDefined isKnown
  case isKnown used := by
    have inside : .nan ∉ TypeExpr.numbers _ := used.isDefined isDefined isKnown
    simpa only [Shape.isDefined_alias_iff, TypeExpr.numbers_withNullable] using inside

end Context

end ApiTypes
