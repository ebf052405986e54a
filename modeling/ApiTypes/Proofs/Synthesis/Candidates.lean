import ApiTypes.Proofs.Registry.History
import ApiTypes.Proofs.Synthesis.Execution

/-!
Candidates for names. Which of them the walk of a node tries depends on the node and on what its scope is
called, and on nothing that is declared by then. A shape finds its first name again if no name that is made
up for its candidate is held for a component schema.
-/

namespace ApiTypes

/-- The candidate for the name of a node that is declared where it is used: its title, or its scope. -/
def NodeTraits.candidate (traits : NodeTraits) (name : String) : String :=
  (traits.title.map fun title => (CasedName.of title).pascal).getD name

/-- What can be asked of a node in a scope. -/
inductive Asked where
  | declared
  | used
  | contributed

namespace SchemaNode

/-- The kinds of types that a node may have where it is used. That of an intersection may be any. -/
inductive MayBe (context : Context) : SchemaNode → TypeKind TypeExpr → Prop
  | constant {node : SchemaNode} {type : TypeExpr} (isConstant : node.constant? = some type) :
    MayBe context node type.kind
  | array {items : SchemaNode} {traits : NodeTraits} {type : TypeExpr}
    (inside : MayBe context items type.kind) : MayBe context ⟨.array items, traits⟩ (.array type)
  | map {value : SchemaNode} {traits : NodeTraits} {type : TypeExpr} :
    MayBe context ⟨.map value, traits⟩ (.map type)
  | reference {target name : String} {traits : NodeTraits}
    (emitted : context.emitted? target = some name) :
    MayBe context ⟨.reference target, traits⟩ (.named name)
  | declared {node : SchemaNode} {name : String} (isDeclared : node.isDeclared = true) :
    MayBe context node (.named name)
  | intersection {members : List SchemaNode} {discriminator : Option Discriminator}
    {traits : NodeTraits} {kind : TypeKind TypeExpr} :
    MayBe context ⟨.composed .allOf members discriminator, traits⟩ kind

/-- The candidates for the name of a node that is a case of a choice and has no name of its own. -/
def CaseName (context : Context) (node : SchemaNode) (parent candidate : String) : Prop :=
  ∃ type : TypeExpr, node.MayBe context type.kind ∧ type.name? = none ∧
    candidate = Surroundings.memberCandidate (Workspace.ofContext context).registry parent type

/-- The candidates that are tried when something is asked of a node in a scope of a name. -/
inductive Tries (context : Context) : Asked → SchemaNode → String → String → Prop
  | own {node : SchemaNode} {name : String} (isDeclared : node.isDeclared = true) :
    Tries context .used node name (node.traits.candidate name)
  | promoted {node : SchemaNode} {name candidate : String} (isDeclared : node.isDeclared = true)
    (inside : Tries context .declared node (node.traits.candidate name) candidate) :
    Tries context .used node name candidate
  | plain {node : SchemaNode} {name candidate : String} (isPlain : node.isDeclared = false)
    (inside : Tries context .declared node name candidate) : Tries context .used node name candidate
  | type {node : SchemaNode} {name candidate : String} (isType : node.contributesType = true)
    (inside : Tries context .used node name candidate) : Tries context .contributed node name candidate
  | parts {node : SchemaNode} {name candidate : String} (noType : node.contributesType = false)
    (inside : Tries context .declared node name candidate) :
    Tries context .contributed node name candidate
  | items {items : SchemaNode} {traits : NodeTraits} {name candidate : String}
    (inside : Tries context .used items (name ++ "Item") candidate) :
    Tries context .declared ⟨.array items, traits⟩ name candidate
  | value {value : SchemaNode} {traits : NodeTraits} {name candidate : String}
    (inside : Tries context .used value (name ++ "Value") candidate) :
    Tries context .declared ⟨.map value, traits⟩ name candidate
  | property {properties : List (Property SchemaNode)} {additional : Option SchemaNode}
    {traits : NodeTraits} {property : Property SchemaNode} {name candidate : String}
    (isListed : property ∈ properties)
    (inside : Tries context .used property.schema (name ++ (CasedName.of property.name).pascal)
      candidate) : Tries context .declared ⟨.object properties additional, traits⟩ name candidate
  | additional {properties : List (Property SchemaNode)} {value : SchemaNode} {traits : NodeTraits}
    {name candidate : String} (inside : Tries context .used value (name ++ "Value") candidate) :
    Tries context .declared ⟨.object properties (some value), traits⟩ name candidate
  /-- The cases of a choice are numbered. -/
  | case {kind : CompositionKind} {members : List SchemaNode} {discriminator : Option Discriminator}
    {traits : NodeTraits} {index : Nat} {member : SchemaNode} {name candidate : String}
    (isChoice : kind ≠ .allOf) (isMember : members[index]? = some member)
    (inside : Tries context .used member (name ++ ("Variant" ++ toString (index + 1))) candidate) :
    Tries context .declared ⟨.composed kind members discriminator, traits⟩ name candidate
  | caseName {kind : CompositionKind} {members : List SchemaNode}
    {discriminator : Option Discriminator} {traits : NodeTraits} {member : SchemaNode}
    {name candidate : String} (isChoice : kind ≠ .allOf) (isMember : member ∈ members)
    (notNull : member.kind.isNull = false) (isName : member.CaseName context name candidate) :
    Tries context .declared ⟨.composed kind members discriminator, traits⟩ name candidate
  | member {members : List SchemaNode} {discriminator : Option Discriminator} {traits : NodeTraits}
    {member : SchemaNode} {name candidate : String} (isMember : member ∈ members)
    (inside : Tries context .contributed member name candidate) :
    Tries context .declared ⟨.composed .allOf members discriminator, traits⟩ name candidate

end SchemaNode

/-- A choice that is only another name of a type is one of a declared type. -/
theorem exists_name_of_unionOf {kind : CompositionKind} {names : List String} {nullable : Bool}
    {discriminator : Option Discriminator} {type : TypeExpr}
    (unites : unionOf kind names nullable discriminator = .ok (.alias type)) :
    ∃ name, type.kind = .named name := by
  unfold unionOf at unites
  split at unites <;> cases unites
  exact ⟨_, rfl⟩

/-- What is declared as another name of a type is so for an intersection, or the type is declared. -/
theorem Yields.mayBe_of_alias {context : Context} {expanding : List String} {first last : Workspace}
    {node : SchemaNode} {depth : Nat} {type : TypeExpr} (isDeclared : node.isDeclared = true)
    (declares : Yields context expanding first (.declare node depth) (.shape (.alias type)) last) :
    node.MayBe context type.kind := by
  generalize isShape : Shape.alias type = shape at declares
  cases declares with
  | declarePlain isPlain => cases isPlain.symm.trans isDeclared
  | declareEnum | declareRecord => cases isShape
  | declareIntersection => exact .intersection
  | declareChoice _ _ _ unites | declareDiscriminated _ _ _ _ unites =>
    obtain ⟨name, isNamed⟩ := exists_name_of_unionOf (isShape ▸ unites)
    exact isNamed ▸ .declared isDeclared

/-- What the use of a node gives is of a kind that the node may have. -/
theorem Yields.mayBe {context : Context} {expanding : List String} {first last : Workspace}
    {node : SchemaNode} {depth : Nat} {type : TypeExpr}
    (yields : Yields context expanding first (.expression node depth) (.type type) last) :
    node.MayBe context type.kind := by
  -- An array has the kind of its items inside, and all other kinds are those of the node itself.
  generalize isTask : Task.expression node depth = task at yields
  generalize isValue : Value.type type = value at yields
  induction yields generalizing node depth type with
  | constant isConstant =>
    cases isTask
    cases isValue
    exact .constant isConstant
  | array _ _ ih =>
    cases isTask
    cases isValue
    exact .array (ih rfl rfl)
  | map =>
    cases isTask
    cases isValue
    exact .map
  | use looked =>
    cases isTask
    cases isValue
    cases looked with
    | reference _ emitted => exact .reference emitted
  | promoteAlias isDeclared declares =>
    cases isTask
    cases isValue
    have inside := declares.mayBe_of_alias isDeclared
    exact inside
  | promote isDeclared =>
    cases isTask
    cases isValue
    exact .declared isDeclared
  | _ => cases isTask

/-- No name that is made up for a candidate is held for a component schema. -/
def Context.Frees (context : Context) (candidate : String) : Prop :=
  ∀ schema name tried, context.emitted? schema = some name →
    name ≠ Registry.suffixed (typeName context.config.reservedWords candidate) tried

/--
No name that is made up for a candidate tried inside a component schema is held for a component schema.
-/
def Context.Apart (context : Context) : Prop :=
  ∀ {schema node name}, context.model.node? schema = some node → context.emitted? schema = some name →
    ∀ candidate, node.Tries context .declared name candidate → context.Frees candidate

namespace Registry

/-- A name that is made up for a base is at least as long as that. -/
theorem length_le_suffixed (base : String) (tried : Nat) :
    base.length ≤ (suffixed base tried).length := by
  cases tried with
  | zero => exact Nat.le_refl _
  | succ tried => simp [suffixed]

end Registry

/-- Every declared shape equals itself. -/
def Registry.IsReflexive (registry : Registry) : Prop :=
  ∀ name declaration, registry.get? name = some declaration →
    (declaration.shape == declaration.shape) = true

/-- A declared shape is found again for one that is asked for: it is that shape, or equal to it. -/
def Shape.Stands (kept asked : Shape) : Prop := kept = asked ∨ (kept == asked) = true

namespace Registry

/-- A registered shape is declared under one of the names that are tried for its candidate. -/
theorem exists_declared_register (registry : Registry) (candidate : String) (shape : Shape)
    (doc : Option String) (deprecated : Bool) (origin : Origin) : ∃ tried declaration,
    (registry.register candidate shape doc deprecated origin).1 =
        suffixed (registry.typeName candidate) tried ∧
      (registry.register candidate shape doc deprecated origin).2.get?
        (suffixed (registry.typeName candidate) tried) = some declaration ∧
      declaration.shape.Stands shape ∧ ∀ earlier < tried,
        isReusable shape (registry.slots.get? (suffixed (registry.typeName candidate) earlier)) =
          false := by
  obtain ⟨tried, isTried, _, rejected⟩ :=
    History.exists_register_eq registry candidate shape doc deprecated origin
  rcases registry.register_cases candidate shape doc deprecated origin with
    ⟨declaration, name, found, same, isSame⟩ | ⟨name, free, isDeclared⟩
  · refine ⟨tried, declaration, isTried, ?_, .inr same, rejected⟩
    rw [← isTried, isSame]
    exact found
  · refine ⟨tried, { name, shape, doc, deprecated, origin }, isTried, ?_, .inl rfl, rejected⟩
    rw [← isTried, isDeclared, get?_declare, if_pos rfl]

/-- What is declared stays so when a shape is registered. -/
theorem get?_register {registry : Registry} {name : String} {declaration : Declaration}
    (found : registry.get? name = some declaration) (candidate : String) (shape : Shape)
    (doc : Option String) (deprecated : Bool) (origin : Origin) :
    (registry.register candidate shape doc deprecated origin).2.get? name = some declaration := by
  rcases registry.register_cases candidate shape doc deprecated origin with
    ⟨_, _, _, _, isSame⟩ | ⟨other, free, isDeclared⟩
  · rwa [isSame]
  · rw [isDeclared, get?_declare, if_neg, found]
    rintro rfl
    cases (get?_eq_none_of_slot free).symm.trans found

/-- The search for the name of a shape goes no further than to a name that stands for it in the end. -/
theorem le_of_rejected {registry other : Registry} {base : String} {shape : Shape}
    {tried bound : Nat} {declaration : Declaration}
    (reflexive : (declaration.shape == declaration.shape) = true)
    (found : registry.get? (suffixed base tried) = some declaration)
    (stands : declaration.shape.Stands shape)
    (rejected : ∀ earlier < bound,
      isReusable shape (other.slots.get? (suffixed base earlier)) = false)
    (free : other.slots.get? (suffixed base tried) ≠ some .reserved)
    (kept : ∀ name declaration, other.get? name = some declaration →
      registry.get? name = some declaration) : bound ≤ tried := by
  by_contra isLess
  have isRejected := rejected tried (by omega)
  have same : (declaration.shape == shape) = true := stands.elim (fun isSame => isSame ▸ reflexive) id
  cases isSlot : other.slots.get? (suffixed base tried) with
  | none =>
    rw [isSlot] at isRejected
    cases isRejected
  | some slot =>
    cases slot with
    | reserved => exact free isSlot
    | declared existing =>
      -- What is declared there by then is what stands there in the end.
      have still := kept _ existing (by rw [get?, isSlot, Option.bind_some, Slot.declaration?])
      cases found.symm.trans still
      rw [isSlot] at isRejected
      cases isRejected.symm.trans same

/--
A shape gets one name whenever it is registered, if no name that is made up for its candidate is held for
something else, and what is declared stays in a registry of which all shapes equal themselves.
-/
theorem IsReflexive.register_eq {registry first other : Registry} (reflexive : registry.IsReflexive)
    (sameWords : other.reservedWords = first.reservedWords) {candidate : String} {shape : Shape}
    {doc : Option String} {deprecated : Bool} {origin : Origin}
    (free : ∀ tried, first.slots.get? (suffixed (first.typeName candidate) tried) ≠ some .reserved)
    (alsoFree : ∀ tried,
      other.slots.get? (suffixed (first.typeName candidate) tried) ≠ some .reserved)
    (kept : ∀ name declaration,
      (first.register candidate shape doc deprecated origin).2.get? name = some declaration →
        registry.get? name = some declaration)
    (alsoKept : ∀ name declaration,
      (other.register candidate shape doc deprecated origin).2.get? name = some declaration →
        registry.get? name = some declaration) :
    (first.register candidate shape doc deprecated origin).1 =
      (other.register candidate shape doc deprecated origin).1 := by
  obtain ⟨tried, declaration, isName, declared, stands, rejected⟩ :=
    first.exists_declared_register candidate shape doc deprecated origin
  obtain ⟨alsoTried, also, isAlso, alsoDeclared, alsoStands, alsoRejected⟩ :=
    other.exists_declared_register candidate shape doc deprecated origin
  have sameBase : other.typeName candidate = first.typeName candidate := by
    rw [typeName, typeName, sameWords]
  rw [sameBase] at isAlso alsoDeclared alsoRejected
  have found := kept _ _ declared
  have alsoFound := alsoKept _ _ alsoDeclared
  -- Neither search goes further than to the name that the other one has found.
  have notLater : alsoTried ≤ tried := le_of_rejected (reflexive _ _ found) found stands alsoRejected
    (alsoFree tried) fun name _ stands => alsoKept name _ (get?_register stands _ _ _ _ _)
  have notEarlier : tried ≤ alsoTried := le_of_rejected (reflexive _ _ alsoFound) alsoFound alsoStands
    rejected (free alsoTried) fun name _ stands => kept name _ (get?_register stands _ _ _ _ _)
  rw [isName, isAlso, Nat.le_antisymm notLater notEarlier]

end Registry

end ApiTypes
