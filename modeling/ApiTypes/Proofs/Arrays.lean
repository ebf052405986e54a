import ApiTypes.Proofs.Composition
import ApiTypes.Proofs.Satisfaction.Intersection
import ApiTypes.Proofs.Synthesis.Inversion
import ApiTypes.Synthesis

/-!
Arrays in types. A type nests arrays in each other, also through maps; the settings limit how many there
are and how many items each of them may have.
-/

namespace ApiTypes

namespace TypeExpr

/-- The constraints of the arrays that a type nests, also through maps, the outermost first. -/
def arrays : TypeExpr → List Constraints
  | ⟨.array items, _, constraints⟩ => constraints :: items.arrays
  | ⟨.map value, _, _⟩ => value.arrays
  | ⟨.primitive _ _, _, _⟩ | ⟨.named _, _, _⟩ | ⟨.any, _, _⟩ | ⟨.null, _, _⟩ => []

/-- Admitting null or not changes nothing about the arrays in a type. -/
@[simp] theorem arrays_withNullable (type : TypeExpr) (nullable : Bool) :
    (type.withNullable nullable).arrays = type.arrays := by
  obtain ⟨kind, _, _⟩ := type
  cases kind <;> simp only [withNullable, arrays]

/-- The use of a declared type has no arrays in it. -/
@[simp] theorem arrays_named (name : String) : (named name).arrays = [] := by
  simp [named, arrays]

/-- The type that holds every value has no arrays in it. -/
@[simp] theorem arrays_any : any.arrays = [] := by
  simp [any, arrays]

end TypeExpr

/-- The types of which a shape consists. -/
def Shape.types : Shape → List TypeExpr
  | .record shape => shape.types
  | .alias target => [target]
  | .enum _ _ | .union _ => []

/-- The types of the parameters, of the body and of the responses of an operation. -/
def OperationBinding.types (binding : OperationBinding) : List TypeExpr :=
  binding.parameters.map (fun parameter => parameter.type)
    ++ (binding.requestBody.map fun body => body.type).toList
    ++ binding.responses.filterMap fun response => response.type

/-- The types of all declarations and operations of an output. -/
def Output.types (output : Output) : List TypeExpr :=
  output.declarations.flatMap (fun declaration => declaration.shape.types)
    ++ output.operations.flatMap OperationBinding.types

namespace SchemaNode

/-- Whether a node of some kind gives arrays to intersections, given which nodes inside it do. -/
def givesArrayOfKind (kind : NodeKind (SchemaNode × Bool)) (_ : NodeTraits) : Bool :=
  match kind with
  | .array _ => true
  | .composed .allOf members _ => members.any Prod.snd
  | _ => false

/-- Whether a node is an array, or an intersection that has one among its members or their members. -/
def givesArray (node : SchemaNode) : Bool := node.recurse givesArrayOfKind

/-- An intersection gives arrays if one of its members does. -/
theorem givesArray_allOf (members : List SchemaNode) (discriminator : Option Discriminator)
    (traits : NodeTraits) :
    givesArray ⟨.composed .allOf members discriminator, traits⟩ = members.any givesArray := by
  have listed : (recurseList givesArrayOfKind members).any Prod.snd = members.any givesArray := by
    induction members with
    | nil => rfl
    | cons first rest ih => simp [recurseList, ih, givesArray]
  exact listed

/-- Whether a node is an intersection with an array among its members or their members. -/
def combinesArray (node : SchemaNode) : Bool :=
  match node.kind with
  | .composed .allOf members _ => members.any givesArray
  | _ => false

end SchemaNode

/-- No component schema is an intersection with an array among its members or their members. -/
def Context.KeepsArraysOut (context : Context) : Prop :=
  ∀ schema node, context.model.node? schema = some node → node.combinesArray = false

/--
The arrays in a type are within the limits where it stands inside a number of arrays. How many there may
be is kept to as long as no component schema hands on an array in which it does not stand.
-/
structure TypeExpr.Fits (context : Context) (depth : Nat) (type : TypeExpr) : Prop where
  items : ∀ limit ∈ context.config.maxItems, ∀ constraints ∈ type.arrays,
    ∀ count ∈ constraints.maxItems, count ≤ limit
  nesting : context.KeepsArraysOut → type.arrays ≠ [] →
    depth + type.arrays.length ≤ context.config.maxArrayDepth

namespace TypeExpr.Fits

variable {context : Context} {depth : Nat} {type : TypeExpr}

/-- A type without arrays is within the limits everywhere. -/
theorem of_arrays_eq_nil (none_nested : type.arrays = []) : type.Fits context depth :=
  ⟨by simp [none_nested], fun _ some_nested => absurd none_nested some_nested⟩

/-- A type that has no arrays, as far as their number matters, is within the limits everywhere. -/
theorem anywhere (fits : type.Fits context depth)
    (none_nested : context.KeepsArraysOut → type.arrays = []) (other : Nat) :
    type.Fits context other :=
  ⟨fits.items, fun keeps some_nested => absurd (none_nested keeps) some_nested⟩

/-- Inside fewer arrays a type is within the limits as well. -/
theorem outside (fits : type.Fits context depth) {fewer : Nat} (isLess : fewer ≤ depth) :
    type.Fits context fewer :=
  ⟨fits.items, fun keeps some_nested => by
    have nesting := fits.nesting keeps some_nested
    omega⟩

/-- Admitting null or not keeps to the limits. -/
@[simp] theorem withNullable_iff (nullable : Bool) :
    (type.withNullable nullable).Fits context depth ↔ type.Fits context depth := by
  constructor <;> rintro ⟨items, nesting⟩ <;> exact ⟨by simpa using items, by simpa using nesting⟩

/-- An array that has been checked is within the limits if its items are inside one array more. -/
theorem array {constraints : Constraints} {nullable : Bool}
    (allowed : context.config.exceeded? constraints (depth + 1) = none)
    (inside : type.Fits context (depth + 1)) :
    TypeExpr.Fits context depth ⟨.array type, nullable, constraints⟩ := by
  unfold Config.exceeded? at allowed
  split at allowed
  · cases allowed
  · rename_i shallow
    refine ⟨fun limit isLimit listed isListed count isCount => ?_, fun keeps _ => ?_⟩
    · rw [arrays] at isListed
      rcases List.mem_cons.mp isListed with rfl | isInside
      · rw [Option.mem_def] at isLimit isCount
        rw [isLimit, isCount] at allowed
        simpa using allowed
      · exact inside.items limit isLimit listed isInside count isCount
    · -- The innermost array is the one that counts, be it this one or one inside it.
      have nesting := inside.nesting keeps
      rw [arrays, List.length_cons]
      by_cases isEmpty : type.arrays = []
      · rw [isEmpty, List.length_nil]
        omega
      · have := nesting isEmpty
        omega

/-- A map is within the limits if its values are. -/
theorem map {nullable : Bool} (inside : type.Fits context depth) :
    TypeExpr.Fits context depth { kind := .map type, nullable } :=
  ⟨by simpa only [arrays] using inside.items, by simpa only [arrays] using inside.nesting⟩

end TypeExpr.Fits

/-- Only arrays agree with arrays. -/
theorem Registry.isArray_of_agrees {registry : Registry} {items : TypeExpr} {kind : TypeKind TypeExpr}
    (agrees : Intersection.Agrees registry.equivalent (.array items) kind) :
    ∃ others, kind = .array others := by
  rcases agrees with rfl | same | isEquivalent
  · exact ⟨items, rfl⟩
  · have sameKind : TypeExpr.sameKind (.array items) kind = true := same
    cases kind <;> simp [TypeExpr.sameKind] at sameKind
    exact ⟨_, rfl⟩
  · unfold equivalent at isEquivalent
    cases kind with
    | array others => exact ⟨others, rfl⟩
    | primitive | map | named | any | null =>
      simp [Equivalence.ofKinds, BEq.beq, TypeExpr.sameKind] at isEquivalent

/-- Types within the limits merge into one that is within the limits. -/
theorem TypeExpr.Fits.stable (context : Context) (depth : Nat) (registry : Registry) :
    Intersection.Stable registry.equivalent (TypeExpr.Fits context depth) := by
  intro old new key nullable agrees oldFits newFits
  obtain ⟨kind, oldNullable, constraints⟩ := old
  cases kind with
  | primitive | named | any | null => exact .of_arrays_eq_nil (by simp only [arrays])
  | map value =>
    refine ⟨?_, ?_⟩
    · simpa only [arrays] using oldFits.items
    · simpa only [arrays] using oldFits.nesting
  | array items =>
    obtain ⟨others, isArray⟩ := Registry.isArray_of_agrees agrees
    obtain ⟨newKind, newNullable, newConstraints⟩ := new
    cases isArray
    refine ⟨fun limit isLimit listed isListed count isCount => ?_, ?_⟩
    · rw [arrays] at isListed
      rcases List.mem_cons.mp isListed with rfl | isInside
      · -- The count of items of the merged array is that of one of the two.
        rcases Constraints.mem_of_narrow (fun first second => min_choice first second) isCount with
          isOld | isNew
        · exact oldFits.items limit isLimit constraints (by simp [arrays]) count isOld
        · exact newFits.items limit isLimit newConstraints (by simp [arrays]) count isNew
      · exact oldFits.items limit isLimit listed (by simp [arrays, isInside]) count isCount
    · simpa [arrays] using oldFits.nesting

end ApiTypes
