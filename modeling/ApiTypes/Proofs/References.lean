import ApiTypes.Proofs.Node
import ApiTypes.Proofs.Synthesis.Inversion
import ApiTypes.Synthesis.Alias

/-! What nodes refer to, and which of them are choices behind references. -/

namespace ApiTypes

namespace SchemaNode

/-- A node refers to a component schema somewhere inside it. -/
inductive Refers : SchemaNode → String → Prop
  | reference {target : String} {traits : NodeTraits} : Refers ⟨.reference target, traits⟩ target
  | items {items : SchemaNode} {traits : NodeTraits} {target : String} (inside : Refers items target) :
    Refers ⟨.array items, traits⟩ target
  | value {value : SchemaNode} {traits : NodeTraits} {target : String} (inside : Refers value target) :
    Refers ⟨.map value, traits⟩ target
  | property {properties : List (Property SchemaNode)} {additional : Option SchemaNode}
    {traits : NodeTraits} {property : Property SchemaNode} {target : String}
    (isListed : property ∈ properties) (inside : Refers property.schema target) :
    Refers ⟨.object properties additional, traits⟩ target
  | additional {properties : List (Property SchemaNode)} {additional : Option SchemaNode}
    {traits : NodeTraits} {value : SchemaNode} {target : String} (isValue : value ∈ additional)
    (inside : Refers value target) : Refers ⟨.object properties additional, traits⟩ target
  | member {kind : CompositionKind} {members : List SchemaNode}
    {discriminator : Option Discriminator} {traits : NodeTraits} {member : SchemaNode}
    {target : String} (isMember : member ∈ members) (inside : Refers member target) :
    Refers ⟨.composed kind members discriminator, traits⟩ target
  /-- A choice refers to the schemas to which its discriminator leads. -/
  | mapping {kind : CompositionKind} {members : List SchemaNode} {traits : NodeTraits}
    {found : Discriminator} {target : String} (isChoice : kind ≠ .allOf)
    (isMapped : target ∈ found.mapping.values) :
    Refers ⟨.composed kind members (some found), traits⟩ target

/-- A node includes a component schema: it is a reference to it, or an intersection with one in it. -/
inductive Includes : SchemaNode → String → Prop
  | reference {target : String} {traits : NodeTraits} :
    Includes ⟨.reference target, traits⟩ target
  | member {members : List SchemaNode} {discriminator : Option Discriminator} {traits : NodeTraits}
    {member : SchemaNode} {target : String} (isMember : member ∈ members)
    (inside : Includes member target) :
    Includes ⟨.composed .allOf members discriminator, traits⟩ target

/-- A node is composed of a component schema: it is a reference to it, or a composition with one in it. -/
inductive Composes : SchemaNode → String → Prop
  | reference {target : String} {traits : NodeTraits} :
    Composes ⟨.reference target, traits⟩ target
  | member {kind : CompositionKind} {members : List SchemaNode}
    {discriminator : Option Discriminator} {traits : NodeTraits} {member : SchemaNode}
    {target : String} (isMember : member ∈ members) (inside : Composes member target) :
    Composes ⟨.composed kind members discriminator, traits⟩ target

/-- An intersection somewhere inside a node takes in a component schema. -/
inductive Merges : SchemaNode → String → Prop
  | items {items : SchemaNode} {traits : NodeTraits} {target : String} (inside : Merges items target) :
    Merges ⟨.array items, traits⟩ target
  | value {value : SchemaNode} {traits : NodeTraits} {target : String} (inside : Merges value target) :
    Merges ⟨.map value, traits⟩ target
  | property {properties : List (Property SchemaNode)} {additional : Option SchemaNode}
    {traits : NodeTraits} {property : Property SchemaNode} {target : String}
    (isListed : property ∈ properties) (inside : Merges property.schema target) :
    Merges ⟨.object properties additional, traits⟩ target
  | additional {properties : List (Property SchemaNode)} {additional : Option SchemaNode}
    {traits : NodeTraits} {value : SchemaNode} {target : String} (isValue : value ∈ additional)
    (inside : Merges value target) : Merges ⟨.object properties additional, traits⟩ target
  | inside {kind : CompositionKind} {members : List SchemaNode}
    {discriminator : Option Discriminator} {traits : NodeTraits} {member : SchemaNode}
    {target : String} (isMember : member ∈ members) (inside : Merges member target) :
    Merges ⟨.composed kind members discriminator, traits⟩ target
  | member {members : List SchemaNode} {discriminator : Option Discriminator} {traits : NodeTraits}
    {member : SchemaNode} {target : String} (isMember : member ∈ members)
    (includes : Includes member target) :
    Merges ⟨.composed .allOf members discriminator, traits⟩ target

/-- What is included is referred to. -/
theorem Includes.refers {node : SchemaNode} {target : String} (includes : node.Includes target) :
    node.Refers target := by
  induction includes with
  | reference => exact .reference
  | member isMember _ ih => exact .member isMember ih

/-- What an intersection inside a node takes in is referred to. -/
theorem Merges.refers {node : SchemaNode} {target : String} (merges : node.Merges target) :
    node.Refers target := by
  induction merges with
  | items _ ih => exact .items ih
  | value _ ih => exact .value ih
  | property isListed _ ih => exact .property isListed ih
  | additional isValue _ ih => exact .additional isValue ih
  | inside isMember _ ih => exact .member isMember ih
  | member isMember includes => exact .member isMember includes.refers

/-- What is included is composed of. -/
theorem Includes.composes {node : SchemaNode} {target : String} (includes : node.Includes target) :
    node.Composes target := by
  induction includes with
  | reference => exact .reference
  | member isMember _ ih => exact .member isMember ih

/-- What is composed of is referred to. -/
theorem Composes.refers {node : SchemaNode} {target : String} (composes : node.Composes target) :
    node.Refers target := by
  induction composes with
  | reference => exact .reference
  | member isMember _ ih => exact .member isMember ih

/-- A node is a choice, or leads to one by plain references to component schemas. -/
inductive IsChoice (lookup : String → Option SchemaNode) : SchemaNode → Prop
  | choice {kind : CompositionKind} {members : List SchemaNode}
    {discriminator : Option Discriminator} {traits : NodeTraits} (isUnion : kind.isUnion = true) :
    IsChoice lookup ⟨.composed kind members discriminator, traits⟩
  | reference {target : String} {traits : NodeTraits} {node : SchemaNode}
    (found : lookup target = some node) (isChoice : IsChoice lookup node) :
    IsChoice lookup ⟨.reference target, traits⟩

end SchemaNode

namespace SchemaModel

variable (model : SchemaModel)

/-- How many references lead to a choice. -/
inductive ChoiceAfter : Nat → SchemaNode → Prop
  | choice {kind : CompositionKind} {members : List SchemaNode}
    {discriminator : Option Discriminator} {traits : NodeTraits} (isUnion : kind.isUnion = true) :
    ChoiceAfter 0 ⟨.composed kind members discriminator, traits⟩
  | reference {steps : Nat} {target : String} {traits : NodeTraits} {node : SchemaNode}
    (found : model.node? target = some node) (isChoice : ChoiceAfter steps node) :
    ChoiceAfter (steps + 1) ⟨.reference target, traits⟩

variable {model}

/-- There is only one way to a choice. -/
theorem ChoiceAfter.unique {node : SchemaNode} {steps others : Nat}
    (first : model.ChoiceAfter steps node) (second : model.ChoiceAfter others node) :
    steps = others := by
  induction first generalizing others with
  | choice =>
    cases second
    rfl
  | reference found _ ih =>
    cases second with
    | reference alsoFound isChoice =>
      cases found.symm.trans alsoFound
      rw [ih isChoice]

/-- The search for a choice finds it if every reference already followed is further from it. -/
theorem isUnionAfter_of_choiceAfter {steps : Nat} {node : SchemaNode}
    (isChoice : model.ChoiceAfter steps node) (seen : List String)
    (further : ∀ target ∈ seen, ∀ next others, model.node? target = some next →
      model.ChoiceAfter others next → steps ≤ others) :
    model.isUnionAfter seen node = true := by
  induction isChoice generalizing seen with
  | choice isUnion =>
    rw [isUnionAfter]
    exact isUnion
  | reference found isChoice ih =>
    rename_i steps target traits next
    -- The target is nearer to the choice than anything seen, so it has not been seen.
    have fresh : target ∉ seen := fun isSeen => by
      have := further target isSeen next steps found isChoice
      omega
    rw [isUnionAfter]
    simp only [List.contains_eq_mem, fresh, decide_false, Bool.false_eq_true, dite_false]
    split
    · rename_i undefined
      cases found.symm.trans undefined
    · rename_i other alsoFound
      cases found.symm.trans alsoFound
      refine ih (target :: seen) fun other isSeen otherNode others otherFound otherChoice => ?_
      rcases List.mem_cons.mp isSeen with rfl | isOld
      · cases found.symm.trans otherFound
        exact Nat.le_of_eq (isChoice.unique otherChoice)
      · have := further other isOld otherNode others otherFound otherChoice
        omega

/-- The search finds nothing but choices. -/
theorem isChoice_of_isUnionAfter {seen : List String} {node : SchemaNode}
    (isUnion : model.isUnionAfter seen node = true) : SchemaNode.IsChoice model.node? node := by
  fun_induction SchemaModel.isUnionAfter model seen node with
  | case1 seen node kind members discriminator isKind =>
    obtain ⟨_, traits⟩ := node
    cases isKind
    exact .choice isUnion
  | case2 | case3 | case5 => simp at isUnion
  | case4 seen node target isKind fresh next found _ ih =>
    obtain ⟨_, traits⟩ := node
    cases isKind
    exact .reference found (ih isUnion)

/-- The search tells exactly which nodes are choices. -/
theorem isUnion_iff (node : SchemaNode) :
    model.isUnion node = true ↔ SchemaNode.IsChoice model.node? node := by
  refine ⟨isChoice_of_isUnionAfter, fun isChoice => ?_⟩
  have reached : ∃ steps, model.ChoiceAfter steps node := by
    induction isChoice with
    | choice isUnion => exact ⟨0, .choice isUnion⟩
    | reference found _ ih =>
      obtain ⟨steps, isChoice⟩ := ih
      exact ⟨steps + 1, .reference found isChoice⟩
  obtain ⟨steps, isChoice⟩ := reached
  exact isUnionAfter_of_choiceAfter isChoice [] (by simp)

end SchemaModel

end ApiTypes
