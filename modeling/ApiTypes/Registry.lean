import ApiTypes.Config
import ApiTypes.Declaration

/-!
The registry of type names: which names are taken, what is declared under them, and in which order.
-/

namespace ApiTypes

/-- What a taken name stands for. -/
inductive Slot where
  /-- A name that is held for a component schema, or whose declaration was withdrawn. -/
  | reserved
  | declared (declaration : Declaration)

/-- The declaration of a taken name. -/
def Slot.declaration? : Slot → Option Declaration
  | reserved => none
  | declared declaration => some declaration

/-- The names of types and their declarations. -/
structure Registry where
  reservedWords : List String
  arraySuffix : String
  slots : Table Slot := {}
  /-- The declared names in the order of their declarations. -/
  order : List String := []
  /-- The names held for component schemas. -/
  components : Table String := {}

namespace Registry

/-- The registry before any name is taken. -/
def ofConfig (config : Config) : Registry :=
  { reservedWords := config.reservedWords, arraySuffix := config.arraySuffix }

/-- The type name for a candidate, whether it is taken or not. -/
def typeName (registry : Registry) (candidate : String) : String :=
  ApiTypes.typeName registry.reservedWords candidate

/-- The candidate for an array of named items. -/
def arrayName (registry : Registry) (item : String) : String := item ++ registry.arraySuffix

/-- The name to try after a number of others: the base itself, and then the base with a number. -/
def suffixed (base : String) : Nat → String
  | 0 => base
  | tried + 1 => base ++ toString (tried + 2)

/--
The first name for a base that a condition on its slot accepts. There are only as many taken names
as there are slots, so the name after as many attempts is free.
-/
def firstName (registry : Registry) (accepts : Option Slot → Bool) (base : String) : String :=
  ((List.range registry.slots.size).findSome? fun tried =>
      let name := suffixed base tried
      if accepts (registry.slots.get? name) then some name else none).getD
    (suffixed base registry.slots.size)

/-- The first free name for a base. -/
def freeName (registry : Registry) (base : String) : String :=
  registry.firstName (fun slot => slot.isNone) base

/-- Holds a name for a component schema. -/
def reserve (registry : Registry) (schema : String) : String × Registry :=
  match registry.components.get? schema with
  | some name => (name, registry)
  | none =>
    let name := registry.freeName (registry.typeName schema)
    (name,
      { registry with
        slots := registry.slots.insert name .reserved
        components := registry.components.insert schema name })

/-- The declaration of a name. -/
def get? (registry : Registry) (name : String) : Option Declaration :=
  (registry.slots.get? name).bind Slot.declaration?

/-- Whether a name is declared. -/
def isDeclared (registry : Registry) (name : String) : Bool := (registry.get? name).isSome

/-- Stores a declaration under its name. -/
def declare (registry : Registry) (declaration : Declaration) : Registry :=
  { registry with
    order :=
      if registry.isDeclared declaration.name then registry.order
      else registry.order ++ [declaration.name]
    slots := registry.slots.insert declaration.name (.declared declaration) }

/-- Declares the shape of a component schema under the name held for it. -/
def fill (registry : Registry) (name schema : String) (shape : Shape) (doc : Option String)
    (deprecated : Bool) : Registry :=
  registry.declare { name, shape, doc, deprecated, origin := .component schema }

/-- Whether a slot is free or declares a given shape. -/
def isReusable (shape : Shape) : Option Slot → Bool
  | none => true
  | some (.declared existing) => existing.shape == shape
  | some .reserved => false

/-- Declares a shape under the first free name, or finds an equal shape under such a name. -/
def register (registry : Registry) (candidate : String) (shape : Shape) (doc : Option String)
    (deprecated : Bool) (origin : Origin) : String × Registry :=
  let name := registry.firstName (isReusable shape) (registry.typeName candidate)
  if registry.isDeclared name then (name, registry)
  else (name, registry.declare { name, shape, doc, deprecated, origin })

/-- The declarations in order. -/
def declarations (registry : Registry) : List Declaration := registry.order.filterMap registry.get?

/-- Withdraws a declaration. Its name stays taken, so that later names do not depend on it. -/
def remove (registry : Registry) (name : String) : Registry :=
  { registry with
    order := registry.order.filter fun other => other != name
    slots := registry.slots.insert name .reserved }

/-- The names of the component schemas that are declared, under the names of those schemas. -/
def names (registry : Registry) : Table String :=
  registry.components.filter fun _ name => registry.isDeclared name

end Registry

end ApiTypes
