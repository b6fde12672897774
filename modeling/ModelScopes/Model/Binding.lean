/-!
# Bindings

What a model binds: entities with their properties, and collections with their element. A property's value is a
simple type, a component or a reference to an entity.
-/

namespace ModelScopes

/-- What a property or an element is mapped to. -/
inductive Value where
  | simple (typeName : String)
  | component (className : String)
  | manyToOne (entity : String)
  deriving DecidableEq, Repr, Inhabited

/-- A named property. -/
structure Property where
  name : String
  value : Value
  deriving DecidableEq, Repr, Inhabited

/-- A mapped entity. One with a superclass inherits its caching from the root of its hierarchy. -/
structure Entity where
  name : String
  superclass : Option String
  properties : List Property
  cached : Bool
  strategy : Option String
  deriving DecidableEq, Repr, Inhabited

/-- A mapped collection. -/
structure Collection where
  role : String
  element : Value
  strategy : Option String
  deriving DecidableEq, Repr, Inhabited

namespace Value

/-- The type name of a simple value. -/
def typeName? : Value → Option String
  | simple t => some t
  | _ => none

end Value

namespace Entity

/-- An entity without a superclass. -/
def root (name : String) (properties : List Property) : Entity :=
  ⟨name, none, properties, false, none⟩

/-- An entity below another one. -/
def subclass (name superclass : String) (properties : List Property) : Entity :=
  ⟨name, some superclass, properties, false, none⟩

/-- Whether the entity has a superclass. -/
def isInherited (e : Entity) : Bool :=
  e.superclass.isSome

end Entity

namespace Collection

/-- A collection that has no strategy yet. -/
def new (role : String) (element : Value) : Collection :=
  ⟨role, element, none⟩

end Collection

end ModelScopes
