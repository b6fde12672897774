import ModelScopes.Map.Ordered
import ModelScopes.Model.Binding
import ModelScopes.Uuid

/-!
# Models

A domain model holds entities by name, collections by role and query imports by name, each in the order in which
the keys were first added; adding under a key that is there replaces what it has and keeps its place.
-/

namespace ModelScopes

/-- The version of the library's models. -/
def modelVersion : String :=
  "0.1.0"

/-- A domain model. -/
structure Model where
  id : Uuid
  entities : OrderedMap Entity
  collections : OrderedMap Collection
  imports : OrderedMap String
  deriving DecidableEq

namespace Model

/-- The model that binds nothing. -/
def empty (id : Uuid) : Model :=
  ⟨id, .empty, .empty, .empty⟩

/-- Adds an entity under its name. -/
def addEntity (m : Model) (e : Entity) : Model :=
  { m with entities := m.entities.insert e.name e }

/-- Adds a collection under its role. -/
def addCollection (m : Model) (c : Collection) : Model :=
  { m with collections := m.collections.insert c.role c }

/-- Adds a query import. -/
def addImport (m : Model) (name entity : String) : Model :=
  { m with imports := m.imports.insert name entity }

/-- The entity under a key. -/
def entity? (m : Model) (name : String) : Option Entity :=
  m.entities.get? name

/-- The collection under a key. -/
def collection? (m : Model) (role : String) : Option Collection :=
  m.collections.get? role

/-- What an import name stands for. -/
def import? (m : Model) (name : String) : Option String :=
  m.imports.get? name

/-- Changes every entity, each under the key it has. -/
def mapEntities (f : Entity → Entity) (m : Model) : Model :=
  { m with entities := m.entities.mapValues f }

/-- Changes every collection, each under the key it has. -/
def mapCollections (f : Collection → Collection) (m : Model) : Model :=
  { m with collections := m.collections.mapValues f }

end Model

end ModelScopes
