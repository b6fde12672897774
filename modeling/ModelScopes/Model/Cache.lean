import ModelScopes.Model.Basic

/-!
# Cache strategies

A pass over a model tags its eligible bindings with a cache strategy and counts what it did. An entity is
eligible if it has no superclass and no property maps a large object; a collection is eligible if its element is no
large object. A pass that is not enabled, or has no strategy, does nothing.
-/

namespace ModelScopes

/-- The type names of large objects. -/
def largeObjectTypes : List String :=
  ["blob", "clob", "nclob", "java.sql.Blob", "java.sql.Clob", "java.sql.NClob",
   "org.hibernate.type.BlobType", "org.hibernate.type.ClobType", "org.hibernate.type.NClobType"]

/-- Whether a type name is that of a large object. -/
def isLargeObjectType (typeName : String) : Bool :=
  largeObjectTypes.contains typeName

/-- Whether a value is simple and a large object. -/
def Value.isLargeObject (v : Value) : Bool :=
  v.typeName?.any isLargeObjectType

/-- Whether some property maps a large object. -/
def Entity.hasLargeObject (e : Entity) : Bool :=
  e.properties.any fun p => p.value.isLargeObject

/-- What a pass does with a binding. -/
inductive CacheVerdict where
  | tagged
  | inherited
  | largeObject
  deriving DecidableEq, Repr

/-- What a pass does with an entity; that it inherits counts first. -/
def Entity.verdict (e : Entity) : CacheVerdict :=
  if e.isInherited then .inherited
  else if e.hasLargeObject then .largeObject
  else .tagged

/-- What a pass does with a collection. -/
def Collection.verdict (c : Collection) : CacheVerdict :=
  if c.element.isLargeObject then .largeObject else .tagged

/-- The entity after a pass. -/
def Entity.tag (strategy : String) (e : Entity) : Entity :=
  if e.verdict = .tagged then { e with cached := true, strategy := some strategy } else e

/-- The collection after a pass. -/
def Collection.tag (strategy : String) (c : Collection) : Collection :=
  if c.verdict = .tagged then { c with strategy := some strategy } else c

/-- How many bindings a pass tagged, and how many it left alone for which reason. -/
structure CacheReport where
  entitiesCached : Nat
  entitiesInherited : Nat
  entitiesLargeObject : Nat
  collectionsCached : Nat
  collectionsLargeObject : Nat
  deriving DecidableEq, Repr, Inhabited

namespace CacheReport

/-- The report of a pass that did nothing. -/
def zero : CacheReport :=
  ⟨0, 0, 0, 0, 0⟩

/-- Whether every counter is zero. -/
def isNoop (r : CacheReport) : Bool :=
  r == zero

end CacheReport

namespace Model

/-- Whether a pass with these arguments does anything. -/
def cachePassRuns (enabled : Bool) (strategy : String) : Bool :=
  enabled && !strategy.isEmpty

/-- The counters of a pass that runs. -/
def cacheReport (m : Model) : CacheReport where
  entitiesCached := m.entities.values.countP fun e => e.verdict = .tagged
  entitiesInherited := m.entities.values.countP fun e => e.verdict = .inherited
  entitiesLargeObject := m.entities.values.countP fun e => e.verdict = .largeObject
  collectionsCached := m.collections.values.countP fun c => c.verdict = .tagged
  collectionsLargeObject := m.collections.values.countP fun c => c.verdict = .largeObject

/-- Tags every eligible binding of the model with the strategy. -/
def applyCache (m : Model) (enabled : Bool) (strategy : String) : Model × CacheReport :=
  if cachePassRuns enabled strategy then
    ((m.mapEntities (·.tag strategy)).mapCollections (·.tag strategy), m.cacheReport)
  else (m, .zero)

end Model

end ModelScopes
