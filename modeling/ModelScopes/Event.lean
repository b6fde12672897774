import ModelScopes.Error
import ModelScopes.Model.Cache

/-!
# Events

What the library logs while it works: each event has a level, a message and fields. Events name scopes by their keys
and models by their ids.
-/

namespace ModelScopes

/-- How important an event is. -/
inductive Level where
  | debug
  | info
  | warn
  deriving DecidableEq, Repr

/-- Something that is logged. -/
inductive Event where
  | creating (key : ScopeKey)
  | created (key : ScopeKey)
  | notCreated (key : ScopeKey) (error : ScopeError)
  | building (key : ScopeKey)
  | built (key : ScopeKey) (model : Uuid) (entities collections : Nat)
  | modelReleased (key : ScopeKey) (model : Uuid)
  | closed (key : ScopeKey)
  | closedAll (count : Nat)
  | scopeReleased (key : ScopeKey)
  | invalidatedAfterFailure (key : ScopeKey)
  | notInvalidated (key : ScopeKey) (error : ScopeError)
  | cacheApplied (model : Uuid) (strategy : String) (report : CacheReport)
  deriving DecidableEq

/-- The value of a field of an event. -/
inductive EventValue where
  | text (s : String)
  | count (n : Nat)
  | model (id : Uuid)
  deriving DecidableEq

namespace Level

/-- The name of the level. -/
def name : Level → String
  | debug => "DEBUG"
  | info => "INFO"
  | warn => "WARN"

end Level

namespace Event

/-- How important the event is. -/
def level : Event → Level
  | created _ | built .. | closedAll _ | scopeReleased _ => .info
  | notInvalidated .. => .warn
  | _ => .debug

/-- What happened, in words. -/
def message : Event → String
  | creating _ => "creating domain model scope"
  | created _ => "domain model scope created"
  | notCreated .. => "domain model scope not created"
  | building _ => "building domain model"
  | built .. => "domain model built"
  | modelReleased .. => "domain model released"
  | closed _ => "domain model scope closed"
  | closedAll _ => "closed all domain model scopes"
  | scopeReleased _ => "domain model scope released"
  | invalidatedAfterFailure _ => "domain model invalidated after test failure"
  | notInvalidated .. => "could not invalidate domain model"
  | cacheApplied .. => "applied cache settings"

/-- The fields of the event. -/
def fields : Event → List (String × EventValue)
  | creating key | created key | building key | closed key | scopeReleased key | invalidatedAfterFailure key =>
    [("key", .text key.text)]
  | notCreated key e | notInvalidated key e => [("key", .text key.text), ("error", .text e.message)]
  | built key m entities collections =>
    [("key", .text key.text), ("model", .model m), ("entities", .count entities),
     ("collections", .count collections)]
  | modelReleased key m => [("key", .text key.text), ("model", .model m)]
  | closedAll n => [("closed", .count n)]
  | cacheApplied m strategy r =>
    [("model", .model m), ("strategy", .text strategy), ("entities_cached", .count r.entitiesCached),
     ("entities_skipped_inherited", .count r.entitiesInherited),
     ("entities_skipped_lob", .count r.entitiesLargeObject), ("collections_cached", .count r.collectionsCached),
     ("collections_skipped_lob", .count r.collectionsLargeObject)]

/-- The events of a cache pass: one if it ran. -/
def ofCachePass (m : Model) (enabled : Bool) (strategy : String) : List Event :=
  if Model.cachePassRuns enabled strategy then [.cacheApplied m.id strategy m.cacheReport] else []

end Event

end ModelScopes
