import ModelScopes.Event
import ModelScopes.Model.Codec

/-!
# Editing models

The edits and questions that a model takes one after another: additions, cache passes, and settings of the bindings
that have a name or a role. A setting goes by the binding's own name, a question by the key.
-/

namespace ModelScopes.Model

/-- An edit of a model, or a question to it. -/
inductive Edit where
  | entity (e : Entity)
  | collection (c : Collection)
  | queryImport (name entity : String)
  | apply (enabled : Bool) (strategy : String)
  | setCached (name : String) (cached : Bool)
  | setStrategy (name strategy : String)
  | setCollectionStrategy (role strategy : String)
  | askEntity (name : String)
  | askCollection (role : String)
  | askImport (name : String)
  | applyToCopy (strategy : String)
  | counts
  | look
  | roundTrip
  deriving DecidableEq, Repr

/-- What an edit answers. -/
inductive Answer where
  | done
  | report (r : CacheReport)
  | changed (n : Nat)
  | entity (e : Option Entity)
  | collection (c : Option Collection)
  | queryImport (t : Option String)
  | copied (r : CacheReport) (copy : Model)
  | counts (entities collections imports : Nat)
  | seen
  | roundTrip (sameId equal : Bool)

/-- Changes the entities of a name. -/
def setEntities (name : String) (f : Entity → Entity) (m : Model) : Model × Answer :=
  (m.mapEntities fun e => if e.name = name then f e else e,
    .changed (m.entities.values.countP fun e => e.name = name))

/-- Changes the collections of a role. -/
def setCollections (role : String) (f : Collection → Collection) (m : Model) : Model × Answer :=
  (m.mapCollections fun c => if c.role = role then f c else c,
    .changed (m.collections.values.countP fun c => c.role = role))

/-- Whether writing and reading a model gives its identity and itself back. -/
def roundTrips (m : Model) : Answer :=
  match shape.codec.ofJson (shape.codec.text m) with
  | .ok m' => .roundTrip (m'.id = m.id) (m' = m)
  | .error _ => .roundTrip false false

/-- Carries an edit out. -/
def edit (m : Model) : Edit → Model × Answer
  | .entity e => (m.addEntity e, .done)
  | .collection c => (m.addCollection c, .done)
  | .queryImport name entity => (m.addImport name entity, .done)
  | .apply enabled strategy =>
    let (m, r) := m.applyCache enabled strategy
    (m, .report r)
  | .setCached name cached => m.setEntities name fun e => { e with cached := cached }
  | .setStrategy name strategy => m.setEntities name fun e => { e with strategy := some strategy }
  | .setCollectionStrategy role strategy => m.setCollections role fun c => { c with strategy := some strategy }
  | .askEntity name => (m, .entity (m.entity? name))
  | .askCollection role => (m, .collection (m.collection? role))
  | .askImport name => (m, .queryImport (m.import? name))
  | .applyToCopy strategy =>
    let (copy, r) := m.applyCache true strategy
    (m, .copied r copy)
  | .counts => (m, .counts m.entities.size m.collections.size m.imports.size)
  | .look => (m, .seen)
  | .roundTrip => (m, m.roundTrips)

/-- The events of an edit. -/
def editEvents (m : Model) : Edit → List Event
  | .apply enabled strategy => Event.ofCachePass m enabled strategy
  | .applyToCopy strategy => Event.ofCachePass m true strategy
  | _ => []

/-- Carries edits out in turn: the model in the end, and all events. -/
def editAll (m : Model) : List Edit → Model × List Event
  | [] => (m, [])
  | e :: rest =>
    let (m', events) := editAll (m.edit e).1 rest
    (m', m.editEvents e ++ events)

/-- Carries edits out in turn: the answer to each, with the model after it. -/
def editTrace (m : Model) : List Edit → List (Answer × Model)
  | [] => []
  | e :: rest =>
    let (m, a) := m.edit e
    (a, m) :: editTrace m rest

end ModelScopes.Model
