import Mathlib.Data.List.Forall2
import ModelScopes.Model.Edit

/-!
# Cache passes

Which bindings a cache pass tags, in terms of what they are: a root entity none of whose properties is a large object,
and a collection whose element is none. A pass changes these and nothing else, and its report counts the bindings by
what became of them (`Model.tags_eligible`). What it leaves alone is counted, too, and so a pass that sets nothing need not
report that it did nothing (`Model.noop_iff`). No pass changes what it goes by, so that of several passes only the last
one that runs is seen afterwards, and each reports what it would have reported on the first model
(`Model.last_pass_counts`).
-/

namespace ModelScopes

/-! ## Eligible bindings -/

/-- The value is simple, and its type is that of a large object. -/
def Value.MapsLargeObject (v : Value) : Prop :=
  ∃ t ∈ largeObjectTypes, v = .simple t

/-- The entity has no superclass, and none of its properties maps a large object. -/
def Entity.Eligible (e : Entity) : Prop :=
  e.superclass = none ∧ ∀ p ∈ e.properties, ¬ p.value.MapsLargeObject

/-- The element of the collection is no large object. -/
def Collection.Eligible (c : Collection) : Prop :=
  ¬ c.element.MapsLargeObject

/-- The code's test of a value, spelled out. -/
lemma Value.isLargeObject_iff {v : Value} : v.isLargeObject ↔ v.MapsLargeObject := by
  cases v with
  | simple t => simp [isLargeObject, MapsLargeObject, typeName?, isLargeObjectType]
  | component | manyToOne => simp [isLargeObject, MapsLargeObject, typeName?]

instance : DecidablePred Value.MapsLargeObject := fun _ => decidable_of_iff _ Value.isLargeObject_iff

instance : DecidablePred Entity.Eligible := fun _ => inferInstanceAs (Decidable (_ ∧ _))

instance : DecidablePred Collection.Eligible := fun _ => inferInstanceAs (Decidable (¬ _))

namespace Entity

variable {e : Entity}

/-- An entity has a large object if one of its properties maps it. -/
lemma hasLargeObject_iff : e.hasLargeObject ↔ ∃ p ∈ e.properties, p.value.MapsLargeObject := by
  simp [hasLargeObject, Value.isLargeObject_iff]

/-- An entity with a superclass inherits its caching, whatever its properties are. -/
lemma verdict_eq_inherited_iff : e.verdict = .inherited ↔ e.superclass ≠ none := by
  unfold verdict isInherited
  cases e.superclass <;> cases e.hasLargeObject <;> simp

/-- An entity is skipped for a large object only if it has no superclass. -/
lemma verdict_eq_largeObject_iff :
    e.verdict = .largeObject ↔ e.superclass = none ∧ ∃ p ∈ e.properties, p.value.MapsLargeObject := by
  rw [← hasLargeObject_iff]
  unfold verdict isInherited
  cases e.superclass <;> cases e.hasLargeObject <;> simp

/-- An entity is tagged just when it is eligible. -/
lemma verdict_eq_tagged_iff : e.verdict = .tagged ↔ e.Eligible := by
  have spared : (∀ p ∈ e.properties, ¬ p.value.MapsLargeObject) ↔ ¬ e.hasLargeObject := by
    simp [hasLargeObject_iff]
  rw [Eligible, spared]
  unfold verdict isInherited
  cases e.superclass <;> cases e.hasLargeObject <;> simp

/-- An eligible entity is tagged as cached, with the strategy. -/
lemma tag_of_eligible (el : e.Eligible) (strategy : String) :
    e.tag strategy = { e with cached := true, strategy := some strategy } :=
  if_pos (verdict_eq_tagged_iff.mpr el)

/-- Any other entity stays as it is. -/
lemma tag_of_not_eligible (el : ¬ e.Eligible) (strategy : String) : e.tag strategy = e :=
  if_neg fun tagged => el (verdict_eq_tagged_iff.mp tagged)

/-- An entity keeps its name. -/
@[simp] lemma name_tag (e : Entity) (strategy : String) : (e.tag strategy).name = e.name := by
  unfold tag
  split <;> rfl

/-- A pass changes nothing that it goes by. -/
@[simp] lemma verdict_tag (e : Entity) (strategy : String) : (e.tag strategy).verdict = e.verdict := by
  unfold tag
  split <;> rfl

/-- Of two tags in turn the second one stays. -/
@[simp] lemma tag_tag (e : Entity) (first second : String) : (e.tag first).tag second = e.tag second := by
  by_cases el : e.Eligible
  · have still : (e.tag first).Eligible := by rwa [← verdict_eq_tagged_iff, verdict_tag, verdict_eq_tagged_iff]
    rw [tag_of_eligible still, tag_of_eligible el, tag_of_eligible el]
  · rw [tag_of_not_eligible el]

end Entity

namespace Collection

variable {c : Collection}

/-- A collection is skipped if its element is a large object. -/
lemma verdict_eq_largeObject_iff : c.verdict = .largeObject ↔ c.element.MapsLargeObject := by
  rw [← Value.isLargeObject_iff]
  unfold verdict
  cases c.element.isLargeObject <;> simp

/-- A collection is tagged just when it is eligible. -/
lemma verdict_eq_tagged_iff : c.verdict = .tagged ↔ c.Eligible := by
  rw [Eligible, ← Value.isLargeObject_iff]
  unfold verdict
  cases c.element.isLargeObject <;> simp

/-- An eligible collection is tagged with the strategy. -/
lemma tag_of_eligible (el : c.Eligible) (strategy : String) :
    c.tag strategy = { c with strategy := some strategy } :=
  if_pos (verdict_eq_tagged_iff.mpr el)

/-- Any other collection stays as it is. -/
lemma tag_of_not_eligible (el : ¬ c.Eligible) (strategy : String) : c.tag strategy = c :=
  if_neg fun tagged => el (verdict_eq_tagged_iff.mp tagged)

/-- A collection keeps its role. -/
@[simp] lemma role_tag (c : Collection) (strategy : String) : (c.tag strategy).role = c.role := by
  unfold tag
  split <;> rfl

/-- A tag does not change what the next pass decides. -/
@[simp] lemma verdict_tag (c : Collection) (strategy : String) : (c.tag strategy).verdict = c.verdict := by
  unfold tag
  split <;> rfl

/-- Of two tags in turn the second one stays. -/
@[simp] lemma tag_tag (c : Collection) (first second : String) : (c.tag first).tag second = c.tag second := by
  by_cases el : c.Eligible
  · have still : (c.tag first).Eligible := by rwa [← verdict_eq_tagged_iff, verdict_tag, verdict_eq_tagged_iff]
    rw [tag_of_eligible still, tag_of_eligible el, tag_of_eligible el]
  · rw [tag_of_not_eligible el]

end Collection

/-! ## Counting by verdict -/

/-- Whatever is judged comes to one of three verdicts. -/
lemma countP_verdicts {α : Type} (verdict : α → CacheVerdict) (as : List α) :
    (as.countP fun a => verdict a = .tagged) + (as.countP fun a => verdict a = .inherited) +
      (as.countP fun a => verdict a = .largeObject) = as.length := by
  induction as with
  | nil => rfl
  | cons a rest ih =>
    simp only [List.countP_cons, List.length_cons]
    cases verdict a <;> simp <;> omega

namespace OrderedMap

variable {α : Type}

/-- The values of a changed map are the changed values, in the same order. -/
@[simp] lemma values_mapValues (f : α → α) (m : OrderedMap α) : (m.mapValues f).values = m.values.map f := by
  simp [values, mapValues, Function.comp_def]

/-- Two changes of a map's values are one. -/
lemma mapValues_mapValues (f g : α → α) (m : OrderedMap α) :
    (m.mapValues f).mapValues g = m.mapValues fun a => g (f a) := by
  simp [mapValues, Function.comp_def]

/-- A map has as many values as keys. -/
@[simp] lemma length_values (m : OrderedMap α) : m.values.length = m.size :=
  List.length_map _

/-- A map whose values are left as they are stays as it is. -/
lemma mapValues_eq_self {f : α → α} {m : OrderedMap α} (kept : ∀ a ∈ m.values, f a = a) : m.mapValues f = m := by
  obtain ⟨es, nodup⟩ := m
  have each : ∀ e ∈ es, (e.1, f e.2) = e := fun e he => by rw [kept e.2 (List.mem_map_of_mem he)]
  have same : (es.map fun e => (e.1, f e.2)) = es := by rw [List.map_congr_left each, List.map_id']
  simp only [mapValues, same]

/-- Changing values goes through the entries one by one, and keeps their keys. -/
lemma forall₂_mapValues {R : String × α → String × α → Prop} {f : α → α}
    (each : ∀ e, R e (e.1, f e.2)) (m : OrderedMap α) : List.Forall₂ R m.entries (m.mapValues f).entries := by
  rw [mapValues, List.forall₂_map_right_iff, List.forall₂_same]
  exact fun e _ => each e

end OrderedMap

/-- A report is that of nothing at all if all its counters are zero. -/
lemma CacheReport.isNoop_iff {r : CacheReport} : r.isNoop ↔ r = zero :=
  beq_iff_eq

namespace Model

variable {m : Model}

/-! ## One pass -/

/-- A model after a pass: each binding stands under its key as before, with what the pass sets if it is eligible. -/
structure Tagged (strategy : String) (m m' : Model) : Prop where
  id : m'.id = m.id
  imports : m'.imports = m.imports
  entities : List.Forall₂ (fun before after => after.1 = before.1 ∧
    (before.2.Eligible → after.2 = { before.2 with cached := true, strategy := some strategy }) ∧
    (¬ before.2.Eligible → after.2 = before.2)) m.entities.entries m'.entities.entries
  collections : List.Forall₂ (fun before after => after.1 = before.1 ∧
    (before.2.Eligible → after.2 = { before.2 with strategy := some strategy }) ∧
    (¬ before.2.Eligible → after.2 = before.2)) m.collections.entries m'.collections.entries

/-- A report counts each binding of a model once, by what becomes of it in a pass. -/
structure Counts (m : Model) (r : CacheReport) : Prop where
  entitiesCached : r.entitiesCached = m.entities.values.countP fun e => e.Eligible
  entitiesInherited : r.entitiesInherited = m.entities.values.countP fun e => e.superclass ≠ none
  entitiesLargeObject : r.entitiesLargeObject = m.entities.values.countP fun e =>
    e.superclass = none ∧ ∃ p ∈ e.properties, p.value.MapsLargeObject
  collectionsCached : r.collectionsCached = m.collections.values.countP fun c => c.Eligible
  collectionsLargeObject : r.collectionsLargeObject = m.collections.values.countP fun c => c.element.MapsLargeObject
  entities : r.entitiesCached + r.entitiesInherited + r.entitiesLargeObject = m.entities.size
  collections : r.collectionsCached + r.collectionsLargeObject = m.collections.size

/-- The report of a pass counts each binding once. -/
lemma counts_cacheReport (m : Model) : m.Counts m.cacheReport where
  entitiesCached := by simp only [cacheReport, Entity.verdict_eq_tagged_iff]
  entitiesInherited := by simp only [cacheReport, Entity.verdict_eq_inherited_iff]
  entitiesLargeObject := by simp only [cacheReport, Entity.verdict_eq_largeObject_iff]
  collectionsCached := by simp only [cacheReport, Collection.verdict_eq_tagged_iff]
  collectionsLargeObject := by simp only [cacheReport, Collection.verdict_eq_largeObject_iff]
  entities := by
    rw [← OrderedMap.length_values]
    exact countP_verdicts Entity.verdict m.entities.values
  collections := by
    have all := countP_verdicts Collection.verdict m.collections.values
    -- a collection inherits from none
    have inherited : (m.collections.values.countP fun c => c.verdict = .inherited) = 0 := by
      rw [List.countP_eq_zero]
      intro c _
      unfold Collection.verdict
      split <;> simp
    rw [inherited, OrderedMap.length_values] at all
    exact all

/-- A pass tags the eligible bindings and changes nothing else. -/
lemma tagged_map (m : Model) (strategy : String) :
    m.Tagged strategy ((m.mapEntities (·.tag strategy)).mapCollections (·.tag strategy)) where
  id := rfl
  imports := rfl
  entities := OrderedMap.forall₂_mapValues
    (fun e => ⟨rfl, fun el => e.2.tag_of_eligible el strategy, fun el => e.2.tag_of_not_eligible el strategy⟩) _
  collections := OrderedMap.forall₂_mapValues
    (fun c => ⟨rfl, fun el => c.2.tag_of_eligible el strategy, fun el => c.2.tag_of_not_eligible el strategy⟩) _

/-- A pass runs if it is enabled and has a strategy. -/
lemma cachePassRuns_iff {enabled : Bool} {strategy : String} :
    cachePassRuns enabled strategy ↔ enabled = true ∧ strategy ≠ "" := by
  simp [cachePassRuns]

/-- A pass that runs tags all bindings and reports on the model. -/
lemma applyCache_of_runs {enabled : Bool} {strategy : String} (runs : cachePassRuns enabled strategy) (m : Model) :
    m.applyCache enabled strategy =
      ((m.mapEntities (·.tag strategy)).mapCollections (·.tag strategy), m.cacheReport) :=
  if_pos runs

/-- A pass that does not run changes nothing and reports nothing. -/
lemma applyCache_of_rests {enabled : Bool} {strategy : String} (rests : ¬ cachePassRuns enabled strategy) (m : Model) :
    m.applyCache enabled strategy = (m, .zero) :=
  if_neg rests

/-- A pass that is enabled and has a strategy tags the eligible bindings with it, changes nothing else, and reports how
many bindings of which kind there are. Any other pass changes nothing and reports nothing. -/
theorem tags_eligible (m : Model) (enabled : Bool) (strategy : String) :
    let a := m.applyCache enabled strategy
    if enabled = true ∧ strategy ≠ "" then m.Tagged strategy a.1 ∧ m.Counts a.2
    else a = (m, ⟨0, 0, 0, 0, 0⟩) := by
  intro a
  split
  case isTrue runs =>
    rw [show a = _ from applyCache_of_runs (cachePassRuns_iff.mpr runs) m]
    exact ⟨tagged_map m strategy, counts_cacheReport m⟩
  case isFalse rests => exact applyCache_of_rests (fun runs => rests (cachePassRuns_iff.mp runs)) m

/-! ## Passes that touch nothing -/

/-- The pass sets the caching of some binding. -/
def Touches (m : Model) (enabled : Bool) (strategy : String) : Prop :=
  (enabled = true ∧ strategy ≠ "") ∧
    ((∃ e ∈ m.entities.values, e.Eligible) ∨ ∃ c ∈ m.collections.values, c.Eligible)

instance (m : Model) (enabled : Bool) (strategy : String) : Decidable (m.Touches enabled strategy) :=
  inferInstanceAs (Decidable (_ ∧ _))

/-- Every counter is zero just if there is nothing to count. -/
lemma Counts.eq_zero_iff {r : CacheReport} (co : m.Counts r) :
    r = .zero ↔ m.entities.size = 0 ∧ m.collections.size = 0 := by
  have entities := co.entities
  have collections := co.collections
  obtain ⟨_, _, _, _, _⟩ := r
  simp only [CacheReport.zero, CacheReport.mk.injEq] at entities collections ⊢
  omega

/-- A pass that runs touches nothing if no binding is eligible. -/
lemma not_touches_iff {enabled : Bool} {strategy : String} (runs : enabled = true ∧ strategy ≠ "") :
    ¬ m.Touches enabled strategy ↔
      (∀ e ∈ m.entities.values, ¬ e.Eligible) ∧ ∀ c ∈ m.collections.values, ¬ c.Eligible := by
  simp [Touches, runs]

/-- A pass that sets nothing leaves the model as it is. -/
lemma applyCache_of_not_touches {enabled : Bool} {strategy : String} (rests : ¬ m.Touches enabled strategy) :
    (m.applyCache enabled strategy).1 = m := by
  by_cases runs : enabled = true ∧ strategy ≠ ""
  · obtain ⟨entities, collections⟩ := (not_touches_iff runs).mp rests
    rw [applyCache_of_runs (cachePassRuns_iff.mpr runs)]
    have kept : m.mapEntities (·.tag strategy) = m := by
      rw [mapEntities, OrderedMap.mapValues_eq_self fun e mem => Entity.tag_of_not_eligible (entities e mem) strategy]
    have kept' : m.mapCollections (·.tag strategy) = m := by
      rw [mapCollections,
        OrderedMap.mapValues_eq_self fun c mem => Collection.tag_of_not_eligible (collections c mem) strategy]
    simp only [kept, kept']
  · rw [applyCache_of_rests fun r => runs (cachePassRuns_iff.mp r)]

/-- A pass reports that it did nothing just if it does not run, or there is no binding at all. What tells whether it set
anything is that it counts a binding as tagged: so a pass that sets nothing does not report so if it runs and has only
bindings to leave alone. -/
theorem noop_iff (m : Model) (enabled : Bool) (strategy : String) :
    let a := m.applyCache enabled strategy
    let runs := enabled = true ∧ strategy ≠ ""
    (a.2.isNoop ↔ ¬ runs ∨ (m.entities.size = 0 ∧ m.collections.size = 0)) ∧
    (a.2.entitiesCached = 0 ∧ a.2.collectionsCached = 0 ↔ ¬ m.Touches enabled strategy) ∧
    (¬ m.Touches enabled strategy → a.1 = m) ∧ (a.2.isNoop → ¬ m.Touches enabled strategy) ∧
    (¬ m.Touches enabled strategy ∧ ¬ a.2.isNoop ↔ runs ∧ (∀ e ∈ m.entities.values, ¬ e.Eligible) ∧
      (∀ c ∈ m.collections.values, ¬ c.Eligible) ∧ 0 < m.entities.size + m.collections.size) := by
  intro a runs
  have noop : a.2.isNoop ↔ ¬ runs ∨ (m.entities.size = 0 ∧ m.collections.size = 0) := by
    rw [CacheReport.isNoop_iff]
    by_cases go : runs
    · simp only [a, applyCache_of_runs (cachePassRuns_iff.mpr go), go, not_true_eq_false, false_or]
      exact (counts_cacheReport m).eq_zero_iff
    · simp [a, applyCache_of_rests (fun r => go (cachePassRuns_iff.mp r)), go]
  have tagged : a.2.entitiesCached = 0 ∧ a.2.collectionsCached = 0 ↔ ¬ m.Touches enabled strategy := by
    by_cases go : runs
    · have counts := counts_cacheReport m
      simp [a, applyCache_of_runs (cachePassRuns_iff.mpr go), counts.entitiesCached, counts.collectionsCached,
        not_touches_iff go, List.countP_eq_zero]
    · have rests : ¬ m.Touches enabled strategy := fun touches => go touches.1
      simp [a, applyCache_of_rests (fun r => go (cachePassRuns_iff.mp r)), rests, CacheReport.zero]
  refine ⟨noop, tagged, applyCache_of_not_touches, fun nothing => ?_, ?_⟩
  · rw [← tagged, CacheReport.isNoop_iff.mp nothing]
    exact ⟨rfl, rfl⟩
  · rw [noop]
    by_cases go : runs
    · have some : 0 < m.entities.size + m.collections.size ↔ ¬ (m.entities.size = 0 ∧ m.collections.size = 0) := by
        omega
      rw [not_touches_iff go, some]
      tauto
    · simp [go]

/-- One entity, which inherits its caching: the pass leaves the model as it is, and reports something else. -/
theorem noop_overlooks_skipped :
    let m := (empty (.ofSerial 0)).addEntity (.subclass "B" "A" [])
    let a := m.applyCache true "read-only"
    ¬ m.Touches true "read-only" ∧ a = (m, ⟨0, 1, 0, 0, 0⟩) ∧ a.2.isNoop = false := by
  intro m a
  refine ⟨?_, ?_, ?_⟩ <;> decide +kernel

/-! ## Passes in turn -/

/-- A pass does not change what the next one reports. -/
lemma cacheReport_map (m : Model) (strategy : String) :
    ((m.mapEntities (·.tag strategy)).mapCollections (·.tag strategy)).cacheReport = m.cacheReport := by
  simp [cacheReport, mapEntities, mapCollections, List.countP_map, Function.comp_def]

/-- A pass reports the same whether another one came before it or not. -/
lemma report_after_pass (m : Model) (first second : Bool × String) :
    ((m.applyCache first.1 first.2).1.applyCache second.1 second.2).2 = (m.applyCache second.1 second.2).2 := by
  by_cases runs : cachePassRuns second.1 second.2
  · rw [applyCache_of_runs runs, applyCache_of_runs runs]
    by_cases ran : cachePassRuns first.1 first.2
    · rw [applyCache_of_runs ran, cacheReport_map]
    · rw [applyCache_of_rests ran]
  · rw [applyCache_of_rests runs, applyCache_of_rests runs]

/-- Of two passes the second is seen if it runs. -/
lemma pass_after_pass (m : Model) (first : Bool × String) {second : Bool × String}
    (runs : cachePassRuns second.1 second.2) :
    ((m.applyCache first.1 first.2).1.applyCache second.1 second.2).1 = (m.applyCache second.1 second.2).1 := by
  rw [applyCache_of_runs runs, applyCache_of_runs runs]
  by_cases ran : cachePassRuns first.1 first.2
  · rw [applyCache_of_runs ran]
    simp [mapEntities, mapCollections, OrderedMap.mapValues_mapValues]
  · rw [applyCache_of_rests ran]

/-- The edits that are these passes. -/
def passEdits (passes : List (Bool × String)) : List Edit :=
  passes.map fun p => .apply p.1 p.2

/-- The last of these passes that runs. -/
def lastRun? (passes : List (Bool × String)) : Option (Bool × String) :=
  (passes.filter fun p => p.1 = true ∧ p.2 ≠ "").getLast?

/-- The last pass that runs is one that runs. -/
lemma runs_of_lastRun? {passes : List (Bool × String)} {p : Bool × String} (h : lastRun? passes = some p) :
    cachePassRuns p.1 p.2 := by
  have effective := List.of_mem_filter (List.mem_of_getLast? h)
  exact cachePassRuns_iff.mpr (of_decide_eq_true effective)

/-- The last pass that runs is among the later ones, or is the first one. -/
lemma lastRun?_cons (p : Bool × String) (rest : List (Bool × String)) :
    lastRun? (p :: rest) = (lastRun? rest).or (if cachePassRuns p.1 p.2 then some p else none) := by
  unfold lastRun?
  rw [List.filter_cons]
  by_cases runs : cachePassRuns p.1 p.2
  · have effective : decide (p.1 = true ∧ p.2 ≠ "") = true := decide_eq_true (cachePassRuns_iff.mp runs)
    rw [if_pos effective, if_pos runs, List.getLast?_cons]
    cases (rest.filter fun p => p.1 = true ∧ p.2 ≠ "").getLast? <;> rfl
  · have rests : ¬ decide (p.1 = true ∧ p.2 ≠ "") = true := fun h =>
      runs (cachePassRuns_iff.mpr (of_decide_eq_true h))
    rw [if_neg rests, if_neg runs, Option.or_none]

/-- After passes in turn a model is what the last of them that is enabled and has a strategy makes of it, and each of
them reports what it reports on the model by itself. -/
theorem last_pass_counts (m : Model) (passes : List (Bool × String)) :
    (m.editAll (passEdits passes)).1 =
      (match lastRun? passes with
        | some p => (m.applyCache p.1 p.2).1
        | none => m) ∧
    (m.editTrace (passEdits passes)).map Prod.fst = passes.map fun p => .report (m.applyCache p.1 p.2).2 := by
  induction passes generalizing m with
  | nil => exact ⟨rfl, rfl⟩
  | cons p rest ih =>
    obtain ⟨final, reports⟩ := ih (m.applyCache p.1 p.2).1
    constructor
    · rw [show (m.editAll (passEdits (p :: rest))).1 = _ from final, lastRun?_cons]
      cases later : lastRun? rest with
      | some q => exact pass_after_pass m p (runs_of_lastRun? later)
      | none =>
        by_cases runs : cachePassRuns p.1 p.2
        · simp [runs]
        · simp [runs, applyCache_of_rests runs]
    · rw [show (m.editTrace (passEdits (p :: rest))).map Prod.fst = _ from congrArg (List.cons _) reports]
      exact congrArg (List.cons _) (List.map_congr_left fun q _ => congrArg Answer.report (report_after_pass m p q))

end Model

end ModelScopes
