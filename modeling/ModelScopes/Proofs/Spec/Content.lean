import ModelScopes.Proofs.Map.Filling
import ModelScopes.Proofs.Model.Caching
import ModelScopes.Proofs.Model.Keys
import ModelScopes.Proofs.Spec.Recorded

/-!
# What a built model holds

A spec comes with bindings: those of its bundles, of what its descriptors contribute, of its classes, and of its class
names, in this order. A model that a recording collector builds by the spec holds an entity for each name among them, at
the place where the name came first and as it came last, and its collections likewise; then it gets the spec's cache
settings. The main statement is `Script.holds_bindings`.
-/

namespace ModelScopes

/-! ## Bindings that come with a spec -/

/-- The bindings of a class; none if it cannot be resolved. -/
def ClassCatalog.bindingsOf (catalog : ClassCatalog) (name : String) : Bindings :=
  ((catalog.find? fun e => e.1 == name).map Prod.snd).getD ⟨[], []⟩

/-- The bindings that come with a contribution. -/
def Contribution.bindings (catalog : ClassCatalog) : Contribution → Bindings
  | .bundle b => b.bindings
  | .mappedClass c => catalog.bindingsOf c.name
  | .className name => catalog.bindingsOf name
  | .package _ | .resource _ | .queryImport .. => ⟨[], []⟩

/-- What the descriptor of a name contributes; nothing if it cannot be made. -/
def DescriptorRegistry.contributed (r : DescriptorRegistry) (name : String) : List Contribution :=
  (r.instantiate name).toOption.getD []

/-- The bindings that come with a spec, in the order in which they are contributed. -/
def Spec.bindings (catalog : ClassCatalog) (descriptors : DescriptorRegistry) (s : Spec) : List Bindings :=
  s.bundles.map Bundle.bindings ++
    s.descriptors.flatMap (fun name => (descriptors.contributed name).map (·.bindings catalog)) ++
    s.classes.map (fun c => catalog.bindingsOf c.name) ++
    s.classNames.map catalog.bindingsOf

/-- What a step of a plan contributes. -/
def PlanStep.contributed (descriptors : DescriptorRegistry) : PlanStep → List Contribution
  | .contribute c => [c]
  | .follow name => descriptors.contributed name

/-! ## Models that take bindings in -/

namespace Model

/-- A model comes of another one by taking bindings in, one after another. -/
structure TakesIn (m m' : Model) (bs : List Bindings) : Prop where
  entities : m'.entities = m.entities.fill Entity.name (bs.flatMap Bindings.entities)
  collections : m'.collections = m.collections.fill Collection.role (bs.flatMap Bindings.collections)

variable {m m' m'' : Model} {bs bs' : List Bindings}

/-- A model with the same bindings comes of another one by taking nothing in. -/
lemma TakesIn.of_same (entities : m'.entities = m.entities) (collections : m'.collections = m.collections) :
    m.TakesIn m' [] :=
  ⟨entities, collections⟩

/-- Bindings that are taken in after others are taken in behind them. -/
lemma TakesIn.append (ta : m.TakesIn m' bs) (ta' : m'.TakesIn m'' bs') : m.TakesIn m'' (bs ++ bs') where
  entities := by rw [ta'.entities, ta.entities, List.flatMap_append, OrderedMap.fill_append]
  collections := by rw [ta'.collections, ta.collections, List.flatMap_append, OrderedMap.fill_append]

/-- Adding entities touches nothing but the entities. -/
lemma foldl_addEntity (m : Model) (es : List Entity) :
    es.foldl addEntity m = { m with entities := m.entities.fill Entity.name es } := by
  induction es generalizing m with
  | nil => rfl
  | cons e rest ih => exact ih (m.addEntity e)

/-- Adding collections touches nothing but the collections. -/
lemma foldl_addCollection (m : Model) (cs : List Collection) :
    cs.foldl addCollection m = { m with collections := m.collections.fill Collection.role cs } := by
  induction cs generalizing m with
  | nil => rfl
  | cons c rest ih => exact ih (m.addCollection c)

/-- A merge takes the bindings in that are merged. -/
lemma takesIn_merge (m : Model) (b : Bindings) : m.TakesIn (m.merge b) [b] := by
  rw [merge, foldl_addEntity, foldl_addCollection]
  constructor
  · rw [List.flatMap_singleton]
  · rw [List.flatMap_singleton]

end Model

namespace Recorder

variable {catalog : ClassCatalog} {refusals : Refusals} {descriptors : DescriptorRegistry} {r r' : Recording}

/-- Adding a class takes the bindings of the class in. -/
lemma takesIn_addClass {name : String} (h : addClass catalog name r = (.ok (), r')) :
    r.model.TakesIn r'.model [catalog.bindingsOf name] := by
  unfold addClass at h
  split at h
  case h_1 => cases h
  case h_2 e found =>
    cases h
    have bindings : catalog.bindingsOf name = e.2 := by simp [ClassCatalog.bindingsOf, found]
    rw [bindings]
    exact r.model.takesIn_merge e.2

/-- Adding an import takes no bindings in. -/
lemma takesIn_addImport {name : String} {c : ClassName} (h : addImport name c r = (.ok (), r')) :
    r.model.TakesIn r'.model [⟨[], []⟩] := by
  unfold addImport at h
  split at h
  case h_1 =>
    split at h
    case isTrue =>
      cases h
      exact ⟨rfl, rfl⟩
    case isFalse => cases h
  case h_2 =>
    cases h
    exact ⟨rfl, rfl⟩

/-- A contribution that is taken brings its bindings into the model. -/
lemma takesIn_add {x : Contribution} (h : add catalog refusals x r = (.ok (), r')) :
    r.model.TakesIn r'.model [x.bindings catalog] := by
  cases x with
  | package | resource =>
    simp only [add] at h
    split at h
    case isTrue => cases h
    case isFalse =>
      cases h
      exact ⟨rfl, rfl⟩
  | bundle b =>
    simp only [add] at h
    split at h
    case isTrue => cases h
    case isFalse =>
      cases h
      exact r.model.takesIn_merge b.bindings
  | mappedClass c => exact takesIn_addClass (r := r.note _) h
  | className name => exact takesIn_addClass (r := r.note _) h
  | queryImport name c => exact takesIn_addImport (r := r.note _) h

/-- Contributions that are all taken bring their bindings into the model in turn. -/
lemma takesIn_contribute {cs : List Contribution}
    (h : (shop catalog refusals descriptors).contribute cs r = (.ok (), r')) :
    r.model.TakesIn r'.model (cs.map (·.bindings catalog)) := by
  induction cs generalizing r with
  | nil =>
    cases h
    exact .of_same rfl rfl
  | cons c rest ih =>
    obtain ⟨r₁, first, later⟩ := Workshop.contribute_cons_ok h
    exact (takesIn_add first).append (ih later)

/-- A step that is carried out hands over what it contributes. -/
lemma contribute_of_perform {step : PlanStep} (h : (shop catalog refusals descriptors).perform step r = (.ok (), r')) :
    (shop catalog refusals descriptors).contribute (step.contributed descriptors) r = (.ok (), r') := by
  cases step with
  | contribute c => exact h
  | follow name =>
    have made : (shop catalog refusals descriptors).instantiate name r = (descriptors.instantiate name, r) := rfl
    cases known : descriptors.instantiate name with
    | error e =>
      rw [known] at made
      cases (Workshop.perform_of_unmade made).symm.trans h
    | ok d =>
      rw [known] at made
      have contributed : (PlanStep.follow name).contributed descriptors = d := by
        simp [PlanStep.contributed, DescriptorRegistry.contributed, known, Except.toOption]
      rw [contributed, ← Workshop.perform_of_made made]
      exact h

/-- A plan that is carried out to its end hands over the contributions of its steps in turn. -/
lemma contribute_of_performAll {plan : List PlanStep}
    (h : (shop catalog refusals descriptors).performAll plan r = (.ok (), r')) :
    (shop catalog refusals descriptors).contribute (plan.flatMap (·.contributed descriptors)) r = (.ok (), r') := by
  induction plan generalizing r with
  | nil => exact h
  | cons step rest ih =>
    obtain ⟨r₁, first, later⟩ := Workshop.performAll_cons_ok h
    rw [List.flatMap_cons, Workshop.contribute_append_of_ok (contribute_of_perform first)]
    exact ih later

/-- A build succeeds if its plan is carried out to its end and the collector has no text for the end, and then hands the
model out that the plan came to. -/
lemma assemble_eq_ok_iff {spec : Spec} {m : Model} :
    (shop catalog refusals descriptors).assemble spec r = (.ok m, r') ↔
      (shop catalog refusals descriptors).performAll spec.plan r = (.ok (), r') ∧ refusals.build = none ∧
        m = r'.model := by
  have hands : ∀ r₁, (shop catalog refusals descriptors).collector.build r₁ = build refusals r₁ := fun _ => rfl
  cases h : (shop catalog refusals descriptors).performAll spec.plan r with
  | mk o r₁ =>
    cases o with
    | error e =>
      rw [Workshop.assemble_of_error h]
      simp
    | ok u =>
      rw [Workshop.assemble_of_ok h, hands, build]
      cases refusals.build with
      | some t => simp [Except.mapError]
      | none =>
        simp only [Except.mapError, Prod.mk.injEq, Except.ok.injEq, true_and]
        exact ⟨fun ⟨model, state⟩ => ⟨state, state ▸ model.symm⟩, fun ⟨state, model⟩ => ⟨state ▸ model.symm, state⟩⟩

/-- A build that succeeds has taken in the bindings of all that its plan contributes. -/
lemma takesIn_assemble {spec : Spec} {m : Model}
    (h : (shop catalog refusals descriptors).assemble spec r = (.ok m, r')) :
    r.model.TakesIn m ((spec.plan.flatMap (·.contributed descriptors)).map (·.bindings catalog)) := by
  obtain ⟨carried, -, rfl⟩ := assemble_eq_ok_iff.mp h
  exact takesIn_contribute (contribute_of_performAll carried)

end Recorder

/-! ## What a plan contributes -/

/-- Packages, resources and imports bring no bindings, so that those of a plan are those that come with its spec. -/
lemma Spec.flatMap_plan {α : Type} (f : Bindings → List α) (none : f ⟨[], []⟩ = []) (spec : Spec)
    (catalog : ClassCatalog) (descriptors : DescriptorRegistry) :
    ((spec.plan.flatMap (·.contributed descriptors)).map (·.bindings catalog)).flatMap f =
      (spec.bindings catalog descriptors).flatMap f := by
  have nothing : ∀ {β : Type} (bs : List β), (bs.flatMap fun _ => ([] : List α)) = [] := fun bs =>
    List.flatMap_eq_nil_iff.mpr fun _ _ => rfl
  simp [nothing, plan, bindings, List.flatMap_map, List.flatMap_assoc, PlanStep.contributed, Contribution.bindings,
    none]

/-- A build that succeeds takes in the bindings that come with its spec. -/
lemma Recorder.takesIn_spec {catalog : ClassCatalog} {refusals : Refusals} {descriptors : DescriptorRegistry}
    {r r' : Recording} {spec : Spec} {m : Model}
    (h : (shop catalog refusals descriptors).assemble spec r = (.ok m, r')) :
    r.model.TakesIn m (spec.bindings catalog descriptors) where
  entities := by
    rw [(takesIn_assemble h).entities, spec.flatMap_plan Bindings.entities rfl]
  collections := by
    rw [(takesIn_assemble h).collections, spec.flatMap_plan Bindings.collections rfl]

/-! ## What comes of the bindings -/

namespace OrderedMap

variable {α : Type} {name : α → String} {f : α → α}

/-- A map keeps its keys when its values are changed. -/
@[simp] lemma keys_mapValues (m : OrderedMap α) : (m.mapValues f).keys = m.keys := by
  simp [keys, mapValues, Function.comp_def]

/-- In a map that was filled each value stands under its own name. -/
lemma named_fill_empty (as : List α) : (empty.fill name as).Named name := by
  intro key a h
  rw [get?_fill] at h
  have last : (as.filter fun a => name a = key).getLast? = some a := by simpa [get?, empty] using h
  have named := List.of_mem_filter (List.mem_of_getLast? last)
  exact of_decide_eq_true named

/-- Changing values without their names leaves each under its own. -/
lemma Named.mapValues {m : OrderedMap α} (na : m.Named name) (keeps : ∀ a, name (f a) = name a) :
    (m.mapValues f).Named name := by
  intro key b h
  obtain ⟨e, mem, eq⟩ := List.mem_map.mp (get?_eq_some_iff.mp h)
  cases eq
  rw [keeps]
  exact na.entries mem

end OrderedMap

namespace Model

/-- The model holds what bindings come to: every name among them, at the place where it came first, with the binding of
that name that came last. -/
structure Collects (m : Model) (bs : List Bindings) : Prop where
  names : m.entities.keys = ((bs.flatMap Bindings.entities).map Entity.name).eraseDups
  entity : ∀ name, m.entity? name = ((bs.flatMap Bindings.entities).filter fun e => e.name = name).getLast?
  roles : m.collections.keys = ((bs.flatMap Bindings.collections).map Collection.role).eraseDups
  collection : ∀ role,
    m.collection? role = ((bs.flatMap Bindings.collections).filter fun c => c.role = role).getLast?

/-- Each binding of the model stands under its own name or role. -/
structure WellNamed (m : Model) : Prop where
  entities : m.entities.Named Entity.name
  collections : m.collections.Named Collection.role

variable {m : Model} {bs : List Bindings}

/-- A model that took bindings into an empty one holds what they come to. -/
lemma TakesIn.collects {id : Uuid} (ta : (empty id).TakesIn m bs) : m.Collects bs where
  names := by
    rw [ta.entities]
    exact OrderedMap.keys_fill_empty _
  entity name := by
    rw [entity?, ta.entities, OrderedMap.get?_fill]
    exact Option.or_none
  roles := by
    rw [ta.collections]
    exact OrderedMap.keys_fill_empty _
  collection role := by
    rw [collection?, ta.collections, OrderedMap.get?_fill]
    exact Option.or_none

/-- A model that took bindings into an empty one has each of them under its own name. -/
lemma TakesIn.wellNamed {id : Uuid} (ta : (empty id).TakesIn m bs) : m.WellNamed where
  entities := ta.entities ▸ OrderedMap.named_fill_empty _
  collections := ta.collections ▸ OrderedMap.named_fill_empty _

/-- A cache pass keeps the names of all bindings, and the keys under which they stand. -/
lemma passed_names (m : Model) (enabled : Bool) (strategy : String) :
    let passed := (m.applyCache enabled strategy).1
    passed.entities.keys = m.entities.keys ∧ passed.collections.keys = m.collections.keys ∧
      (m.WellNamed → passed.WellNamed) := by
  intro passed
  by_cases runs : cachePassRuns enabled strategy
  · rw [show passed = _ from congrArg Prod.fst (applyCache_of_runs runs m)]
    refine ⟨OrderedMap.keys_mapValues _, OrderedMap.keys_mapValues _, fun wn => ⟨?_, ?_⟩⟩
    · exact wn.entities.mapValues fun e => e.name_tag strategy
    · exact wn.collections.mapValues fun c => c.role_tag strategy
  · rw [show passed = _ from congrArg Prod.fst (applyCache_of_rests runs m)]
    exact ⟨rfl, rfl, fun wn => wn⟩

end Model

/-! ## Main statement -/

namespace Script

/-- A model that is built by a spec is the one that holds what the spec's bindings come to, with the spec's cache
settings applied in the end: it has the same names and roles in the same order, and each binding stands under its
own. -/
theorem holds_bindings {env : Setting} {spec : Spec} {w : ScriptWorld} {m : Model}
    (h : (buildSpec env spec w).1 = .ok m) :
    ∃ m₀ : Model, m₀.Collects (spec.bindings env.catalog env.descriptors) ∧
      m = (m₀.applyCache spec.overrideCache spec.strategy).1 ∧
      m.entities.keys = m₀.entities.keys ∧ m.collections.keys = m₀.collections.keys ∧ m.WellNamed := by
  cases built : (Recorder.shop env.catalog env.refusals env.descriptors).assemble spec
      ⟨w.host.log, .empty (.ofSerial w.serial)⟩ with
  | mk o r =>
    cases o with
    | error e =>
      rw [buildSpec_of_error built] at h
      cases h
    | ok m₀ =>
      rw [buildSpec_of_ok built] at h
      cases h
      have taken := Recorder.takesIn_spec built
      obtain ⟨entities, collections, named⟩ := m₀.passed_names spec.overrideCache spec.strategy
      exact ⟨m₀, taken.collects, rfl, entities, collections, named taken.wellNamed⟩

/-- The contact of a class stands in the place of the one that the bundle brought, and is cached because it has no
notes. The dog of a class name, which has a picture, stands where a descriptor's one stood and is not cached. -/
theorem holds_bindings_overridden :
    let dogs : Bindings := ⟨[.root "Dog" [⟨"picture", .simple "blob"⟩]], [.new "Dog.toys" (.simple "string")]⟩
    let pets : Bindings := ⟨[.root "Pet" [], .subclass "Dog" "Pet" []], []⟩
    let env : Setting :=
      ⟨[("Contact", ⟨[.root "Contact" []], []⟩), ("Pet", pets), ("Dog", dogs)], .none,
        DescriptorRegistry.empty.register "pets" (.ok (.ofClasses ["Pet", "Contact"])), []⟩
    let spec : Spec :=
      { Spec.empty with
        packages := ["shop"]
        bundles := [.contacts]
        descriptors := ["pets"]
        classes := [⟨"Contact"⟩]
        classNames := ["Dog"]
        imports := [⟨"C", ⟨"Contact"⟩⟩]
        overrideCache := true
        strategy := "rw" }
    ∃ m, (buildSpec env spec (.start .start)).1 = .ok m ∧
      (m.entities.values.map fun e => (e.name, e.cached)) = [("Contact", true), ("Pet", true), ("Dog", false)] ∧
      m.collections.keys = ["Contact.phones", "Dog.toys"] ∧
      ∃ m₀ : Model, m₀.Collects (spec.bindings env.catalog env.descriptors) ∧
        m = (m₀.applyCache spec.overrideCache spec.strategy).1 ∧
        m.entities.keys = m₀.entities.keys ∧ m.collections.keys = m₀.collections.keys ∧ m.WellNamed := by
  intro dogs pets env spec
  have shown : ((buildSpec env spec (.start .start)).1.toOption.map fun m =>
      (m.entities.values.map fun e => (e.name, e.cached), m.collections.keys)) =
      some ([("Contact", true), ("Pet", true), ("Dog", false)], ["Contact.phones", "Dog.toys"]) := by
    decide +kernel
  cases built : (buildSpec env spec (.start .start)).1 with
  | error e =>
    rw [built] at shown
    cases shown
  | ok m =>
    rw [built] at shown
    obtain ⟨entities, collections⟩ := Prod.mk.inj (Option.some.inj shown)
    exact ⟨m, rfl, entities, collections, holds_bindings built⟩

end Script

end ModelScopes
