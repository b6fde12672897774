import ModelScopes.Proofs.Scope.Stored
import ModelScopes.Proofs.Spec.Plan
import ModelScopes.Script.Run

/-!
# Recorded builds

What a build by a spec comes to with a recording collector. `described` is the model and `recorded` are the
contributions of the spec up to the first that is refused, both as a collector has them that has taken nothing before.
Neither depends on what was written down before, and the identity of the model is one that was not given out before. The
main statements are `Script.buildSpec_behind` and, if the collector refuses nothing by itself, `Script.buildSpec_eq`.
-/

namespace ModelScopes

/-! ## Models but for their identity -/

namespace Model

/-- The same model with another identity. -/
def withId (m : Model) (id : Uuid) : Model :=
  { m with id := id }

/-- The identity is the one that was given. -/
@[simp] lemma id_withId (m : Model) (id : Uuid) : (m.withId id).id = id := rfl

/-- A merge does not look at the identity. -/
lemma merge_withId (m : Model) (id : Uuid) (b : Bindings) : (m.withId id).merge b = (m.merge b).withId id := by
  have entities : b.entities.foldl addEntity (m.withId id) = (b.entities.foldl addEntity m).withId id :=
    List.foldl_hom (withId · id) fun _ _ => rfl
  rw [merge, entities]
  exact List.foldl_hom (withId · id) fun _ _ => rfl

/-- A cache pass does not look at the identity. -/
lemma applyCache_withId (m : Model) (id : Uuid) (enabled : Bool) (strategy : String) :
    ((m.withId id).applyCache enabled strategy).1 = (m.applyCache enabled strategy).1.withId id := by
  unfold applyCache
  split
  case isTrue => rfl
  case isFalse => rfl

end Model

/-! ## Collectors that took something before -/

namespace Recording

/-- The recording of a collector that has taken nothing. -/
def blank : Recording :=
  ⟨[], .empty (.ofSerial 0)⟩

/-- The recording behind what was written down before, with an identity for its model. -/
def behind (r : Recording) (log : List Contribution) (id : Uuid) : Recording :=
  ⟨log ++ r.log, r.model.withId id⟩

/-- A contribution is noted behind what was written down before. -/
lemma note_behind (r : Recording) (log : List Contribution) (id : Uuid) (c : Contribution) :
    (r.behind log id).note c = (r.note c).behind log id := by
  simp [note, behind]

/-- Nothing behind a log is the log. -/
lemma blank_behind (log : List Contribution) (id : Uuid) : blank.behind log id = ⟨log, .empty id⟩ := by
  simp [blank, behind, Model.withId, Model.empty]

end Recording

namespace Recorder

variable {catalog : ClassCatalog} {refusals : Refusals}

/-- A class is added whatever was written down before. -/
lemma addClass_behind (name : String) (r : Recording) (log : List Contribution) (id : Uuid) :
    addClass catalog name (r.behind log id) =
      ((addClass catalog name r).1, (addClass catalog name r).2.behind log id) := by
  unfold addClass
  split
  case h_1 => rfl
  case h_2 e _ => simp [Recording.behind, Model.merge_withId]

/-- An import is added whatever was written down before. -/
lemma addImport_behind (name : String) (c : ClassName) (r : Recording) (log : List Contribution) (id : Uuid) :
    addImport name c (r.behind log id) = ((addImport name c r).1, (addImport name c r).2.behind log id) := by
  have same : (r.behind log id).model.import? name = r.model.import? name := rfl
  unfold addImport
  rw [same]
  split
  case h_1 existing _ =>
    split
    case isTrue => rfl
    case isFalse => rfl
  case h_2 => rfl

/-- What a collector makes of a contribution does not depend on what was written down before it began. -/
lemma add_behind (x : Contribution) (r : Recording) (log : List Contribution) (id : Uuid) :
    add catalog refusals x (r.behind log id) =
      ((add catalog refusals x r).1, (add catalog refusals x r).2.behind log id) := by
  cases x with
  | package name =>
    simp only [add, Recording.note_behind]
    split <;> rfl
  | bundle b =>
    simp only [add, Recording.note_behind]
    split
    case isTrue => rfl
    case isFalse => simp [Recording.behind, Recording.note, Model.merge_withId]
  | mappedClass c =>
    simp only [add, Recording.note_behind]
    exact addClass_behind c.name (r.note _) log id
  | className name =>
    simp only [add, Recording.note_behind]
    exact addClass_behind name (r.note _) log id
  | resource name =>
    simp only [add, Recording.note_behind]
    split <;> rfl
  | queryImport name c =>
    simp only [add, Recording.note_behind]
    exact addImport_behind name c (r.note _) log id

/-- A collector that refuses nothing by itself writes every contribution down, also one that fails. -/
lemma log_add (x : Contribution) (r : Recording) : (add catalog .none x r).2.log = r.log ++ [x] := by
  cases x with
  | package | resource | bundle => rfl
  | mappedClass | className =>
    simp only [add, addClass]
    split <;> rfl
  | queryImport name c =>
    simp only [add, addImport]
    split
    case h_1 =>
      split <;> rfl
    case h_2 => rfl

end Recorder

/-! ## Parts of a build -/

namespace Collector

variable {σ : Type}

/-- The contributions that are handed over: up to the first that is refused, and this one, too. -/
def handed (c : Collector σ) : List Contribution → σ → List Contribution
  | [], _ => []
  | x :: rest, s =>
    match c.add x s with
    | (.ok (), s) => x :: handed c rest s
    | (.error _, _) => [x]

/-- After a contribution that is taken the others are handed over. -/
lemma handed_of_ok {c : Collector σ} {x : Contribution} {s s' : σ} (h : c.add x s = (.ok (), s'))
    (rest : List Contribution) : c.handed (x :: rest) s = x :: c.handed rest s' := by
  simp [handed, h]

/-- A contribution that is refused is the last one that is handed over. -/
lemma handed_of_error {c : Collector σ} {x : Contribution} {s s' : σ} {e : SourcesError}
    (h : c.add x s = (.error e, s')) (rest : List Contribution) : c.handed (x :: rest) s = [x] := by
  simp [handed, h]

end Collector

/-- The contributions of a plan in order, up to the first descriptor that cannot be made. -/
def contributions (descriptors : DescriptorRegistry) : List PlanStep → List Contribution
  | [] => []
  | .contribute c :: rest => c :: contributions descriptors rest
  | .follow name :: rest =>
    match descriptors.instantiate name with
    | .ok d => d ++ contributions descriptors rest
    | .error _ => []

namespace Recorder

variable (catalog : ClassCatalog) (refusals : Refusals) (descriptors : DescriptorRegistry)

/-- The workshop in which scripts build by specs. -/
abbrev shop : Workshop Recording :=
  .ofRegistry (collector catalog refusals) descriptors

variable {catalog refusals descriptors}

/-- The shop does the same whatever was written down before. -/
lemma mirrors_behind (log : List Contribution) (id : Uuid) :
    (shop catalog refusals descriptors).Mirrors (shop catalog refusals descriptors) (Recording.behind · log id) :=
  ⟨fun c r => add_behind c r log id, fun _ _ => rfl⟩

/-- The model is built whatever was written down before, and has the given identity. -/
lemma build_behind (r : Recording) (log : List Contribution) (id : Uuid) :
    build refusals (r.behind log id) =
      ((build refusals r).1.map (Model.withId · id), (build refusals r).2.behind log id) := by
  unfold build
  split <;> rfl

/-- A build comes to the same behind what was written down before, but for the identity of the model. -/
lemma assemble_behind (spec : Spec) (r : Recording) (log : List Contribution) (id : Uuid) :
    (shop catalog refusals descriptors).assemble spec (r.behind log id) =
      (((shop catalog refusals descriptors).assemble spec r).1.map (Model.withId · id),
        ((shop catalog refusals descriptors).assemble spec r).2.behind log id) := by
  have carried := (@mirrors_behind catalog refusals descriptors log id).performAll spec.plan r
  cases here : (shop catalog refusals descriptors).performAll spec.plan r with
  | mk o r' =>
    rw [here] at carried
    cases o with
    | error e =>
      rw [Workshop.assemble_of_error here, Workshop.assemble_of_error carried]
      rfl
    | ok u =>
      have built : (shop catalog refusals descriptors).collector.build = build refusals := rfl
      rw [Workshop.assemble_of_ok here, Workshop.assemble_of_ok carried, built, build_behind]
      cases (build refusals r').1 <;> rfl

/-! ## What is written down -/

/-- Contributions of a descriptor are written down as they are handed over, and those that follow only if all of them
were taken. -/
lemma log_contribute (cs : List Contribution) (r : Recording) :
    match (shop catalog .none descriptors).contribute cs r with
    | (.ok (), r') => r'.log = r.log ++ cs ∧
      ∀ rest, (collector catalog .none).handed (cs ++ rest) r = cs ++ (collector catalog .none).handed rest r'
    | (.error _, r') => ∀ rest, r'.log = r.log ++ (collector catalog .none).handed (cs ++ rest) r := by
  -- the rest of the plan is a part of what is proved, since it is handed over only if all of these were taken
  induction cs generalizing r with
  | nil => exact ⟨(List.append_nil _).symm, fun _ => rfl⟩
  | cons c more ih =>
    have written : ((collector catalog .none).add c r).2.log = r.log ++ [c] := log_add c r
    cases h : (collector catalog .none).add c r with
    | mk o r₁ =>
      rw [h] at written
      cases o with
      | error e =>
        have stopped : (shop catalog .none descriptors).contribute (c :: more) r = _ :=
          Workshop.contribute_of_error h more
        rw [stopped]
        intro rest
        rw [List.cons_append, Collector.handed_of_error h]
        exact written
      | ok u =>
        have goes_on : (shop catalog .none descriptors).contribute (c :: more) r = _ :=
          Workshop.contribute_of_ok h more
        have handed_on := fun rest => Collector.handed_of_ok h (more ++ rest)
        have later := ih r₁
        rw [goes_on]
        cases hr : (shop catalog .none descriptors).contribute more r₁ with
        | mk o' r' =>
          rw [hr] at later
          cases o' with
          | error e =>
            intro rest
            rw [List.cons_append, handed_on, later rest, written, List.append_assoc]
            rfl
          | ok u =>
            obtain ⟨log, handed⟩ := later
            refine ⟨by rw [log, written, List.append_assoc]; rfl, fun rest => ?_⟩
            rw [List.cons_append, handed_on, handed]
            rfl

/-- A step that comes to some contributions writes them down, and lets the rest of its plan go on if all of them were
taken. -/
lemma log_performAll_cons {step : PlanStep} {rest : List PlanStep} {cs : List Contribution} {r : Recording}
    (same : (shop catalog .none descriptors).perform step r = (shop catalog .none descriptors).contribute cs r)
    (flat : contributions descriptors (step :: rest) = cs ++ contributions descriptors rest)
    (later : ∀ r', ((shop catalog .none descriptors).performAll rest r').2.log =
      r'.log ++ (collector catalog .none).handed (contributions descriptors rest) r') :
    ((shop catalog .none descriptors).performAll (step :: rest) r).2.log =
      r.log ++ (collector catalog .none).handed (contributions descriptors (step :: rest)) r := by
  have written := @log_contribute catalog descriptors cs r
  rw [flat]
  cases h : (shop catalog .none descriptors).contribute cs r with
  | mk o r' =>
    rw [h] at same written
    cases o with
    | error e =>
      rw [Workshop.performAll_of_error same]
      exact written _
    | ok u =>
      obtain ⟨log, handed⟩ := written
      rw [Workshop.performAll_of_ok same, later r', log, handed, List.append_assoc]

/-- A plan writes its contributions down in order, up to the first that is refused. -/
lemma log_performAll (plan : List PlanStep) (r : Recording) :
    ((shop catalog .none descriptors).performAll plan r).2.log =
      r.log ++ (collector catalog .none).handed (contributions descriptors plan) r := by
  induction plan generalizing r with
  | nil => exact (List.append_nil _).symm
  | cons step rest ih =>
    cases step with
    | contribute c =>
      have same : (shop catalog .none descriptors).perform (.contribute c) r =
          (shop catalog .none descriptors).contribute [c] r := rfl
      exact log_performAll_cons same rfl ih
    | follow name =>
      have made : (shop catalog .none descriptors).instantiate name r = (descriptors.instantiate name, r) := rfl
      cases h : descriptors.instantiate name with
      | error e =>
        rw [h] at made
        rw [Workshop.performAll_of_error (Workshop.perform_of_unmade made), contributions, h]
        exact (List.append_nil _).symm
      | ok d =>
        rw [h] at made
        exact log_performAll_cons (Workshop.perform_of_made made) (by rw [contributions, h]) ih

/-- A build writes down the contributions of the spec, up to the first that is refused. -/
lemma log_assemble (spec : Spec) (r : Recording) :
    ((shop catalog .none descriptors).assemble spec r).2.log =
      r.log ++ (collector catalog .none).handed (contributions descriptors spec.plan) r := by
  rw [← log_performAll]
  cases h : (shop catalog .none descriptors).performAll spec.plan r with
  | mk o r' =>
    cases o with
    | error e => rw [Workshop.assemble_of_error h]
    | ok u =>
      rw [Workshop.assemble_of_ok h]
      rfl

end Recorder

/-! ## Main statement -/

namespace Script

/-- What a build by the spec writes down: the contributions of the spec in order, up to the first that a new collector
refuses. -/
def Setting.recorded (env : Setting) (spec : Spec) : List Contribution :=
  (Recorder.collector env.catalog env.refusals).handed (contributions env.descriptors spec.plan) .blank

/-- The model that the spec describes, or why it describes none. -/
def Setting.described (env : Setting) (spec : Spec) : Except ScopeError Model :=
  ((Recorder.shop env.catalog env.refusals env.descriptors).produce spec .blank).1.map Prod.fst

/-- The model is the one that the spec describes, but for its identity. -/
def Setting.Describes (env : Setting) (spec : Spec) (m : Model) : Prop :=
  ∃ m₀, env.described spec = .ok m₀ ∧ m = m₀.withId m.id

/-- What a build by a spec leaves of the world, but for what is logged. -/
def afterSpec (log : List Contribution) (w : ScriptWorld) : ScriptWorld :=
  { w with
    serial := w.serial + 1
    host := { w.host with log := log, collections := w.host.collections + 1 } }

/-- A build that fails leaves the log and one more collector behind. -/
lemma buildSpec_of_error {env : Setting} {spec : Spec} {w : ScriptWorld} {e : ScopeError} {r : Recording}
    (h : (Recorder.shop env.catalog env.refusals env.descriptors).assemble spec
      ⟨w.host.log, .empty (.ofSerial w.serial)⟩ = (.error e, r)) :
    buildSpec env spec w = (.error e, afterSpec r.log w) := by
  simp only [buildSpec, World.freshId, h]
  rfl

/-- A build that goes well hands the model out after its cache pass, and tells what the pass did. -/
lemma buildSpec_of_ok {env : Setting} {spec : Spec} {w : ScriptWorld} {m : Model} {r : Recording}
    (h : (Recorder.shop env.catalog env.refusals env.descriptors).assemble spec
      ⟨w.host.log, .empty (.ofSerial w.serial)⟩ = (.ok m, r)) :
    buildSpec env spec w = (.ok (m.applyCache spec.overrideCache spec.strategy).1,
      (afterSpec r.log w).emitAll (Event.ofCachePass m spec.overrideCache spec.strategy)) := by
  simp only [buildSpec, World.freshId, h]
  rfl

/-- A build by a spec comes to the model that the spec describes, with the next identity, or to the reason why it
describes none. What a new collector writes down is added to the log, and the build takes one more collector. -/
lemma buildSpec_behind (env : Setting) (spec : Spec) (w : ScriptWorld) :
    let written := ((Recorder.shop env.catalog env.refusals env.descriptors).assemble spec .blank).2.log
    (buildSpec env spec w).1 = (env.described spec).map (Model.withId · (.ofSerial w.serial)) ∧
    (buildSpec env spec w).2.sight = (afterSpec (w.host.log ++ written) w).sight ∧
    (buildSpec env spec w).2.storages = w.storages := by
  intro written
  -- the build behind the log so far, and what a new collector makes of the spec
  have moved := @Recorder.assemble_behind env.catalog env.refusals env.descriptors spec .blank w.host.log
    (.ofSerial w.serial)
  rw [Recording.blank_behind] at moved
  rw [Setting.described, Workshop.produce]
  cases h : (Recorder.shop env.catalog env.refusals env.descriptors).assemble spec .blank with
  | mk o r =>
    rw [h] at moved
    have log : (r.behind w.host.log (.ofSerial w.serial)).log = w.host.log ++ written := by
      rw [show written = r.log from congrArg (fun a => a.2.log) h]
      rfl
    cases o with
    | error e =>
      rw [buildSpec_of_error moved, log]
      exact ⟨rfl, rfl, rfl⟩
    | ok m =>
      rw [buildSpec_of_ok moved, log, Model.applyCache_withId]
      exact ⟨rfl, rfl, rfl⟩

/-- If the collector refuses nothing by itself then what is written down are the contributions of the spec in order. -/
lemma buildSpec_eq {env : Setting} (quiet : env.refusals = .none) (spec : Spec) (w : ScriptWorld) :
    (buildSpec env spec w).1 = (env.described spec).map (Model.withId · (.ofSerial w.serial)) ∧
    (buildSpec env spec w).2.sight = (afterSpec (w.host.log ++ env.recorded spec) w).sight ∧
    (buildSpec env spec w).2.storages = w.storages := by
  have written : ((Recorder.shop env.catalog env.refusals env.descriptors).assemble spec .blank).2.log =
      env.recorded spec := by
    rw [Setting.recorded, quiet]
    exact Recorder.log_assemble spec .blank
  rw [← written]
  exact buildSpec_behind env spec w

end Script

end ModelScopes
