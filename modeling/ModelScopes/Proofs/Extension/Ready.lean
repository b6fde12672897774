import ModelScopes.Proofs.Extension.Nested
import ModelScopes.Proofs.Extension.SpecScopes

/-!
# Instances made ready

What comes of making a test instance ready, in any world that comes up and for any producer, also one that uses the
library itself. A scope that is stored is answered as it is, and nothing else happens. If there is none then either no
producer can be had, and nothing happens but the error; or the producer fails, and nothing is left of its scope; or the
new scope is stored and handed to the instance. The main statement is `Extension.finds_or_creates`.
-/

namespace ModelScopes

variable {P H : Type}

namespace Produce

/-- Producers of which each takes a key out of a storage before it builds, and those without a key fail. -/
def sweeping : Produce (Option ScopeKey) Unit
  | none, _, w => (.error (.producer "nothing to take out"), w)
  | some key, registry, w => (.ok (.empty registry.id), (w.remove 0 key).2)

/-- These producers only use the library. -/
lemma lawful_sweeping : sweeping.Lawful
  | none, _, w => .refl w
  | some key, _, w => .remove w 0 key

end Produce

namespace Extension

/-- The producer that a unit's new scope gets: the instance's own if it offers one, or else that of the spec which is
attached to the context's element. -/
inductive Chooses (x : Extension P) (specs : SpecCatalog) (inst : Instance P) (ctx : Context) : P → Prop
  | own {p : P} (offered : inst.producer = some p) : Chooses x specs inst ctx p
  | spec {element : String} {s : Spec} (none : inst.producer = none) (here : ctx.element = some element)
      (attached : specs.get? element = some s) : Chooses x specs inst ctx (x.ofSpec s)

/-- The registry that a unit's new scope gets. -/
def newRegistry (x : Extension P) (w : World P H) : Registry :=
  (w.freshRegistry x.config.settings).1

/-- The world in which the producer of a unit's new scope is called. -/
def begun (x : Extension P) (ctx : Context) (w : World P H) : World P H :=
  (w.freshRegistry x.config.settings).2.beforeBuild x.storage (x.key ctx)

/-- After the build the unit's key still has the slot in which its scope is created. -/
def KeepsSlot (x : Extension P) (ctx : Context) (w v : World P H) : Prop :=
  (v.storages x.storage).slot? (x.key ctx) = ((x.begun ctx w).storages x.storage).slot? (x.key ctx)

instance (x : Extension P) (ctx : Context) (w v : World P H) : Decidable (x.KeepsSlot ctx w v) :=
  inferInstanceAs (Decidable (_ = _))

/-- What is left if the producer fails and leaves the world `v`: what is stored, and all scopes, are as it left them,
and no key waits for a scope that did not wait before. If it left the storages alone then they are as before. -/
structure Undone (x : Extension P) (ctx : Context) (w v w' : World P H) : Prop where
  uses : w.Uses w'
  sight : w'.sight = v.sight
  find : ∀ st key, w'.find st key = v.find st key
  busy : ∀ st key, w'.Busy st key → w.Busy st key
  alone : v.storages = (x.begun ctx w).storages →
    ∀ st, (w'.storages st).table = (w.storages st).table ∧ ∀ key, w'.find st key = w.find st key

/-- What comes of it if the producer builds a model and leaves the world `v`: there is a new scope with this model, and
a registry whose identity was not given out before. It is handed to the instance if this is enabled and the instance
takes scopes, and it is stored under the unit's key if this still has its slot. All else is as the producer left it, and
no key waits for a scope that did not wait before. -/
structure Made (x : Extension P) (inst : Instance P) (ctx : Context) (w v : World P H) (p : P) (m : Model)
    (a : Processed × World P H) : Prop where
  uses : w.Uses a.2
  outcome : a.1.outcome = .ok v.scopes.length
  injected : a.1.injected = if x.config.injectScope ∧ inst.takesScope then some v.scopes.length else none
  new : w.scopes.length ≤ v.scopes.length
  scopes : a.2.scopes = v.scopes ++ [⟨x.key ctx, x.newRegistry w, p, .active (some ⟨v.serial, m⟩)⟩]
  settings : (x.newRegistry w).settings = x.config.settings
  fresh : w.serial < 16 ^ 15 → ∀ n < w.serial, (x.newRegistry w).id ≠ .ofSerial n
  host : a.2.host = v.host
  find : ∀ st key, a.2.find st key =
    if st = x.storage ∧ key = x.key ctx ∧ x.KeepsSlot ctx w v then some v.scopes.length else v.find st key
  busy : ∀ st key, a.2.Busy st key → w.Busy st key
  alone : v.storages = (x.begun ctx w).storages → x.KeepsSlot ctx w v ∧ ∀ st key, v.find st key = w.find st key

variable {produce : Produce P H} {w v : World P H} {x : Extension P} {specs : SpecCatalog} {inst : Instance P}
  {ctx : Context} {p : P}

/-! ## Which producer -/

/-- The producer that a unit is to get is the one that the code chooses. -/
lemma Chooses.producerFor (ch : x.Chooses specs inst ctx p) : x.producerFor specs inst ctx = .ok p := by
  cases ch with
  | own offered => simp [Extension.producerFor, offered]
  | spec none here attached => simp [Extension.producerFor, specProducer, none, here, attached]

/-- Without a producer of its own and without an element a unit gets none. -/
lemma producerFor_of_detached (none : inst.producer = none) (detached : ctx.element = .none) :
    x.producerFor specs inst ctx = .error (.unresolvableContext ctx.displayName) := by
  simp [producerFor, specProducer, none, detached]

/-- Without a producer of its own and a spec for its element a unit gets none. -/
lemma producerFor_of_unattached {element : String} (none : inst.producer = none) (here : ctx.element = some element)
    (missing : specs.get? element = .none) :
    x.producerFor specs inst ctx = .error (.specificationMissing element) := by
  simp [producerFor, specProducer, none, here, missing]

/-! ## How it comes out -/

/-- If the unit has a scope already then this is the answer, and nothing changes. -/
lemma postProcess_of_found {i : ScopeId} (h : w.find x.storage (x.key ctx) = some i) :
    x.postProcess produce specs inst ctx w = (⟨.ok i, none⟩, w) := by
  have found : x.find ctx w = some i := h
  simp [postProcess, found]

/-- If the unit gets no producer then the reason is the answer, and nothing changes. -/
lemma postProcess_of_unchosen {e : ScopeError} (h : w.find x.storage (x.key ctx) = none)
    (refused : x.producerFor specs inst ctx = .error e) :
    x.postProcess produce specs inst ctx w = (⟨.error e, none⟩, w) := by
  have missing : x.find ctx w = none := h
  simp [postProcess, missing, refused]

section Chosen

variable (h : w.find x.storage (x.key ctx) = none) (absent : (w.storages x.storage).slot? (x.key ctx) = none)
  (ch : x.Chooses specs inst ctx p)

include h absent ch

/-- If the producer fails then its error is the answer. -/
lemma postProcess_of_failed {e : ScopeError} (hp : produce p (x.newRegistry w) (x.begun ctx w) = (.error e, v)) :
    x.postProcess produce specs inst ctx w =
      (⟨.error e, none⟩,
        v.afterFailure x.storage (x.key ctx) ((w.storages x.storage).fetch (x.key ctx)).1 e) := by
  have missing : x.find ctx w = none := h
  have asked : (w.freshRegistry x.config.settings).2.getOrCreate produce x.storage (x.key ctx) p
      (w.freshRegistry x.config.settings).1 = _ := World.getOrCreate_of_absent_failed absent hp
  simp only [postProcess, missing, ch.producerFor, asked]
  rfl

/-- If the producer builds then the next scope is the answer. -/
lemma postProcess_of_built {m : Model} (hp : produce p (x.newRegistry w) (x.begun ctx w) = (.ok m, v)) :
    x.postProcess produce specs inst ctx w =
      (⟨.ok v.scopes.length, if x.config.injectScope && inst.takesScope then some v.scopes.length else none⟩,
        v.afterCreation x.storage (x.key ctx) ((w.storages x.storage).fetch (x.key ctx)).1 (x.newRegistry w) p m) := by
  have missing : x.find ctx w = none := h
  have asked : (w.freshRegistry x.config.settings).2.getOrCreate produce x.storage (x.key ctx) p
      (w.freshRegistry x.config.settings).1 = _ := World.getOrCreate_of_absent_built absent hp
  simp only [postProcess, missing, ch.producerFor, asked]
  rfl

end Chosen

/-- The slot that is made for a unit's new scope changes nothing that is found. -/
lemma find_begun (x : Extension P) (ctx : Context) (w : World P H) (st : StorageId) (key : ScopeKey) :
    (x.begun ctx w).find st key = w.find st key := by
  rw [begun, World.find, World.storages_beforeBuild_apply]
  split
  case isTrue e =>
    rw [e]
    exact Storage.find_fetch _ _ _
  case isFalse => rfl

/-- If the producer left the storages alone then the same is found as before. -/
lemma find_of_alone (alone : v.storages = (x.begun ctx w).storages) (st : StorageId) (key : ScopeKey) :
    v.find st key = w.find st key := by
  rw [← x.find_begun ctx w, World.find, World.find, alone]

/-- The storages in which a producer is called are sound. -/
lemma sound_begun (re : w.Reached) (st : StorageId) : ((x.begun ctx w).storages st).Sound := by
  have so : ∀ st, ((w.freshRegistry x.config.settings).2.storages st).Sound := re.sound
  exact World.sound_beforeBuild so x.storage (x.key ctx) st

/-- The unit's key keeps its slot just when it has the one that was fetched for it. -/
lemma keepsSlot_iff : x.KeepsSlot ctx w v ↔
    (v.storages x.storage).slot? (x.key ctx) = some ((w.storages x.storage).fetch (x.key ctx)).1 := by
  have mine : ((x.begun ctx w).storages x.storage).slot? (x.key ctx) =
      some ((w.storages x.storage).fetch (x.key ctx)).1 := by
    rw [begun, World.storages_beforeBuild, Storage.slot?_fetch, if_pos rfl]
    rfl
  rw [KeepsSlot, mine]

section Build

variable (re : w.Reached) (absent : (w.storages x.storage).slot? (x.key ctx) = none) (us : (x.begun ctx w).Uses v)

include re us

/-- What the producer leaves respects the slot that was fetched. -/
lemma respects_begun :
    ((w.storages x.storage).fetch (x.key ctx)).2.Respects (v.storages x.storage) := by
  have kept := (us.respects (sound_begun re)).storages x.storage
  rw [begun, World.storages_beforeBuild] at kept
  exact kept

include absent

/-- A producer that fails leaves nothing of the scope for which it was called. -/
lemma undone (e : ScopeError) :
    x.Undone ctx w v (v.afterFailure x.storage (x.key ctx) ((w.storages x.storage).fetch (x.key ctx)).1 e) := by
  have failed := World.uses_afterFailure (w := (w.freshRegistry x.config.settings).2) absent us e
  have used := (w.uses_freshRegistry x.config.settings).trans failed
  have kept : ∀ st key,
      (v.afterFailure x.storage (x.key ctx) ((w.storages x.storage).fetch (x.key ctx)).1 e).find st key =
        v.find st key := by
    intro st key
    rw [World.find, World.storages_afterFailure]
    split
    case isTrue here =>
      rw [here]
      exact (respects_begun re us).find_release absent key
    case isFalse => rfl
  refine ⟨used, rfl, kept, fun st key => (used.respects re.sound).busy, fun alone st => ⟨?_, fun key => ?_⟩⟩
  · rw [World.storages_afterFailure, alone, begun, World.storages_beforeBuild, World.storages_beforeBuild_apply]
    split
    case isTrue here =>
      rw [here]
      exact Storage.table_release_fetch absent
    case isFalse => rfl
  · exact (kept st key).trans (find_of_alone alone st key)

/-- A producer that succeeds leaves a new scope with its model. -/
lemma made (m : Model) (inst : Instance P) (p : P) :
    x.Made inst ctx w v p m
      (⟨.ok v.scopes.length, if x.config.injectScope && inst.takesScope then some v.scopes.length else none⟩,
        v.afterCreation x.storage (x.key ctx) ((w.storages x.storage).fetch (x.key ctx)).1 (x.newRegistry w) p m) := by
  have created := World.uses_afterCreation (w := (w.freshRegistry x.config.settings).2) absent us (x.newRegistry w) p m
  have used := (w.uses_freshRegistry x.config.settings).trans created
  have found : ∀ st key, (v.afterCreation x.storage (x.key ctx) ((w.storages x.storage).fetch (x.key ctx)).1
      (x.newRegistry w) p m).find st key =
        if st = x.storage ∧ key = x.key ctx ∧ x.KeepsSlot ctx w v then some v.scopes.length else v.find st key := by
    intro st key
    rw [World.find, World.storages_afterCreation]
    split
    case isTrue here =>
      rw [here, (respects_begun re us).find_publish absent (re.sound x.storage)]
      simp only [keepsSlot_iff, true_and]
      rfl
    case isFalse here => rw [if_neg fun h => here h.1, World.find]
  refine ⟨used, rfl, by simp, (us.respects (sound_begun re)).scopes, rfl, rfl, fun few n lt same => ?_, rfl, found,
    fun st key => (used.respects re.sound).busy, fun alone => ⟨by rw [KeepsSlot, alone], find_of_alone alone⟩⟩
  exact Nat.ne_of_gt lt (Uuid.ofSerial_injective few (Nat.lt_trans lt few) same)

end Build

/-! ## Main statement -/

/-- Making a test instance ready finds its unit's scope or creates it, all of it or nothing. A scope that is stored
under the unit's key is answered, and nothing else happens, whatever producers there are. If none is stored, and none is
being created, then a producer is chosen, and the error that says why there is none changes nothing. A producer that
fails leaves nothing of its scope, and one that succeeds leaves it, whatever use they make of the library. -/
theorem finds_or_creates (re : w.Reached) (x : Extension P) (ctx : Context)
    (free : ¬ w.Busy x.storage (x.key ctx)) :
    (∀ i, w.find x.storage (x.key ctx) = some i → ∀ (produce : Produce P H) specs inst,
      x.postProcess produce specs inst ctx w = (⟨.ok i, none⟩, w)) ∧
    (w.find x.storage (x.key ctx) = none → ∀ (produce : Produce P H) specs inst,
      let a := x.postProcess produce specs inst ctx w
      (inst.producer = none → ctx.element = none →
        a = (⟨.error (.unresolvableContext ctx.displayName), none⟩, w)) ∧
      (∀ element, inst.producer = none → ctx.element = some element → specs.get? element = none →
        a = (⟨.error (.specificationMissing element), none⟩, w)) ∧
      ∀ p, x.Chooses specs inst ctx p →
        match produce p (x.newRegistry w) (x.begun ctx w) with
        | (.error e, v) => (x.begun ctx w).Uses v → a.1 = ⟨.error e, none⟩ ∧ x.Undone ctx w v a.2
        | (.ok m, v) => (x.begun ctx w).Uses v → x.Made inst ctx w v p m a) := by
  refine ⟨fun i found produce specs inst => postProcess_of_found found, fun missing produce specs inst => ?_⟩
  intro a
  refine ⟨fun none detached => ?_, fun element none here unattached => ?_, fun p ch => ?_⟩
  · exact postProcess_of_unchosen missing (producerFor_of_detached none detached)
  · exact postProcess_of_unchosen missing (producerFor_of_unattached none here unattached)
  -- no scope is stored and none is being created, so the key has no slot yet
  · have absent := Storage.slot?_eq_none_of_not_pending (fun slot wait => free ⟨slot, wait⟩) missing
    cases hp : produce p (x.newRegistry w) (x.begun ctx w) with
    | mk r v =>
      cases r with
      | error e =>
        intro us
        rw [show a = _ from postProcess_of_failed missing absent ch hp]
        exact ⟨rfl, undone re absent us e⟩
      | ok m =>
        intro us
        rw [show a = _ from postProcess_of_built missing absent ch hp]
        exact made re absent us m inst p

/-- While a scope for the unit B is being created, the unit C is made ready by a producer that takes the scope of the
unit A out. -/
theorem finds_or_creates_sweeping :
    let x : Extension (Option ScopeKey) := ⟨⟨"demo", true, .empty⟩, 0, fun _ => none⟩
    let unit (id : String) : Context := .forClass id "T"
    let inst (p : Option ScopeKey) : Instance (Option ScopeKey) := ⟨some p, true⟩
    let first : Errand (Option ScopeKey) Unit := .deed 0 (.postProcess x 0 (inst (some (x.key (unit "B")))) (unit "A"))
    let z := (Session.start (fun _ => .empty) ()).run Produce.sweeping [first]
    let w := z.world.beforeBuild 0 (x.key (unit "B"))
    let a := x.postProcess Produce.sweeping .empty (inst (some (x.key (unit "A")))) (unit "C") w
    w.Reached ∧ ¬ w.Busy 0 (x.key (unit "C")) ∧ w.find 0 (x.key (unit "A")) = some 0 ∧
    a.1.outcome = .ok 1 ∧ a.1.injected = some 1 ∧ a.2.find 0 (x.key (unit "C")) = some 1 ∧
    a.2.find 0 (x.key (unit "A")) = none ∧ a.2.Busy 0 (x.key (unit "B")) := by
  intro x unit inst first z w a
  obtain ⟨re₀, -⟩ := Session.reached_run Produce.lawful_sweeping (fun _ => .empty) () [first]
  have re : w.Reached := .build re₀ (by decide +kernel)
  have free : ¬ w.Busy 0 (x.key (unit "C")) := by decide +kernel
  have missing : w.find 0 (x.key (unit "C")) = none := by decide +kernel
  obtain ⟨-, create⟩ := finds_or_creates re x (unit "C") free
  obtain ⟨-, -, build⟩ := create missing Produce.sweeping .empty (inst (some (x.key (unit "A"))))
  have made := build (some (x.key (unit "A"))) (.own rfl) (.remove _ 0 _)
  refine ⟨re, free, by decide +kernel, made.outcome, made.injected, ?_, ?_, by decide +kernel⟩
  · rw [made.find]
    decide +kernel
  · rw [made.find]
    decide +kernel

/-- A producer that takes out the key for which it builds: the scope is answered, and it is not stored. An instance that
does not take scopes is handed none. -/
theorem made_and_not_stored :
    let x : Extension (Option ScopeKey) := ⟨⟨"demo", true, .empty⟩, 0, fun _ => none⟩
    let ctx : Context := .forClass "u" "T"
    let own := x.postProcess Produce.sweeping .empty ⟨some (some (x.key ctx)), true⟩ ctx (.start ())
    let plain := x.postProcess Produce.sweeping .empty ⟨some (some ⟨"demo", "v"⟩), false⟩ ctx (.start ())
    Produce.sweeping.Lawful ∧ x.config.injectScope = true ∧
    own.1.outcome = .ok 0 ∧ own.2.find 0 (x.key ctx) = none ∧
    plain.1.outcome = .ok 0 ∧ plain.1.injected = none :=
  ⟨Produce.lawful_sweeping, rfl, rfl, by decide +kernel, rfl, rfl⟩

end Extension

end ModelScopes
