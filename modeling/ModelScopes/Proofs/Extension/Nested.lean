import ModelScopes.Proofs.Extension.Errands
import ModelScopes.Proofs.Storage.Pending

/-!
# Use from within builds

A producer may itself use the library, also while the scope for which it builds is being created. What comes of a world
by use that comes to its end, from outside or from within a build, is `World.Uses`. The one thing that is ruled out is
to ask for a scope that is being created, which would wait for ever. Whatever is used, the slots of the scopes that are
being created are respected (`World.Uses.respects`). The worlds that come up are `World.Reached`, those within builds
among them. Between the errands of a session no scope is being created, even if its producers use the library
(`Session.reached_run`).
-/

namespace ModelScopes

variable {P H ε : Type}

namespace World

/-- A scope is being created for the key. -/
def Busy (w : World P H) (st : StorageId) (key : ScopeKey) : Prop :=
  ∃ slot, (w.storages st).Pending key slot

/-- A scope is being created for a key if the key has a slot and no scope is found under it. -/
lemma busy_iff {w : World P H} {st : StorageId} {key : ScopeKey} :
    w.Busy st key ↔ ((w.storages st).slot? key).isSome ∧ w.find st key = none := by
  simp only [Busy, Storage.Pending, find, Storage.find]
  cases (w.storages st).slot? key <;> simp

instance (w : World P H) (st : StorageId) (key : ScopeKey) : Decidable (w.Busy st key) :=
  decidable_of_iff _ busy_iff.symm

/-- What comes of a world by use of the library. Scopes may change and be added without a storage, and keys may be taken
out. A creation is for a key without a slot, and goes through a build that uses the library in turn. -/
inductive Uses : World P H → World P H → Prop
  | aside {w w' : World P H} (storages : w'.storages = w.storages) (scopes : w.scopes.length ≤ w'.scopes.length)
      (serial : w.serial ≤ w'.serial) : Uses w w'
  | trans {w w' w'' : World P H} (first : Uses w w') (second : Uses w' w'') : Uses w w''
  | remove (w : World P H) (st : StorageId) (key : ScopeKey) : Uses w (w.remove st key).2
  | create {w v : World P H} {st : StorageId} {key : ScopeKey} (absent : (w.storages st).slot? key = none)
      (build : Uses (w.beforeBuild st key) v) (i : ScopeId) :
      Uses w (v.modifyStorage st (·.publish ((w.storages st).fetch key).1 i))
  | fail {w v : World P H} {st : StorageId} {key : ScopeKey} (absent : (w.storages st).slot? key = none)
      (build : Uses (w.beforeBuild st key) v) :
      Uses w (v.modifyStorage st (·.release key ((w.storages st).fetch key).1))

/-- The worlds that come up, those within builds among them. -/
inductive Reached : World P H → Prop
  | start (host : H) : Reached (.start host)
  | use {w w' : World P H} (re : Reached w) (us : w.Uses w') : Reached w'
  | build {w : World P H} {st : StorageId} {key : ScopeKey} (re : Reached w)
      (absent : (w.storages st).slot? key = none) : Reached (w.beforeBuild st key)

/-- All storages respect the slots of scopes that are being created, and no scope or identity is lost. -/
structure Respects (w w' : World P H) : Prop where
  storages : ∀ st, (w.storages st).Respects (w'.storages st)
  scopes : w.scopes.length ≤ w'.scopes.length
  serial : w.serial ≤ w'.serial

variable {produce : Produce P H} {w w' w'' v : World P H} {st : StorageId} {key : ScopeKey} {registry : Registry}
  {p : P}

/-! ## Slots are respected -/

/-- Changing one storage leaves the others. -/
lemma storages_modifyStorage_apply (w : World P H) (st : StorageId) (f : Storage → Storage) (st' : StorageId) :
    (w.modifyStorage st f).storages st' = if st' = st then f (w.storages st) else w.storages st' := rfl

/-- Before a build the slot of the key is fetched, in its storage only. -/
lemma storages_beforeBuild_apply (w : World P H) (st : StorageId) (key : ScopeKey) (st' : StorageId) :
    (w.beforeBuild st key).storages st' =
      if st' = st then ((w.storages st).fetch key).2 else w.storages st' := rfl

/-- Sound storages are still sound before a build. -/
lemma sound_beforeBuild (so : ∀ st, (w.storages st).Sound) (st : StorageId) (key : ScopeKey) (st' : StorageId) :
    ((w.beforeBuild st key).storages st').Sound := by
  rw [storages_beforeBuild_apply]
  split
  case isTrue => exact (so st).fetch key
  case isFalse => exact so st'

/-- Respect goes on from where it stopped. -/
lemma Respects.trans (re : w.Respects w') (re' : w'.Respects w'') : w.Respects w'' :=
  ⟨fun st => (re.storages st).trans (re'.storages st), Nat.le_trans re.scopes re'.scopes,
    Nat.le_trans re.serial re'.serial⟩

/-- A build is respectful as a whole if the slot that was fetched for it is dealt with in the end. -/
lemma Respects.of_build (re : (w.beforeBuild st key).Respects v) {f : Storage → Storage}
    (here : (w.storages st).Respects (f (v.storages st))) : w.Respects (v.modifyStorage st f) := by
  refine ⟨fun st' => ?_, re.scopes, re.serial⟩
  have there := re.storages st'
  rw [storages_beforeBuild_apply] at there
  rw [storages_modifyStorage_apply]
  split
  case isTrue e => rwa [e]
  case isFalse ne => rwa [if_neg ne] at there

/-- Whatever is used, the slots of scopes that are being created are respected. -/
lemma Uses.respects (us : w.Uses w') (so : ∀ st, (w.storages st).Sound) : w.Respects w' := by
  induction us with
  | aside storages scopes serial =>
    refine ⟨fun st => ?_, scopes, serial⟩
    rw [storages]
    exact (so st).respects_refl
  | trans _ _ ih ih' =>
    have first := ih so
    exact first.trans (ih' fun st => (first.storages st).sound)
  | remove w st key =>
    refine ⟨fun st' => ?_, Nat.le_refl _, Nat.le_refl _⟩
    rw [World.remove, storages_modifyStorage_apply]
    split
    case isTrue e =>
      rw [e]
      exact (so st).respects_remove key
    case isFalse => exact (so st').respects_refl
  | @create w v st key absent _ i ih =>
    have build := ih (sound_beforeBuild so st key)
    have here := build.storages st
    rw [storages_beforeBuild] at here
    exact build.of_build (here.publish absent i)
  | @fail w v st key _ _ ih =>
    have build := ih (sound_beforeBuild so st key)
    have here := build.storages st
    rw [storages_beforeBuild] at here
    exact build.of_build here.release

/-- No key is left waiting by use that comes to its end. -/
lemma Respects.busy (re : w.Respects w') {st : StorageId} {key : ScopeKey} : w'.Busy st key → w.Busy st key :=
  fun ⟨slot, wait⟩ => ⟨slot, (re.storages st).pending key slot wait⟩

/-- In all worlds that come up the storages are sound. -/
lemma Reached.sound (re : w.Reached) (st : StorageId) : (w.storages st).Sound := by
  induction re generalizing st with
  | start => exact .empty
  | use _ us ih => exact ((us.respects ih).storages st).sound
  | build _ _ ih => exact sound_beforeBuild ih _ _ st

/-- In a tidy world no scope is being created. -/
lemma Tidy.not_busy (ti : w.Tidy) (st : StorageId) (key : ScopeKey) : ¬ w.Busy st key :=
  fun ⟨slot, wait⟩ => (ti st).not_pending key slot wait

/-! ## Operations are used -/

/-- A world comes of itself by no use at all. -/
lemma Uses.refl (w : World P H) : w.Uses w :=
  .aside rfl (Nat.le_refl _) (Nat.le_refl _)

/-- A log entry is a use. -/
lemma uses_emit (w : World P H) (e : Event) : w.Uses (w.emit e) :=
  .aside rfl (Nat.le_refl _) (Nat.le_refl _)

/-- A change of a scope is a use. -/
lemma uses_setScope (w : World P H) (i : ScopeId) (s : Scope P) : w.Uses (w.setScope i s) :=
  .aside rfl (by simp [setScope]) (Nat.le_refl _)

/-- A new scope without a storage is a use. -/
lemma uses_addScope (w : World P H) (s : Scope P) : w.Uses (w.addScope s).2 :=
  .aside rfl (by simp [addScope]) (Nat.le_refl _)

/-- A new registry is a use. -/
lemma uses_freshRegistry (w : World P H) (settings : Settings) : w.Uses (w.freshRegistry settings).2 :=
  .aside rfl (Nat.le_refl _) (Nat.le_succ _)

/-- Closing a scope is a use. -/
lemma uses_close (i : ScopeId) (w : World P H) : w.Uses (w.close i) := by
  have same := sight_close i w
  refine .aside (storages_close i w) (Nat.le_of_eq ?_) (Nat.le_of_eq (congrArg Sight.serial same).symm)
  rw [show (w.close i).scopes = _ from congrArg Sight.scopes same, List.length_modify]

/-- Invalidating a scope is a use. -/
lemma uses_invalidate {i : ScopeId} {r : Except ScopeError Unit} (h : w.invalidate i = some (r, w')) : w.Uses w' := by
  obtain ⟨ag, storages⟩ := ages_invalidate h
  obtain ⟨s, -, eq⟩ := Option.map_eq_some_iff.mp h
  obtain ⟨-, -, serial, -⟩ := s.invalidate_world w
  refine .aside storages (Nat.le_of_eq ag.length.symm) (Nat.le_of_eq ?_)
  cases eq
  exact serial.symm

/-- Closing scopes by their keys is a use. -/
lemma uses_closeKeys (w : World P H) (st : StorageId) (keys : List ScopeKey) : w.Uses (w.closeKeys st keys).2 := by
  induction keys generalizing w with
  | nil => exact .refl _
  | cons key rest ih =>
    have removed := Uses.remove w st key
    rw [closeKeys]
    cases h : w.remove st key with
    | mk found w' =>
      rw [h] at removed
      cases found with
      | none => exact removed.trans (ih w')
      | some i => exact removed.trans ((uses_close i w').trans (ih (w'.close i)))

/-- Closing all scopes of a storage is a use. -/
lemma uses_closeAll (w : World P H) (st : StorageId) : w.Uses (w.closeAll st).2 := by
  have closed := uses_closeKeys w st (w.storages st).keys
  rw [closeAll]
  simp only
  split
  case isTrue => exact closed
  case isFalse => exact closed.trans (uses_emit _ _)

/-! ## Builds are used -/

/-- What becomes of the world `v` that a build left which failed in the slot of a key. -/
def afterFailure (st : StorageId) (key : ScopeKey) (slot : SlotId) (e : ScopeError) (v : World P H) : World P H :=
  (v.modifyStorage st (·.release key slot)).emit (.notCreated key e)

/-- What becomes of the world `v` that a build left which succeeded in the slot of a key. -/
def afterCreation (st : StorageId) (key : ScopeKey) (slot : SlotId) (registry : Registry) (p : P) (m : Model)
    (v : World P H) : World P H :=
  let built := { v with serial := v.serial + 1 }.emit (.built key m.id m.entities.size m.collections.size)
  let kept := (built.addScope ⟨key, registry, p, .active (some ⟨v.serial, m⟩)⟩).2
  (kept.modifyStorage st (·.publish slot v.scopes.length)).emit (.created key)

/-- After a build that failed the slot is released, in its storage only. -/
lemma storages_afterFailure (st : StorageId) (key : ScopeKey) (slot : SlotId) (e : ScopeError) (v : World P H)
    (st' : StorageId) : (v.afterFailure st key slot e).storages st' =
      if st' = st then (v.storages st).release key slot else v.storages st' := rfl

/-- After a build that succeeded the scope is in the slot, in its storage only. -/
lemma storages_afterCreation (st : StorageId) (key : ScopeKey) (slot : SlotId) (registry : Registry) (p : P)
    (m : Model) (v : World P H) (st' : StorageId) : (v.afterCreation st key slot registry p m).storages st' =
      if st' = st then (v.storages st).publish slot v.scopes.length else v.storages st' := rfl

/-- For a key without a slot a build that fails is the answer, and its slot is released. -/
lemma getOrCreate_of_absent_failed {e : ScopeError} (absent : (w.storages st).slot? key = none)
    (hp : produce p registry (w.beforeBuild st key) = (.error e, v)) :
    w.getOrCreate produce st key p registry =
      (.error e, v.afterFailure st key ((w.storages st).fetch key).1 e) := by
  rw [getOrCreate_of_absent absent, createIn, openScope_of_failed hp, afterFailure]

/-- For a key without a slot a build that succeeds makes the next scope, which is the answer. -/
lemma getOrCreate_of_absent_built {m : Model} (absent : (w.storages st).slot? key = none)
    (hp : produce p registry (w.beforeBuild st key) = (.ok m, v)) :
    w.getOrCreate produce st key p registry =
      (.ok v.scopes.length, v.afterCreation st key ((w.storages st).fetch key).1 registry p m) := by
  rw [getOrCreate_of_absent absent, createIn, openScope_of_built hp, afterCreation]

/-- A creation that fails is a use if its build is one. -/
lemma uses_afterFailure (absent : (w.storages st).slot? key = none) (build : (w.beforeBuild st key).Uses v)
    (e : ScopeError) : w.Uses (v.afterFailure st key ((w.storages st).fetch key).1 e) :=
  (Uses.fail absent build).trans (uses_emit _ _)

/-- A creation that succeeds is a use if its build is one. -/
lemma uses_afterCreation (absent : (w.storages st).slot? key = none) (build : (w.beforeBuild st key).Uses v)
    (registry : Registry) (p : P) (m : Model) :
    w.Uses (v.afterCreation st key ((w.storages st).fetch key).1 registry p m) := by
  have kept : v.Uses (({ v with serial := v.serial + 1 }.emit
      (.built key m.id m.entities.size m.collections.size)).addScope
        ⟨key, registry, p, .active (some ⟨v.serial, m⟩)⟩).2 :=
    .aside rfl (by simp [addScope]) (Nat.le_succ _)
  exact (Uses.create absent (build.trans kept) _).trans (uses_emit _ _)

/-- To find a scope or create it is use of the library, if it is not being created. -/
lemma uses_getOrCreate (free : ¬ w.Busy st key)
    (build : (w.beforeBuild st key).Uses (produce p registry (w.beforeBuild st key)).2) :
    w.Uses (w.getOrCreate produce st key p registry).2 := by
  cases found : w.find st key with
  | some i =>
    rw [getOrCreate_of_found found]
    exact .refl _
  | none =>
    have absent := Storage.slot?_eq_none_of_not_pending (fun slot wait => free ⟨slot, wait⟩) found
    cases hp : produce p registry (w.beforeBuild st key) with
    | mk r v =>
      rw [hp] at build
      cases r with
      | error e =>
        rw [getOrCreate_of_absent_failed absent hp]
        exact uses_afterFailure absent build e
      | ok m =>
        rw [getOrCreate_of_absent_built absent hp]
        exact uses_afterCreation absent build registry p m

end World

/-- Producers that do nothing in the world but use the library. -/
def Produce.Lawful (produce : Produce P H) : Prop :=
  ∀ (p : P) (registry : Registry) (w : World P H), w.Uses (produce p registry w).2

namespace World

variable {produce : Produce P H} {w w' : World P H} (la : produce.Lawful)

include la

/-- Asking a scope for its model is a use if the producer is lawful. -/
lemma uses_modelOf {i : ScopeId} {r : Except ScopeError Built} (h : w.modelOf produce i = some (r, w')) :
    w.Uses w' := by
  obtain ⟨s, hs, eq⟩ := Option.map_eq_some_iff.mp h
  have build := (uses_emit w (.building s.key)).trans (la s.producer s.registry (w.emit (.building s.key)))
  obtain ⟨-, out⟩ | ⟨b, -, out⟩ | ⟨e, v, -, hp, out⟩ | ⟨m, v, -, hp, out⟩ := s.model_cases produce w
  · rw [out] at eq
    cases eq
    exact uses_setScope w i _
  · rw [out] at eq
    cases eq
    exact uses_setScope w i _
  · rw [hp] at build
    rw [out] at eq
    cases eq
    exact build.trans (uses_setScope v i _)
  · rw [hp] at build
    rw [out] at eq
    cases eq
    exact build.trans (.aside rfl (by simp [setScope]) (Nat.le_succ _))

/-- Opening a scope is a use if the producer is lawful. -/
lemma uses_openScope (w : World P H) (key : ScopeKey) (registry : Registry) (p : P) :
    w.Uses (w.openScope produce key registry p).2 := by
  have build := (uses_emit w (.building key)).trans (la p registry (w.emit (.building key)))
  cases hp : produce p registry (w.emit (.building key)) with
  | mk r v =>
    rw [hp] at build
    cases r with
    | error e =>
      rw [openScope_of_failed hp]
      exact build
    | ok m =>
      rw [openScope_of_built hp]
      exact build.trans (.aside rfl (by simp [addScope]) (Nat.le_succ _))

end World

/-! ## Hooks are used -/

namespace Extension

variable {produce : Produce P H} {w : World P H}

/-- The hook for test instances is a use, unless a scope is being created for its key. -/
lemma uses_postProcess (la : produce.Lawful) (x : Extension P) (specs : SpecCatalog) (inst : Instance P)
    (ctx : Context) (free : ¬ w.Busy x.storage (x.key ctx)) : w.Uses (x.postProcess produce specs inst ctx w).2 := by
  unfold postProcess
  split
  case h_1 => exact .refl _
  case h_2 =>
    split
    case h_1 => exact .refl _
    case h_2 p _ =>
      have fresh := w.uses_freshRegistry x.config.settings
      have free₁ : ¬ (w.freshRegistry x.config.settings).2.Busy x.storage (x.key ctx) := free
      have made := World.uses_getOrCreate free₁ (la p (w.freshRegistry x.config.settings).1 _)
      simp only
      split
      case h_1 e w' eq =>
        rw [eq] at made
        exact fresh.trans made
      case h_2 i w' eq =>
        rw [eq] at made
        exact fresh.trans made

/-- The hook for a failed test is a use. -/
lemma uses_handleFailure (x : Extension P) (ctx : Context) (error : ε) (w : World P H) :
    w.Uses (x.handleFailure ctx error w).2 := by
  unfold handleFailure
  split
  case h_1 => exact .refl _
  case h_2 i _ =>
    unfold invalidateFound
    split
    case h_1 => exact .refl _
    case h_2 w' h => exact (World.uses_invalidate h).trans (World.uses_emit w' _)
    case h_3 e w' h => exact (World.uses_invalidate h).trans (World.uses_emit w' _)

/-- The hook after all tests is a use. -/
lemma uses_afterAll (x : Extension P) (ctx : Context) (w : World P H) : w.Uses (x.afterAll ctx w) := by
  have removed := World.Uses.remove w x.storage (x.key ctx)
  unfold afterAll
  split
  case h_1 w' eq =>
    rw [eq] at removed
    exact removed
  case h_2 i w' eq =>
    rw [eq] at removed
    exact removed.trans ((World.uses_close i w').trans (World.uses_emit _ _))

end Extension

/-! ## Sessions -/

namespace Session

variable {produce : Produce P H} {z : Session P H} (la : produce.Lawful)

include la

/-- A deed in a tidy world is a use. -/
lemma uses_act (ti : z.world.Tidy) (st : StorageId) (d : Deed P ε) : z.world.Uses (z.act produce st d).world := by
  have same := World.Uses.refl z.world
  cases d with
  | postProcess x c inst ctx =>
    exact (x.sharing st).uses_postProcess la (z.catalogs c) inst ctx (ti.not_busy _ _)
  | handleFailure x ctx error => exact (x.sharing st).uses_handleFailure ctx error z.world
  | afterAll x ctx => exact (x.sharing st).uses_afterAll ctx z.world
  | find | attach | detach => exact same
  | getOrCreate key p registry => exact World.uses_getOrCreate (ti.not_busy st key) (la p registry _)
  | closeAll => exact z.world.uses_closeAll st
  | model i =>
    cases h : z.world.modelOf produce i with
    | none => simpa [act, h] using same
    | some a => simpa [act, h] using World.uses_modelOf la h
  | invalidate i =>
    cases h : z.world.invalidate i with
    | none => simpa [act, h] using same
    | some a => simpa [act, h] using World.uses_invalidate h
  | close i => exact World.uses_close i z.world

/-- An errand is use of the library, if no scope is being created when it begins. -/
lemma uses_step (ti : z.world.Tidy) (e : Errand P ε) : z.world.Uses (z.step produce e).world := by
  cases e with
  | deed st d => exact uses_act la ti st d
  | remove st key => exact .remove z.world st key
  | newScope key registry p => exact z.world.uses_addScope _
  | openScope key registry p => exact World.uses_openScope la z.world key registry p

/-- Errands from a tidy world on are uses, and it is tidy again after them. -/
lemma uses_run (ti : z.world.Tidy) (errands : List (Errand P ε)) :
    z.world.Uses (z.run produce errands).world ∧ (z.run produce errands).world.Tidy := by
  induction errands generalizing z with
  | nil => exact ⟨.refl _, ti⟩
  | cons e rest ih =>
    have first := uses_step la ti e
    have tidy : (z.step produce e).world.Tidy := fun st =>
      ((first.respects fun st => (ti st).toSound).storages st).tidy (ti st)
    obtain ⟨later, tidy'⟩ := ih tidy
    exact ⟨first.trans later, tidy'⟩

/-- Whatever is done in a session, also by its producers, no scope is being created between its errands. -/
theorem reached_run (catalogs : CatalogId → SpecCatalog) (host : H) (errands : List (Errand P ε)) :
    let w := ((start catalogs host).run produce errands).world
    w.Reached ∧ ∀ st key, ¬ w.Busy st key := by
  intro w
  obtain ⟨us, ti⟩ := uses_run la (.start host) (z := start catalogs host) errands
  exact ⟨.use (.start host) us, ti.not_busy⟩

end Session

end ModelScopes
