import Mathlib.Logic.Relation
import ModelScopes.Proofs.Extension.Nested

/-!
# What others do in the meantime

Between two steps of one who works with a scope, others may do anything, and each of their operations may be stopped
half-way, since it has several steps itself. `World.Occurs` is what anyone may do to a world in one step, and
`World.Happens` is what comes of one step after another, whoever takes them. All operations happen, also those that a
producer carries out from within a build (`Session.happens_run`). Whatever happens, each scope keeps its number, and
what a slot holds is the number of a scope that was made (`World.Happens.furnished`).
-/

namespace ModelScopes

variable {P H ε : Type}

namespace World

/-- What anyone may do to a world in one step: something besides its scopes and storages, making or changing a scope,
or one of the steps of which finding, creating and removing are made. Nobody puts a scope into a slot that was not
made. -/
inductive Occurs : World P H → World P H → Prop
  | aside {w w' : World P H} (scopes : w'.scopes = w.scopes) (storages : w'.storages = w.storages) : Occurs w w'
  | add (w : World P H) (s : Scope P) : Occurs w (w.addScope s).2
  | change (w : World P H) (i : ScopeId) (s : Scope P) : Occurs w (w.setScope i s)
  | fetch (w : World P H) (st : StorageId) (key : ScopeKey) :
      Occurs w (w.modifyStorage st fun storage => (storage.fetch key).2)
  | publish (w : World P H) (st : StorageId) (slot : SlotId) {i : ScopeId} (lt : i < w.scopes.length) :
      Occurs w (w.modifyStorage st (·.publish slot i))
  | release (w : World P H) (st : StorageId) (key : ScopeKey) (slot : SlotId) :
      Occurs w (w.modifyStorage st (·.release key slot))
  | forget (w : World P H) (st : StorageId) (key : ScopeKey) : Occurs w (w.modifyStorage st (·.forget key))
  | take (w : World P H) (st : StorageId) (slot : SlotId) :
      Occurs w (w.modifyStorage st fun storage => (storage.take slot).2)

/-- What comes of a world by any number of steps, whoever takes them. -/
def Happens : World P H → World P H → Prop :=
  Relation.ReflTransGen Occurs

/-- What the slots hold are scopes that were made. -/
def Furnished (w : World P H) : Prop :=
  ∀ (st : StorageId) (slot : SlotId) (i : ScopeId), (w.storages st).read slot = some i → i < w.scopes.length

variable {produce : Produce P H} {w w' w'' v : World P H} {st : StorageId} {key : ScopeKey} {registry : Registry}
  {p : P}

/-! ## Scopes keep their numbers -/

/-- No step loses a scope. -/
lemma Occurs.length_le (oc : w.Occurs w') : w.scopes.length ≤ w'.scopes.length := by
  cases oc with
  | aside scopes => exact Nat.le_of_eq (congrArg List.length scopes).symm
  | add s => simp [addScope]
  | change i s => simp [setScope]
  | _ => exact Nat.le_refl _

/-- Whatever happens, no scope is lost. -/
lemma Happens.length_le (ha : w.Happens w') : w.scopes.length ≤ w'.scopes.length := by
  induction ha with
  | refl => exact Nat.le_refl _
  | tail _ oc ih => exact Nat.le_trans ih oc.length_le

/-! ## Slots hold what was made -/

/-- The slots of a new world hold nothing. -/
lemma Furnished.start (host : H) : (World.start host : World P H).Furnished := by
  intro st slot i h
  simp [World.start, Storage.empty, Storage.read] at h

/-- What is found was made. -/
lemma Furnished.find_lt (fu : w.Furnished) {i : ScopeId} (h : w.find st key = some i) : i < w.scopes.length := by
  obtain ⟨slot, -, here⟩ := Option.bind_eq_some_iff.mp h
  exact fu st slot i here

/-- What a slot holds was made if one storage is changed in such a way that each slot holds what it held before or a
scope that was made. -/
lemma Furnished.modifyStorage (fu : w.Furnished) {f : Storage → Storage}
    (kept : ∀ slot i, (f (w.storages st)).read slot = some i →
      (w.storages st).read slot = some i ∨ i < w.scopes.length) : (w.modifyStorage st f).Furnished := by
  intro st' slot i h
  rw [storages_modifyStorage_apply] at h
  split at h
  case isTrue =>
    rcases kept slot i h with old | new
    · exact fu st slot i old
    · exact new
  case isFalse => exact fu st' slot i h

/-- What a single step leaves in the slots was made. -/
lemma Occurs.furnished (oc : w.Occurs w') (fu : w.Furnished) : w'.Furnished := by
  cases oc with
  | aside scopes storages =>
    intro st slot i h
    rw [storages] at h
    rw [scopes]
    exact fu st slot i h
  | add s => exact fun st slot i h => Nat.lt_of_lt_of_le (fu st slot i h) (Occurs.add w s).length_le
  | change i s => exact fun st slot j h => Nat.lt_of_lt_of_le (fu st slot j h) (Occurs.change w i s).length_le
  | fetch st key => exact fu.modifyStorage fun slot i h => .inl (by rwa [Storage.read_fetch] at h)
  | @publish st slot i lt =>
    refine fu.modifyStorage fun slot' j h => ?_
    -- a slot that was never made stays empty
    have made : slot' < (w.storages st).slots.length := by simpa [Storage.publish] using Storage.lt_of_read h
    by_cases e : slot' = slot
    · subst e
      rw [Storage.read_publish made, if_pos rfl] at h
      cases h
      exact .inr lt
    · refine .inl ?_
      rwa [Storage.read, Storage.publish, List.getElem?_set_ne (Ne.symm e)] at h
  | release st key slot => exact fu.modifyStorage fun slot' i h => .inl (by rwa [Storage.read_release] at h)
  | forget st key => exact fu.modifyStorage fun slot i h => .inl h
  | take st slot =>
    refine fu.modifyStorage fun slot' i h => .inl ?_
    rw [Storage.read_take] at h
    split at h
    case isTrue => cases h
    case isFalse => exact h

/-- Whatever happens, what the slots hold was made. -/
lemma Happens.furnished (ha : w.Happens w') (fu : w.Furnished) : w'.Furnished := by
  induction ha with
  | refl => exact fu
  | tail _ oc ih => exact oc.furnished ih

/-! ## Operations happen -/

/-- A single step is something that happens. -/
lemma Occurs.happens (oc : w.Occurs w') : w.Happens w' :=
  .single oc

/-- What happens goes on from where it stopped. -/
lemma Happens.trans (ha : w.Happens w') (ha' : w'.Happens w'') : w.Happens w'' :=
  Relation.ReflTransGen.trans ha ha'

/-- It may be that nothing happens. -/
lemma Happens.refl (w : World P H) : w.Happens w :=
  Relation.ReflTransGen.refl

/-- Something may happen besides scopes and storages. -/
lemma Happens.aside (scopes : w'.scopes = w.scopes) (storages : w'.storages = w.storages) : w.Happens w' :=
  (Occurs.aside scopes storages).happens

/-- It may happen that something is written to the log. -/
lemma happens_emit (w : World P H) (e : Event) : w.Happens (w.emit e) :=
  .aside rfl rfl

/-- It may happen that a scope is closed. -/
lemma happens_close (i : ScopeId) (w : World P H) : w.Happens (w.close i) := by
  unfold close
  split
  case h_1 => exact .refl w
  case h_2 s _ =>
    obtain ⟨scopes, storages, -, -⟩ := s.close_world w
    exact (Happens.aside scopes storages).trans (Occurs.change _ i _).happens

/-- It may happen that a scope is invalidated. -/
lemma happens_invalidate {i : ScopeId} {r : Except ScopeError Unit} (h : w.invalidate i = some (r, w')) :
    w.Happens w' := by
  obtain ⟨s, -, eq⟩ := Option.map_eq_some_iff.mp h
  cases eq
  obtain ⟨scopes, storages, -, -⟩ := s.invalidate_world w
  exact (Happens.aside scopes storages).trans (Occurs.change _ i _).happens

/-- Two changes of a storage are one. -/
lemma modifyStorage_modifyStorage (w : World P H) (st : StorageId) (f g : Storage → Storage) :
    (w.modifyStorage st f).modifyStorage st g = w.modifyStorage st (g ∘ f) := by
  have hs : ((w.modifyStorage st f).modifyStorage st g).storages = (w.modifyStorage st (g ∘ f)).storages := by
    funext st'
    simp only [storages_modifyStorage_apply, if_true, Function.comp_apply]
    split <;> rfl
  exact congrArg (fun storages => { w with storages }) hs

/-- Removing takes a key out of the table, and then its scope out of the slot. -/
lemma happens_remove (w : World P H) (st : StorageId) (key : ScopeKey) : w.Happens (w.remove st key).2 := by
  have forgot := (Occurs.forget w st key).happens
  cases h : (w.storages st).slot? key with
  | none =>
    have eq : (w.remove st key).2 = w.modifyStorage st (·.forget key) := by
      simp [World.remove, Storage.remove, Storage.detach, h, modifyStorage]
    rwa [eq]
  | some slot =>
    have eq : (w.remove st key).2 =
        (w.modifyStorage st (·.forget key)).modifyStorage st fun storage => (storage.take slot).2 := by
      rw [modifyStorage_modifyStorage]
      simp [World.remove, Storage.remove, Storage.detach, h, modifyStorage]
    rw [eq]
    exact forgot.trans (Occurs.take _ st slot).happens

/-- Closing scopes by their keys is removing and closing them one after another. -/
lemma happens_closeKeys (w : World P H) (st : StorageId) (keys : List ScopeKey) :
    w.Happens (w.closeKeys st keys).2 := by
  induction keys generalizing w with
  | nil => exact .refl w
  | cons key rest ih =>
    have removed := happens_remove w st key
    rw [closeKeys]
    cases h : w.remove st key with
    | mk found w' =>
      rw [h] at removed
      cases found with
      | none => exact removed.trans (ih w')
      | some i => exact removed.trans ((happens_close i w').trans (ih (w'.close i)))

/-- Closing all scopes of a storage is closing them by their keys. -/
lemma happens_closeAll (w : World P H) (st : StorageId) : w.Happens (w.closeAll st).2 := by
  have closed := happens_closeKeys w st (w.storages st).keys
  rw [closeAll]
  simp only
  split
  case isTrue => exact closed
  case isFalse => exact closed.trans (happens_emit _ _)

/-- A registry is made besides scopes and storages. -/
lemma happens_freshRegistry (w : World P H) (settings : Settings) : w.Happens (w.freshRegistry settings).2 :=
  .aside rfl rfl

end World

/-- Producers that do nothing to scopes and storages but what anyone may do. -/
def Produce.Ordinary (produce : Produce P H) : Prop :=
  ∀ (p : P) (registry : Registry) (w : World P H), w.Happens (produce p registry w).2

/-- A producer that sees only the host's state does nothing to scopes and storages. -/
lemma Produce.ordinary_ofHost (f : P → Registry → H → Except ScopeError Model × H) : (ofHost f).Ordinary :=
  fun _ _ _ => .aside rfl rfl

namespace World

variable {produce : Produce P H} {w w' : World P H} (or : produce.Ordinary)

include or

/-- What happens when a scope is asked for its model is the build, and then the change of the scope. -/
lemma happens_modelOf {i : ScopeId} {r : Except ScopeError Built} (h : w.modelOf produce i = some (r, w')) :
    w.Happens w' := by
  obtain ⟨s, -, eq⟩ := Option.map_eq_some_iff.mp h
  cases eq
  have build := (happens_emit w (.building s.key)).trans (or s.producer s.registry (w.emit (.building s.key)))
  have asked : w.Happens (s.model produce w).2.2 := by
    rcases s.model_world produce w with same | ⟨scopes, storages⟩
    · rw [same]
      exact .refl w
    · exact build.trans (.aside scopes storages)
  exact asked.trans (Occurs.change _ i _).happens

/-- What happens when a scope is opened is the build, and then a scope is added, which is the answer. -/
lemma happens_openScope (w : World P H) (key : ScopeKey) (registry : Registry) (p : P) :
    w.Happens (w.openScope produce key registry p).2 ∧
      ∀ i, (w.openScope produce key registry p).1 = .ok i →
        i < (w.openScope produce key registry p).2.scopes.length := by
  have build := (happens_emit w (.building key)).trans (or p registry (w.emit (.building key)))
  cases hp : produce p registry (w.emit (.building key)) with
  | mk r v =>
    rw [hp] at build
    cases r with
    | error e =>
      rw [openScope_of_failed hp]
      exact ⟨build, nofun⟩
    | ok m =>
      rw [openScope_of_built hp]
      refine ⟨?_, fun i e => ?_⟩
      · have noted : v.Happens ({ v with serial := v.serial + 1 }.emit
            (.built key m.id m.entities.size m.collections.size)) := .aside rfl rfl
        exact build.trans (noted.trans (Occurs.add _ _).happens)
      · cases e
        simp [addScope]

/-- Finding or creating is to fetch a slot and, if it is empty, to build and then to publish or to release. -/
lemma happens_getOrCreate (w : World P H) (st : StorageId) (key : ScopeKey) (p : P) (registry : Registry) :
    w.Happens (w.getOrCreate produce st key p registry).2 := by
  have fetched := (Occurs.fetch w st key).happens
  have creating := fetched.trans (happens_emit _ (.creating key))
  rw [getOrCreate]
  simp only
  split
  case h_1 => exact fetched
  case h_2 =>
    obtain ⟨opened, made⟩ :=
      happens_openScope or ((w.modifyStorage st fun _ => ((w.storages st).fetch key).2).emit (.creating key)) key
        registry p
    have built := creating.trans opened
    rw [createIn]
    split
    case h_1 e w' eq =>
      rw [eq] at built
      exact built.trans ((Occurs.release w' st key _).happens.trans (happens_emit _ _))
    case h_2 i w' eq =>
      rw [eq] at built made
      exact built.trans ((Occurs.publish w' st _ (made i rfl)).happens.trans (happens_emit _ _))

end World

/-! ## Hooks happen -/

namespace Extension

variable {produce : Produce P H} {w : World P H}

/-- The hook for test instances does nothing but what anyone may do. -/
lemma happens_postProcess (or : produce.Ordinary) (x : Extension P) (specs : SpecCatalog) (inst : Instance P)
    (ctx : Context) (w : World P H) : w.Happens (x.postProcess produce specs inst ctx w).2 := by
  unfold postProcess
  split
  case h_1 => exact .refl w
  case h_2 =>
    split
    case h_1 => exact .refl w
    case h_2 p _ =>
      have fresh := w.happens_freshRegistry x.config.settings
      have made := World.happens_getOrCreate or (w.freshRegistry x.config.settings).2 x.storage (x.key ctx) p
        (w.freshRegistry x.config.settings).1
      simp only
      split
      case h_1 e w' eq =>
        rw [eq] at made
        exact fresh.trans made
      case h_2 i w' eq =>
        rw [eq] at made
        exact fresh.trans made

/-- The hook for a failed test does nothing but what anyone may do. -/
lemma happens_handleFailure (x : Extension P) (ctx : Context) (error : ε) (w : World P H) :
    w.Happens (x.handleFailure ctx error w).2 := by
  unfold handleFailure
  split
  case h_1 => exact .refl w
  case h_2 i _ =>
    unfold invalidateFound
    split
    case h_1 => exact .refl w
    case h_2 w' h => exact (World.happens_invalidate h).trans (w'.happens_emit _)
    case h_3 e w' h => exact (World.happens_invalidate h).trans (w'.happens_emit _)

/-- The hook after all tests does nothing but what anyone may do. -/
lemma happens_afterAll (x : Extension P) (ctx : Context) (w : World P H) : w.Happens (x.afterAll ctx w) := by
  have removed := w.happens_remove x.storage (x.key ctx)
  unfold afterAll
  split
  case h_1 w' eq =>
    rw [eq] at removed
    exact removed
  case h_2 i w' eq =>
    rw [eq] at removed
    exact removed.trans ((w'.happens_close i).trans (World.happens_emit _ _))

end Extension

/-! ## Sessions -/

namespace Session

variable {produce : Produce P H} (or : produce.Ordinary)

include or

/-- A deed does nothing but what anyone may do. -/
lemma happens_act (st : StorageId) (z : Session P H) (d : Deed P ε) :
    z.world.Happens (z.act produce st d).world := by
  have same := World.Happens.refl z.world
  cases d with
  | postProcess x c inst ctx => exact (x.sharing st).happens_postProcess or (z.catalogs c) inst ctx z.world
  | handleFailure x ctx error => exact (x.sharing st).happens_handleFailure ctx error z.world
  | afterAll x ctx => exact (x.sharing st).happens_afterAll ctx z.world
  | find | attach | detach => exact same
  | getOrCreate key p registry => exact World.happens_getOrCreate or z.world st key p registry
  | closeAll => exact z.world.happens_closeAll st
  | model i =>
    cases h : z.world.modelOf produce i with
    | none => simpa [act, h] using same
    | some a => simpa [act, h] using World.happens_modelOf or h
  | invalidate i =>
    cases h : z.world.invalidate i with
    | none => simpa [act, h] using same
    | some a => simpa [act, h] using World.happens_invalidate h
  | close i => exact z.world.happens_close i

/-- An errand does nothing but what anyone may do. -/
lemma happens_step (z : Session P H) (e : Errand P ε) : z.world.Happens (z.step produce e).world := by
  cases e with
  | deed st d => exact happens_act or st z d
  | remove st key => exact z.world.happens_remove st key
  | newScope key registry p => exact (World.Occurs.add z.world _).happens
  | openScope key registry p => exact (World.happens_openScope or z.world key registry p).1

/-- Whatever is done in a session, also by its producers, happens. -/
theorem happens_run (z : Session P H) (errands : List (Errand P ε)) :
    z.world.Happens (z.run produce errands).world := by
  induction errands generalizing z with
  | nil => exact .refl z.world
  | cons e rest ih => exact (happens_step or z e).trans (ih (z.step produce e))

end Session

end ModelScopes
