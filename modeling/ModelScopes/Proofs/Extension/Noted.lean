import ModelScopes.Proofs.Extension.Errands
import ModelScopes.Proofs.Scope.Lifecycle

/-!
# Sessions with notes

A session whose producers are noted is the session without the notes, and besides a list of all calls of producers.
Each operation on worlds is shown to come to the same with and without notes. The main statement is
`Session.plain_run`.
-/

namespace ModelScopes

variable {P H ε : Type} {produce : Produce P H}

/-- The world without the notes. -/
def World.plain (w : World P (Noted P H)) : World P H :=
  w.mapHost Noted.host

/-- The session without the notes. -/
def Session.plain (z : Session P (Noted P H)) : Session P H :=
  ⟨z.catalogs, z.world.plain, z.handed⟩

/-! ## Scopes -/

namespace Scope

/-- A scope gives the same model with notes and without. -/
lemma model_plain (s : Scope P) (w : World P (Noted P H)) :
    s.model produce w.plain =
      ((s.model produce.noted w).1, (s.model produce.noted w).2.1, (s.model produce.noted w).2.2.plain) := by
  have same : s.exchange produce .model w.plain = _ := (forget_exchange s w .model).symm
  obtain ⟨-, -, answer, after⟩ := Exchange.mk.inj same
  exact Prod.ext (ScopeAnswer.model.inj answer) after

/-- A scope is opened in the same way with notes and without. -/
lemma opened_plain (key : ScopeKey) (registry : Registry) (p : P) (w : World P (Noted P H)) :
    opened produce key registry p w.plain =
      ((opened produce.noted key registry p w).1, (opened produce.noted key registry p w).2.plain) := by
  rw [opened, opened, model_plain]
  cases (new key registry p).model produce.noted w with
  | mk r rest => cases r <;> rfl

/-- A scope is invalidated in the same way with notes and without. -/
lemma invalidate_plain (s : Scope P) (w : World P (Noted P H)) :
    s.invalidate w.plain = ((s.invalidate w).1, (s.invalidate w).2.1, (s.invalidate w).2.2.plain) := by
  unfold invalidate
  split <;> rfl

/-- A scope is closed in the same way with notes and without. -/
lemma close_plain (s : Scope P) (w : World P (Noted P H)) : s.close w.plain = ((s.close w).1, (s.close w).2.plain) := by
  unfold close
  split <;> rfl

end Scope

/-! ## Stored scopes -/

namespace World

variable (w : World P (Noted P H)) (st : StorageId) (i : ScopeId) (key : ScopeKey) (registry : Registry) (p : P)

/-- A handle gives the same model with notes and without. -/
lemma modelOf_plain :
    w.plain.modelOf produce i = (w.modelOf produce.noted i).map fun a => (a.1, a.2.plain) := by
  have scopes : w.plain.scopes = w.scopes := rfl
  rw [modelOf, modelOf, scopes]
  cases w.scopes[i]? with
  | none => rfl
  | some s =>
    simp only [Option.map_some, Scope.model_plain]
    rfl

/-- A handle is invalidated in the same way with notes and without. -/
lemma invalidate_plain : w.plain.invalidate i = (w.invalidate i).map fun a => (a.1, a.2.plain) := by
  have scopes : w.plain.scopes = w.scopes := rfl
  rw [invalidate, invalidate, scopes]
  cases w.scopes[i]? with
  | none => rfl
  | some s =>
    simp only [Option.map_some, Scope.invalidate_plain]
    rfl

/-- A handle is closed in the same way with notes and without. -/
lemma close_plain : w.plain.close i = (w.close i).plain := by
  have scopes : w.plain.scopes = w.scopes := rfl
  rw [close, close, scopes]
  cases w.scopes[i]? with
  | none => rfl
  | some s =>
    simp only [Scope.close_plain]
    rfl

/-- The same scope is opened with notes and without. -/
lemma openScope_plain :
    w.plain.openScope produce key registry p =
      ((w.openScope produce.noted key registry p).1, (w.openScope produce.noted key registry p).2.plain) := by
  rw [openScope, openScope, Scope.opened_plain]
  cases Scope.opened produce.noted key registry p w with
  | mk r w' => cases r <;> rfl

/-- A slot is filled in the same way with notes and without. -/
lemma createIn_plain (slot : SlotId) :
    w.plain.createIn produce st key slot p registry =
      ((w.createIn produce.noted st key slot p registry).1,
        (w.createIn produce.noted st key slot p registry).2.plain) := by
  have creating : w.plain.emit (.creating key) = (w.emit (.creating key)).plain := rfl
  rw [createIn, createIn, creating, openScope_plain]
  cases (w.emit (.creating key)).openScope produce.noted key registry p with
  | mk r w' => cases r <;> rfl

/-- The same scope is found or created with notes and without. -/
lemma getOrCreate_plain :
    w.plain.getOrCreate produce st key p registry =
      ((w.getOrCreate produce.noted st key p registry).1, (w.getOrCreate produce.noted st key p registry).2.plain) := by
  have storages : w.plain.storages = w.storages := rfl
  unfold getOrCreate
  simp only [storages]
  cases ((w.storages st).fetch key).2.read ((w.storages st).fetch key).1 with
  | some i => rfl
  | none => exact createIn_plain (w.modifyStorage st fun _ => ((w.storages st).fetch key).2) st key registry p _

/-- The same scopes are closed by their keys with notes and without. -/
lemma closeKeys_plain (keys : List ScopeKey) :
    w.plain.closeKeys st keys = ((w.closeKeys st keys).1, (w.closeKeys st keys).2.plain) := by
  induction keys generalizing w with
  | nil => rfl
  | cons key rest ih =>
    have removed : w.plain.remove st key = ((w.remove st key).1, (w.remove st key).2.plain) := rfl
    rw [closeKeys, closeKeys, removed]
    cases w.remove st key with
    | mk found w' =>
      cases found with
      | none => exact ih w'
      | some i => simp only [close_plain, ih]

/-- The same scopes of a storage are closed with notes and without. -/
lemma closeAll_plain : w.plain.closeAll st = ((w.closeAll st).1, (w.closeAll st).2.plain) := by
  have storages : w.plain.storages = w.storages := rfl
  rw [closeAll, closeAll, storages, closeKeys_plain]
  cases w.closeKeys st (w.storages st).keys with
  | mk n w' =>
    simp only
    split <;> rfl

end World

/-! ## Hooks, deeds and errands -/

namespace Extension

variable (x : Extension P) (ctx : Context) (w : World P (Noted P H))

/-- The hook for test instances does the same with notes and without. -/
lemma postProcess_plain (specs : SpecCatalog) (inst : Instance P) :
    x.postProcess produce specs inst ctx w.plain =
      ((x.postProcess produce.noted specs inst ctx w).1, (x.postProcess produce.noted specs inst ctx w).2.plain) := by
  have found : x.find ctx w.plain = x.find ctx w := rfl
  rw [postProcess, postProcess, found]
  cases x.find ctx w with
  | some i => rfl
  | none =>
    cases x.producerFor specs inst ctx with
    | error e => rfl
    | ok p =>
      have asked := @World.getOrCreate_plain P H produce (w.freshRegistry x.config.settings).2 x.storage
        (x.key ctx) (w.freshRegistry x.config.settings).1 p
      have fresh : w.plain.freshRegistry x.config.settings =
          ((w.freshRegistry x.config.settings).1, (w.freshRegistry x.config.settings).2.plain) := rfl
      simp only [fresh, asked]
      cases (w.freshRegistry x.config.settings).2.getOrCreate produce.noted x.storage (x.key ctx) p
        (w.freshRegistry x.config.settings).1 with
      | mk r w' => cases r <;> rfl

/-- The hook for a failed test does the same with notes and without. -/
lemma handleFailure_plain (error : ε) :
    x.handleFailure ctx error w.plain = ((x.handleFailure ctx error w).1, (x.handleFailure ctx error w).2.plain) := by
  have found : x.find ctx w.plain = x.find ctx w := rfl
  rw [handleFailure, handleFailure, found]
  cases x.find ctx w with
  | none => rfl
  | some i =>
    simp only [invalidateFound, World.invalidate_plain]
    cases w.invalidate i with
    | none => rfl
    | some a =>
      obtain ⟨r, w'⟩ := a
      cases r <;> rfl

/-- The hook after all tests does the same with notes and without. -/
lemma afterAll_plain : x.afterAll ctx w.plain = (x.afterAll ctx w).plain := by
  have removed : w.plain.remove x.storage (x.key ctx) =
    ((w.remove x.storage (x.key ctx)).1, (w.remove x.storage (x.key ctx)).2.plain) := rfl
  rw [afterAll, afterAll, removed]
  cases w.remove x.storage (x.key ctx) with
  | mk found w' =>
    cases found with
    | none => rfl
    | some i =>
      simp only [World.close_plain]
      rfl

end Extension

namespace Session

/-- A deed does the same with notes and without. -/
lemma plain_act (z : Session P (Noted P H)) (st : StorageId) (d : Deed P ε) :
    (z.act produce.noted st d).plain = z.plain.act produce st d := by
  have world : z.plain.world = z.world.plain := rfl
  have catalogs : z.plain.catalogs = z.catalogs := rfl
  cases d with
  | postProcess x c inst ctx =>
    simp only [act, world, catalogs, Extension.postProcess_plain]
    rfl
  | handleFailure x ctx error =>
    simp only [act, world, Extension.handleFailure_plain]
    rfl
  | afterAll x ctx =>
    simp only [act, world, Extension.afterAll_plain]
    rfl
  | find | attach | detach => rfl
  | getOrCreate key p registry =>
    simp only [act, world, World.getOrCreate_plain]
    rfl
  | closeAll =>
    simp only [act, world, World.closeAll_plain]
    rfl
  | model i =>
    simp only [act, world, World.modelOf_plain]
    cases z.world.modelOf produce.noted i <;> rfl
  | invalidate i =>
    simp only [act, world, World.invalidate_plain]
    cases z.world.invalidate i <;> rfl
  | close i =>
    simp only [act, world, World.close_plain]
    rfl

/-- An errand does the same with notes and without. -/
lemma plain_step (z : Session P (Noted P H)) (e : Errand P ε) :
    (z.step produce.noted e).plain = z.plain.step produce e := by
  have world : z.plain.world = z.world.plain := rfl
  cases e with
  | deed st d => exact plain_act z st d
  | remove | newScope => rfl
  | openScope key registry p =>
    simp only [step, world, World.openScope_plain]
    rfl

/-- Writing the calls of producers down changes nothing else in a session. -/
theorem plain_run (z : Session P (Noted P H)) (errands : List (Errand P ε)) :
    (z.run produce.noted errands).plain = z.plain.run produce errands := by
  induction errands generalizing z with
  | nil => rfl
  | cons e rest ih =>
    have first : (z.step produce.noted e).plain = z.plain.step produce e := plain_step z e
    rw [run, List.foldl_cons]
    rw [run, List.foldl_cons, ← first]
    exact ih (z.step produce.noted e)

end Session

end ModelScopes
