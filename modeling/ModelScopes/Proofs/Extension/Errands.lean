import ModelScopes.Proofs.Extension.Session

/-!
# Errands

In a session extensions may also have storages of their own, keys may be taken out by hand, and scopes may be made
outside of every storage. Whatever is done, all storages are tidy afterwards, and each scope is still there. The main
statement is `Session.grows_run`.
-/

namespace ModelScopes

variable {P H ε : Type}

/-- What is done in a session: a deed with one of the storages, or an operation that no hook makes use of. -/
inductive Errand (P ε : Type) where
  | deed (st : StorageId) (d : Deed P ε)
  | remove (st : StorageId) (key : ScopeKey)
  | newScope (key : ScopeKey) (registry : Registry) (p : P)
  | openScope (key : ScopeKey) (registry : Registry) (p : P)

namespace Session

/-- Does an errand. -/
def step (produce : Produce P H) (z : Session P H) : Errand P ε → Session P H
  | .deed st d => z.act produce st d
  | .remove st key =>
    let (i, w) := z.world.remove st key
    z.proceed w key i
  | .newScope key registry p =>
    let (i, w) := z.world.newScope key registry p
    z.proceed w key (some i)
  | .openScope key registry p =>
    let (r, w) := z.world.openScope produce key registry p
    z.proceed w key r.toOption

/-- Does one errand after another. -/
def run (produce : Produce P H) (z : Session P H) (errands : List (Errand P ε)) : Session P H :=
  errands.foldl (step produce) z

end Session

namespace World

/-- All storages are tidy. -/
def Tidy (w : World P H) : Prop :=
  ∀ st, (w.storages st).Tidy

/-- What may come of a world: its storages are tidy, and each scope is still there, aged. -/
structure Grows (w w' : World P H) : Prop where
  tidy : w'.Tidy
  scopes : ∀ (i : ScopeId) (s : Scope P), w.scopes[i]? = some s → ∃ s', w'.scopes[i]? = some s' ∧ s.Ages s'

variable {produce : Produce P H} {w w' w'' : World P H} {st : StorageId} {key : ScopeKey} {registry : Registry} {p : P}

/-- A new world is tidy. -/
lemma Tidy.start (host : H) : (World.start host : World P H).Tidy :=
  fun _ => .empty

/-- Only the storage that was changed has to be tidied. -/
lemma Tidy.of_one (ti : w.Tidy) (here : (w'.storages st).Tidy)
    (others : ∀ st' ≠ st, w'.storages st' = w.storages st') : w'.Tidy := by
  intro st'
  by_cases e : st' = st
  · rwa [e]
  · rw [others st' e]
    exact ti st'

/-- A storage stays as it is when another one is changed. -/
lemma storages_modifyStorage_of_ne {st' : StorageId} (ne : st' ≠ st) (w : World P H) (f : Storage → Storage) :
    (w.modifyStorage st f).storages st' = w.storages st' := by
  simp [modifyStorage, ne]

/-! ## Worlds that grow -/

/-- Growth goes on from where it stopped. -/
lemma Grows.trans (gr : w.Grows w') (gr' : w'.Grows w'') : w.Grows w'' := by
  refine ⟨gr'.tidy, fun i s hs => ?_⟩
  obtain ⟨s', hs', ag⟩ := gr.scopes i s hs
  obtain ⟨s'', hs'', ag'⟩ := gr'.scopes i s' hs'
  exact ⟨s'', hs'', ag.trans ag'⟩

/-- A tidy world grows when its scopes age and its storages stay as they are. -/
lemma Tidy.grows_of_ages (ti : w.Tidy) (ag : w.Ages w') (kept : w'.storages = w.storages) : w.Grows w' :=
  ⟨fun st => by rw [kept]; exact ti st, ag.scopes⟩

/-- A tidy world has grown from itself. -/
lemma Tidy.grows_refl (ti : w.Tidy) : w.Grows w :=
  ti.grows_of_ages (.of_scopes rfl) rfl

/-- A world grows when a scope is added to an older one. -/
lemma Grows.of_append (ag : w.Ages w') {s : Scope P} (scopes : w''.scopes = w'.scopes ++ [s]) (tidy : w''.Tidy) :
    w.Grows w'' := by
  refine ⟨tidy, fun i t ht => ?_⟩
  obtain ⟨t', ht', agt⟩ := ag.scopes i t ht
  obtain ⟨lt, -⟩ := List.getElem?_eq_some_iff.mp ht'
  exact ⟨t', by rw [scopes, List.getElem?_append_left lt, ht'], agt⟩

/-- Closing a scope lets a tidy world grow. -/
lemma Tidy.grows_close (ti : w.Tidy) (i : ScopeId) : w.Grows (w.close i) :=
  ti.grows_of_ages (ages_close i w) (storages_close i w)

/-- Removing a key lets a tidy world grow. -/
lemma Tidy.grows_remove (ti : w.Tidy) (st : StorageId) (key : ScopeKey) : w.Grows (w.remove st key).2 := by
  have others : ∀ st' ≠ st, (w.remove st key).2.storages st' = w.storages st' := fun st' ne =>
    storages_modifyStorage_of_ne ne w fun _ => ((w.storages st).remove key).2
  obtain ⟨w', eq, same, here, -⟩ := remove_eq (ti st) key
  rw [eq] at others ⊢
  exact ⟨ti.of_one here others, (Ages.of_scopes (congrArg Sight.scopes same)).scopes⟩

/-- Closing scopes by their keys lets a tidy world grow. -/
lemma Tidy.grows_closeKeys (ti : w.Tidy) (st : StorageId) (keys : List ScopeKey) :
    w.Grows (w.closeKeys st keys).2 := by
  induction keys generalizing w with
  | nil => exact ti.grows_refl
  | cons key rest ih =>
    have removed := ti.grows_remove st key
    rw [closeKeys]
    cases h : w.remove st key with
    | mk found w' =>
      rw [h] at removed
      cases found with
      | none => exact removed.trans (ih removed.tidy)
      | some i =>
        have closed := removed.tidy.grows_close i
        exact removed.trans (closed.trans (ih closed.tidy))

/-- Closing all scopes of a storage lets a tidy world grow. -/
lemma Tidy.grows_closeAll (ti : w.Tidy) (st : StorageId) : w.Grows (w.closeAll st).2 := by
  have closed := ti.grows_closeKeys st (w.storages st).keys
  rw [closeAll]
  simp only
  split
  case isTrue => exact closed
  case isFalse => exact ⟨closed.tidy, closed.scopes⟩

section Discreet

variable (di : produce.Discreet)

include di

/-- Opening a scope touches no storage. -/
lemma storages_openScope (w : World P H) (key : ScopeKey) (registry : Registry) (p : P) :
    (w.openScope produce key registry p).2.storages = w.storages := by
  have kept := di.storages p registry (w.emit (.building key))
  cases hp : produce p registry (w.emit (.building key)) with
  | mk r w' =>
    rw [hp] at kept
    cases r with
    | error e =>
      rw [openScope_of_failed hp]
      exact kept
    | ok m =>
      rw [openScope_of_built hp]
      exact kept

/-- Opening a scope lets a tidy world grow. -/
lemma Tidy.grows_openScope (ti : w.Tidy) (key : ScopeKey) (registry : Registry) (p : P) :
    w.Grows (w.openScope produce key registry p).2 := by
  have tidy : (w.openScope produce key registry p).2.Tidy := fun st => by
    rw [storages_openScope di]
    exact ti st
  have ag := di.ages p registry (w.emit (.building key))
  cases hp : produce p registry (w.emit (.building key)) with
  | mk r w' =>
    rw [hp] at ag
    cases r with
    | error e =>
      rw [openScope_of_failed hp] at tidy ⊢
      exact ⟨tidy, ag.scopes⟩
    | ok m =>
      rw [openScope_of_built hp] at tidy ⊢
      exact .of_append ⟨ag.length, ag.scopes⟩ rfl tidy

/-- Finding or creating a scope in one storage touches no other. -/
lemma storages_getOrCreate_of_ne {st' : StorageId} (ne : st' ≠ st) (w : World P H) :
    (w.getOrCreate produce st key p registry).2.storages st' = w.storages st' := by
  have fetched := storages_modifyStorage_of_ne ne w fun _ => ((w.storages st).fetch key).2
  have opened := congrFun (storages_openScope di
    ((w.modifyStorage st fun _ => ((w.storages st).fetch key).2).emit (.creating key)) key registry p) st'
  rw [getOrCreate]
  simp only
  split
  case h_1 => exact fetched
  case h_2 =>
    rw [createIn]
    split
    case h_1 e w' eq =>
      rw [eq] at opened
      exact (storages_modifyStorage_of_ne ne w' (·.release key _)).trans (opened.trans fetched)
    case h_2 i w' eq =>
      rw [eq] at opened
      exact (storages_modifyStorage_of_ne ne w' (·.publish _ i)).trans (opened.trans fetched)

/-- Finding or creating a scope lets a tidy world grow. -/
lemma Tidy.grows_getOrCreate (ti : w.Tidy) (st : StorageId) (key : ScopeKey) (p : P) (registry : Registry) :
    w.Grows (w.getOrCreate produce st key p registry).2 := by
  have others : ∀ st' ≠ st, (w.getOrCreate produce st key p registry).2.storages st' = w.storages st' :=
    fun _ ne => storages_getOrCreate_of_ne di ne w
  have ag := di.ages p registry (w.beforeBuild st key)
  have kept := congrFun (di.storages p registry (w.beforeBuild st key)) st
  obtain ⟨i, -, eq⟩ | ⟨e, v, w', -, hp, eq, same, here, -⟩ | ⟨m, v, w', -, hp, eq, same, here, -⟩ :=
    getOrCreate_cases (ti st) kept
  · rw [eq]
    exact ti.grows_refl
  · rw [hp] at ag
    rw [eq] at others ⊢
    have aged : w.Ages w' := Ages.of_same ⟨ag.length, ag.scopes⟩ (congrArg Sight.scopes same)
    exact ⟨ti.of_one here others, aged.scopes⟩
  · rw [hp] at ag
    rw [eq] at others ⊢
    exact .of_append ⟨ag.length, ag.scopes⟩ (congrArg Sight.scopes same) (ti.of_one here others)

end Discreet

end World

/-! ## Errands that grow -/

namespace Extension

variable {produce : Produce P H} {w : World P H}

/-- The hook for test instances lets a tidy world grow. -/
lemma grows_postProcess (di : produce.Discreet) (ti : w.Tidy) (x : Extension P) (specs : SpecCatalog)
    (inst : Instance P) (ctx : Context) : w.Grows (x.postProcess produce specs inst ctx w).2 := by
  unfold postProcess
  split
  case h_1 => exact ti.grows_refl
  case h_2 =>
    split
    case h_1 => exact ti.grows_refl
    case h_2 p _ =>
      have ti₁ : (w.freshRegistry x.config.settings).2.Tidy := ti
      have gr := ti₁.grows_getOrCreate di x.storage (x.key ctx) p (w.freshRegistry x.config.settings).1
      simp only
      split
      case h_1 e w' eq =>
        rw [eq] at gr
        exact ⟨gr.tidy, gr.scopes⟩
      case h_2 i w' eq =>
        rw [eq] at gr
        exact ⟨gr.tidy, gr.scopes⟩

/-- The hook for a failed test lets a tidy world grow. -/
lemma grows_handleFailure (ti : w.Tidy) (x : Extension P) (ctx : Context) (error : ε) :
    w.Grows (x.handleFailure ctx error w).2 := by
  unfold handleFailure
  split
  case h_1 => exact ti.grows_refl
  case h_2 i _ =>
    unfold invalidateFound
    split
    case h_1 => exact ti.grows_refl
    case h_2 w' h =>
      obtain ⟨ag, storages⟩ := World.ages_invalidate h
      exact ti.grows_of_ages (ag.of_same rfl) storages
    case h_3 e w' h =>
      obtain ⟨ag, storages⟩ := World.ages_invalidate h
      exact ti.grows_of_ages (ag.of_same rfl) storages

/-- The hook after all tests lets a tidy world grow. -/
lemma grows_afterAll (ti : w.Tidy) (x : Extension P) (ctx : Context) : w.Grows (x.afterAll ctx w) := by
  have removed := ti.grows_remove x.storage (x.key ctx)
  unfold afterAll
  split
  case h_1 w' eq =>
    rw [eq] at removed
    exact removed
  case h_2 i w' eq =>
    rw [eq] at removed
    have closed := removed.trans (removed.tidy.grows_close i)
    exact ⟨closed.tidy, closed.scopes⟩

end Extension

namespace Session

variable {produce : Produce P H} {z : Session P H}

/-- A deed lets a tidy world grow. -/
lemma grows_act (di : produce.Discreet) (ti : z.world.Tidy) (st : StorageId) (d : Deed P ε) :
    z.world.Grows (z.act produce st d).world := by
  cases d with
  | postProcess x c inst ctx => exact (x.sharing st).grows_postProcess di ti (z.catalogs c) inst ctx
  | handleFailure x ctx error => exact (x.sharing st).grows_handleFailure ti ctx error
  | afterAll x ctx => exact (x.sharing st).grows_afterAll ti ctx
  | find | attach | detach => exact ti.grows_refl
  | getOrCreate key p registry => exact ti.grows_getOrCreate di st key p registry
  | closeAll => exact ti.grows_closeAll st
  | model i =>
    cases h : z.world.modelOf produce i with
    | none => simpa [act, h] using ti.grows_refl
    | some a =>
      obtain ⟨ag, storages⟩ := World.ages_modelOf di h
      simpa [act, h] using ti.grows_of_ages ag storages
  | invalidate i =>
    cases h : z.world.invalidate i with
    | none => simpa [act, h] using ti.grows_refl
    | some a =>
      obtain ⟨ag, storages⟩ := World.ages_invalidate h
      simpa [act, h] using ti.grows_of_ages ag storages
  | close i => exact ti.grows_close i

/-- An errand keeps all storages tidy, and leaves the scopes that there are. -/
lemma grows_step (di : produce.Discreet) (ti : z.world.Tidy) (e : Errand P ε) :
    z.world.Grows (z.step produce e).world := by
  cases e with
  | deed st d => exact grows_act di ti st d
  | remove st key => exact ti.grows_remove st key
  | newScope key registry p => exact .of_append (.of_scopes rfl) rfl ti
  | openScope key registry p => exact ti.grows_openScope di key registry p

/-- Whatever is done in a session, all storages are tidy afterwards, and each scope is still there, with the key, the
registry and the producer that it was made with. -/
theorem grows_run (di : produce.Discreet) (ti : z.world.Tidy) (errands : List (Errand P ε)) :
    z.world.Grows (z.run produce errands).world := by
  induction errands generalizing z with
  | nil => exact ti.grows_refl
  | cons e rest ih =>
    have first := grows_step di ti e
    exact first.trans (ih first.tidy)

end Session

end ModelScopes
