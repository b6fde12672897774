import ModelScopes.Proofs.Extension.Errands

/-!
# Stored scopes that are live

A storage counts all that it stores as live, but a scope that was handed out can be closed behind its back
(`Session.stored_closed`). In no other way does a stored scope come to be closed: all stored scopes are active at all
times just if no scope is closed by hand while it is stored. As soon as one of them is closed, the storage counts more
live scopes than there are, and closing all scopes answers with more than it closes. The main statement is
`Session.live_iff`.
-/

namespace ModelScopes

variable {P H ε : Type}

/-- A scope is active if it is not closed. -/
@[simp] lemma Scope.isActive_iff {s : Scope P} : s.isActive ↔ s.state ≠ .closed := by
  unfold Scope.isActive Scope.phase
  split <;> simp_all [ScopePhase.isActive]

namespace World

/-- A scope is there and active. -/
def Active (w : World P H) (i : ScopeId) : Prop :=
  ∃ s, w.scopes[i]? = some s ∧ s.isActive

/-- A scope is stored somewhere. -/
def Stores (w : World P H) (i : ScopeId) : Prop :=
  ∃ st key, w.find st key = some i

/-- What a storage stores is active. -/
def LiveAt (w : World P H) (st : StorageId) : Prop :=
  ∀ key i, w.find st key = some i → w.Active i

/-- All that is stored is active. -/
def Live (w : World P H) : Prop :=
  ∀ st, w.LiveAt st

/-- The scope stored under a key. -/
def stored (w : World P H) (st : StorageId) (key : ScopeKey) : Option (Scope P) :=
  (w.find st key).bind fun i => w.scopes[i]?

/-- The number of keys among these that hold an active scope. -/
def liveAmong (w : World P H) (st : StorageId) (keys : List ScopeKey) : Nat :=
  keys.countP fun key => (w.stored st key).any Scope.isActive

/-- The number of keys that hold an active scope. -/
def liveCount (w : World P H) (st : StorageId) : Nat :=
  w.liveAmong st (w.storages st).keys

/-- The number of scopes that are closed. -/
def closedCount (w : World P H) : Nat :=
  w.scopes.countP fun s => !s.isActive

/-- All storages are tidy, and each stored scope is there, and stored in one place. -/
structure Stocked (w : World P H) : Prop where
  tidy : w.Tidy
  there : ∀ st key i, w.find st key = some i → i < w.scopes.length
  once : ∀ st key st' key' i, w.find st key = some i → w.find st' key' = some i → st = st' ∧ key = key'

/-- What comes of a world is stocked, and live if the world was. -/
structure Keeps (w w' : World P H) : Prop where
  stocked : w'.Stocked
  live : w.Live → w'.Live

/-- A scope serves: it lets go of its model, and it gives one unless its producer fails. -/
def Serves (produce : Produce P H) (w : World P H) (i : ScopeId) : Prop :=
  (∃ w', w.invalidate i = some (.ok (), w')) ∧
    ∃ s r w', w.scopes[i]? = some s ∧ w.modelOf produce i = some (r, w') ∧
      ((∃ b, r = .ok b) ∨ ∃ e, r = .error e ∧
        (produce s.producer s.registry (w.emit (.building s.key))).1 = .error e)

end World

/-- Producers that make and close no scopes and leave the storages alone. -/
structure Produce.Gentle (produce : Produce P H) : Prop extends produce.Discreet where
  active : ∀ p registry (w : World P H) i, w.Active i → (produce p registry w).2.Active i

/-- Whether an errand closes a scope by hand that is stored. -/
def Errand.Spoils (w : World P H) : Errand P ε → Prop
  | .deed _ (.close i) => w.Stores i
  | _ => False

/-- No errand closes a scope by hand while it is stored. -/
def Session.Spares (produce : Produce P H) : Session P H → List (Errand P ε) → Prop
  | _, [] => True
  | z, e :: rest => ¬ e.Spoils z.world ∧ (z.step produce e).Spares produce rest

namespace World

variable {produce : Produce P H} {w w' w'' : World P H} {st : StorageId} {key : ScopeKey} {i j : ScopeId}

/-! ## Active scopes -/

/-- An active scope was made. -/
lemma Active.lt (ac : w.Active i) : i < w.scopes.length := by
  obtain ⟨s, hs, -⟩ := ac
  exact (List.getElem?_eq_some_iff.mp hs).1

/-- The same scopes are active. -/
lemma Active.of_scopes (h : w'.scopes = w.scopes) (ac : w.Active i) : w'.Active i := by
  rwa [Active, h]

/-- A scope stays active when another one is added. -/
lemma Active.of_append {s : Scope P} (h : w'.scopes = w.scopes ++ [s]) (ac : w.Active i) : w'.Active i := by
  obtain ⟨t, ht, act⟩ := ac
  exact ⟨t, by rw [h, List.getElem?_append_left (List.getElem?_eq_some_iff.mp ht).1, ht], act⟩

/-- Active scopes stay active if one that is put back is. -/
lemma Active.setScope (ac : w.Active j) {s : Scope P} (act : s.isActive) : (w.setScope i s).Active j := by
  obtain ⟨t, ht, act'⟩ := ac
  obtain ⟨lt, -⟩ := List.getElem?_eq_some_iff.mp ht
  by_cases e : i = j
  · exact ⟨s, by simp [World.setScope, e, lt], act⟩
  · exact ⟨t, by simp [World.setScope, e, ht], act'⟩

/-- A scope stays active when another one is closed. -/
lemma Active.close_of_ne (ac : w.Active j) (ne : j ≠ i) : (w.close i).Active j := by
  obtain ⟨s, hs, act⟩ := ac
  have shut : (w.close i).scopes = w.scopes.modify i fun s => { s with state := .closed } :=
    congrArg Sight.scopes (sight_close i w)
  exact ⟨s, by rw [shut, List.getElem?_modify, hs]; simp [ne.symm], act⟩

/-- A scope that was told to close is not active. -/
lemma not_active_close (i : ScopeId) (w : World P H) : ¬ (w.close i).Active i := by
  rintro ⟨s, hs, act⟩
  exact Scope.isActive_iff.mp act (state_close hs)

/-- Invalidation leaves all scopes active that were. -/
lemma active_invalidate {r : Except ScopeError Unit} (h : w.invalidate i = some (r, w')) (ac : w.Active j) :
    w'.Active j := by
  obtain ⟨s, hs, e⟩ := Option.map_eq_some_iff.mp h
  have eq : (s.invalidate w).2.2.setScope i (s.invalidate w).2.1 = w' := congrArg Prod.snd e
  subst eq
  have kept : ∀ k, w.Active k → (s.invalidate w).2.2.Active k := fun k => .of_scopes (s.invalidate_world w).1
  cases hstate : s.state with
  | closed =>
    rw [Scope.invalidate_of_closed hstate, setScope_same hs]
    exact ac
  | active held =>
    refine (kept j ac).setScope ?_
    simp [(Scope.invalidate_of_active hstate w).2]

/-- Asking for a model leaves all scopes active that were. -/
lemma active_modelOf (ge : produce.Gentle) {r : Except ScopeError Built} (h : w.modelOf produce i = some (r, w'))
    (ac : w.Active j) : w'.Active j := by
  obtain ⟨s, hs, e⟩ := Option.map_eq_some_iff.mp h
  have eq' : (s.model produce w).2.2.setScope i (s.model produce w).2.1 = w' := congrArg Prod.snd e
  subst eq'
  have kept := ge.active s.producer s.registry (w.emit (.building s.key)) j ac
  obtain ⟨-, eq⟩ | ⟨b, -, eq⟩ | ⟨e, v, empty, hp, eq⟩ | ⟨m, v, empty, hp, eq⟩ := s.model_cases produce w
  · rwa [eq, setScope_same hs]
  · rwa [eq, setScope_same hs]
  · rw [hp] at kept
    rw [eq]
    exact kept.setScope (by simp [empty])
  · rw [hp] at kept
    rw [eq]
    exact (Active.of_scopes rfl kept).setScope (by simp)

/-- An active scope serves. -/
lemma Active.serves (ac : w.Active i) (produce : Produce P H) : w.Serves produce i := by
  obtain ⟨s, hs, act⟩ := ac
  have active : s.state ≠ .closed := Scope.isActive_iff.mp act
  refine ⟨⟨(s.invalidate w).2.2.setScope i (s.invalidate w).2.1, ?_⟩,
    s, (s.model produce w).1, (s.model produce w).2.2.setScope i (s.model produce w).2.1, hs, ?_, ?_⟩
  · cases h : s.state with
    | closed => exact absurd h active
    | active held => simp [World.invalidate, hs, (Scope.invalidate_of_active h w).1]
  · simp [modelOf, hs]
  · obtain ⟨closed, -⟩ | ⟨b, -, eq⟩ | ⟨e, v, -, hp, eq⟩ | ⟨m, v, -, -, eq⟩ := s.model_cases produce w
    · exact absurd closed active
    · exact .inl ⟨b, by rw [eq]⟩
    · exact .inr ⟨e, by rw [eq], by rw [hp]⟩
    · exact .inl ⟨_, by rw [eq]⟩

/-! ## Stocked worlds -/

/-- A new world is stocked. -/
lemma Stocked.start (host : H) : (World.start host : World P H).Stocked := by
  have nothing : ∀ st key i, (World.start host : World P H).find st key ≠ some i := nofun
  exact ⟨.start host, fun st key i h => absurd h (nothing st key i), fun st key _ _ i h => absurd h (nothing st key i)⟩

/-- A new world stores nothing that could be closed. -/
lemma Live.start (host : H) : (World.start host : World P H).Live :=
  nofun

/-- Keeping goes on from where it stopped. -/
lemma Keeps.trans (ke : w.Keeps w') (ke' : w'.Keeps w'') : w.Keeps w'' :=
  ⟨ke'.stocked, ke'.live ∘ ke.live⟩

/-- Stock is kept if nothing is stored but what was, and what is still stored stays active. -/
lemma Stocked.keeps_of_found (sk : w.Stocked) (gr : w.Grows w')
    (found : ∀ st key i, w'.find st key = some i → w.find st key = some i)
    (active : ∀ st key i, w'.find st key = some i → w.Active i → w'.Active i) : w.Keeps w' where
  stocked := by
    refine ⟨gr.tidy, fun st key i h => ?_, fun st key st' key' i h h' => ?_⟩
    · have lt := sk.there st key i (found st key i h)
      obtain ⟨s', hs', -⟩ := gr.scopes i _ (List.getElem?_eq_getElem lt)
      exact (List.getElem?_eq_some_iff.mp hs').1
    · exact sk.once st key st' key' i (found st key i h) (found st' key' i h')
  live := fun live st key i h => active st key i h (live st key i (found st key i h))

/-- Stock is kept if all storages and all active scopes are. -/
lemma Stocked.keeps_of_storages (sk : w.Stocked) (gr : w.Grows w') (kept : w'.storages = w.storages)
    (active : ∀ i, w.Active i → w'.Active i) : w.Keeps w' := by
  refine sk.keeps_of_found gr (fun st key i h => ?_) fun _ _ i _ => active i
  rwa [find, kept] at h

/-- Stock is kept if a new active scope is stored under one key, and nothing else is stored but what was. -/
lemma Stocked.keeps_of_new (sk : w.Stocked) (st : StorageId) (key : ScopeKey) (gr : w.Grows w') {v : World P H}
    (length : v.scopes.length = w.scopes.length) {s : Scope P} (scopes : w'.scopes = v.scopes ++ [s])
    (act : s.isActive) (active : ∀ i, w.Active i → v.Active i)
    (found : ∀ st' key' i, w'.find st' key' = some i →
      (st' = st ∧ key' = key ∧ i = v.scopes.length) ∨ w.find st' key' = some i) : w.Keeps w' := by
  have old : ∀ st' key' i, w.find st' key' = some i → i < v.scopes.length := fun st' key' i h =>
    Nat.lt_of_lt_of_eq (sk.there st' key' i h) length.symm
  refine ⟨⟨gr.tidy, ?_, ?_⟩, ?_⟩
  · intro st' key' i h
    rcases found st' key' i h with ⟨-, -, rfl⟩ | h'
    · simp [scopes]
    · rw [scopes, List.length_append]
      exact Nat.lt_add_right 1 (old _ _ _ h')
  · intro st₁ key₁ st₂ key₂ i h₁ h₂
    rcases found st₁ key₁ i h₁ with ⟨rfl, rfl, rfl⟩ | h₁'
    · rcases found st₂ key₂ _ h₂ with ⟨rfl, rfl, -⟩ | h₂'
      · exact ⟨rfl, rfl⟩
      · exact absurd (old _ _ _ h₂') (Nat.lt_irrefl _)
    · rcases found st₂ key₂ i h₂ with ⟨-, -, rfl⟩ | h₂'
      · exact absurd (old _ _ _ h₁') (Nat.lt_irrefl _)
      · exact sk.once _ _ _ _ i h₁' h₂'
  · intro live st' key' i h
    rcases found st' key' i h with ⟨-, -, rfl⟩ | h'
    · exact ⟨s, by rw [scopes, List.getElem?_concat_length], act⟩
    · exact (active i (live st' key' i h')).of_append scopes

/-- Closing a scope does not change what is found. -/
lemma find_close (i : ScopeId) (w : World P H) (st : StorageId) (key : ScopeKey) :
    (w.close i).find st key = w.find st key := by
  rw [find, storages_close, find]

/-- Closing any scope leaves the world stocked. -/
lemma Stocked.close (sk : w.Stocked) (i : ScopeId) : (w.close i).Stocked := by
  have length : (w.close i).scopes.length = w.scopes.length := (ages_close i w).length
  refine ⟨(sk.tidy.grows_close i).tidy, fun st key j h => ?_, fun st key st' key' j h h' => ?_⟩
  · rw [length]
    exact sk.there st key j (by rwa [find_close] at h)
  · rw [find_close] at h h'
    exact sk.once st key st' key' j h h'

/-- A stocked world keeps itself. -/
lemma Stocked.keeps_refl (sk : w.Stocked) : w.Keeps w :=
  ⟨sk, id⟩

/-- Invalidation keeps a world stocked. -/
lemma Stocked.keeps_invalidate (sk : w.Stocked) {r : Except ScopeError Unit} (h : w.invalidate i = some (r, w')) :
    w.Keeps w' := by
  obtain ⟨ag, storages⟩ := ages_invalidate h
  exact sk.keeps_of_storages (sk.tidy.grows_of_ages ag storages) storages fun _ => active_invalidate h

/-- Removing a key keeps a world stocked. -/
lemma Stocked.keeps_remove (sk : w.Stocked) (st : StorageId) (key : ScopeKey) : w.Keeps (w.remove st key).2 := by
  obtain ⟨w', eq, same, -, -, found⟩ := remove_eq (sk.tidy st) key
  have others : ∀ st' ≠ st, (w.remove st key).2.storages st' = w.storages st' := fun st' ne =>
    storages_modifyStorage_of_ne ne w fun _ => ((w.storages st).remove key).2
  refine sk.keeps_of_found (sk.tidy.grows_remove st key) ?_ ?_
  · intro st' key' i h
    by_cases e : st' = st
    · subst e
      rw [eq, found] at h
      split at h
      case isTrue => cases h
      case isFalse => exact h
    · rwa [find, others st' e] at h
  · intro _ _ i _ ac
    rw [eq]
    exact .of_scopes (congrArg Sight.scopes same) ac

/-- What was removed is stored no more. -/
lemma Stocked.not_stores_remove (sk : w.Stocked) (h : w.find st key = some i) : ¬ (w.remove st key).2.Stores i := by
  rintro ⟨st', key', h'⟩
  obtain ⟨w', eq, -, -, -, found⟩ := remove_eq (sk.tidy st) key
  have others : ∀ st' ≠ st, (w.remove st key).2.storages st' = w.storages st' := fun st' ne =>
    storages_modifyStorage_of_ne ne w fun _ => ((w.storages st).remove key).2
  by_cases e : st' = st
  · subst e
    rw [eq, found] at h'
    split at h'
    case isTrue => cases h'
    case isFalse ne => exact ne (sk.once _ _ _ _ i h' h).2
  · rw [find, others st' e] at h'
    exact e (sk.once _ _ _ _ i h' h).1

/-- Closing a scope that is not stored keeps the stock. -/
lemma Stocked.keeps_close (sk : w.Stocked) (un : ¬ w.Stores i) : w.Keeps (w.close i) := by
  refine sk.keeps_of_found (sk.tidy.grows_close i) (fun st key j h => ?_) fun st key j h ac => ?_
  · rwa [find_close] at h
  · rw [find_close] at h
    exact ac.close_of_ne fun e => un ⟨st, key, e ▸ h⟩

/-- Closing a stored scope leaves it stored. -/
lemma Stores.not_live_close (stores : w.Stores i) : ¬ (w.close i).Live := by
  obtain ⟨st, key, h⟩ := stores
  exact fun live => not_active_close i w (live st key i (by rw [find_close, h]))

/-- Removing a key and closing its scope keeps a world stocked. -/
lemma Stocked.keeps_remove_close (sk : w.Stocked) (h : w.find st key = some i) :
    w.Keeps ((w.remove st key).2.close i) := by
  have removed := sk.keeps_remove st key
  exact removed.trans (removed.stocked.keeps_close (sk.not_stores_remove h))

/-- Closing scopes by their keys keeps a world stocked. -/
lemma Stocked.keeps_closeKeys (sk : w.Stocked) (st : StorageId) (keys : List ScopeKey) :
    w.Keeps (w.closeKeys st keys).2 := by
  induction keys generalizing w with
  | nil => exact sk.keeps_refl
  | cons key rest ih =>
    obtain ⟨w', eq, -⟩ := remove_eq (sk.tidy st) key
    have removed := sk.keeps_remove st key
    rw [closeKeys]
    cases h : w.find st key with
    | none =>
      rw [eq] at removed
      rw [eq, h]
      exact removed.trans (ih removed.stocked)
    | some i =>
      have closed := sk.keeps_remove_close h
      rw [eq] at closed
      rw [eq, h]
      exact closed.trans (ih closed.stocked)

/-- Closing all scopes of a storage keeps a world stocked. -/
lemma Stocked.keeps_closeAll (sk : w.Stocked) (st : StorageId) : w.Keeps (w.closeAll st).2 := by
  have closed := sk.keeps_closeKeys st (w.storages st).keys
  rw [closeAll]
  simp only
  split
  case isTrue => exact closed
  case isFalse => exact closed.trans ⟨⟨closed.stocked.tidy, closed.stocked.there, closed.stocked.once⟩, id⟩

section Gentle

variable {p : P} {registry : Registry}

/-- Asking for a model keeps a world stocked. -/
lemma Stocked.keeps_modelOf (ge : produce.Gentle) (sk : w.Stocked) {r : Except ScopeError Built}
    (h : w.modelOf produce i = some (r, w')) : w.Keeps w' := by
  obtain ⟨ag, storages⟩ := ages_modelOf ge.toDiscreet h
  exact sk.keeps_of_storages (sk.tidy.grows_of_ages ag storages) storages fun _ => active_modelOf ge h

/-- A new scope keeps a world stocked. -/
lemma Stocked.keeps_newScope (sk : w.Stocked) (key : ScopeKey) (registry : Registry) (p : P) :
    w.Keeps (w.newScope key registry p).2 :=
  sk.keeps_of_storages (.of_append (.of_scopes rfl) rfl sk.tidy) rfl fun _ => .of_append rfl

/-- Opening a scope keeps a world stocked. -/
lemma Stocked.keeps_openScope (ge : produce.Gentle) (sk : w.Stocked) (key : ScopeKey) (registry : Registry) (p : P) :
    w.Keeps (w.openScope produce key registry p).2 := by
  refine sk.keeps_of_storages (sk.tidy.grows_openScope ge.toDiscreet key registry p)
    (storages_openScope ge.toDiscreet w key registry p) fun i ac => ?_
  have kept := ge.active p registry (w.emit (.building key)) i ac
  cases hp : produce p registry (w.emit (.building key)) with
  | mk r v =>
    rw [hp] at kept
    cases r with
    | error e => rwa [openScope_of_failed hp]
    | ok m =>
      rw [openScope_of_built hp]
      exact kept.of_append rfl

/-- Finding or creating keeps the stock, and what it answers is stored. -/
lemma Stocked.keeps_getOrCreate (ge : produce.Gentle) (sk : w.Stocked) (st : StorageId) (key : ScopeKey) (p : P)
    (registry : Registry) :
    w.Keeps (w.getOrCreate produce st key p registry).2 ∧
      ∀ i, (w.getOrCreate produce st key p registry).1 = .ok i →
        (w.getOrCreate produce st key p registry).2.find st key = some i := by
  have gr := sk.tidy.grows_getOrCreate ge.toDiscreet st key p registry
  have others : ∀ st' ≠ st, (w.getOrCreate produce st key p registry).2.storages st' = w.storages st' :=
    fun _ ne => storages_getOrCreate_of_ne ge.toDiscreet ne w
  have length := (ge.ages p registry (w.beforeBuild st key)).length
  have kept := congrFun (ge.storages p registry (w.beforeBuild st key)) st
  have active := ge.active p registry (w.beforeBuild st key)
  -- found, failed or created; only the last one stores anything new, and under this key
  obtain ⟨i, h, eq⟩ | ⟨e, v, w', -, hp, eq, same, -, -, found⟩ | ⟨m, v, w', none, hp, eq, same, ti, -, found⟩ :=
    getOrCreate_cases (sk.tidy st) kept
  · rw [eq]
    exact ⟨sk.keeps_refl, fun j hj => by cases hj; exact h⟩
  · rw [hp] at active
    rw [eq] at gr others ⊢
    refine ⟨sk.keeps_of_found gr (fun st' key' i h => ?_) fun _ _ i _ ac => ?_, nofun⟩
    · by_cases e : st' = st
      · subst e
        rwa [found] at h
      · rwa [find, others st' e] at h
    · exact (active i (.of_scopes rfl ac)).of_scopes (congrArg Sight.scopes same)
  · rw [hp] at active length
    rw [eq] at gr others ⊢
    have scopes : w'.scopes = v.scopes ++ [⟨key, registry, p, .active (some ⟨v.serial, m⟩)⟩] :=
      congrArg Sight.scopes same
    refine ⟨sk.keeps_of_new st key gr length scopes rfl active fun st' key' i h => ?_, fun i hi => ?_⟩
    · by_cases e : st' = st
      · subst e
        rw [found] at h
        split at h
        case isTrue e' => exact .inl ⟨rfl, e', (Option.some.inj h).symm⟩
        case isFalse => exact .inr h
      · rw [find, others st' e] at h
        exact .inr h
    · cases hi
      rw [found, if_pos rfl]

end Gentle

/-! ## Counting -/

/-- The scope that is found under a key is the one stored there. -/
lemma stored_of_find {s : Scope P} (h : w.find st key = some i) (hs : w.scopes[i]? = some s) :
    w.stored st key = some s := by
  simp [stored, h, hs]

/-- The statistics count the active scopes and no others just if all that is stored is active. -/
lemma Stocked.size_eq_liveCount_iff (sk : w.Stocked) (st : StorageId) :
    (w.storages st).size = w.liveCount st ↔ w.LiveAt st := by
  have size : (w.storages st).size = (w.storages st).keys.length := by
    rw [(sk.tidy st).size_eq_slotCount, Storage.slotCount, Storage.keys, List.length_map]
  rw [size, liveCount, liveAmong, eq_comm, List.countP_eq_length]
  constructor
  · intro all key i h
    have act := all key (Storage.mem_keys_of_find h)
    have hs := List.getElem?_eq_getElem (sk.there st key i h)
    rw [stored_of_find h hs] at act
    exact ⟨_, hs, act⟩
  · intro live key mem
    obtain ⟨i, h⟩ := Option.isSome_iff_exists.mp ((sk.tidy st).full key mem)
    obtain ⟨s, hs, act⟩ := live key i h
    rw [stored_of_find h hs]
    exact act

/-- No more scopes are live than are stored. -/
lemma Stocked.liveCount_le (sk : w.Stocked) (st : StorageId) : w.liveCount st ≤ (w.storages st).size := by
  rw [(sk.tidy st).size_eq_slotCount, Storage.slotCount, ← List.length_map, ← Storage.keys]
  exact List.countP_le_length

/-- The same number is live as long as the same is stored under the keys. -/
lemma liveAmong_congr {keys : List ScopeKey} (kept : ∀ key ∈ keys, w'.stored st key = w.stored st key) :
    w'.liveAmong st keys = w.liveAmong st keys :=
  List.countP_congr fun key mem => by rw [kept key mem]

/-- Closing a scope adds it to those that are closed, unless it was one of them. -/
lemma closedCount_close {s : Scope P} (hs : w.scopes[i]? = some s) :
    (w.close i).closedCount = w.closedCount + if s.isActive then 1 else 0 := by
  have shut : (w.close i).scopes = w.scopes.modify i fun s => { s with state := .closed } :=
    congrArg Sight.scopes (sight_close i w)
  obtain ⟨lt, here⟩ := List.getElem?_eq_some_iff.mp hs
  have closed : (({ s with state := .closed } : Scope P).isActive) = false := rfl
  rw [closedCount, shut, List.modify_eq_set_getElem?, hs, closedCount]
  simp only [Option.map_eq_map, Option.map_some, Option.getD_some]
  rw [List.countP_set lt, here, closed]
  cases act : s.isActive with
  | true => simp
  | false =>
    have pos : 0 < w.scopes.countP fun s => !s.isActive :=
      List.countP_pos_iff.mpr ⟨s, List.mem_of_getElem? hs, by simp [act]⟩
    simp only [Bool.not_false, if_true, Bool.false_eq_true, if_false]
    omega

/-- Closing the scopes of keys adds those to the closed ones that were active. -/
lemma Stocked.closedCount_closeKeys (sk : w.Stocked) (st : StorageId) {keys : List ScopeKey} (nd : keys.Nodup) :
    (w.closeKeys st keys).2.closedCount = w.closedCount + w.liveAmong st keys := by
  induction keys generalizing w with
  | nil => rfl
  | cons key rest ih =>
    obtain ⟨absent, nd⟩ := List.nodup_cons.mp nd
    obtain ⟨w', eq, same, -, -, found⟩ := remove_eq (sk.tidy st) key
    have scopes : w'.scopes = w.scopes := congrArg Sight.scopes same
    have removed := sk.keeps_remove st key
    rw [eq] at removed
    have found' : ∀ key' ∈ rest, w'.find st key' = w.find st key' := fun key' mem => by
      have ne : key' ≠ key := fun e => absent (e ▸ mem)
      rw [found, if_neg ne]
    rw [closeKeys, eq, liveAmong, List.countP_cons, ← liveAmong]
    cases h : w.find st key with
    | none =>
      have kept : ∀ key' ∈ rest, w'.stored st key' = w.stored st key' := fun key' mem => by
        rw [stored, found' key' mem, scopes, stored]
      rw [ih removed.stocked nd, liveAmong_congr kept]
      simp [closedCount, scopes, stored, h]
    | some i =>
      have hs := List.getElem?_eq_getElem (sk.there st key i h)
      have closed := sk.keeps_remove_close h
      rw [eq] at closed
      have shut : (w'.close i).scopes = w'.scopes.modify i fun s => { s with state := .closed } :=
        congrArg Sight.scopes (sight_close i w')
      -- the other keys hold other scopes
      have kept : ∀ key' ∈ rest, (w'.close i).stored st key' = w.stored st key' := fun key' mem => by
        rw [stored, find_close, found' key' mem, stored, shut, scopes]
        cases h' : w.find st key' with
        | none => rfl
        | some j =>
          have ne : i ≠ j := fun e => absent ((sk.once st key st key' j (e ▸ h) h').2 ▸ mem)
          simp [ne]
      have one := closedCount_close (w := w') (i := i) (by rw [scopes]; exact hs)
      have before : w'.closedCount = w.closedCount := by rw [closedCount, scopes, closedCount]
      simp only [ih closed.stocked nd, liveAmong_congr kept, one, before, stored_of_find h hs, Option.any_some]
      omega

/-- Closing all scopes answers with the number of those that are stored, and closes those that are active. -/
lemma Stocked.closeAll (sk : w.Stocked) (st : StorageId) :
    (w.closeAll st).1 = (w.storages st).size ∧
      (w.closeAll st).2.closedCount = w.closedCount + w.liveCount st := by
  obtain ⟨w', eq, -⟩ := closeAll_eq (sk.tidy st)
  have closes := sk.closedCount_closeKeys st (sk.tidy st).keys
  refine ⟨by rw [eq, (sk.tidy st).size_eq_slotCount], ?_⟩
  rw [World.closeAll]
  simp only
  split
  case isTrue => exact closes
  case isFalse => exact closes

end World

/-! ## Hooks -/

namespace Extension

variable {produce : Produce P H} {w : World P H}

/-- A test instance that is made ready keeps the stock, and what is answered is stored under the unit's key. -/
lemma keeps_postProcess (ge : produce.Gentle) (sk : w.Stocked) (x : Extension P) (specs : SpecCatalog)
    (inst : Instance P) (ctx : Context) :
    w.Keeps (x.postProcess produce specs inst ctx w).2 ∧
      ∀ i, (x.postProcess produce specs inst ctx w).1.outcome = .ok i →
        (x.postProcess produce specs inst ctx w).2.find x.storage (x.key ctx) = some i := by
  unfold postProcess
  split
  case h_1 i h => exact ⟨sk.keeps_refl, fun j hj => by cases hj; exact h⟩
  case h_2 =>
    split
    case h_1 => exact ⟨sk.keeps_refl, nofun⟩
    case h_2 p _ =>
      have fresh : w.Keeps (w.freshRegistry x.config.settings).2 :=
        sk.keeps_of_storages (sk.tidy.grows_of_ages (.of_scopes rfl) rfl) rfl fun _ => .of_scopes rfl
      obtain ⟨keeps, stored⟩ := fresh.stocked.keeps_getOrCreate ge x.storage (x.key ctx) p
        (w.freshRegistry x.config.settings).1
      simp only
      split
      case h_1 e w' eq =>
        rw [eq] at keeps
        exact ⟨fresh.trans keeps, nofun⟩
      case h_2 i w' eq =>
        rw [eq] at keeps stored
        exact ⟨fresh.trans keeps, stored⟩

/-- The hook for a failed test keeps a world stocked. -/
lemma keeps_handleFailure (sk : w.Stocked) (x : Extension P) (ctx : Context) (error : ε) :
    w.Keeps (x.handleFailure ctx error w).2 := by
  unfold handleFailure
  split
  case h_1 => exact sk.keeps_refl
  case h_2 i _ =>
    unfold invalidateFound
    split
    case h_1 => exact sk.keeps_refl
    case h_2 w' h =>
      have keeps := sk.keeps_invalidate h
      exact keeps.trans ⟨⟨keeps.stocked.tidy, keeps.stocked.there, keeps.stocked.once⟩, id⟩
    case h_3 e w' h =>
      have keeps := sk.keeps_invalidate h
      exact keeps.trans ⟨⟨keeps.stocked.tidy, keeps.stocked.there, keeps.stocked.once⟩, id⟩

/-- The hook after all tests keeps a world stocked. -/
lemma keeps_afterAll (sk : w.Stocked) (x : Extension P) (ctx : Context) : w.Keeps (x.afterAll ctx w) := by
  obtain ⟨w', eq, -⟩ := World.remove_eq (sk.tidy x.storage) (x.key ctx)
  have removed := sk.keeps_remove x.storage (x.key ctx)
  unfold afterAll
  rw [eq] at removed ⊢
  cases h : w.find x.storage (x.key ctx) with
  | none => exact removed
  | some i =>
    have closed := sk.keeps_remove_close h
    rw [eq] at closed
    exact closed.trans ⟨⟨closed.stocked.tidy, closed.stocked.there, closed.stocked.once⟩, id⟩

end Extension

/-! ## Errands -/

namespace Session

variable {produce : Produce P H} {z : Session P H}

/-- A deed that closes no stored scope by hand keeps a world stocked, and live. -/
lemma keeps_act (ge : produce.Gentle) (sk : z.world.Stocked) (st : StorageId) {d : Deed P ε}
    (sp : ¬ (Errand.deed st d).Spoils z.world) : z.world.Keeps (z.act produce st d).world := by
  cases d with
  | postProcess x c inst ctx => exact ((x.sharing st).keeps_postProcess ge sk (z.catalogs c) inst ctx).1
  | handleFailure x ctx error => exact (x.sharing st).keeps_handleFailure sk ctx error
  | afterAll x ctx => exact (x.sharing st).keeps_afterAll sk ctx
  | find | attach | detach => exact sk.keeps_refl
  | getOrCreate key p registry => exact (sk.keeps_getOrCreate ge st key p registry).1
  | closeAll => exact sk.keeps_closeAll st
  | model i =>
    cases h : z.world.modelOf produce i with
    | none => simpa [act, h] using sk.keeps_refl
    | some a => simpa [act, h] using sk.keeps_modelOf ge h
  | invalidate i =>
    cases h : z.world.invalidate i with
    | none => simpa [act, h] using sk.keeps_refl
    | some a => simpa [act, h] using sk.keeps_invalidate h
  | close i => exact sk.keeps_close sp

/-- An errand keeps the stock unless it closes a stored scope by hand. -/
lemma keeps_step (ge : produce.Gentle) (sk : z.world.Stocked) {e : Errand P ε} (sp : ¬ e.Spoils z.world) :
    z.world.Keeps (z.step produce e).world := by
  cases e with
  | deed st d => exact keeps_act ge sk st sp
  | remove st key => exact sk.keeps_remove st key
  | newScope key registry p => exact sk.keeps_newScope key registry p
  | openScope key registry p => exact sk.keeps_openScope ge key registry p

/-- Any errand leaves a stocked world. -/
lemma stocked_step (ge : produce.Gentle) (sk : z.world.Stocked) (e : Errand P ε) :
    (z.step produce e).world.Stocked := by
  by_cases sp : e.Spoils z.world
  · match e, sp with
    | .deed _ (.close i), _ => exact sk.close i
  · exact (keeps_step ge sk sp).stocked

/-- Any errands leave a stocked world. -/
lemma stocked_run (ge : produce.Gentle) (sk : z.world.Stocked) (errands : List (Errand P ε)) :
    (z.run produce errands).world.Stocked := by
  induction errands generalizing z with
  | nil => exact sk
  | cons e rest ih => exact ih (stocked_step ge sk e)

/-- All that is stored stays active just if no scope is closed by hand while it is stored. -/
lemma live_run_iff (ge : produce.Gentle) (sk : z.world.Stocked) (live : z.world.Live) (errands : List (Errand P ε)) :
    (∀ done, done <+: errands → (z.run produce done).world.Live) ↔ z.Spares produce errands := by
  induction errands generalizing z with
  | nil =>
    refine ⟨fun _ => trivial, fun _ done pre => ?_⟩
    rw [List.prefix_nil.mp pre]
    exact live
  | cons e rest ih =>
    constructor
    · intro all
      have first : (z.step produce e).world.Live := all [e] ⟨rest, rfl⟩
      have spares : ¬ e.Spoils z.world := fun sp => by
        match e, sp with
        | .deed _ (.close i), stores => exact stores.not_live_close first
      refine ⟨spares, (ih (stocked_step ge sk e) first).mp fun done pre => ?_⟩
      exact all (e :: done) ((List.prefix_cons_inj e).mpr pre)
    · rintro ⟨spares, later⟩ done pre
      rcases List.prefix_cons_iff.mp pre with rfl | ⟨done', rfl, pre'⟩
      · exact live
      · exact (ih (stocked_step ge sk e) ((keeps_step ge sk spares).live live)).mpr later done' pre'

/-- All stored scopes are active at all times just if no scope is closed by hand while it is stored. In every world
that a session comes to, the number of stored scopes exceeds that of the active ones as soon as one of them is not
active, and closing all scopes answers with the former and closes the latter. If all stored scopes are active then
whatever is found, or answered by finding or creating and by making a test instance ready, serves. -/
theorem live_iff (ge : produce.Gentle) (catalogs : CatalogId → SpecCatalog) (host : H) (errands : List (Errand P ε)) :
    let z : Session P H := start catalogs host
    let w := (z.run produce errands).world
    ((∀ done, done <+: errands → (z.run produce done).world.Live) ↔ z.Spares produce errands) ∧
    (∀ st, w.liveCount st ≤ (w.storages st).size ∧ ((w.storages st).size = w.liveCount st ↔ w.LiveAt st) ∧
      (w.closeAll st).1 = (w.storages st).size ∧
      (w.closeAll st).2.closedCount = w.closedCount + w.liveCount st) ∧
    (w.Live →
      (∀ st key i, w.find st key = some i → w.Serves produce i) ∧
      (∀ st key p registry i, (w.getOrCreate produce st key p registry).1 = .ok i →
        (w.getOrCreate produce st key p registry).2.Serves produce i) ∧
      ∀ (x : Extension P) specs inst ctx i, (x.postProcess produce specs inst ctx w).1.outcome = .ok i →
        (x.postProcess produce specs inst ctx w).2.Serves produce i) := by
  intro z w
  have sk : w.Stocked := stocked_run ge (.start host) errands
  refine ⟨live_run_iff ge (.start host) (.start host) errands, fun st => ?_, fun live => ⟨?_, ?_, ?_⟩⟩
  · obtain ⟨answer, closed⟩ := sk.closeAll st
    exact ⟨sk.liveCount_le st, sk.size_eq_liveCount_iff st, answer, closed⟩
  · intro st key i h
    exact (live st key i h).serves produce
  · intro st key p registry i h
    obtain ⟨keeps, stored⟩ := sk.keeps_getOrCreate ge st key p registry
    exact (keeps.live live st key i (stored i h)).serves produce
  · intro x specs inst ctx i h
    obtain ⟨keeps, stored⟩ := x.keeps_postProcess ge sk specs inst ctx
    exact (keeps.live live x.storage (x.key ctx) i (stored i h)).serves produce

/-- A producer that sees only the host's state makes and closes no scopes. -/
lemma gentle_ofHost (f : P → Registry → H → Except ScopeError Model × H) : (Produce.ofHost f).Gentle where
  toDiscreet := World.discreet_ofHost f
  active := fun _ _ _ _ ac => ac

/-- A scope may be closed by hand once it was taken out of the storage. -/
lemma spares_remove_close (sk : z.world.Stocked) {st : StorageId} {key : ScopeKey} {i : ScopeId}
    (h : z.world.find st key = some i) :
    z.Spares produce ([.remove st key, .deed st (.close i)] : List (Errand P ε)) :=
  ⟨nofun, sk.not_stores_remove h, trivial⟩

/-- A scope that is taken out of the storage before it is closed by hand: all that is stored is active at all times. -/
theorem live_removed_first :
    let x : Extension Unit := ⟨⟨"demo", false, .empty⟩, 0, fun _ => ()⟩
    let ctx : Context := .detached "A" "A"
    let ready : Errand Unit Unit := .deed 0 (.postProcess x 0 ⟨some (), false⟩ ctx)
    let errands : List (Errand Unit Unit) := [ready, .remove 0 (x.key ctx), .deed 0 (.close 0)]
    let z : Session Unit Nat := start (fun _ => .empty) 1
    Produce.everyOther.Gentle ∧ (z.run Produce.everyOther [ready]).world.find 0 (x.key ctx) = some 0 ∧
      ∀ done, done <+: errands → (z.run Produce.everyOther done).world.Live := by
  intro x ctx ready errands z
  have ge : Produce.everyOther.Gentle := gentle_ofHost _
  have sk : (z.run Produce.everyOther [ready]).world.Stocked := stocked_run ge (.start 1) _
  have here : (z.run Produce.everyOther [ready]).world.find 0 (x.key ctx) = some 0 := by decide +kernel
  exact ⟨ge, here, (live_iff ge (fun _ => .empty) 1 errands).1.mpr ⟨nofun, spares_remove_close sk here⟩⟩

/-- A scope that is closed by hand while it is stored: it is found and answered, though it serves no more, and the
storage counts it as live and as closed once more. -/
theorem stored_closed :
    let x : Extension Unit := ⟨⟨"demo", false, .empty⟩, 0, fun _ => ()⟩
    let ctx : Context := .detached "A" "A"
    let key := x.key ctx
    let errands : List (Errand Unit Unit) := [.deed 0 (.postProcess x 0 ⟨some (), false⟩ ctx), .deed 0 (.close 0)]
    let w := ((start (fun _ => .empty) 1 : Session Unit Nat).run Produce.everyOther errands).world
    w.find 0 key = some 0 ∧ (w.storages 0).size = 1 ∧ w.liveCount 0 = 0 ∧ (w.closeAll 0).1 = 1 ∧
      (w.closeAll 0).2.closedCount = w.closedCount ∧
      (w.getOrCreate Produce.everyOther 0 key () ⟨.ofSerial 7, .empty⟩).1 = .ok 0 ∧
      (x.postProcess Produce.everyOther .empty ⟨some (), false⟩ ctx w).1.outcome = .ok 0 ∧
      (w.modelOf Produce.everyOther 0).map Prod.fst = some (.error (.inactive key)) ∧
      (w.invalidate 0).map Prod.fst = some (.error (.inactive key)) := by
  intro x ctx key errands w
  decide +kernel

end Session

end ModelScopes
