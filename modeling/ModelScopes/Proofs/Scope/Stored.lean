import ModelScopes.Proofs.Scope.Inversion
import ModelScopes.Proofs.Storage.Slots
import ModelScopes.Scope.Stored

/-!
# Operations on stored scopes

What finding, creating, removing and closing do to a tidy storage and to the rest of the world. The rest is what
`World.sight` shows: the scopes, the identities given out and what the producers work on. A storage is tidy again
after each of these operations, provided that producers leave the storages alone.
-/

namespace ModelScopes

variable {P H : Type}

/-- What can be seen of a world besides its storages and what was logged. -/
structure Sight (P H : Type) where
  scopes : List (Scope P)
  serial : Nat
  host : H

namespace Produce

/-- Producers that work on nothing but what they work on besides. -/
def ofHost (f : P → Registry → H → Except ScopeError Model × H) : Produce P H := fun p registry w =>
  let (r, host) := f p registry w.host
  (r, { w with host := host })

/-- A producer of which every other call fails. -/
def everyOther : Produce Unit Nat :=
  ofHost fun _ registry n => (if n % 2 = 0 then .error (.producer "out of order") else .ok (.empty registry.id), n + 1)

end Produce

namespace World

/-- What can be seen of the world besides its storages and what was logged. -/
def sight (w : World P H) : Sight P H :=
  ⟨w.scopes, w.serial, w.host⟩

/-- The world in which the producer of a key without a scope is called. -/
def beforeBuild (st : StorageId) (key : ScopeKey) (w : World P H) : World P H :=
  ((w.modifyStorage st fun _ => ((w.storages st).fetch key).2).emit (.creating key)).emit (.building key)

/-! ## Fields of worlds -/

/-- The scopes are a part of what is seen of a world. -/
@[simp] lemma sight_scopes (w : World P H) : w.sight.scopes = w.scopes := rfl

/-- Fetching the slot before a build is out of sight. -/
@[simp] lemma sight_beforeBuild (w : World P H) (st : StorageId) (key : ScopeKey) :
    (w.beforeBuild st key).sight = w.sight := rfl

/-- The storage that was modified, read back. -/
@[simp] lemma storages_modifyStorage (w : World P H) (st : StorageId) (f : Storage → Storage) :
    (w.modifyStorage st f).storages st = f (w.storages st) := by
  simp [modifyStorage]

/-- Before a build the storage has a slot for the key. -/
@[simp] lemma storages_beforeBuild (w : World P H) (st : StorageId) (key : ScopeKey) :
    (w.beforeBuild st key).storages st = ((w.storages st).fetch key).2 := by
  simp [beforeBuild]

/-- A new scope is in no storage yet. -/
@[simp] lemma storages_addScope (w : World P H) (s : Scope P) : (w.addScope s).2.storages = w.storages := rfl

/-- Putting a storage back as it was changes nothing. -/
lemma modifyStorage_same {w : World P H} {st : StorageId} {storage : Storage} (h : storage = w.storages st) :
    (w.modifyStorage st fun _ => storage) = w := by
  have hs : (fun j => if j = st then storage else w.storages j) = w.storages := by
    funext j
    split
    case isTrue e => rw [h, e]
    case isFalse => rfl
  simp [modifyStorage, hs]

/-- Putting a scope back as it was changes nothing. -/
lemma setScope_same {w : World P H} {i : ScopeId} {s : Scope P} (h : w.scopes[i]? = some s) : w.setScope i s = w := by
  have hs : w.scopes.set i s = w.scopes := by
    apply List.ext_getElem?
    intro j
    rw [List.getElem?_set]
    split
    case isTrue e =>
      subst e
      obtain ⟨lt, here⟩ := List.getElem?_eq_some_iff.mp h
      simp [lt, here]
    case isFalse => rfl
  simp [setScope, hs]

/-- The handle of a closed scope is refused a model, and nothing changes. -/
lemma modelOf_of_closed {w : World P H} {i : ScopeId} {s : Scope P} (hs : w.scopes[i]? = some s)
    (h : s.state = .closed) (produce : Produce P H) :
    w.modelOf produce i = some (.error (.inactive s.key), w) := by
  simp [modelOf, hs, Scope.model_of_closed h, setScope_same hs]

/-! ## Opening -/

/-- Opening a scope fails with the producer's error. -/
lemma openScope_of_failed {produce : Produce P H} {key : ScopeKey} {registry : Registry} {p : P} {w w' : World P H}
    {e : ScopeError} (hp : produce p registry (w.emit (.building key)) = (.error e, w')) :
    w.openScope produce key registry p = (.error e, w') := by
  have hm := Scope.model_of_failed (s := Scope.new key registry p) rfl hp
  rw [openScope, Scope.opened_of_failed (congrArg Prod.fst hm), hm]

/-- A scope that is made with its model holds what the producer built. -/
lemma openScope_of_built {produce : Produce P H} {key : ScopeKey} {registry : Registry} {p : P} {w w' : World P H}
    {m : Model} (hp : produce p registry (w.emit (.building key)) = (.ok m, w')) :
    w.openScope produce key registry p =
      (.ok w'.scopes.length,
        (({ w' with serial := w'.serial + 1 }.emit (.built key m.id m.entities.size m.collections.size)).addScope
          ⟨key, registry, p, .active (some ⟨w'.serial, m⟩)⟩).2) := by
  have hm := Scope.model_of_built (s := Scope.new key registry p) rfl hp
  rw [openScope, Scope.opened_of_built (congrArg Prod.fst hm), hm]
  rfl

/-! ## Finding and creating -/

/-- A scope that is found is answered, and nothing changes. -/
lemma getOrCreate_of_found {w : World P H} {st : StorageId} {key : ScopeKey} {i : ScopeId}
    (h : w.find st key = some i) (produce : Produce P H) (p : P) (registry : Registry) :
    w.getOrCreate produce st key p registry = (.ok i, w) := by
  obtain ⟨slot, hs, hr⟩ := Option.bind_eq_some_iff.mp h
  simp [getOrCreate, Storage.fetch_of_some hs, modifyStorage_same, hr]

/-- A key without a slot is built for in a new one. -/
lemma getOrCreate_of_absent {w : World P H} {st : StorageId} {key : ScopeKey}
    (absent : (w.storages st).slot? key = none) (produce : Produce P H) (p : P) (registry : Registry) :
    w.getOrCreate produce st key p registry =
      (w.modifyStorage st fun _ => ((w.storages st).fetch key).2).createIn produce st key
        ((w.storages st).fetch key).1 p registry := by
  have hf := Storage.fetch_fst_of_none absent
  have hr : ((w.storages st).fetch key).2.read ((w.storages st).fetch key).1 = none := by
    rw [Storage.read_fetch, hf]
    exact Storage.read_of_le (Nat.le_refl _)
  simp only [getOrCreate, hr]

/-- A key without a scope is built for in its slot. -/
lemma getOrCreate_of_none {w : World P H} {st : StorageId} {key : ScopeKey} (ti : (w.storages st).Tidy)
    (h : w.find st key = none) (produce : Produce P H) (p : P) (registry : Registry) :
    w.getOrCreate produce st key p registry =
      (w.modifyStorage st fun _ => ((w.storages st).fetch key).2).createIn produce st key
        ((w.storages st).fetch key).1 p registry :=
  -- in a tidy storage a key without a scope has no slot
  getOrCreate_of_absent (ti.slot?_eq_none h) produce p registry

/-- If the producer fails then nothing is stored, and its error is answered. -/
lemma getOrCreate_of_failed {produce : Produce P H} {w w' : World P H} {st : StorageId} {key : ScopeKey} {p : P}
    {registry : Registry} {e : ScopeError} (ti : (w.storages st).Tidy) (h : w.find st key = none)
    (hp : produce p registry (w.beforeBuild st key) = (.error e, w'))
    (hs : w'.storages st = (w.beforeBuild st key).storages st) :
    ∃ w'', w.getOrCreate produce st key p registry = (.error e, w'') ∧ w''.sight = w'.sight ∧
      (w''.storages st).Tidy ∧ (w''.storages st).keys = (w.storages st).keys ∧
      ∀ key', w''.find st key' = w.find st key' := by
  rw [storages_beforeBuild] at hs
  rw [getOrCreate_of_none ti h, createIn, openScope_of_failed hp]
  refine ⟨_, rfl, rfl, ?_⟩
  simp only [storages_emit, find, storages_modifyStorage, hs]
  refine ⟨ti.release_fetch h, ?_, Storage.find_release_fetch h⟩
  exact congrArg (List.map Prod.fst) (Storage.table_release_fetch (ti.slot?_eq_none h))

/-- If the producer succeeds then a new scope with its model is stored under the key, and is answered. -/
lemma getOrCreate_of_built {produce : Produce P H} {w w' : World P H} {st : StorageId} {key : ScopeKey} {p : P}
    {registry : Registry} {m : Model} (ti : (w.storages st).Tidy) (h : w.find st key = none)
    (hp : produce p registry (w.beforeBuild st key) = (.ok m, w'))
    (hs : w'.storages st = (w.beforeBuild st key).storages st) :
    ∃ w'', w.getOrCreate produce st key p registry = (.ok w'.scopes.length, w'') ∧
      w''.sight = ⟨w'.scopes ++ [⟨key, registry, p, .active (some ⟨w'.serial, m⟩)⟩], w'.serial + 1, w'.host⟩ ∧
      (w''.storages st).Tidy ∧ (w''.storages st).keys = (w.storages st).keys ++ [key] ∧
      ∀ key', w''.find st key' = if key' = key then some w'.scopes.length else w.find st key' := by
  rw [storages_beforeBuild] at hs
  rw [getOrCreate_of_none ti h, createIn, openScope_of_built hp]
  refine ⟨_, rfl, rfl, ?_⟩
  simp only [storages_emit, find, storages_modifyStorage, storages_addScope, hs]
  exact ⟨ti.publish_fetch h _, Storage.keys_fetch_of_none (ti.slot?_eq_none h), ti.find_publish_fetch key _⟩

/-- The three ways in which finding or creating can come out, if the producer leaves the storage alone. -/
lemma getOrCreate_cases {produce : Produce P H} {w : World P H} {st : StorageId} {key : ScopeKey} {p : P}
    {registry : Registry} (ti : (w.storages st).Tidy)
    (kept : (produce p registry (w.beforeBuild st key)).2.storages st = (w.beforeBuild st key).storages st) :
    (∃ i, w.find st key = some i ∧ w.getOrCreate produce st key p registry = (.ok i, w)) ∨
    (∃ e w' w'', w.find st key = none ∧ produce p registry (w.beforeBuild st key) = (.error e, w') ∧
      w.getOrCreate produce st key p registry = (.error e, w'') ∧ w''.sight = w'.sight ∧
      (w''.storages st).Tidy ∧ (w''.storages st).keys = (w.storages st).keys ∧
      ∀ key', w''.find st key' = w.find st key') ∨
    ∃ m w' w'', w.find st key = none ∧ produce p registry (w.beforeBuild st key) = (.ok m, w') ∧
      w.getOrCreate produce st key p registry = (.ok w'.scopes.length, w'') ∧
      w''.sight = ⟨w'.scopes ++ [⟨key, registry, p, .active (some ⟨w'.serial, m⟩)⟩], w'.serial + 1, w'.host⟩ ∧
      (w''.storages st).Tidy ∧ (w''.storages st).keys = (w.storages st).keys ++ [key] ∧
      ∀ key', w''.find st key' = if key' = key then some w'.scopes.length else w.find st key' := by
  cases h : w.find st key with
  | some i => exact .inl ⟨i, rfl, getOrCreate_of_found h produce p registry⟩
  | none =>
    cases hp : produce p registry (w.beforeBuild st key) with
    | mk r w' =>
      rw [hp] at kept
      cases r with
      | error e =>
        obtain ⟨w'', outcome⟩ := getOrCreate_of_failed ti h hp kept
        exact .inr (.inl ⟨e, w', w'', rfl, rfl, outcome⟩)
      | ok m =>
        obtain ⟨w'', outcome⟩ := getOrCreate_of_built ti h hp kept
        exact .inr (.inr ⟨m, w', w'', rfl, rfl, outcome⟩)

/-! ## Removing -/

/-- Removing answers with what was found, and takes nothing but this key out of the storage. -/
lemma remove_eq {w : World P H} {st : StorageId} (ti : (w.storages st).Tidy) (key : ScopeKey) :
    ∃ w', w.remove st key = (w.find st key, w') ∧ w'.sight = w.sight ∧ (w'.storages st).Tidy ∧
      (w'.storages st).keys = (w.storages st).keys.filter (· != key) ∧
      ∀ key', w'.find st key' = if key' = key then none else w.find st key' := by
  refine ⟨_, Prod.ext (Storage.remove_fst _ _) rfl, rfl, ?_⟩
  simp only [remove, find, storages_modifyStorage]
  exact ⟨ti.remove key, Storage.keys_remove _ key, ti.find_remove key⟩

/-! ## Closing -/

/-- Closing a scope by its number closes this one, and changes nothing else but what was logged. -/
@[simp] lemma sight_close (i : ScopeId) (w : World P H) :
    (w.close i).sight = ⟨w.scopes.modify i fun s => { s with state := .closed }, w.serial, w.host⟩ := by
  unfold close
  split
  case h_1 h => simp [sight, List.modify_eq_self (List.getElem?_eq_none_iff.mp h)]
  case h_2 s h =>
    obtain ⟨scopes, -, serial, host⟩ := s.close_world w
    simp [sight, setScope, scopes, serial, host, List.modify_eq_set_getElem?, h]

/-- Closing a scope touches no storage. -/
@[simp] lemma storages_close (i : ScopeId) (w : World P H) : (w.close i).storages = w.storages := by
  unfold close
  split
  case h_1 => rfl
  case h_2 s _ => exact (s.close_world w).2.1

/-- Closing the scopes of keys takes out and closes those that were found, and answers with their number. -/
lemma closeKeys_eq {w : World P H} {st : StorageId} (ti : (w.storages st).Tidy) {keys : List ScopeKey}
    (nd : keys.Nodup) :
    ∃ w', w.closeKeys st keys = (keys.countP fun key => (w.find st key).isSome, w') ∧ (w'.storages st).Tidy ∧
      (∀ key, w'.find st key = if key ∈ keys then none else w.find st key) ∧
      w'.serial = w.serial ∧ w'.host = w.host ∧
      ∀ i, w'.scopes[i]? = (w.scopes[i]?).map fun s =>
        if ∃ key ∈ keys, w.find st key = some i then { s with state := .closed } else s := by
  induction keys generalizing w with
  | nil => exact ⟨w, rfl, ti, by simp, rfl, rfl, by simp⟩
  | cons key rest ih =>
    obtain ⟨absent, nd⟩ := List.nodup_cons.mp nd
    obtain ⟨w₁, eq₁, same₁, ti₁, -, found₁⟩ := remove_eq ti key
    -- the keys that are still to come are found as before
    have kept : ∀ key' ∈ rest, w₁.find st key' = w.find st key' := fun key' hk => by
      have ne : key' ≠ key := fun e => absent (e ▸ hk)
      simp [found₁, ne]
    have count : (rest.countP fun key => (w₁.find st key).isSome) = rest.countP fun key => (w.find st key).isSome :=
      List.countP_congr fun key' hk => by rw [kept key' hk]
    have mine : ∀ i, (∃ key' ∈ rest, w₁.find st key' = some i) ↔ ∃ key' ∈ rest, w.find st key' = some i := fun i =>
      exists_congr fun key' => and_congr_right fun hk => by rw [kept key' hk]
    have scopes₁ : w₁.scopes = w.scopes := congrArg Sight.scopes same₁
    have serial₁ : w₁.serial = w.serial := congrArg Sight.serial same₁
    have host₁ : w₁.host = w.host := congrArg Sight.host same₁
    rw [closeKeys, eq₁]
    cases h : w.find st key with
    | none =>
      obtain ⟨w₂, eq₂, ti₂, found₂, serial₂, host₂, scopes₂⟩ := ih ti₁ nd
      refine ⟨w₂, by simp [eq₂, count, h], ti₂, ?_, serial₂.trans serial₁, host₂.trans host₁, ?_⟩
      · intro key'
        by_cases e : key' = key <;> simp [found₂, found₁, e, absent]
      · intro i
        simp [scopes₂, scopes₁, mine, h]
    | some i =>
      have shut := sight_close i w₁
      obtain ⟨w₂, eq₂, ti₂, found₂, serial₂, host₂, scopes₂⟩ := ih (w := w₁.close i) (by simpa using ti₁) nd
      have same : ∀ key', (w₁.close i).find st key' = w₁.find st key' := fun key' => by simp [find]
      refine ⟨w₂, by simp [eq₂, count, h, same], ti₂, ?_, ?_, ?_, ?_⟩
      · intro key'
        by_cases e : key' = key <;> simp [found₂, same, found₁, e, absent]
      · exact serial₂.trans ((congrArg Sight.serial shut).trans serial₁)
      · exact host₂.trans ((congrArg Sight.host shut).trans host₁)
      · intro j
        have scopes : (w₁.close i).scopes = w₁.scopes.modify i fun s => { s with state := .closed } :=
          congrArg Sight.scopes shut
        rw [scopes₂, scopes, scopes₁, List.getElem?_modify]
        cases w.scopes[j]? with
        | none => rfl
        | some s => by_cases e : i = j <;> simp [same, mine, h, e]

/-- Closing all scopes empties the storage, closes those that were found, and answers with their number. -/
lemma closeAll_eq {w : World P H} {st : StorageId} (ti : (w.storages st).Tidy) :
    ∃ w', w.closeAll st = ((w.storages st).slotCount, w') ∧ (w'.storages st).Tidy ∧
      (∀ key, w'.find st key = none) ∧ w'.serial = w.serial ∧ w'.host = w.host ∧
      w'.scopes = w.scopes.mapIdx fun i s =>
        if ∃ key ∈ (w.storages st).keys, w.find st key = some i then { s with state := .closed } else s := by
  obtain ⟨w', eq, ti', found, serial, host, scopes⟩ := closeKeys_eq ti ti.keys
  have count : ((w.storages st).keys.countP fun key => (w.find st key).isSome) = (w.storages st).slotCount := by
    have all : ∀ key ∈ (w.storages st).keys, (w.find st key).isSome := ti.full
    rw [List.countP_eq_length.mpr all, Storage.keys, List.length_map, Storage.slotCount]
  have gone : ∀ key, w'.find st key = none := by
    intro key
    rw [found]
    split
    case isTrue => rfl
    case isFalse absent => exact Option.not_isSome_iff_eq_none.mp fun h => absent (ti.mem_keys_iff.mpr h)
  have shut : w'.scopes = w.scopes.mapIdx fun i s =>
      if ∃ key ∈ (w.storages st).keys, w.find st key = some i then { s with state := .closed } else s :=
    List.ext_getElem? fun i => by rw [scopes, List.getElem?_mapIdx]
  rw [closeAll, eq, count]
  refine ⟨_, rfl, ?_⟩
  -- what is logged does not matter
  split
  case isTrue => exact ⟨ti', gone, serial, host, shut⟩
  case isFalse => exact ⟨ti', gone, serial, host, shut⟩

end World

end ModelScopes
