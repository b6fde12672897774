import ModelScopes.Proofs.Scope.Stored

/-!
# Scopes that are not lost

`World.LeakFree` says that every scope is stored under its own key or closed. Finding, creating, removing and closing
keep it so, provided that producers are `Discreet`: they may use the scopes there are, but make none and leave the
storages alone. Besides, each of these operations only `Turns` the world: scopes age, and no scope that was taken out
of the storage comes back.
-/

namespace ModelScopes

variable {P H : Type}

namespace World

/-- The same scopes, aged. -/
structure Ages (w w' : World P H) : Prop where
  length : w'.scopes.length = w.scopes.length
  scopes : ∀ (i : ScopeId) (s : Scope P), w.scopes[i]? = some s → ∃ s', w'.scopes[i]? = some s' ∧ s.Ages s'

/-- Every scope is stored under its own key or closed, and what is stored under a key is a scope of this key. -/
structure LeakFree (w : World P H) (st : StorageId) : Prop where
  tidy : (w.storages st).Tidy
  own : ∀ key i, w.find st key = some i → ∃ s, w.scopes[i]? = some s ∧ s.key = key
  stored : ∀ i s, w.scopes[i]? = some s → s.state ≠ .closed → w.find st s.key = some i

/-- What may come of a world: its scopes age, and what is found is what was found before or new. -/
structure Turns (w w' : World P H) (st : StorageId) : Prop where
  ages : ∀ (i : ScopeId) (s : Scope P), w.scopes[i]? = some s → ∃ s', w'.scopes[i]? = some s' ∧ s.Ages s'
  found : ∀ key i, w'.find st key = some i → w.find st key = some i ∨ w.scopes.length ≤ i

end World

/-- Producers that make no scopes and leave the storages alone. -/
structure Produce.Discreet (produce : Produce P H) : Prop where
  storages : ∀ p registry w, (produce p registry w).2.storages = w.storages
  ages : ∀ p registry (w : World P H), w.Ages (produce p registry w).2

namespace World

variable {produce : Produce P H} {w w' w'' : World P H} {st : StorageId}

/-! ## Worlds that age -/

/-- A world with the same scopes has aged. -/
lemma Ages.of_scopes (h : w'.scopes = w.scopes) : w.Ages w' :=
  ⟨by rw [h], fun i s hs => ⟨s, by rw [h, hs], .refl s⟩⟩

/-- Only the scopes count for a world's age. -/
lemma Ages.of_same (ag : w.Ages w') (h : w''.scopes = w'.scopes) : w.Ages w'' :=
  ⟨by rw [h]; exact ag.length, by rw [h]; exact ag.scopes⟩

/-- If a world ages and one of its scopes is put back aged, then it has aged. -/
lemma Ages.setScope (ag : w.Ages w') {i : ScopeId} {s s' : Scope P} (hs : w.scopes[i]? = some s)
    (ag' : s.Ages s') : w.Ages (w'.setScope i s') where
  length := by simpa [World.setScope] using ag.length
  scopes := by
    intro j t ht
    obtain ⟨t', ht', agt⟩ := ag.scopes j t ht
    obtain ⟨lt, -⟩ := List.getElem?_eq_some_iff.mp ht'
    by_cases e : i = j
    · subst e
      rw [hs] at ht
      cases ht
      exact ⟨s', by simp [World.setScope, lt], ag'⟩
    · exact ⟨t', by simp [World.setScope, e, ht'], agt⟩

/-- Closing a scope ages the world. -/
lemma ages_close (i : ScopeId) (w : World P H) : w.Ages (w.close i) := by
  unfold close
  split
  case h_1 => exact .of_scopes rfl
  case h_2 s h => exact (Ages.of_scopes (s.close_world w).1).setScope h (Scope.ages_close s w)

/-- The scope that was told to close is closed afterwards. -/
lemma state_close {i : ScopeId} {s : Scope P} (h : (w.close i).scopes[i]? = some s) : s.state = .closed := by
  have shut : (w.close i).scopes = w.scopes.modify i fun s => { s with state := .closed } :=
    congrArg Sight.scopes (sight_close i w)
  rw [shut, List.getElem?_modify] at h
  obtain ⟨s', -, e⟩ := Option.map_eq_some_iff.mp h
  rw [if_pos rfl] at e
  rw [← e]

/-- Invalidation ages the world and touches no storage. -/
lemma ages_invalidate {i : ScopeId} {r : Except ScopeError Unit} (h : w.invalidate i = some (r, w')) :
    w.Ages w' ∧ w'.storages = w.storages := by
  obtain ⟨s, hs, e⟩ := Option.map_eq_some_iff.mp h
  cases e
  obtain ⟨scopes, storages, -, -⟩ := s.invalidate_world w
  exact ⟨(Ages.of_scopes scopes).setScope hs (Scope.ages_invalidate s w), storages⟩

/-- A producer that sees only the host's state keeps its hands off scopes and storages. -/
lemma discreet_ofHost (f : P → Registry → H → Except ScopeError Model × H) : (Produce.ofHost f).Discreet :=
  ⟨fun _ _ _ => rfl, fun _ _ _ => .of_scopes rfl⟩

section Discreet

variable (di : produce.Discreet)

include di

/-- Asking a scope for its model ages the world, and leaves the storages. -/
lemma ages_modelOf {i : ScopeId} {r : Except ScopeError Built} (h : w.modelOf produce i = some (r, w')) :
    w.Ages w' ∧ w'.storages = w.storages := by
  obtain ⟨s, hs, e⟩ := Option.map_eq_some_iff.mp h
  have eq : (s.model produce w).2.2.setScope i (s.model produce w).2.1 = w' := congrArg Prod.snd e
  subst eq
  rcases s.model_world produce w with same | ⟨scopes, storages⟩
  · rw [same]
    exact ⟨(Ages.of_scopes rfl).setScope hs (Scope.ages_model produce s w), rfl⟩
  · have ag := di.ages s.producer s.registry (w.emit (.building s.key))
    have ag' : w.Ages (s.model produce w).2.2 := Ages.of_same ⟨ag.length, ag.scopes⟩ scopes
    exact ⟨ag'.setScope hs (Scope.ages_model produce s w), storages.trans (di.storages s.producer s.registry _)⟩

end Discreet

/-! ## Worlds that turn -/

/-- A world that did not move is a turn. -/
lemma Turns.refl (w : World P H) (st : StorageId) : w.Turns w st :=
  ⟨fun _ s hs => ⟨s, hs, .refl s⟩, fun _ _ => .inl⟩

/-- Turns forget no scope. -/
lemma Turns.length_le (tu : w.Turns w' st) : w.scopes.length ≤ w'.scopes.length := by
  by_contra lt
  obtain ⟨s', hs', -⟩ := tu.ages w'.scopes.length _ (List.getElem?_eq_getElem (Nat.lt_of_not_le lt))
  simp at hs'

/-- Turns come one after the other. -/
lemma Turns.trans (tu : w.Turns w' st) (tu' : w'.Turns w'' st) : w.Turns w'' st where
  ages := by
    intro i s hs
    obtain ⟨s', hs', ag⟩ := tu.ages i s hs
    obtain ⟨s'', hs'', ag'⟩ := tu'.ages i s' hs'
    exact ⟨s'', hs'', ag.trans ag'⟩
  found := by
    intro key i h
    rcases tu'.found key i h with old | new
    · exact tu.found key i old
    · exact .inr (Nat.le_trans tu.length_le new)

/-! ## Worlds without leaks -/

/-- A new world has no scope that could leak. -/
lemma LeakFree.start (host : H) (st : StorageId) : (World.start host : World P H).LeakFree st :=
  ⟨.empty, nofun, fun _ _ h => by simp [World.start] at h⟩

/-- Two scopes of one key are the same unless one of them is closed. -/
lemma LeakFree.unique (lf : w.LeakFree st) {i j : ScopeId} {s s' : Scope P} (hs : w.scopes[i]? = some s)
    (hs' : w.scopes[j]? = some s') (e : s.key = s'.key) (act : s.state ≠ .closed) (act' : s'.state ≠ .closed) :
    i = j := by
  have found := lf.stored i s hs act
  rw [e, lf.stored j s' hs' act'] at found
  cases found
  rfl

/-- All scopes of a key under which nothing is found are closed. -/
lemma LeakFree.closed_of_none (lf : w.LeakFree st) {i : ScopeId} {s : Scope P} (hs : w.scopes[i]? = some s)
    (h : w.find st s.key = none) : s.state = .closed := by
  by_contra act
  rw [lf.stored i s hs act] at h
  cases h

/-- Nothing leaks if the scopes age and nothing is taken out of the storage but what is closed. -/
lemma LeakFree.of_ages (lf : w.LeakFree st) (ag : w.Ages w') (ti : (w'.storages st).Tidy)
    (found : ∀ key i, w'.find st key = some i → w.find st key = some i)
    (kept : ∀ key i s, w.find st key = some i → w'.scopes[i]? = some s → s.state ≠ .closed →
      w'.find st key = some i) : w'.LeakFree st ∧ w.Turns w' st := by
  refine ⟨⟨ti, ?_, ?_⟩, ag.scopes, fun key i h => .inl (found key i h)⟩
  · intro key i h
    obtain ⟨s, hs, e⟩ := lf.own key i (found key i h)
    obtain ⟨s', hs', agt⟩ := ag.scopes i s hs
    exact ⟨s', hs', agt.key.trans e⟩
  · intro i s' hs' act
    -- a scope that is not closed now was not closed before either, and so it was stored
    obtain ⟨lt, -⟩ := List.getElem?_eq_some_iff.mp hs'
    have hs := List.getElem?_eq_getElem (ag.length ▸ lt)
    obtain ⟨t, ht, agt⟩ := ag.scopes i _ hs
    rw [hs'] at ht
    cases ht
    rw [agt.key]
    exact kept _ i s' (lf.stored i _ hs fun closed => act (agt.closed closed)) hs' act

/-- Nothing leaks if the scopes age and the storage stays as it is. -/
lemma LeakFree.of_storages (lf : w.LeakFree st) (ag : w.Ages w') (kept : w'.storages st = w.storages st) :
    w'.LeakFree st ∧ w.Turns w' st := by
  have found : ∀ key, w'.find st key = w.find st key := fun key => by rw [find, kept, find]
  refine lf.of_ages ag (by rw [kept]; exact lf.tidy) ?_ ?_
  · intro key i h
    rwa [← found]
  · intro key i s h _ _
    rwa [found]

/-- Nothing leaks if a scope is taken out of the storage and closed. -/
lemma LeakFree.remove_close (lf : w.LeakFree st) {key : ScopeKey} {i : ScopeId} (h : w.find st key = some i) :
    let w' := (w.remove st key).2.close i
    (w'.LeakFree st ∧ w.Turns w' st) ∧ w'.find st key = none := by
  obtain ⟨w₁, eq, same, ti, -, found⟩ := remove_eq lf.tidy key
  rw [eq]
  have scopes : w₁.scopes = w.scopes := congrArg Sight.scopes same
  have found' : ∀ key', (w₁.close i).find st key' = if key' = key then none else w.find st key' := by
    intro key'
    rw [find, storages_close]
    exact found key'
  have closing := ages_close i w₁
  have ag : w.Ages (w₁.close i) :=
    ⟨closing.length.trans (by rw [scopes]), fun j s hs => closing.scopes j s (by rw [scopes, hs])⟩
  refine ⟨lf.of_ages ag (by rw [storages_close]; exact ti) ?_ ?_, by simp [found']⟩
  · intro key' j hf
    rw [found'] at hf
    split at hf
    case isTrue => cases hf
    case isFalse => exact hf
  · intro key' j s hf hs act
    rw [found']
    split
    -- the one scope that is no longer found was closed
    case isTrue e =>
      rw [e, h] at hf
      cases hf
      exact absurd (state_close hs) act
    case isFalse => exact hf

/-- Nothing leaks if all scopes are taken out of the storage and closed. -/
lemma LeakFree.closeAll (lf : w.LeakFree st) :
    ((w.closeAll st).2.LeakFree st ∧ w.Turns (w.closeAll st).2 st) ∧ ∀ key, (w.closeAll st).2.find st key = none := by
  obtain ⟨w', eq, ti, found, -, -, scopes⟩ := closeAll_eq lf.tidy
  rw [eq]
  have ag : w.Ages w' := by
    refine ⟨by simp [scopes], fun i s hs => ?_⟩
    rw [scopes, List.getElem?_mapIdx, hs]
    refine ⟨_, rfl, ?_⟩
    split
    case isTrue => exact ⟨rfl, rfl, rfl, fun _ => rfl⟩
    case isFalse => exact .refl s
  refine ⟨lf.of_ages ag ti ?_ ?_, found⟩
  · intro key i h
    rw [found] at h
    cases h
  · intro key i s h hs act
    rw [scopes, List.getElem?_mapIdx] at hs
    obtain ⟨s', hs', e⟩ := Option.map_eq_some_iff.mp hs
    rw [if_pos ⟨key, Storage.mem_keys_of_find h, h⟩] at e
    exact absurd (by rw [← e]) act

/-- Nothing leaks if the scopes age and a new one is stored under a key that had none. -/
lemma LeakFree.of_new (lf : w.LeakFree st) {v : World P H} (ag : w.Ages v) {s : Scope P}
    (h : w.find st s.key = none) (scopes : w'.scopes = v.scopes ++ [s]) (ti : (w'.storages st).Tidy)
    (found : ∀ key, w'.find st key = if key = s.key then some v.scopes.length else w.find st key) :
    w'.LeakFree st ∧ w.Turns w' st := by
  have new : w'.scopes[v.scopes.length]? = some s := by rw [scopes, List.getElem?_concat_length]
  -- the scopes there were are still there, aged, before the new one
  have old : ∀ (i : ScopeId) (t : Scope P), w.scopes[i]? = some t → ∃ t', w'.scopes[i]? = some t' ∧ t.Ages t' := by
    intro i t ht
    obtain ⟨t', ht', agt⟩ := ag.scopes i t ht
    obtain ⟨lt, -⟩ := List.getElem?_eq_some_iff.mp ht'
    exact ⟨t', by rw [scopes, List.getElem?_append_left lt, ht'], agt⟩
  refine ⟨⟨ti, ?_, ?_⟩, old, ?_⟩
  · intro key i hf
    rw [found] at hf
    split at hf
    case isTrue e =>
      cases hf
      exact ⟨s, new, e.symm⟩
    case isFalse =>
      obtain ⟨t, ht, e⟩ := lf.own key i hf
      obtain ⟨t', ht', agt⟩ := old i t ht
      exact ⟨t', ht', agt.key.trans e⟩
  · intro i t' ht' act
    rw [found]
    -- an old scope, the new one, or none
    rcases Nat.lt_trichotomy i v.scopes.length with lt | eq | gt
    · have ht := List.getElem?_eq_getElem (ag.length ▸ lt)
      obtain ⟨u, hu, agt⟩ := old i _ ht
      rw [ht'] at hu
      cases hu
      have hf := lf.stored i _ ht fun closed => act (agt.closed closed)
      have ne : t'.key ≠ s.key := fun e => by
        rw [← agt.key, e, h] at hf
        cases hf
      rw [if_neg ne, agt.key, hf]
    · subst eq
      rw [new] at ht'
      cases ht'
      rw [if_pos rfl]
    · rw [scopes, List.getElem?_eq_none (by simpa using Nat.succ_le_of_lt gt)] at ht'
      cases ht'
  · intro key i hf
    rw [found] at hf
    split at hf
    case isTrue =>
      cases hf
      exact .inr (Nat.le_of_eq ag.length.symm)
    case isFalse => exact .inl hf

/-- Nothing leaks from finding or creating, and the scope that is answered has the key that was asked for. -/
lemma LeakFree.getOrCreate (lf : w.LeakFree st) (di : produce.Discreet) (key : ScopeKey) (p : P)
    (registry : Registry) :
    let a := w.getOrCreate produce st key p registry
    (a.2.LeakFree st ∧ w.Turns a.2 st) ∧ ∀ i, a.1 = .ok i → ∃ s, a.2.scopes[i]? = some s ∧ s.key = key := by
  have ag := di.ages p registry (w.beforeBuild st key)
  have kept := congrFun (di.storages p registry (w.beforeBuild st key)) st
  obtain ⟨i, h, eq⟩ | ⟨e, v, w', h, hp, eq, same, ti, -, found⟩ | ⟨m, v, w', h, hp, eq, same, ti, -, found⟩ :=
    getOrCreate_cases lf.tidy kept
  · rw [eq]
    refine ⟨⟨lf, .refl w st⟩, fun j e => ?_⟩
    cases e
    exact lf.own key i h
  · rw [hp] at ag
    have aged : w.Ages w' := Ages.of_same ⟨ag.length, ag.scopes⟩ (congrArg Sight.scopes same)
    rw [eq]
    refine ⟨lf.of_ages aged ti ?_ ?_, nofun⟩
    · intro key' i hf
      rwa [← found]
    · intro key' i s hf _ _
      rwa [found]
  · rw [hp] at ag
    have aged : w.Ages v := ⟨ag.length, ag.scopes⟩
    have scopes := congrArg Sight.scopes same
    rw [eq]
    refine ⟨lf.of_new aged h scopes ti found, fun i e => ?_⟩
    cases e
    exact ⟨_, by rw [← sight_scopes, scopes, List.getElem?_concat_length], rfl⟩

end World

end ModelScopes
