import ModelScopes.Proofs.Scope.Leaks

/-!
# What is done for one key

With producers that are separate, each used for keys of its own or remembering nothing, whatever is done for a key
spares all others (`World.Concerns`): their scopes stay as they are, the same of them is stored, and the same is
remembered for them. Only closing all scopes concerns every key.
-/

namespace ModelScopes

variable {P H V : Type}

/-- The model without its identity. -/
def Model.content (m : Model) : Model :=
  { m with id := .ofSerial 0 }

/-- Producers that leave scopes and storages alone. What comes of a call of one that is used for a key depends only on
what is remembered for this key and on the settings, but for the identity of the model, and nothing that is remembered
for another key is changed by it. -/
structure Produce.Separate (produce : Produce P H) (uses : ScopeKey → P → Prop) (view : ScopeKey → H → V) : Prop where
  scopes : ∀ p registry w, (produce p registry w).2.scopes = w.scopes
  storages : ∀ p registry w, (produce p registry w).2.storages = w.storages
  own : ∀ key p (registry registry' : Registry) w w', uses key p → registry.settings = registry'.settings →
    view key w.host = view key w'.host →
    (produce p registry w).1.map Model.content = (produce p registry' w').1.map Model.content ∧
      view key (produce p registry w).2.host = view key (produce p registry' w').2.host
  apart : ∀ key key' p registry w, uses key p → key' ≠ key → view key' (produce p registry w).2.host = view key' w.host

namespace World

/-- The scope is there, and has this key. -/
def HasKey (w : World P H) (key : ScopeKey) (i : ScopeId) : Prop :=
  ∃ s : Scope P, w.scopes[i]? = some s ∧ s.key = key

/-- The storage is tidy, what is stored under a key is a scope of this key, and each scope has a producer that is used
for its key. -/
structure Orderly (uses : ScopeKey → P → Prop) (st : StorageId) (w : World P H) : Prop where
  tidy : (w.storages st).Tidy
  own : ∀ key i, w.find st key = some i → w.HasKey key i
  used : ∀ (i : ScopeId) (s : Scope P), w.scopes[i]? = some s → uses s.key s.producer

/-- What is done leaves the scopes of a key as they are, stores the same of them, and remembers the same for the key. -/
structure Spares (view : ScopeKey → H → V) (st : StorageId) (key : ScopeKey) (w w' : World P H) : Prop where
  found : w'.find st key = w.find st key
  scopes : ∀ (i : ScopeId) (s : Scope P), w.scopes[i]? = some s → s.key = key → w'.scopes[i]? = some s
  view : view key w'.host = view key w.host

/-- What is done for a key leaves the world orderly, at most lets scopes age, and spares all other keys. -/
structure Concerns (uses : ScopeKey → P → Prop) (view : ScopeKey → H → V) (st : StorageId) (key : ScopeKey)
    (w w' : World P H) : Prop where
  orderly : w'.Orderly uses st
  ages : ∀ (i : ScopeId) (s : Scope P), w.scopes[i]? = some s → ∃ s', w'.scopes[i]? = some s' ∧ s.Ages s'
  spares : ∀ key' ≠ key, w.Spares view st key' w'

end World

variable {produce : Produce P H} {uses : ScopeKey → P → Prop} {view : ScopeKey → H → V}

/-- Asking a scope for its model changes no scopes and storages, and nothing that is remembered for another key. -/
lemma Scope.model_apart (se : produce.Separate uses view) (s : Scope P) (w : World P H) :
    (s.model produce w).2.2.scopes = w.scopes ∧ (s.model produce w).2.2.storages = w.storages ∧
      ∀ key ≠ s.key, uses s.key s.producer → view key (s.model produce w).2.2.host = view key w.host := by
  have scopes := se.scopes s.producer s.registry (w.emit (.building s.key))
  have storages := se.storages s.producer s.registry (w.emit (.building s.key))
  have apart := fun key ne used => se.apart s.key key s.producer s.registry (w.emit (.building s.key)) used ne
  obtain ⟨-, eq⟩ | ⟨b, -, eq⟩ | ⟨e, v, -, hp, eq⟩ | ⟨m, v, -, hp, eq⟩ := s.model_cases produce w
  · rw [eq]
    exact ⟨rfl, rfl, fun _ _ _ => rfl⟩
  · rw [eq]
    exact ⟨rfl, rfl, fun _ _ _ => rfl⟩
  · rw [hp] at scopes storages apart
    rw [eq]
    exact ⟨scopes, storages, apart⟩
  · rw [hp] at scopes storages apart
    rw [eq]
    exact ⟨scopes, storages, apart⟩

namespace World

variable {st : StorageId} {key : ScopeKey} {w w' w₁ w₂ : World P H} {i : ScopeId} {s t : Scope P} {p : P}

/-! ## Operations on one scope -/

/-- What asking a handle for its model changes: its own scope, and what the producer remembers. -/
lemma modelOf_eq (se : produce.Separate uses view) (hs : w.scopes[i]? = some s) :
    ∃ w₁, w.modelOf produce i = some ((s.model produce w).1, w₁) ∧
      w₁.scopes = w.scopes.set i (s.model produce w).2.1 ∧ w₁.storages = w.storages ∧
      w₁.host = (s.model produce w).2.2.host := by
  obtain ⟨scopes, storages, -⟩ := s.model_apart se w
  refine ⟨(s.model produce w).2.2.setScope i (s.model produce w).2.1, by simp [modelOf, hs], ?_, storages, rfl⟩
  rw [setScope, scopes]

/-- What invalidating a handle changes: its own scope. -/
lemma invalidate_eq (hs : w.scopes[i]? = some s) :
    ∃ w₁, w.invalidate i = some ((s.invalidate w).1, w₁) ∧ w₁.scopes = w.scopes.set i (s.invalidate w).2.1 ∧
      w₁.storages = w.storages ∧ w₁.host = w.host := by
  obtain ⟨scopes, storages, -, host⟩ := s.invalidate_world w
  refine ⟨(s.invalidate w).2.2.setScope i (s.invalidate w).2.1, by simp [invalidate, hs], ?_, storages, host⟩
  rw [setScope, scopes]

/-- What closing a handle changes: its own scope. -/
lemma close_eq (hs : w.scopes[i]? = some s) :
    (w.close i).scopes = w.scopes.set i { s with state := .closed } ∧ (w.close i).host = w.host := by
  have seen := sight_close i w
  refine ⟨?_, congrArg Sight.host seen⟩
  rw [show (w.close i).scopes = _ from congrArg Sight.scopes seen]
  simp [List.modify_eq_set_getElem?, hs]

/-! ## What is done for one key -/

/-- A new world is orderly. -/
lemma Orderly.start (host : H) : (World.start host : World P H).Orderly uses st :=
  ⟨.empty, nofun, nofun⟩

/-- A key that is spared and then spared again is spared. -/
lemma Spares.trans (sp : w.Spares view st key w₁) (sp' : w₁.Spares view st key w₂) : w.Spares view st key w₂ :=
  ⟨sp'.found.trans sp.found, fun i s hs own => sp'.scopes i s (sp.scopes i s hs own) own, sp'.view.trans sp.view⟩

/-- A key is spared when scopes, storages and the host's state stay as they are. -/
lemma Spares.of_same (scopes : w'.scopes = w.scopes) (storages : w'.storages = w.storages) (host : w'.host = w.host) :
    w.Spares view st key w' :=
  ⟨by rw [find, storages, find], fun i s hs _ => by rw [scopes, hs], by rw [host]⟩

/-- A scope keeps its key. -/
lemma Concerns.hasKey (co : w.Concerns uses view st key w') {key' : ScopeKey} (own : w.HasKey key' i) :
    w'.HasKey key' i := by
  obtain ⟨s, hs, own⟩ := own
  obtain ⟨s', hs', ag⟩ := co.ages i s hs
  exact ⟨s', hs', ag.key.trans own⟩

/-- A new scope has its own key. -/
lemma hasKey_append (scopes : w'.scopes = w.scopes ++ [s]) : w'.HasKey s.key w.scopes.length :=
  ⟨s, by rw [scopes, List.getElem?_concat_length], rfl⟩

/-- What is done for a key in turn is done for it as a whole. -/
lemma Concerns.trans (co : w.Concerns uses view st key w₁) (co' : w₁.Concerns uses view st key w₂) :
    w.Concerns uses view st key w₂ := by
  refine ⟨co'.orderly, fun i s hs => ?_, fun key' ne => (co.spares key' ne).trans (co'.spares key' ne)⟩
  obtain ⟨s', hs', ag⟩ := co.ages i s hs
  obtain ⟨s'', hs'', ag'⟩ := co'.ages i s' hs'
  exact ⟨s'', hs'', ag.trans ag'⟩

/-- Changes of one scope concern its key only. -/
lemma Orderly.concerns_set (od : w.Orderly uses st) (hs : w.scopes[i]? = some s) (ag : s.Ages t)
    (scopes : w'.scopes = w.scopes.set i t) (storages : w'.storages = w.storages)
    (apart : ∀ key' ≠ s.key, view key' w'.host = view key' w.host) : w.Concerns uses view st s.key w' := by
  have same : ∀ key', w'.find st key' = w.find st key' := fun key' => by rw [find, storages, find]
  have there : i < w.scopes.length := (List.getElem?_eq_some_iff.mp hs).1
  have ages : ∀ (j : ScopeId) (u : Scope P), w.scopes[j]? = some u → ∃ u', w'.scopes[j]? = some u' ∧ u.Ages u' := by
    intro j u hu
    rw [scopes]
    by_cases e : i = j
    · subst e
      rw [hs] at hu
      cases hu
      exact ⟨t, List.getElem?_set_self there, ag⟩
    · exact ⟨u, by rw [List.getElem?_set_ne e, hu], .refl u⟩
  refine ⟨⟨by rw [storages]; exact od.tidy, fun key' j hf => ?_, fun j u' hu' => ?_⟩, ages, fun key' ne => ?_⟩
  · obtain ⟨u, hu, own⟩ := od.own key' j (by rw [← same, hf])
    obtain ⟨u', hu', agu⟩ := ages j u hu
    exact ⟨u', hu', agu.key.trans own⟩
  · rw [scopes] at hu'
    by_cases e : i = j
    · subst e
      rw [List.getElem?_set_self there] at hu'
      cases hu'
      rw [ag.key, ag.producer]
      exact od.used i s hs
    · rw [List.getElem?_set_ne e] at hu'
      exact od.used j u' hu'
  · refine ⟨same key', fun j u hu own => ?_, apart key' ne⟩
    -- a scope of another key is not the one that is changed
    have e : i ≠ j := fun e => by
      rw [← e, hs] at hu
      cases hu
      exact ne own.symm
    rw [scopes, List.getElem?_set_ne e, hu]

/-- What concerns a key only: scopes are added for it, and what is found under it is found anew or was found before. -/
lemma Orderly.concerns_append (od : w.Orderly uses st) {l : List (Scope P)}
    (mine : ∀ s ∈ l, s.key = key ∧ uses key s.producer) (scopes : w'.scopes = w.scopes ++ l)
    (ti : (w'.storages st).Tidy) (others : ∀ key' ≠ key, w'.find st key' = w.find st key')
    (found : ∀ i, w'.find st key = some i → w.find st key = some i ∨ w'.HasKey key i)
    (apart : ∀ key' ≠ key, view key' w'.host = view key' w.host) : w.Concerns uses view st key w' := by
  have kept : ∀ (j : ScopeId) (u : Scope P), w.scopes[j]? = some u → w'.scopes[j]? = some u := fun j u hu => by
    rw [scopes, List.getElem?_append_left (List.getElem?_eq_some_iff.mp hu).1, hu]
  refine ⟨⟨ti, fun key' j hf => ?_, fun j u hu => ?_⟩, fun j u hu => ⟨u, kept j u hu, .refl u⟩, fun key' ne => ?_⟩
  · have before : w.find st key' = some j → w'.HasKey key' j := fun hf => by
      obtain ⟨u, hu, own⟩ := od.own key' j hf
      exact ⟨u, kept j u hu, own⟩
    by_cases e : key' = key
    · subst e
      exact (found j hf).elim before id
    · exact before (by rw [← others key' e, hf])
  · rw [scopes] at hu
    rcases List.mem_append.mp (List.mem_of_getElem? hu) with old | added
    · obtain ⟨n, hn⟩ := List.getElem?_of_mem old
      exact od.used n u hn
    · obtain ⟨own, used⟩ := mine u added
      rwa [own]
  · exact ⟨others key' ne, fun j u hu _ => kept j u hu, apart key' ne⟩

/-- What changes neither scopes nor storages nor what is remembered concerns any key. -/
lemma Orderly.concerns_same (od : w.Orderly uses st) (scopes : w'.scopes = w.scopes)
    (storages : w'.storages = w.storages) (host : w'.host = w.host) : w.Concerns uses view st key w' := by
  have same : ∀ key', w'.find st key' = w.find st key' := fun key' => by rw [find, storages, find]
  refine od.concerns_append (l := []) (List.forall_mem_nil _) (by rw [scopes, List.append_nil])
    (by rw [storages]; exact od.tidy) (fun key' _ => same key') (fun i hf => .inl (by rw [← same, hf]))
    (fun _ _ => by rw [host])

/-- Asking a scope for its model is done for the scope's key. -/
lemma Orderly.concerns_modelOf (od : w.Orderly uses st) (se : produce.Separate uses view)
    (hs : w.scopes[i]? = some s) {r : Except ScopeError Built} (h : w.modelOf produce i = some (r, w')) :
    w.Concerns uses view st s.key w' := by
  obtain ⟨w₁, eq, scopes, storages, host⟩ := modelOf_eq se hs
  rw [eq] at h
  cases h
  refine od.concerns_set hs (Scope.ages_model produce s w) scopes storages fun key' ne => ?_
  rw [host]
  exact (s.model_apart se w).2.2 key' ne (od.used i s hs)

/-- Invalidating a scope is done for the scope's key. -/
lemma Orderly.concerns_invalidate (od : w.Orderly uses st) (hs : w.scopes[i]? = some s)
    {r : Except ScopeError Unit} (h : w.invalidate i = some (r, w')) : w.Concerns uses view st s.key w' := by
  obtain ⟨w₁, eq, scopes, storages, host⟩ := invalidate_eq hs
  rw [eq] at h
  cases h
  exact od.concerns_set hs (Scope.ages_invalidate s w) scopes storages fun _ _ => by rw [host]

/-- Closing a scope is done for the scope's key. -/
lemma Orderly.concerns_close (od : w.Orderly uses st) (hs : w.scopes[i]? = some s) :
    w.Concerns uses view st s.key (w.close i) := by
  obtain ⟨scopes, host⟩ := close_eq hs
  have ag : s.Ages { s with state := .closed } := ⟨rfl, rfl, rfl, fun _ => rfl⟩
  exact od.concerns_set hs ag scopes (storages_close i w) fun _ _ => by rw [host]

/-- Removing a key is done for this key. -/
lemma Orderly.concerns_remove (od : w.Orderly uses st) (key : ScopeKey) :
    w.Concerns uses view st key (w.remove st key).2 := by
  obtain ⟨w₁, eq, same, ti, -, found⟩ := remove_eq od.tidy key
  obtain ⟨scopes, -, host⟩ := Sight.mk.inj same
  rw [eq]
  refine od.concerns_append (l := []) nofun (by rw [scopes, List.append_nil]) ti
    (fun key' ne => by rw [found, if_neg ne]) (fun i hf => ?_) (fun _ _ => by rw [host])
  rw [found, if_pos rfl] at hf
  cases hf

/-- Making a scope is done for its key. -/
lemma Orderly.concerns_newScope (od : w.Orderly uses st) (used : uses key p) (registry : Registry) :
    w.Concerns uses view st key (w.newScope key registry p).2 := by
  refine od.concerns_append (l := [.new key registry p]) (fun s hs => ?_) rfl od.tidy (fun _ _ => rfl)
    (fun _ hf => .inl hf) (fun _ _ => rfl)
  rw [List.mem_singleton.mp hs]
  exact ⟨rfl, used⟩

/-- Opening a scope is done for its key, which the scope that is answered has. -/
lemma Orderly.concerns_openScope (od : w.Orderly uses st) (se : produce.Separate uses view) (used : uses key p)
    (registry : Registry) :
    let a := w.openScope produce key registry p
    w.Concerns uses view st key a.2 ∧ ∀ i, a.1 = .ok i → a.2.HasKey key i := by
  have scopes := se.scopes p registry (w.emit (.building key))
  have storages := se.storages p registry (w.emit (.building key))
  have apart := fun key' ne => se.apart key key' p registry (w.emit (.building key)) used ne
  cases hp : produce p registry (w.emit (.building key)) with
  | mk r v =>
    rw [hp] at scopes storages apart
    -- the producer leaves scopes and storages alone, so only the new scope is added, if there is one
    have found : ∀ key', v.find st key' = w.find st key' := fun key' => by rw [find, storages]; rfl
    have ti : (v.storages st).Tidy := by
      rw [storages]
      exact od.tidy
    cases r with
    | error e =>
      rw [openScope_of_failed hp]
      have kept : v.scopes = w.scopes ++ [] := scopes.trans (List.append_nil _).symm
      refine ⟨od.concerns_append (List.forall_mem_nil _) kept ti (fun key' _ => found key') (fun i hf => .inl ?_) apart,
        fun i hi => ?_⟩
      · rw [← found, hf]
      · cases hi
    | ok m =>
      rw [openScope_of_built hp]
      let s : Scope P := ⟨key, registry, p, .active (some ⟨v.serial, m⟩)⟩
      have added : v.scopes ++ [s] = w.scopes ++ [s] := congrArg (· ++ [s]) scopes
      refine ⟨od.concerns_append (fun t ht => ?_) added ti (fun key' _ => found key')
        (fun i hf => .inl (by rw [← found key]; exact hf)) apart, fun i hi => ?_⟩
      · rw [List.mem_singleton.mp ht]
        exact ⟨rfl, used⟩
      · cases hi
        exact hasKey_append (w := v) (s := s) rfl

/-- Finding or creating a scope is done for its key, which the scope that is answered has. -/
lemma Orderly.concerns_getOrCreate (od : w.Orderly uses st) (se : produce.Separate uses view) (used : uses key p)
    (registry : Registry) :
    let a := w.getOrCreate produce st key p registry
    w.Concerns uses view st key a.2 ∧ ∀ i, a.1 = .ok i → a.2.HasKey key i := by
  have kept := congrFun (se.storages p registry (w.beforeBuild st key)) st
  have scopes := se.scopes p registry (w.beforeBuild st key)
  have apart := fun key' ne => se.apart key key' p registry (w.beforeBuild st key) used ne
  obtain ⟨i, hf, eq⟩ | ⟨e, v, w₁, -, hp, eq, same, ti, -, found⟩ | ⟨m, v, w₁, -, hp, eq, same, ti, -, found⟩ :=
    getOrCreate_cases od.tidy kept
  · rw [eq]
    refine ⟨od.concerns_same rfl rfl rfl, fun j hj => ?_⟩
    cases hj
    exact od.own key i hf
  · rw [hp] at scopes apart
    obtain ⟨scopes₁, -, host⟩ := Sight.mk.inj same
    have kept : w₁.scopes = w.scopes ++ [] := scopes₁.trans (scopes.trans (List.append_nil _).symm)
    rw [eq]
    refine ⟨od.concerns_append (l := []) nofun kept ti (fun key' _ => found key') (fun i hf => .inl ?_)
      (fun key' ne => ?_), nofun⟩
    · rw [← found, hf]
    · rw [host]
      exact apart key' ne
  · rw [hp] at scopes apart
    obtain ⟨scopes₁, -, host⟩ := Sight.mk.inj same
    have added : w₁.scopes = w.scopes ++ _ := scopes₁.trans (congrArg (· ++ _) scopes)
    have own : w₁.HasKey key v.scopes.length := hasKey_append scopes₁
    rw [eq]
    refine ⟨od.concerns_append (fun s hs => ?_) added ti (fun key' ne => by rw [found, if_neg ne])
      (fun i hf => .inr ?_) (fun key' ne => ?_), fun i hi => ?_⟩
    · rw [List.mem_singleton.mp hs]
      exact ⟨rfl, used⟩
    · rw [found, if_pos rfl] at hf
      cases hf
      exact own
    · rw [host]
      exact apart key' ne
    · cases hi
      exact own

/-- A scope is stored if it is found under its own key. -/
lemma Orderly.stored_iff (od : w.Orderly uses st) (hs : w.scopes[i]? = some s) :
    (∃ key' ∈ (w.storages st).keys, w.find st key' = some i) ↔ w.find st s.key = some i := by
  constructor
  · rintro ⟨key', -, found⟩
    obtain ⟨s', hs', own⟩ := od.own key' i found
    rw [hs] at hs'
    cases hs'
    rwa [own]
  · exact fun found => ⟨s.key, Storage.mem_keys_of_find found, found⟩

/-- Closing all scopes leaves the world orderly, and each scope has the key that it had. -/
lemma Orderly.closeAll (od : w.Orderly uses st) :
    (w.closeAll st).2.Orderly uses st ∧ ∀ key i, w.HasKey key i → (w.closeAll st).2.HasKey key i := by
  obtain ⟨w', eq, ti, found, -, -, scopes⟩ := closeAll_eq od.tidy
  rw [eq]
  refine ⟨⟨ti, fun key i h => ?_, fun i s' hs' => ?_⟩, fun key i ⟨s, hs, own⟩ => ?_⟩
  · rw [found] at h
    cases h
  · rw [scopes, List.getElem?_mapIdx] at hs'
    obtain ⟨s, hs, rfl⟩ := Option.map_eq_some_iff.mp hs'
    have used := od.used i s hs
    split <;> exact used
  · refine ⟨_, by rw [scopes, List.getElem?_mapIdx, hs]; rfl, ?_⟩
    split <;> exact own

end World

end ModelScopes
