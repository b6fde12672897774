import ModelScopes.Proofs.Events.Story
import ModelScopes.Proofs.Extension.Stocked

/-!
# Events account for the state

In every session of extensions that share a storage, the events tell the story of each key up to the standing of the
scope that is stored under it (`World.Recalls`), and of each key as many scopes are closed as events say so. Each deed
keeps it so, provided that producers are `Detached`: they do not call back. What was emitted therefore gives the phase
of each stored scope back, unless another key that is named reads alike. The main statement is
`Session.replayed`.
-/

namespace ModelScopes

variable {P H ε : Type}

/-- Producers that do not call back: they leave the scopes and the storages as they are, and log nothing but cache
passes. -/
structure Produce.Detached (produce : Produce P H) : Prop where
  scopes : ∀ p registry w, (produce p registry w).2.scopes = w.scopes
  storages : ∀ p registry w, (produce p registry w).2.storages = w.storages
  events : ∀ p registry w, ∃ passes, (produce p registry w).2.events = w.events ++ passes ∧
    ∀ e ∈ passes, ∃ m strategy report, e = .cacheApplied m strategy report

/-- The standing of a key fits the state of the scope that is stored under it. -/
inductive Standing.Fits : Standing → Option ScopeState → Prop
  | absent : Fits .absent none
  | empty {t} : Fits (.empty t) (some (.active none))
  | full {b} : Fits (.full b.model.id) (some (.active (some b)))
  | shut : Fits .shut (some .closed)

/-- The phase of a standing is the phase of a scope whose state it fits. -/
lemma Standing.Fits.phase? {x : Standing} {s? : Option (Scope P)} (fits : x.Fits (s?.map Scope.state)) :
    s?.map Scope.phase = x.phase? := by
  cases s? with
  | none => cases fits; rfl
  | some s =>
    simp only [Option.map_some, Scope.phase] at fits ⊢
    cases held : s.state <;> rw [held] at fits <;> cases fits <;> rfl

/-- A scope is stored at a standing just when the standing has a phase. -/
lemma Standing.isStored_iff {x : Standing} : x.isStored ↔ x.phase?.isSome := by
  cases x <;> simp [isStored, Standing.phase?]

/-- No creation is under way at a standing that fits. -/
lemma Standing.Fits.not_pending {x : Standing} {o : Option ScopeState} (fits : x.Fits o) : ¬ x.isPending := by
  cases fits <;> exact Bool.false_ne_true

namespace World

/-- The state of the scope that is stored under a key. -/
def stateOf (w : World P H) (st : StorageId) (key : ScopeKey) : Option ScopeState :=
  (w.stored st key).map Scope.state

/-- The number of scopes of a key that are closed. -/
def shutCount (key : ScopeKey) (scopes : List (Scope P)) : Nat :=
  scopes.countP fun s => decide (s.key = key ∧ s.state = .closed)

/-- The events tell the story of a key up to the state of its scope, and of each closed scope that it was closed. -/
structure Recalls (w : World P H) (st : StorageId) (key : ScopeKey) : Prop where
  story : ∃ x, Story key w.events x ∧ x.Fits (w.stateOf st key)
  shut : w.events.count (.closed key) = shutCount key w.scopes

/-- Closes scopes one after another. -/
def closeEach (is : List ScopeId) (w : World P H) : World P H :=
  is.foldl (fun w i => w.close i) w

variable {produce : Produce P H} {w w' : World P H} {st : StorageId} {key : ScopeKey} {i : ScopeId}

/-- The state under a key is that of the scope that is found there. -/
lemma stateOf_of_find (found : w.find st key = some i) {s : Scope P} (hs : w.scopes[i]? = some s) :
    w.stateOf st key = some s.state := by
  rw [stateOf, stored_of_find found hs, Option.map_some]

/-- There is no state under a key under which nothing is found. -/
lemma stateOf_of_none (absent : w.find st key = none) : w.stateOf st key = none := by
  rw [stateOf, stored, absent, Option.bind_none, Option.map_none]

/-- If nothing leaks then a scope is stored under a key just when one is found. -/
lemma LeakFree.isSome_stored (lf : w.LeakFree st) : (w.stored st key).isSome = (w.find st key).isSome := by
  cases h : w.find st key with
  | none => rw [World.stored, h, Option.bind_none]; rfl
  | some i =>
    obtain ⟨s, hs, -⟩ := lf.own key i h
    rw [stored_of_find h hs]
    rfl

/-- A scope that is active is the one stored under its key. -/
lemma LeakFree.stateOf_active (lf : w.LeakFree st) {s : Scope P} (hs : w.scopes[i]? = some s)
    (act : s.state ≠ .closed) : w.stateOf st s.key = some s.state :=
  stateOf_of_find (lf.stored i s hs act) hs

/-- If an active scope is put back in another state, then this is the state under its key, and no other changes. -/
lemma LeakFree.stateOf_set (lf : w.LeakFree st) {s s' : Scope P} (hs : w.scopes[i]? = some s)
    (act : s.state ≠ .closed) (scopes : w'.scopes = w.scopes.set i s') (kept : w'.storages st = w.storages st) :
    w'.stateOf st key = if key = s.key then some s'.state else w.stateOf st key := by
  have found : ∀ k, w'.find st k = w.find st k := fun k => by rw [find, kept, find]
  have lt := (List.getElem?_eq_some_iff.mp hs).1
  split
  case isTrue e =>
    refine stateOf_of_find (i := i) (by rw [found, e, lf.stored i s hs act]) ?_
    rw [scopes, List.getElem?_set_self lt]
  case isFalse ne =>
    cases h : w.find st key with
    | none => rw [stateOf_of_none h, stateOf_of_none (by rw [found, h])]
    | some j =>
      obtain ⟨t, ht, e⟩ := lf.own key j h
      -- another key has another scope
      have other : i ≠ j := fun eq => ne (by rw [← e]; rw [eq, ht] at hs; cases hs; rfl)
      rw [stateOf_of_find h ht]
      refine stateOf_of_find (by rw [found, h]) ?_
      rw [scopes, List.getElem?_set_ne other, ht]

/-- The same state is under a key if the same is found and the scopes are the same. -/
lemma stateOf_congr (found : w'.find st key = w.find st key) (scopes : w'.scopes = w.scopes) :
    w'.stateOf st key = w.stateOf st key := by
  rw [stateOf, stored, found, scopes, stateOf, stored]

/-- A new scope that is active is not counted among the closed ones. -/
lemma shutCount_concat {scopes : List (Scope P)} {s : Scope P} (act : s.state ≠ .closed) :
    shutCount key (scopes ++ [s]) = shutCount key scopes := by
  simp [shutCount, act]

/-- A scope that was active is counted if it is closed now. -/
lemma shutCount_set {scopes : List (Scope P)} {s s' : Scope P} (hs : scopes[i]? = some s) (act : s.state ≠ .closed)
    (same : s'.key = s.key) :
    shutCount key (scopes.set i s') = shutCount key scopes + if s.key = key ∧ s'.state = .closed then 1 else 0 := by
  obtain ⟨lt, here⟩ := List.getElem?_eq_some_iff.mp hs
  rw [shutCount, List.countP_set lt, here, same, shutCount]
  simp [act]

/-- The story goes on with what an active scope logs when its state changes. -/
lemma Recalls.log (re : w.Recalls st key) (lf : w.LeakFree st) {s : Scope P} (hs : w.scopes[i]? = some s)
    (act : s.state ≠ .closed) (s' : Scope P) (scopes : w'.scopes = w.scopes.set i s') (same : s'.key = s.key)
    (kept : w'.storages st = w.storages st) (es : List Event) (events : w'.events = w.events ++ es)
    (others : ∀ k ≠ s.key, ∀ e ∈ es, e.Aside k)
    (mine : ∀ x, Story s.key w.events x → x.Fits (some s.state) →
      ∃ y, Story s.key (w.events ++ es) y ∧ y.Fits (some s'.state))
    (shuts : es.count (.closed s.key) = if s'.state = .closed then 1 else 0) : w'.Recalls st key := by
  obtain ⟨⟨x, story, fits⟩, shut⟩ := re
  by_cases e : key = s.key
  · subst e
    rw [lf.stateOf_active hs act] at fits
    refine ⟨?_, ?_⟩
    · rw [events, lf.stateOf_set hs act scopes kept, if_pos rfl]
      exact mine x story fits
    · rw [events, List.count_append, shut, shuts, scopes, shutCount_set hs act same]
      simp
  · have as := others key e
    refine ⟨⟨x, ?_, ?_⟩, ?_⟩
    · rw [events]
      exact story.asides as
    · rw [lf.stateOf_set hs act scopes kept, if_neg e]
      exact fits
    · have none_closed : es.count (.closed key) = 0 :=
        List.count_eq_zero.mpr fun mem => absurd rfl (as _ mem)
      rw [events, List.count_append, shut, none_closed, scopes, shutCount_set hs act same, if_neg fun h => e h.1.symm]

/-! ## Operations on scopes -/

/-- What a producer that does not call back logs makes no difference to any key. -/
lemma events_produce (de : produce.Detached) (p : P) (registry : Registry) (w : World P H) :
    ∃ passes, (produce p registry w).2.events = w.events ++ passes ∧ (∀ k, ∀ e ∈ passes, e.Aside k) ∧
      ∀ k, passes.count (.closed k) = 0 := by
  obtain ⟨passes, events, only⟩ := de.events p registry w
  have as : ∀ k, ∀ e ∈ passes, e.Aside k := fun k e he => by
    obtain ⟨m, strategy, report, rfl⟩ := only e he
    trivial
  exact ⟨passes, events, as, fun k => List.count_eq_zero.mpr fun mem => as k _ mem rfl⟩

/-- The events still tell the story when a scope is asked for its model. -/
lemma Recalls.modelOf (re : w.Recalls st key) (lf : w.LeakFree st) (de : produce.Detached)
    {r : Except ScopeError Built} (h : w.modelOf produce i = some (r, w')) : w'.Recalls st key := by
  obtain ⟨s, hs, e⟩ := Option.map_eq_some_iff.mp h
  have eq : (s.model produce w).2.2.setScope i (s.model produce w).2.1 = w' := congrArg Prod.snd e
  have scopes := de.scopes s.producer s.registry (w.emit (.building s.key))
  have storages := de.storages s.producer s.registry (w.emit (.building s.key))
  obtain ⟨passes, events, as, none_closed⟩ := events_produce de s.producer s.registry (w.emit (.building s.key))
  subst eq
  -- a closed scope and a full one tell nothing; an empty one tells that a build is tried, and whether it is made
  obtain ⟨-, hm⟩ | ⟨b, -, hm⟩ | ⟨e, v, empty, hp, hm⟩ | ⟨m, v, empty, hp, hm⟩ := s.model_cases produce w
  · rwa [hm, setScope_same hs]
  · rwa [hm, setScope_same hs]
  · rw [hp] at scopes storages events
    rw [hm]
    refine re.log lf hs (by simp [empty]) s (congrArg (List.set · i s) scopes) rfl (congrFun storages st)
      ([.building s.key] ++ passes) (events.trans (List.append_assoc ..)) ?_ ?_ (by simp [none_closed, empty])
    · exact fun k ne => List.forall_mem_append.mpr ⟨List.forall_mem_singleton.mpr ne.symm, as k⟩
    · intro x story fits
      rw [empty] at fits
      cases fits
      rw [← List.append_assoc, empty]
      exact ⟨_, (story.go .triedAgain).asides (as s.key), .empty⟩
  · rw [hp] at scopes storages events
    rw [hm]
    have logged : v.events ++ [.built s.key m.id m.entities.size m.collections.size] =
        w.events ++ ([.building s.key] ++ passes ++ [.built s.key m.id m.entities.size m.collections.size]) := by
      rw [show v.events = w.events ++ [.building s.key] ++ passes from events]
      simp only [List.append_assoc]
    refine re.log lf hs (by simp [empty]) _ (congrArg (List.set · i _) scopes) rfl (congrFun storages st) _ logged
      ?_ ?_ (by simp [none_closed])
    · intro k ne
      simp only [List.forall_mem_append, List.forall_mem_singleton]
      exact ⟨⟨ne.symm, as k⟩, ne.symm⟩
    · intro x story fits
      rw [empty] at fits
      cases fits
      rw [← List.append_assoc, ← List.append_assoc]
      exact ⟨_, ((story.go .triedAgain).asides (as s.key)).go .madeAgain, .full (b := ⟨v.serial, m⟩)⟩

/-- The events still tell the story when a scope is invalidated. -/
lemma Recalls.invalidate (re : w.Recalls st key) (lf : w.LeakFree st) {r : Except ScopeError Unit}
    (h : w.invalidate i = some (r, w')) : w'.Recalls st key := by
  obtain ⟨s, hs, e⟩ := Option.map_eq_some_iff.mp h
  have eq : (s.invalidate w).2.2.setScope i (s.invalidate w).2.1 = w' := congrArg Prod.snd e
  subst eq
  cases held : s.state with
  | closed => rwa [Scope.invalidate_of_closed held, setScope_same hs]
  | active b =>
    cases b with
    | none => simpa [Scope.invalidate, held, setScope_same hs] using re
    | some b =>
      refine re.log lf hs (by simp [held]) { s with state := .active none } ?_ rfl ?_ [.modelReleased s.key b.model.id]
        ?_ ?_ ?_ (by simp)
      · simp [Scope.invalidate, held, setScope]
      · simp [Scope.invalidate, held, setScope]
      · simp [Scope.invalidate, held, setScope, emit]
      · exact fun k ne => List.forall_mem_singleton.mpr ne.symm
      · intro x story fits
        rw [held] at fits
        cases fits
        exact ⟨_, story.go .letGo, .empty⟩

/-- The events still tell the story when a scope is closed. -/
lemma Recalls.close (re : w.Recalls st key) (lf : w.LeakFree st) (i : ScopeId) : (w.close i).Recalls st key := by
  unfold World.close
  split
  case h_1 => exact re
  case h_2 s hs =>
    cases held : s.state with
    | closed => simpa [Scope.close_of_closed held, setScope_same hs] using re
    | active b =>
      refine re.log lf hs (by simp [held]) { s with state := .closed } ?_ rfl ?_ [.closed s.key] ?_ ?_ ?_ (by simp)
      · simp [Scope.close, held, setScope]
      · simp [Scope.close, held, setScope]
      · simp [Scope.close, held, setScope, emit]
      · exact fun k ne => List.forall_mem_singleton.mpr ne.symm
      · intro x story fits
        rw [held] at fits
        cases fits with
        | empty => exact ⟨_, story.go .closedEmpty, .shut⟩
        | full => exact ⟨_, story.go .closedFull, .shut⟩

/-! ## Operations on the storage -/

/-- After a build that failed it is told that no scope was created, and why. -/
lemma events_getOrCreate_of_failed {key' : ScopeKey} {p : P} {registry : Registry} {e : ScopeError} {v : World P H}
    (ti : (w.storages st).Tidy) (h : w.find st key' = none)
    (hp : produce p registry (w.beforeBuild st key') = (.error e, v)) :
    (w.getOrCreate produce st key' p registry).2.events = v.events ++ [.notCreated key' e] := by
  rw [getOrCreate_of_none ti h, createIn, openScope_of_failed hp]
  rfl

/-- After a build that succeeded it is told that the model was built, and then that the scope was created. -/
lemma events_getOrCreate_of_built {key' : ScopeKey} {p : P} {registry : Registry} {m : Model} {v : World P H}
    (ti : (w.storages st).Tidy) (h : w.find st key' = none)
    (hp : produce p registry (w.beforeBuild st key') = (.ok m, v)) :
    (w.getOrCreate produce st key' p registry).2.events =
      v.events ++ [.built key' m.id m.entities.size m.collections.size] ++ [.created key'] := by
  rw [getOrCreate_of_none ti h, createIn, openScope_of_built hp]
  rfl

/-- Finding or creating tells the story of its key from the announcement to the outcome, and nothing of others. -/
lemma Recalls.getOrCreate (re : w.Recalls st key) (lf : w.LeakFree st) (de : produce.Detached) (key' : ScopeKey)
    (p : P) (registry : Registry) : (w.getOrCreate produce st key' p registry).2.Recalls st key := by
  have scopes := de.scopes p registry (w.beforeBuild st key')
  have kept := congrFun (de.storages p registry (w.beforeBuild st key')) st
  obtain ⟨passes, events, as, none_closed⟩ := events_produce de p registry (w.beforeBuild st key')
  have before : (w.beforeBuild st key').events = w.events ++ [.creating key'] ++ [.building key'] := rfl
  obtain ⟨⟨x, story, fits⟩, shut⟩ := id re
  -- nothing is told if the scope is found; else the story goes on up to the outcome, or these events are no part of it
  obtain ⟨i, -, eq⟩ | ⟨e, v, w', h, hp, eq, same, -, -, found⟩ | ⟨m, v, w', h, hp, eq, same, -, -, found⟩ :=
    getOrCreate_cases lf.tidy kept
  · rwa [eq]
  · rw [hp] at scopes events
    have logged : w'.events = w.events ++ [.creating key'] ++ [.building key'] ++ passes ++ [.notCreated key' e] := by
      rw [← before, ← events, ← events_getOrCreate_of_failed lf.tidy h hp, eq]
    have scopes' : w'.scopes = w.scopes := (congrArg Sight.scopes same).trans scopes
    rw [eq]
    refine ⟨?_, by simp [logged, List.count_append, none_closed, shut, scopes']⟩
    rw [logged]
    by_cases ours : key = key'
    · subst ours
      rw [stateOf_of_none h] at fits
      cases fits
      refine ⟨_, (((story.go .announced).go .tried).asides (as key)).go .failed, ?_⟩
      rw [stateOf_of_none ((found key).trans h)]
      exact .absent
    · have ne : key' ≠ key := Ne.symm ours
      have opening := (story.go (.aside (e := .creating key') ne)).go (.aside (e := .building key') ne)
      refine ⟨x, (opening.asides (as key)).go (.aside (e := .notCreated key' e) ne), ?_⟩
      rwa [stateOf_congr (found key) scopes']
  · rw [hp] at scopes events
    have logged : w'.events = w.events ++ [.creating key'] ++ [.building key'] ++ passes ++
        [.built key' m.id m.entities.size m.collections.size] ++ [.created key'] := by
      rw [← before, ← events, ← events_getOrCreate_of_built lf.tidy h hp, eq]
    have scopes' : w'.scopes = w.scopes ++ [⟨key', registry, p, .active (some ⟨v.serial, m⟩)⟩] := by
      rw [← show v.scopes = w.scopes from scopes]
      exact congrArg Sight.scopes same
    have new : v.scopes.length = w.scopes.length := congrArg List.length scopes
    rw [eq]
    refine ⟨?_, by simp [logged, List.count_append, none_closed, shut, scopes', shutCount_concat]⟩
    rw [logged]
    by_cases ours : key = key'
    · subst ours
      rw [stateOf_of_none h] at fits
      cases fits
      refine ⟨_, ((((story.go .announced).go .tried).asides (as key)).go .made).go .created, ?_⟩
      rw [stateOf_of_find ((found key).trans (if_pos rfl)) (by rw [scopes', new, List.getElem?_concat_length])]
      exact .full (b := ⟨v.serial, m⟩)
    · have ne : key' ≠ key := Ne.symm ours
      have opening := (story.go (.aside (e := .creating key') ne)).go (.aside (e := .building key') ne)
      have built := (opening.asides (as key)).go
        (.aside (e := .built key' m.id m.entities.size m.collections.size) ne)
      refine ⟨x, built.go (.aside (e := .created key') ne), ?_⟩
      have kept : w'.find st key = w.find st key := (found key).trans (if_neg ours)
      cases hf : w.find st key with
      | none => rwa [stateOf_of_none (kept.trans hf), ← stateOf_of_none hf]
      | some j =>
        obtain ⟨t, ht, -⟩ := lf.own key j hf
        have lt := (List.getElem?_eq_some_iff.mp ht).1
        rwa [stateOf_of_find (kept.trans hf) (by rw [scopes', List.getElem?_append_left lt, ht]),
          ← stateOf_of_find hf ht]

/-- Closing a scope depends on nothing but the scopes and what was logged. -/
lemma close_congr (scopes : w'.scopes = w.scopes) (events : w'.events = w.events) (i : ScopeId) :
    (w'.close i).scopes = (w.close i).scopes ∧ (w'.close i).events = (w.close i).events := by
  unfold close
  rw [scopes]
  cases w.scopes[i]? with
  | none => exact ⟨scopes, events⟩
  | some s => cases held : s.state <;> simp [Scope.close, held, setScope, emit, scopes, events]

/-- The story of a key comes to an end when its scope, which is closed, is taken out. -/
lemma Recalls.released (re : w.Recalls st key) {key' : ScopeKey} (closed : w.stateOf st key' = some .closed)
    (scopes : w'.scopes = w.scopes) (events : w'.events = w.events ++ [.scopeReleased key'])
    (found : ∀ k, w'.find st k = if k = key' then none else w.find st k) : w'.Recalls st key := by
  obtain ⟨⟨x, story, fits⟩, shut⟩ := re
  refine ⟨?_, by simp [events, shut, scopes]⟩
  rw [events]
  by_cases ours : key = key'
  · subst ours
    rw [closed] at fits
    cases fits
    refine ⟨_, story.go .released, ?_⟩
    rw [stateOf_of_none ((found key).trans (if_pos rfl))]
    exact .absent
  · refine ⟨x, story.go (.aside (e := .scopeReleased key') (Ne.symm ours)), ?_⟩
    rwa [stateOf_congr ((found key).trans (if_neg ours)) scopes]

/-- Closing scopes one after another ages the world. -/
lemma ages_closeEach (is : List ScopeId) (w : World P H) : w.Ages (w.closeEach is) := by
  induction is generalizing w with
  | nil => exact .of_scopes rfl
  | cons i is ih =>
    have ag := ages_close i w
    have ag' := ih (w.close i)
    refine ⟨ag'.length.trans ag.length, fun j s hs => ?_⟩
    obtain ⟨s', hs', old⟩ := ag.scopes j s hs
    obtain ⟨s'', hs'', new⟩ := ag'.scopes j s' hs'
    exact ⟨s'', hs'', old.trans new⟩

/-- Closing scopes one after another touches no storage. -/
@[simp] lemma storages_closeEach (is : List ScopeId) (w : World P H) : (w.closeEach is).storages = w.storages := by
  induction is generalizing w with
  | nil => rfl
  | cons i is ih => exact (ih (w.close i)).trans (storages_close i w)

/-- Each of the scopes is closed afterwards. -/
lemma state_closeEach {is : List ScopeId} (mem : i ∈ is) {s : Scope P}
    (hs : (w.closeEach is).scopes[i]? = some s) : s.state = .closed := by
  induction is generalizing w with
  | nil => cases mem
  | cons j is ih =>
    rcases List.mem_cons.mp mem with rfl | mem
    · have ag := ages_closeEach is (w.close i)
      obtain ⟨lt, -⟩ := List.getElem?_eq_some_iff.mp hs
      have before := List.getElem?_eq_getElem (l := (w.close i).scopes) (ag.length ▸ lt)
      obtain ⟨s', hs', old⟩ := ag.scopes i _ before
      have same : s' = s := Option.some.inj (hs'.symm.trans hs)
      exact same ▸ old.closed (state_close before)
    · exact ih mem hs

/-- The events still tell the story when scopes are closed one after another. -/
lemma Recalls.closeEach (re : w.Recalls st key) (lf : w.LeakFree st) (is : List ScopeId) :
    (w.closeEach is).Recalls st key := by
  induction is generalizing w with
  | nil => exact re
  | cons i is ih =>
    exact ih (re.close lf i) (lf.of_storages (ages_close i w) (congrFun (storages_close i w) st)).1

/-- Closing the scopes of keys logs and changes scopes as closing them where they are stored does. -/
lemma closeKeys_in_place {v : World P H} (ti : (w.storages st).Tidy) {keys : List ScopeKey} (nd : keys.Nodup)
    (scopes : v.scopes = w.scopes) (events : v.events = w.events) :
    (w.closeKeys st keys).2.scopes = (v.closeEach (keys.filterMap (w.find st))).scopes ∧
      (w.closeKeys st keys).2.events = (v.closeEach (keys.filterMap (w.find st))).events := by
  induction keys generalizing w v with
  | nil => exact ⟨scopes.symm, events.symm⟩
  | cons key rest ih =>
    obtain ⟨absent, nd⟩ := List.nodup_cons.mp nd
    have logged : (w.remove st key).2.events = w.events := rfl
    obtain ⟨w₁, eq₁, same₁, ti₁, -, found₁⟩ := remove_eq ti key
    rw [eq₁] at logged
    have scopes₁ : v.scopes = w₁.scopes := scopes.trans (congrArg Sight.scopes same₁).symm
    have events₁ : v.events = w₁.events := events.trans logged.symm
    -- the keys that are still to come are found as before
    have kept : rest.filterMap (w₁.find st) = rest.filterMap (w.find st) :=
      List.filterMap_congr fun key' mem => by
        have ne : key' ≠ key := fun e => absent (e ▸ mem)
        rw [found₁, if_neg ne]
    rw [closeKeys, eq₁]
    cases h : w.find st key with
    | none =>
      rw [List.filterMap_cons_none (f := fun key => w.find st key) h, ← kept]
      exact ih ti₁ nd scopes₁ events₁
    | some i =>
      obtain ⟨scopes₂, events₂⟩ := close_congr scopes₁ events₁ i
      have same : rest.filterMap ((w₁.close i).find st) = rest.filterMap (w₁.find st) := by simp [find]
      rw [List.filterMap_cons_some (f := fun key => w.find st key) h, ← kept, ← same]
      exact ih (w := w₁.close i) (by simpa using ti₁) nd scopes₂ events₂

/-- If all stored scopes are closed where they are, then a key has no scope or a closed one. -/
lemma LeakFree.stateOf_closeEach (lf : w.LeakFree st) (key : ScopeKey) :
    let v := w.closeEach ((w.storages st).keys.filterMap (w.find st))
    (w.find st key = none ∧ v.stateOf st key = none) ∨
      ((w.find st key).isSome ∧ v.stateOf st key = some .closed) := by
  intro v
  have same : v.find st key = w.find st key := by simp [v, find]
  cases h : w.find st key with
  | none => exact .inl ⟨rfl, stateOf_of_none (same.trans h)⟩
  | some i =>
    obtain ⟨s, hs, -⟩ := lf.own key i h
    obtain ⟨s', hs', -⟩ := (ages_closeEach _ w).scopes i s hs
    have closed : s'.state = .closed :=
      state_closeEach (List.mem_filterMap.mpr ⟨key, Storage.mem_keys_of_find h, h⟩) hs'
    exact .inr ⟨rfl, by rw [stateOf_of_find (same.trans h) hs', closed]⟩

/-- Closing all scopes ends the story of every key. -/
lemma Recalls.closeAll (re : w.Recalls st key) (lf : w.LeakFree st) : (w.closeAll st).2.Recalls st key := by
  obtain ⟨w', eq, -, found, -⟩ := closeKeys_eq lf.tidy lf.tidy.keys
  obtain ⟨scopes, events⟩ := closeKeys_in_place lf.tidy lf.tidy.keys (v := w) rfl rfl
  obtain ⟨⟨x, story, fits⟩, shut⟩ := re.closeEach lf ((w.storages st).keys.filterMap (w.find st))
  rw [eq] at scopes events
  rw [← events] at story shut
  rw [← scopes] at shut
  have gone : w'.stateOf st key = none := by
    refine stateOf_of_none ?_
    rw [found]
    split
    case isTrue => rfl
    case isFalse absent => exact Option.not_isSome_iff_eq_none.mp fun h => absent (lf.tidy.mem_keys_iff.mpr h)
  rw [World.closeAll, eq]
  simp only
  rcases lf.stateOf_closeEach key with ⟨-, none⟩ | ⟨found, closed⟩
  · rw [none] at fits
    cases fits
    split
    case isTrue => exact ⟨⟨_, story, gone ▸ .absent⟩, shut⟩
    case isFalse => exact ⟨⟨_, story.go .closedOthers, gone ▸ .absent⟩, by simpa [emit] using shut⟩
  · rw [closed] at fits
    cases fits
    split
    case isTrue none_found =>
      exact absurd found (List.countP_eq_zero.mp none_found key (lf.tidy.mem_keys_iff.mpr found))
    case isFalse => exact ⟨⟨_, story.go .closedAll, gone ▸ .absent⟩, by simpa [emit] using shut⟩

/-- A scope that is closed logs nothing, whatever is asked of it. -/
lemma silent_of_closed {s : Scope P} (hs : w.scopes[i]? = some s) (closed : s.state = .closed)
    (produce : Produce P H) :
    w.modelOf produce i = some (.error (.inactive s.key), w) ∧
      w.invalidate i = some (.error (.inactive s.key), w) ∧ w.close i = w := by
  refine ⟨modelOf_of_closed hs closed produce, ?_, ?_⟩
  · simp [invalidate, hs, Scope.invalidate_of_closed closed, setScope_same hs]
  · simp [close, hs, Scope.close_of_closed closed, setScope_same hs]

/-- What makes no difference to a key is no part of its story. -/
lemma Recalls.emit (re : w.Recalls st key) {e : Event} (as : e.Aside key) : (w.emit e).Recalls st key := by
  obtain ⟨⟨x, story, fits⟩, shut⟩ := re
  have other : e ≠ .closed key := fun eq => by
    subst eq
    exact as rfl
  exact ⟨⟨x, story.go (.aside as), fits⟩, by simp [World.emit, other, shut]⟩

/-- In a new world there is nothing to tell. -/
lemma Recalls.start (host : H) (st : StorageId) (key : ScopeKey) : (World.start host : World P H).Recalls st key :=
  ⟨⟨.absent, .start, .absent⟩, rfl⟩

end World

/-- Producers that do not call back make no scopes and leave the storages alone. -/
lemma Produce.Detached.discreet {produce : Produce P H} (de : produce.Detached) : produce.Discreet :=
  ⟨de.storages, fun p registry w => .of_scopes (de.scopes p registry w)⟩

/-- A producer that sees only the host's state does not call back. -/
lemma Produce.detached_ofHost (f : P → Registry → H → Except ScopeError Model × H) : (ofHost f).Detached :=
  ⟨fun _ _ _ => rfl, fun _ _ _ => rfl, fun _ _ w => ⟨[], (List.append_nil w.events).symm, nofun⟩⟩

/-! ## Hooks -/

namespace Extension

variable {produce : Produce P H} {w : World P H} {x : Extension P} {key : ScopeKey}

/-- The events still tell the story after the hook for test instances. -/
lemma recalls_postProcess (re : w.Recalls x.storage key) (lf : w.LeakFree x.storage) (de : produce.Detached)
    (specs : SpecCatalog) (inst : Instance P) (ctx : Context) :
    (x.postProcess produce specs inst ctx w).2.Recalls x.storage key := by
  unfold postProcess
  split
  case h_1 => exact re
  case h_2 =>
    split
    case h_1 => exact re
    case h_2 p _ =>
      -- making a registry only gives out an identity
      have re₁ : (w.freshRegistry x.config.settings).2.Recalls x.storage key := ⟨re.story, re.shut⟩
      have lf₁ : (w.freshRegistry x.config.settings).2.LeakFree x.storage := ⟨lf.tidy, lf.own, lf.stored⟩
      have re₂ := re₁.getOrCreate lf₁ de (x.key ctx) p (w.freshRegistry x.config.settings).1
      simp only
      split
      case h_1 e w' eq => rwa [eq] at re₂
      case h_2 i w' eq => rwa [eq] at re₂

/-- The events still tell the story after the hook for a failed test. -/
lemma recalls_handleFailure (re : w.Recalls x.storage key) (lf : w.LeakFree x.storage) (ctx : Context) (error : ε) :
    (x.handleFailure ctx error w).2.Recalls x.storage key := by
  unfold handleFailure
  split
  case h_1 => exact re
  case h_2 i _ =>
    unfold invalidateFound
    split
    case h_1 => exact re
    case h_2 w' h => exact (re.invalidate lf h).emit trivial
    case h_3 e w' h => exact (re.invalidate lf h).emit trivial

/-- The events still tell the story after the hook after all tests. -/
lemma recalls_afterAll (re : w.Recalls x.storage key) (lf : w.LeakFree x.storage) (ctx : Context) :
    (x.afterAll ctx w).Recalls x.storage key := by
  have logged : (w.remove x.storage (x.key ctx)).2.events = w.events := rfl
  obtain ⟨w', eq, same, -, -, found⟩ := World.remove_eq lf.tidy (x.key ctx)
  have scopes : w'.scopes = w.scopes := congrArg Sight.scopes same
  rw [eq] at logged
  unfold afterAll
  rw [eq]
  cases h : w.find x.storage (x.key ctx) with
  | none =>
    have kept : w'.find x.storage key = w.find x.storage key := by
      rw [found]
      split
      case isTrue e => rw [e, h]
      case isFalse => rfl
    obtain ⟨⟨y, story, fits⟩, shut⟩ := re
    refine ⟨⟨y, ?_, by rwa [World.stateOf_congr kept scopes]⟩, ?_⟩
    · rwa [logged]
    · rwa [scopes, logged]
  | some i =>
    -- it makes no difference whether the scope is closed before or after it is taken out
    obtain ⟨s, hs, -⟩ := lf.own _ i h
    obtain ⟨s', hs', -⟩ := (World.ages_close i w).scopes i s hs
    have here : (w.close i).find x.storage (x.key ctx) = some i := by simpa [World.find] using h
    have closed : (w.close i).stateOf x.storage (x.key ctx) = some .closed := by
      rw [World.stateOf_of_find here hs', World.state_close hs']
    obtain ⟨scopes', events'⟩ := World.close_congr scopes logged i
    have told : ((w'.close i).emit (.scopeReleased (x.key ctx))).events =
        (w.close i).events ++ [.scopeReleased (x.key ctx)] := by rw [World.emit, events']
    refine (re.close lf i).released closed scopes' told fun k => ?_
    simpa [World.find] using found k

end Extension

/-! ## Deeds -/

namespace Session

variable {produce : Produce P H} {st : StorageId} {z : Session P H} {key : ScopeKey}

/-- The events still tell the story after a deed. -/
lemma recalls_act (so : z.Sound st) (re : z.world.Recalls st key) (de : produce.Detached) (d : Deed P ε) :
    (z.act produce st d).world.Recalls st key := by
  cases d with
  | postProcess x c inst ctx =>
    exact Extension.recalls_postProcess (x := x.sharing st) re so.leakFree de (z.catalogs c) inst ctx
  | handleFailure x ctx error => exact Extension.recalls_handleFailure (x := x.sharing st) re so.leakFree ctx error
  | afterAll x ctx => exact Extension.recalls_afterAll (x := x.sharing st) re so.leakFree ctx
  | find | attach | detach => exact re
  | getOrCreate key' p registry => exact re.getOrCreate so.leakFree de key' p registry
  | closeAll => exact re.closeAll so.leakFree
  | model i =>
    cases h : z.world.modelOf produce i with
    | none => simpa [act, h] using re
    | some a => simpa [act, h] using re.modelOf so.leakFree de h
  | invalidate i =>
    cases h : z.world.invalidate i with
    | none => simpa [act, h] using re
    | some a => simpa [act, h] using re.invalidate so.leakFree h
  | close i => exact re.close so.leakFree i

/-- The events still tell the story after any deeds. -/
lemma recalls_acts (so : z.Sound st) (re : z.world.Recalls st key) (de : produce.Detached) (deeds : List (Deed P ε)) :
    (z.acts produce st deeds).world.Recalls st key := by
  induction deeds generalizing z with
  | nil => exact re
  | cons d rest ih => exact ih (sound_act so de.discreet d).1 (recalls_act so re de d)

/-- In every session of extensions that share a storage, whose producers do not call back, what was emitted accounts
for each key, unless another key that was named reads alike. A scope is stored under it just if one was created since
the last was released or all were closed; its phase is what can be replayed; what was emitted is in the right order;
each creation that is announced is followed by one outcome; and as many scopes of the key are closed as emissions say
so. A scope that is closed emits nothing more. -/
theorem replayed (de : produce.Detached) (catalogs : CatalogId → SpecCatalog) (host : H) (st : StorageId)
    (deeds : List (Deed P ε)) :
    let w := ((start catalogs host).acts produce st deeds).world
    let log := w.events.map Event.emission
    (∀ key, Event.Apart key w.events →
      ((w.find st key).isSome ↔ Since (·.Created key) (·.Emptied key) log) ∧
      (w.stored st key).map Scope.phase = Emission.replay key log ∧
      Emission.InOrder key log ∧
      (∀ before e after, log = before ++ e :: after → e.Creating key →
        ∃ between o rest, after = between ++ o :: rest ∧ o.Outcome key ∧
          ∀ e' ∈ between, ¬ e'.Creating key ∧ ¬ e'.Outcome key) ∧
      log.countP (fun e => e.Closed key) = w.scopes.countP fun s => s.key = key ∧ s.phase = .closed) ∧
    ∀ (i : ScopeId) (s : Scope P), w.scopes[i]? = some s → s.phase = .closed →
      w.modelOf produce i = some (.error (.inactive s.key), w) ∧
        w.invalidate i = some (.error (.inactive s.key), w) ∧ w.close i = w := by
  intro w log
  have so : ((start catalogs host).acts produce st deeds).Sound st :=
    (sound_acts (.start catalogs host st) de.discreet deeds).1
  refine ⟨fun key apart => ?_, fun i s hs closed => World.silent_of_closed hs (by simpa using closed) produce⟩
  obtain ⟨⟨x, story, fits⟩, shut⟩ : w.Recalls st key :=
    recalls_acts (.start catalogs host st) (.start host st key) de deeds
  have td := story.told apart
  have order := story.inOrder apart
  have phase : (w.stored st key).map Scope.phase = x.phase? := fits.phase?
  refine ⟨?_, phase.trans td.replay.symm, order, ?_, ?_⟩
  · rw [td.stored, Standing.isStored_iff, ← phase, Option.isSome_map, so.leakFree.isSome_stored]
  · exact fun before e after eq ce => followed order.creating (mt td.pending.mp fits.not_pending) eq ce
  · rw [apart.countP_closed, shut, World.shutCount]
    simp

/-- A unit that is made ready at the second try fails, and its model is built again at the second try: what was
emitted gives back that its scope holds a model. -/
theorem replayed_everyOther :
    let x : Extension Unit := ⟨⟨"demo", false, .empty⟩, 0, fun _ => ()⟩
    let ctx : Context := .detached "A" "A"
    let ready : Deed Unit Unit := .postProcess x 0 ⟨some (), false⟩ ctx
    let w := ((start (fun _ => .empty) 0).acts Produce.everyOther 0
      [ready, ready, .handleFailure x ctx (), .model 0, .model 0]).world
    let log := w.events.map Event.emission
    Produce.everyOther.Detached ∧ Event.Apart (x.key ctx) w.events ∧
    log.map Emission.message = ["creating domain model scope", "building domain model", "domain model scope not created",
      "creating domain model scope", "building domain model", "domain model built", "domain model scope created",
      "domain model released", "domain model invalidated after test failure", "building domain model",
      "building domain model", "domain model built"] ∧
    (w.find 0 (x.key ctx)).isSome ∧ (w.stored 0 (x.key ctx)).map Scope.phase = some .activePopulated ∧
    Emission.InOrder (x.key ctx) log := by
  intro x ctx ready w log
  have de : Produce.everyOther.Detached := Produce.detached_ofHost _
  have apart : Event.Apart (x.key ctx) w.events := by decide +kernel
  obtain ⟨stored, phase, order, -⟩ := (replayed de (fun _ => .empty) 0 0
    [ready, ready, .handleFailure x ctx (), .model 0, .model 0]).1 (x.key ctx) apart
  have created : Since (Emission.Created (x.key ctx)) (Emission.Emptied (x.key ctx)) log := by decide +kernel
  have replay : Emission.replay (x.key ctx) log = some .activePopulated := by decide +kernel
  exact ⟨de, apart, by decide +kernel, stored.mpr created, phase.trans replay, order⟩

/-- Two keys that read alike: once the first is released, what was emitted tells that no scope is stored under the
second, but one is, and it holds its model. -/
theorem replay_confounds :
    let produce : Produce Unit Unit := .ofHost fun _ registry h => (.ok (.empty registry.id), h)
    let x : Extension Unit := ⟨⟨"a", false, .empty⟩, 0, fun _ => ()⟩
    let ctx : Context := .detached "b::c" "u"
    let other : ScopeKey := ⟨"a::b", "c"⟩
    let deeds : List (Deed Unit Unit) :=
      [.getOrCreate (x.key ctx) () ⟨.ofSerial 0, .empty⟩, .getOrCreate other () ⟨.ofSerial 0, .empty⟩, .afterAll x ctx]
    let w := ((start (fun _ => .empty) ()).acts produce 0 deeds).world
    let log := w.events.map Event.emission
    produce.Detached ∧ (w.find 0 other).isSome ∧ ¬ Since (Emission.Created other) (Emission.Emptied other) log ∧
      (w.stored 0 other).map Scope.phase = some .activePopulated ∧ Emission.replay other log = none := by
  intro produce x ctx other deeds w log
  exact ⟨Produce.detached_ofHost _, by decide +kernel, by decide +kernel, by decide +kernel, by decide +kernel⟩

end Session

end ModelScopes
