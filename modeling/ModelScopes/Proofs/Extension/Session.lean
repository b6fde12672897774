import ModelScopes.Extension.Basic
import ModelScopes.Proofs.Scope.Leaks

/-!
# Sessions of extensions

A session is what a host and its tests do with any number of extensions that share one storage, one deed after
another. Every scope that is ever made stays the one that is stored under its key until it is closed, so that at most
one scope of each key is not closed. Once a unit is torn down, all scopes of its key stay closed, and none is found
under it before a new one is made. The main statement is `Session.nothing_leaks`.
-/

namespace ModelScopes

variable {P H ε : Type}

/-- The number of a catalog of specs. -/
abbrev CatalogId := Nat

/-- What hosts and tests do. Hooks run on any extension; everything else is done to the shared storage, to the
catalogs, or to a scope that was handed out. -/
inductive Deed (P ε : Type) where
  | postProcess (x : Extension P) (catalog : CatalogId) (inst : Instance P) (ctx : Context)
  | handleFailure (x : Extension P) (ctx : Context) (error : ε)
  | afterAll (x : Extension P) (ctx : Context)
  | find (x : Extension P) (ctx : Context)
  | attach (catalog : CatalogId) (element : String) (spec : Spec)
  | detach (catalog : CatalogId) (element : String)
  | getOrCreate (key : ScopeKey) (p : P) (registry : Registry)
  | closeAll
  | model (i : ScopeId)
  | invalidate (i : ScopeId)
  | close (i : ScopeId)

/-- Whether a deed tears down the unit of a key. -/
def Deed.TearsDown (key : ScopeKey) : Deed P ε → Prop
  | .afterAll x ctx => x.key ctx = key
  | .closeAll => True
  | _ => False

/-- The catalogs, the world, and the scopes that were handed out so far, each with the key it was asked for by. -/
structure Session (P H : Type) where
  catalogs : CatalogId → SpecCatalog
  world : World P H
  handed : List (ScopeKey × ScopeId)

/-- The extension with a storage that is shared. -/
def Extension.sharing (x : Extension P) (st : StorageId) : Extension P :=
  { x with storage := st }

namespace Session

/-- The session in which nothing was done. -/
def start (catalogs : CatalogId → SpecCatalog) (host : H) : Session P H :=
  ⟨catalogs, .start host, []⟩

/-- Goes on in another world, in which a scope was handed out or none. -/
def proceed (z : Session P H) (w : World P H) (key : ScopeKey) (i : Option ScopeId) : Session P H :=
  ⟨z.catalogs, w, z.handed ++ (i.map fun i => (key, i)).toList⟩

/-- Changes a catalog. -/
def modifyCatalog (z : Session P H) (c : CatalogId) (f : SpecCatalog → SpecCatalog) : Session P H :=
  { z with catalogs := fun c' => if c' = c then f (z.catalogs c) else z.catalogs c' }

/-- Does a deed, with all extensions on one storage. -/
def act (produce : Produce P H) (st : StorageId) (z : Session P H) : Deed P ε → Session P H
  | .postProcess x c inst ctx =>
    let (r, w) := (x.sharing st).postProcess produce (z.catalogs c) inst ctx z.world
    z.proceed w (x.key ctx) r.outcome.toOption
  | .handleFailure x ctx error => { z with world := ((x.sharing st).handleFailure ctx error z.world).2 }
  | .afterAll x ctx => { z with world := (x.sharing st).afterAll ctx z.world }
  | .find x ctx => z.proceed z.world (x.key ctx) ((x.sharing st).find ctx z.world)
  | .attach c element spec => z.modifyCatalog c fun specs => specs.insert element spec
  | .detach c element => z.modifyCatalog c fun specs => specs.erase element
  | .getOrCreate key p registry =>
    let (r, w) := z.world.getOrCreate produce st key p registry
    z.proceed w key r.toOption
  | .closeAll => { z with world := (z.world.closeAll st).2 }
  | .model i => { z with world := ((z.world.modelOf produce i).map Prod.snd).getD z.world }
  | .invalidate i => { z with world := ((z.world.invalidate i).map Prod.snd).getD z.world }
  | .close i => { z with world := z.world.close i }

/-- Does one deed after another. -/
def acts (produce : Produce P H) (st : StorageId) (z : Session P H) (deeds : List (Deed P ε)) : Session P H :=
  deeds.foldl (act produce st) z

/-- Nothing leaks, and what was handed out for a key is a scope of this key. -/
structure Sound (z : Session P H) (st : StorageId) : Prop where
  leakFree : z.world.LeakFree st
  handed : ∀ key i, (key, i) ∈ z.handed → ∃ s, z.world.scopes[i]? = some s ∧ s.key = key

end Session

/-! ## Hooks -/

namespace Extension

variable {produce : Produce P H} {w : World P H}

/-- A unit's test instance that is made ready leaks nothing, and is answered with a scope of the unit's key. -/
lemma leakFree_postProcess {x : Extension P} (lf : w.LeakFree x.storage) (di : produce.Discreet) (specs : SpecCatalog)
    (inst : Instance P) (ctx : Context) :
    let a := x.postProcess produce specs inst ctx w
    (a.2.LeakFree x.storage ∧ w.Turns a.2 x.storage) ∧
      ∀ i, a.1.outcome = .ok i → ∃ s, a.2.scopes[i]? = some s ∧ s.key = x.key ctx := by
  unfold postProcess
  split
  case h_1 i h =>
    refine ⟨⟨lf, .refl w _⟩, fun j e => ?_⟩
    cases e
    exact lf.own _ i h
  case h_2 =>
    split
    case h_1 => exact ⟨⟨lf, .refl w _⟩, nofun⟩
    case h_2 p _ =>
      -- making a registry only gives out an identity
      have fresh : w.Ages (w.freshRegistry x.config.settings).2 := .of_scopes rfl
      obtain ⟨lf₁, tu₁⟩ := lf.of_storages fresh rfl
      obtain ⟨⟨lf₂, tu₂⟩, own⟩ := lf₁.getOrCreate di (x.key ctx) p (w.freshRegistry x.config.settings).1
      simp only
      split
      case h_1 e w' eq =>
        rw [eq] at lf₂ tu₂
        exact ⟨⟨lf₂, tu₁.trans tu₂⟩, nofun⟩
      case h_2 i w' eq =>
        rw [eq] at lf₂ tu₂ own
        exact ⟨⟨lf₂, tu₁.trans tu₂⟩, own⟩

/-- The hook for a failed test lets nothing leak. -/
lemma leakFree_handleFailure {x : Extension P} (lf : w.LeakFree x.storage) (ctx : Context) (error : ε) :
    (x.handleFailure ctx error w).2.LeakFree x.storage ∧ w.Turns (x.handleFailure ctx error w).2 x.storage := by
  unfold handleFailure
  split
  case h_1 => exact ⟨lf, .refl w _⟩
  case h_2 i _ =>
    unfold invalidateFound
    split
    case h_1 => exact ⟨lf, .refl w _⟩
    case h_2 w' h =>
      obtain ⟨ag, storages⟩ := World.ages_invalidate h
      exact lf.of_storages (ag.of_same rfl) (congrFun storages x.storage)
    case h_3 e w' h =>
      obtain ⟨ag, storages⟩ := World.ages_invalidate h
      exact lf.of_storages (ag.of_same rfl) (congrFun storages x.storage)

/-- A test unit that is done leaks nothing, and leaves no scope under its key. -/
lemma leakFree_afterAll {x : Extension P} (lf : w.LeakFree x.storage) (ctx : Context) :
    ((x.afterAll ctx w).LeakFree x.storage ∧ w.Turns (x.afterAll ctx w) x.storage) ∧
      (x.afterAll ctx w).find x.storage (x.key ctx) = none := by
  obtain ⟨w', eq, same, ti, -, found⟩ := World.remove_eq lf.tidy (x.key ctx)
  unfold afterAll
  rw [eq]
  cases h : w.find x.storage (x.key ctx) with
  | none =>
    -- taking a key out that was not there changes nothing that is found
    have found' : ∀ key, w'.find x.storage key = w.find x.storage key := fun key => by
      rw [found]
      split
      case isTrue e => rw [e, h]
      case isFalse => rfl
    refine ⟨lf.of_ages (.of_scopes (congrArg Sight.scopes same)) ti ?_ ?_, (found' _).trans h⟩
    · intro key i hf
      rwa [← found']
    · intro key i s hf _ _
      rwa [found']
  | some i =>
    obtain ⟨⟨lf', tu'⟩, gone⟩ := lf.remove_close h
    rw [eq] at lf' tu' gone
    exact ⟨⟨⟨lf'.tidy, lf'.own, lf'.stored⟩, ⟨tu'.ages, tu'.found⟩⟩, gone⟩

end Extension

/-! ## Deeds -/

namespace Session

variable {produce : Produce P H} {st : StorageId} {z : Session P H}

/-- A value that is there was answered. -/
lemma ok_of_toOption {ε' α : Type} {r : Except ε' α} {a : α} (h : r.toOption = some a) : r = .ok a := by
  cases r with
  | error => cases h
  | ok => cases h; rfl

/-- A new session is sound. -/
lemma Sound.start (catalogs : CatalogId → SpecCatalog) (host : H) (st : StorageId) :
    (start catalogs host : Session P H).Sound st :=
  ⟨.start host st, nofun⟩

/-- A session goes on without leaks in a world that its world turned into, if what is handed out has the right key. -/
lemma Sound.proceed (so : z.Sound st) {w : World P H} (lt : w.LeakFree st ∧ z.world.Turns w st) (key : ScopeKey)
    {i : Option ScopeId} (own : ∀ j, i = some j → ∃ s, w.scopes[j]? = some s ∧ s.key = key) :
    (z.proceed w key i).Sound st := by
  refine ⟨lt.1, fun key' j h => ?_⟩
  rcases List.mem_append.mp h with old | new
  · obtain ⟨s, hs, e⟩ := so.handed key' j old
    obtain ⟨s', hs', ag⟩ := lt.2.ages j s hs
    exact ⟨s', hs', ag.key.trans e⟩
  · obtain ⟨k, hk, e⟩ := Option.map_eq_some_iff.mp (Option.mem_toList.mp new)
    cases e
    exact own j hk

/-- A session in which nothing is handed out goes on without leaks. -/
lemma Sound.turn (so : z.Sound st) {w : World P H} (lt : w.LeakFree st ∧ z.world.Turns w st) :
    ({ z with world := w } : Session P H).Sound st := by
  refine ⟨lt.1, fun key i h => ?_⟩
  obtain ⟨s, hs, e⟩ := so.handed key i h
  obtain ⟨s', hs', ag⟩ := lt.2.ages i s hs
  exact ⟨s', hs', ag.key.trans e⟩

/-- No deed leaks. -/
lemma sound_act (so : z.Sound st) (di : produce.Discreet) (d : Deed P ε) :
    (z.act produce st d).Sound st ∧ z.world.Turns (z.act produce st d).world st := by
  cases d with
  | postProcess x c inst ctx =>
    obtain ⟨lt, own⟩ :=
      Extension.leakFree_postProcess (x := x.sharing st) so.leakFree di (z.catalogs c) inst ctx
    exact ⟨so.proceed lt (x.key ctx) fun j e => own j (ok_of_toOption e), lt.2⟩
  | handleFailure x ctx error =>
    have lt := Extension.leakFree_handleFailure (x := x.sharing st) so.leakFree ctx error
    exact ⟨so.turn lt, lt.2⟩
  | afterAll x ctx =>
    obtain ⟨lt, -⟩ := Extension.leakFree_afterAll (x := x.sharing st) so.leakFree ctx
    exact ⟨so.turn lt, lt.2⟩
  | find x ctx =>
    have tu := World.Turns.refl z.world st
    exact ⟨so.proceed ⟨so.leakFree, tu⟩ (x.key ctx) fun j e => so.leakFree.own _ j e, tu⟩
  | attach | detach => exact ⟨⟨so.leakFree, so.handed⟩, .refl z.world st⟩
  | getOrCreate key p registry =>
    obtain ⟨lt, own⟩ := so.leakFree.getOrCreate di key p registry
    exact ⟨so.proceed lt key fun j e => own j (ok_of_toOption e), lt.2⟩
  | closeAll =>
    obtain ⟨lt, -⟩ := so.leakFree.closeAll
    exact ⟨so.turn lt, lt.2⟩
  -- handles that were never given out do nothing
  | model i =>
    cases h : z.world.modelOf produce i with
    | none => simpa [act, h] using ⟨so, World.Turns.refl z.world st⟩
    | some a =>
      obtain ⟨ag, storages⟩ := World.ages_modelOf di h
      have lt := so.leakFree.of_storages ag (congrFun storages st)
      simpa [act, h] using And.intro (so.turn lt) lt.2
  | invalidate i =>
    cases h : z.world.invalidate i with
    | none => simpa [act, h] using ⟨so, World.Turns.refl z.world st⟩
    | some a =>
      obtain ⟨ag, storages⟩ := World.ages_invalidate h
      have lt := so.leakFree.of_storages ag (congrFun storages st)
      simpa [act, h] using And.intro (so.turn lt) lt.2
  | close i =>
    have lt := so.leakFree.of_storages (World.ages_close i z.world)
      (congrFun (World.storages_close i z.world) st)
    exact ⟨so.turn lt, lt.2⟩

/-- Deeds keep a session sound. -/
lemma sound_acts (so : z.Sound st) (di : produce.Discreet) (deeds : List (Deed P ε)) :
    (z.acts produce st deeds).Sound st ∧ z.world.Turns (z.acts produce st deeds).world st := by
  induction deeds generalizing z with
  | nil => exact ⟨so, .refl z.world st⟩
  | cons d rest ih =>
    obtain ⟨so₁, tu₁⟩ := sound_act so di d
    obtain ⟨so₂, tu₂⟩ := ih so₁
    exact ⟨so₂, tu₁.trans tu₂⟩

/-- Once a unit is torn down no scope is found under its key. -/
lemma find_act_of_tearsDown (so : z.Sound st) {key : ScopeKey} {d : Deed P ε} (td : d.TearsDown key) :
    (z.act produce st d).world.find st key = none := by
  cases d with
  | afterAll x ctx =>
    cases td
    exact (Extension.leakFree_afterAll (x := x.sharing st) so.leakFree ctx).2
  | closeAll => exact so.leakFree.closeAll.2 key
  | _ => cases td

/-- In every session of extensions that share a storage, each scope is stored under its key or closed, so that no two
scopes of one key are both not closed; and what is handed out for a key is a scope of this key. Once a unit is torn
down, whatever is done later, its scopes are closed and give no model, and no scope is found under its key before a
new one is made. -/
theorem nothing_leaks (di : produce.Discreet) (catalogs : CatalogId → SpecCatalog) (host : H) (st : StorageId)
    (deeds : List (Deed P ε)) :
    let z := (start catalogs host).acts produce st deeds
    (∀ (i : ScopeId) (s : Scope P), z.world.scopes[i]? = some s →
      z.world.find st s.key = some i ∨ s.phase = .closed) ∧
    (∀ (i j : ScopeId) (s s' : Scope P), z.world.scopes[i]? = some s → z.world.scopes[j]? = some s' →
      s.key = s'.key → s.phase ≠ .closed → s'.phase ≠ .closed → i = j) ∧
    (∀ key i, (key, i) ∈ z.handed → ∃ s, z.world.scopes[i]? = some s ∧ s.key = key) ∧
    ∀ (key : ScopeKey) (d : Deed P ε), d.TearsDown key → ∀ later : List (Deed P ε),
      let torn := z.act produce st d
      let z' := torn.acts produce st later
      (∀ (i : ScopeId) (s : Scope P), torn.world.scopes[i]? = some s → s.key = key → s.phase = .closed ∧
        ∃ s', z'.world.scopes[i]? = some s' ∧ s'.key = key ∧ s'.phase = .closed ∧
          z'.world.modelOf produce i = some (.error (.inactive key), z'.world)) ∧
      ((∀ (i : ScopeId) (s : Scope P), torn.world.scopes.length ≤ i → z'.world.scopes[i]? = some s → s.key ≠ key) →
        z'.world.find st key = none) := by
  intro z
  have so : z.Sound st := (sound_acts (.start catalogs host st) di deeds).1
  refine ⟨?_, ?_, so.handed, ?_⟩
  · intro i s hs
    by_cases closed : s.state = .closed
    · exact .inr (Scope.phase_eq_closed_iff.mpr closed)
    · exact .inl (so.leakFree.stored i s hs closed)
  · intro i j s s' hs hs' e act act'
    exact so.leakFree.unique hs hs' e (by simpa using act) (by simpa using act')
  · intro key d td later torn z'
    have so₁ : torn.Sound st := (sound_act so di d).1
    obtain ⟨so₂, tu⟩ : z'.Sound st ∧ torn.world.Turns z'.world st := sound_acts so₁ di later
    have gone : torn.world.find st key = none := find_act_of_tearsDown so td
    refine ⟨fun i s hs e => ?_, fun none_new => ?_⟩
    · have closed : s.state = .closed := so₁.leakFree.closed_of_none hs (by rw [e]; exact gone)
      obtain ⟨s', hs', ag⟩ := tu.ages i s hs
      have key' : s'.key = key := ag.key.trans e
      have closed' := ag.closed closed
      refine ⟨by simpa using closed, s', hs', key', by simpa using closed', ?_⟩
      rw [World.modelOf_of_closed hs' closed', key']
    · cases h : z'.world.find st key with
      | none => rfl
      | some i =>
        obtain ⟨s, hs, e⟩ := so₂.leakFree.own key i h
        -- what is found later was found right after the teardown or is new
        rcases tu.found key i h with old | new
        · rw [gone] at old
          cases old
        · exact absurd e (none_new i s new hs)

/-- A unit that is made ready twice, because its first build fails, then torn down and made ready again: the first of
its scopes gives no model any more, though the second is not closed. -/
theorem nothing_leaks_everyOther :
    let x : Extension Unit := ⟨⟨"demo", false, .empty⟩, 0, fun _ => ()⟩
    let ctx : Context := .detached "A" "A"
    let ready : Deed Unit Unit := .postProcess x 0 ⟨some (), false⟩ ctx
    let done : Deed Unit Unit := .afterAll x ctx
    let z : Session Unit Nat := (start (fun _ => .empty) 0).acts Produce.everyOther 0 [ready, ready]
    let z' := (z.act Produce.everyOther 0 done).acts Produce.everyOther 0 [ready, ready]
    Produce.everyOther.Discreet ∧ done.TearsDown (x.key ctx) ∧
    z'.handed = [(x.key ctx, 0), (x.key ctx, 1)] ∧ z'.world.scopes.map Scope.phase = [.closed, .activePopulated] ∧
    z'.world.modelOf Produce.everyOther 0 = some (.error (.inactive (x.key ctx)), z'.world) := by
  intro x ctx ready done z z'
  have di : Produce.everyOther.Discreet := World.discreet_ofHost _
  have handed : (x.key ctx, 0) ∈ (z.act Produce.everyOther 0 done).handed := by decide +kernel
  obtain ⟨s, hs, key⟩ := (nothing_leaks di (fun _ => .empty) 0 0 [ready, ready, done]).2.2.1 _ _ handed
  have torn := (nothing_leaks di (fun _ => .empty) 0 0 [ready, ready]).2.2.2 (x.key ctx) done rfl [ready, ready]
  obtain ⟨-, _, _, _, _, refused⟩ := torn.1 0 s hs key
  exact ⟨di, rfl, by decide +kernel, by decide +kernel, refused⟩

end Session

end ModelScopes
