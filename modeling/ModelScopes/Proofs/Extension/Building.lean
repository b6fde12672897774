import ModelScopes.Proofs.Extension.Errands

/-!
# Errands that build

Whatever is done in a session, at most one producer is called for a scope. An errand that calls none lets scopes only
lose the models that they hold, and an errand that calls one keeps nothing but what it built. The main statement is
`Session.rests_or_builds`.
-/

namespace ModelScopes

variable {P H ε : Type}

namespace World

/-- A scope of this producer holds what was built. -/
def Holds (w : World P H) (p : P) (b : Built) : Prop :=
  ∃ s ∈ w.scopes, s.producer = p ∧ s.state = .active (some b)

/-- A world comes of another without a call of a producer. -/
structure Rests (w w' : World P H) : Prop where
  host : w'.host = w.host
  serial : w.serial ≤ w'.serial
  held : ∀ p b, w'.Holds p b → w.Holds p b

/-- A world comes of another by one call of the producer with this registry, and holds nothing new but what was
built. -/
inductive Builds (produce : Produce P H) (p : P) (registry : Registry) (r : Except ScopeError Model)
    (w w' : World P H) : Prop where
  | call (v v' : World P H) :
    w.Rests v → produce p registry v = (r, v') → w'.host = v'.host → v'.serial ≤ w'.serial →
    (∀ p' b, w'.Holds p' b → v'.Holds p' b ∨ p' = p ∧ r = .ok b.model) →
    Builds produce p registry r w w'

variable {produce : Produce P H} {w w' w'' : World P H} {st : StorageId}

/-! ## Worlds that rest -/

/-- A world that looks the same comes of another one at rest. -/
lemma Rests.of_sight (h : w'.sight = w.sight) : w.Rests w' := by
  obtain ⟨scopes, serial, host⟩ := Sight.mk.inj h
  refine ⟨host, Nat.le_of_eq serial.symm, fun p b held => ?_⟩
  rwa [Holds, scopes] at held

/-- A world is at rest with itself. -/
lemma Rests.refl (w : World P H) : w.Rests w :=
  .of_sight rfl

/-- Rest goes on from where it stopped. -/
lemma Rests.trans (re : w.Rests w') (re' : w'.Rests w'') : w.Rests w'' :=
  ⟨re'.host.trans re.host, Nat.le_trans re.serial re'.serial, fun p b held => re.held p b (re'.held p b held)⟩

/-- An id is given out without a call of a producer. -/
lemma rests_freshId (w : World P H) : w.Rests w.freshId.2 :=
  ⟨rfl, Nat.le_succ _, fun _ _ => id⟩

/-- When a scope is changed nothing is held but what was, and what the changed scope holds. -/
lemma holds_setScope {i : ScopeId} {s : Scope P} {p : P} {b : Built} (held : (w.setScope i s).Holds p b) :
    w.Holds p b ∨ s.producer = p ∧ s.state = .active (some b) := by
  obtain ⟨t, ht, own, here⟩ := held
  rcases List.mem_or_eq_of_mem_set ht with old | rfl
  · exact .inl ⟨t, old, own, here⟩
  · exact .inr ⟨own, here⟩

/-- When a scope is added nothing is held but what was, and what the new scope holds. -/
lemma holds_addScope {s : Scope P} {p : P} {b : Built} (held : (w.addScope s).2.Holds p b) :
    w.Holds p b ∨ s.producer = p ∧ s.state = .active (some b) := by
  obtain ⟨t, ht, own, here⟩ := held
  rcases List.mem_append.mp ht with old | new
  · exact .inl ⟨t, old, own, here⟩
  · cases List.mem_singleton.mp new
    exact .inr ⟨own, here⟩

/-- A scope that holds no model may be put in place without a call of a producer. -/
lemma rests_setScope (i : ScopeId) {s : Scope P} (empty : ∀ b, s.state ≠ .active (some b)) :
    w.Rests (w.setScope i s) := by
  refine ⟨rfl, Nat.le_refl _, fun p b held => ?_⟩
  rcases holds_setScope held with old | ⟨-, here⟩
  · exact old
  · cases empty b here

/-- A scope is closed without a call of a producer. -/
lemma rests_close (i : ScopeId) (w : World P H) : w.Rests (w.close i) := by
  unfold close
  split
  case h_1 => exact .refl w
  case h_2 s _ =>
    obtain ⟨scopes, -, serial, host⟩ := s.close_world w
    have same : (s.close w).2.sight = w.sight := by simp [sight, scopes, serial, host]
    have shut : ∀ b, (s.close w).1.state ≠ .active (some b) := by simp
    exact (Rests.of_sight same).trans (rests_setScope i shut)

/-- A scope is invalidated without a call of a producer. -/
lemma rests_invalidate {i : ScopeId} {r : Except ScopeError Unit} (h : w.invalidate i = some (r, w')) : w.Rests w' := by
  obtain ⟨s, -, e⟩ := Option.map_eq_some_iff.mp h
  have eq : (s.invalidate w).2.2.setScope i (s.invalidate w).2.1 = w' := congrArg Prod.snd e
  subst eq
  obtain ⟨scopes, -, serial, host⟩ := s.invalidate_world w
  have same : (s.invalidate w).2.2.sight = w.sight := by simp [sight, scopes, serial, host]
  refine (Rests.of_sight same).trans (rests_setScope i fun b => ?_)
  cases hs : s.state with
  | closed => simp [Scope.invalidate_of_closed hs, hs]
  | active held => simp [(Scope.invalidate_of_active hs w).2]

/-- Scopes are closed by their keys without a call of a producer. -/
lemma rests_closeKeys (w : World P H) (st : StorageId) (keys : List ScopeKey) : w.Rests (w.closeKeys st keys).2 := by
  induction keys generalizing w with
  | nil => exact .refl w
  | cons key rest ih =>
    have removed : w.Rests (w.remove st key).2 := .of_sight rfl
    rw [closeKeys]
    cases h : w.remove st key with
    | mk found w' =>
      rw [h] at removed
      cases found with
      | none => exact removed.trans (ih w')
      | some i => exact removed.trans ((rests_close i w').trans (ih (w'.close i)))

/-- All scopes of a storage are closed without a call of a producer. -/
lemma rests_closeAll (w : World P H) (st : StorageId) : w.Rests (w.closeAll st).2 := by
  have closed := w.rests_closeKeys st (w.storages st).keys
  rw [closeAll]
  simp only
  split
  case isTrue => exact closed
  case isFalse => exact closed.trans (.of_sight rfl)

/-! ## Worlds that build -/

/-- A rest may come before a build. -/
lemma Builds.after_rests {p : P} {registry : Registry} {r : Except ScopeError Model} (re : w.Rests w')
    (bu : w'.Builds produce p registry r w'') : w.Builds produce p registry r w'' := by
  obtain ⟨v, v', before, call, host, serial, held⟩ := bu
  exact .call v v' (re.trans before) call host serial held

/-- A rest may come after a build. -/
lemma Builds.then_rests {p : P} {registry : Registry} {r : Except ScopeError Model}
    (bu : w.Builds produce p registry r w') (re : w'.Rests w'') : w.Builds produce p registry r w'' := by
  obtain ⟨v, v', before, call, host, serial, held⟩ := bu
  exact .call v v' before call (re.host.trans host) (Nat.le_trans serial re.serial) fun p' b h =>
    held p' b (re.held p' b h)

/-- A scope that is asked for its model rests, or builds with its own producer and registry. -/
lemma rests_or_builds_modelOf {i : ScopeId} {s : Scope P} {o : Except ScopeError Built}
    (hs : w.scopes[i]? = some s) (h : w.modelOf produce i = some (o, w')) :
    w.Rests w' ∨ ∃ r, w.Builds produce s.producer s.registry r w' := by
  rw [modelOf, hs] at h
  have eq' : (s.model produce w).2.2.setScope i (s.model produce w).2.1 = w' :=
    congrArg Prod.snd (Option.some.inj h)
  subst eq'
  have noted : w.Rests (w.emit (.building s.key)) := .of_sight rfl
  obtain ⟨-, eq⟩ | ⟨b, -, eq⟩ | ⟨e, v', empty, hp, eq⟩ | ⟨m, v', empty, hp, eq⟩ := s.model_cases produce w
  · rw [eq, setScope_same hs]
    exact .inl (.refl w)
  · rw [eq, setScope_same hs]
    exact .inl (.refl w)
  · rw [eq]
    refine .inr ⟨.error e, .call _ v' noted hp rfl (Nat.le_refl _) fun p b held => ?_⟩
    rcases holds_setScope held with old | ⟨-, here⟩
    · exact .inl old
    · rw [empty] at here
      cases here
  · rw [eq]
    refine .inr ⟨.ok m, .call _ v' noted hp rfl (Nat.le_succ _) fun p b held => ?_⟩
    rcases holds_setScope held with old | ⟨own, here⟩
    · exact .inl old
    · cases here
      exact .inr ⟨own.symm, rfl⟩

/-- A scope is opened with one call of the producer. -/
lemma builds_openScope (produce : Produce P H) (w : World P H) (key : ScopeKey) (registry : Registry) (p : P) :
    ∃ r, w.Builds produce p registry r (w.openScope produce key registry p).2 := by
  have noted : w.Rests (w.emit (.building key)) := .of_sight rfl
  cases hp : produce p registry (w.emit (.building key)) with
  | mk r v' =>
    cases r with
    | error e =>
      rw [openScope_of_failed hp]
      exact ⟨_, .call _ v' noted hp rfl (Nat.le_refl _) fun _ _ => .inl⟩
    | ok m =>
      rw [openScope_of_built hp]
      refine ⟨_, .call _ v' noted hp rfl (Nat.le_succ _) fun p b held => ?_⟩
      rcases holds_addScope held with old | ⟨own, here⟩
      · exact .inl old
      · cases here
        exact .inr ⟨own.symm, rfl⟩

/-- Finding or creating a scope rests, or builds with the producer and the registry that were given. -/
lemma rests_or_builds_getOrCreate (produce : Produce P H) (w : World P H) (st : StorageId) (key : ScopeKey) (p : P)
    (registry : Registry) :
    w.Rests (w.getOrCreate produce st key p registry).2 ∨
      ∃ r, w.Builds produce p registry r (w.getOrCreate produce st key p registry).2 := by
  let w₁ := w.modifyStorage st fun _ => ((w.storages st).fetch key).2
  have fetched : w.Rests w₁ := .of_sight rfl
  have creating : w.Rests (w₁.emit (.creating key)) := .of_sight rfl
  rw [getOrCreate]
  simp only
  split
  case h_1 => exact .inl fetched
  case h_2 =>
    obtain ⟨r, bu⟩ := builds_openScope produce (w₁.emit (.creating key)) key registry p
    refine .inr ⟨r, bu.after_rests creating |>.then_rests ?_⟩
    rw [createIn]
    -- what is done to the storage in the end does not matter
    split
    case h_1 e w' eq =>
      rw [eq]
      exact .of_sight rfl
    case h_2 i w' eq =>
      rw [eq]
      exact .of_sight rfl

end World

/-! ## Errands -/

namespace Extension

variable {produce : Produce P H} {w : World P H}

/-- The hook for test instances calls one producer at most. -/
lemma rests_or_builds_postProcess (x : Extension P) (specs : SpecCatalog) (inst : Instance P) (ctx : Context) :
    let w' := (x.postProcess produce specs inst ctx w).2
    w.Rests w' ∨ ∃ p registry r, w.Builds produce p registry r w' := by
  unfold postProcess
  split
  case h_1 => exact .inl (.refl w)
  case h_2 =>
    split
    case h_1 => exact .inl (.refl w)
    case h_2 p _ =>
      have fresh : w.Rests (w.freshRegistry x.config.settings).2 := w.rests_freshId
      have comes := World.rests_or_builds_getOrCreate produce (w.freshRegistry x.config.settings).2 x.storage
        (x.key ctx) p (w.freshRegistry x.config.settings).1
      simp only
      generalize (w.freshRegistry x.config.settings).2.getOrCreate produce x.storage (x.key ctx) p
        (w.freshRegistry x.config.settings).1 = a at comes ⊢
      have comes' : w.Rests a.2 ∨ ∃ p registry r, w.Builds produce p registry r a.2 := by
        rcases comes with re | ⟨r, bu⟩
        · exact .inl (fresh.trans re)
        · exact .inr ⟨p, _, r, bu.after_rests fresh⟩
      obtain ⟨r, w'⟩ := a
      cases r <;> exact comes'

/-- The hook for a failed test calls no producer. -/
lemma rests_handleFailure (x : Extension P) (ctx : Context) (error : ε) : w.Rests (x.handleFailure ctx error w).2 := by
  unfold handleFailure
  split
  case h_1 => exact .refl w
  case h_2 i _ =>
    unfold invalidateFound
    split
    case h_1 => exact .refl w
    case h_2 w' h => exact (World.rests_invalidate h).trans (.of_sight rfl)
    case h_3 e w' h => exact (World.rests_invalidate h).trans (.of_sight rfl)

/-- The hook after all tests calls no producer. -/
lemma rests_afterAll (x : Extension P) (ctx : Context) : w.Rests (x.afterAll ctx w) := by
  have removed : w.Rests (w.remove x.storage (x.key ctx)).2 := .of_sight rfl
  unfold afterAll
  split
  case h_1 w' eq =>
    rw [eq] at removed
    exact removed
  case h_2 i w' eq =>
    rw [eq] at removed
    exact removed.trans ((World.rests_close i w').trans (.of_sight rfl))

end Extension

namespace Session

variable {produce : Produce P H} {z : Session P H}

/-- A deed calls one producer at most. -/
lemma rests_or_builds_act (st : StorageId) (d : Deed P ε) :
    z.world.Rests (z.act produce st d).world ∨
      ∃ p registry r, z.world.Builds produce p registry r (z.act produce st d).world := by
  cases d with
  | postProcess x c inst ctx => exact (x.sharing st).rests_or_builds_postProcess (z.catalogs c) inst ctx
  | handleFailure x ctx error => exact .inl ((x.sharing st).rests_handleFailure ctx error)
  | afterAll x ctx => exact .inl ((x.sharing st).rests_afterAll ctx)
  | find | attach | detach => exact .inl (.refl z.world)
  | getOrCreate key p registry =>
    rcases z.world.rests_or_builds_getOrCreate produce st key p registry with re | ⟨r, bu⟩
    · exact .inl re
    · exact .inr ⟨p, registry, r, bu⟩
  | closeAll => exact .inl (z.world.rests_closeAll st)
  | model i =>
    cases h : z.world.modelOf produce i with
    | none => simpa [act, h] using Or.inl (World.Rests.refl z.world)
    | some a =>
      obtain ⟨s, hs, -⟩ := Option.map_eq_some_iff.mp h
      rcases World.rests_or_builds_modelOf hs h with re | ⟨r, bu⟩
      · simpa [act, h] using Or.inl re
      · exact .inr ⟨s.producer, s.registry, r, by simpa [act, h] using bu⟩
  | invalidate i =>
    cases h : z.world.invalidate i with
    | none => simpa [act, h] using Or.inl (World.Rests.refl z.world)
    | some a => simpa [act, h] using Or.inl (World.rests_invalidate h)
  | close i => exact .inl (World.rests_close i z.world)

/-- An errand calls no producer, or it calls one and holds nothing new but what this one built. -/
theorem rests_or_builds (e : Errand P ε) :
    z.world.Rests (z.step produce e).world ∨
      ∃ p registry r, z.world.Builds produce p registry r (z.step produce e).world := by
  cases e with
  | deed st d => exact rests_or_builds_act st d
  | remove st key => exact .inl (.of_sight rfl)
  | newScope key registry p =>
    refine .inl ⟨rfl, Nat.le_refl _, fun p b held => ?_⟩
    rcases World.holds_addScope held with old | ⟨-, here⟩
    · exact old
    · cases here
  | openScope key registry p =>
    obtain ⟨r, bu⟩ := World.builds_openScope produce z.world key registry p
    exact .inr ⟨p, registry, r, bu⟩

end Session

end ModelScopes
