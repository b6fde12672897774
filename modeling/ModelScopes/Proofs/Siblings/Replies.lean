import ModelScopes.Proofs.Siblings.Alike
import ModelScopes.Proofs.Siblings.Demands

/-!
# Replies for one key

In sessions that are alike for a key, what is demanded for it is replied the same. What is demanded for another key may
be left out in one of them. So what is replied to the demands for a key is what is replied if there are no others, but
for specs that are attached or detached and for closing all scopes. The main statement is
`Session.Alike.replies_filter`.
-/

namespace ModelScopes

variable {P H V ε : Type}

/-- The answers are the same if scopes that correspond to each other are given the same place, but for the identities
of models. -/
def Answer.Alike (pairs : ScopeId → ScopeId → Prop) (a a' : Answer ScopeId Built ε) : Prop :=
  ∀ place place' : ScopeId → Option Nat, (∀ i i', pairs i i' → place i = place' i') →
    a.map place (·.model.content) = a'.map place' (·.model.content)

/-- The worlds are alike for a key, the scopes that were handed out for it correspond to each other, and the same specs
are attached. -/
structure Session.Alike (view : ScopeKey → H → V) (st : StorageId) (key : ScopeKey) (pairs : ScopeId → ScopeId → Prop)
    (z z' : Session P H) : Prop where
  catalogs : z'.catalogs = z.catalogs
  world : z.world.Alike view st key pairs z'.world
  handed : List.Forall₂ pairs (z.handedFor key) (z'.handedFor key)

variable {produce : Produce P H} {uses : ScopeKey → P → Prop} {view : ScopeKey → H → V} {st : StorageId}
  {key : ScopeKey} {pairs : ScopeId → ScopeId → Prop}

/-! ## Hooks in two worlds -/

namespace Extension

open World

variable {x : Extension P} {ctx : Context} {w w' : World P H}

/-- A test instance is answered the same in worlds that are alike. -/
lemma alike_postProcess (al : w.Alike view x.storage (x.key ctx) pairs w') (se : produce.Separate uses view)
    (od : w.Orderly uses x.storage) (od' : w'.Orderly uses x.storage) (specs : SpecCatalog) (inst : Instance P)
    (ofSpec : ∀ spec, uses (x.key ctx) (x.ofSpec spec)) (own : ∀ p, inst.producer = some p → uses (x.key ctx) p) :
    let a := x.postProcess produce specs inst ctx w
    let a' := x.postProcess produce specs inst ctx w'
    ∃ pairs', (∀ i i', pairs i i' → pairs' i i') ∧ SameOutcome pairs' a.1.outcome a'.1.outcome ∧
      Option.Rel pairs' a.1.injected a'.1.injected ∧ a.2.Alike view x.storage (x.key ctx) pairs' a'.2 := by
  have at_key : ∀ v : World P H, x.find ctx v = v.find x.storage (x.key ctx) := fun _ => rfl
  obtain ⟨hf, hf'⟩ | ⟨i, i', hf, hf', h⟩ := rel_cases al.found
  case inr =>
    simp only [postProcess, at_key, hf, hf']
    exact ⟨pairs, fun _ _ => id, .ok h, .none, al⟩
  case inl =>
    simp only [postProcess, at_key, hf, hf']
    cases hp : x.producerFor specs inst ctx with
    | error e => exact ⟨pairs, fun _ _ => id, .error e, .none, al⟩
    | ok p =>
      -- the registries differ in their identities, and the worlds are alike all the same
      let a := w.freshRegistry x.config.settings
      let a' := w'.freshRegistry x.config.settings
      have fresh : w.Concerns uses view x.storage (x.key ctx) a.2 := od.concerns_same rfl rfl rfl
      have fresh' : w'.Concerns uses view x.storage (x.key ctx) a'.2 := od'.concerns_same rfl rfl rfl
      have al₁ : a.2.Alike view x.storage (x.key ctx) pairs a'.2 :=
        al.of_spares (.of_same rfl rfl rfl) (.of_same rfl rfl rfl)
      have settings : a.1.settings = a'.1.settings := rfl
      obtain ⟨pairs', more, outcome, after⟩ :=
        al₁.getOrCreate se fresh.orderly fresh'.orderly (used_of_producerFor ofSpec own hp) settings
      refine ⟨pairs', more, ?_⟩
      cases hc : a.2.getOrCreate produce x.storage (x.key ctx) p a.1 with
      | mk r v =>
        cases hc' : a'.2.getOrCreate produce x.storage (x.key ctx) p a'.1 with
        | mk r' v' =>
          rw [hc, hc'] at outcome after
          simp only [a, a'] at hc hc'
          simp only [hc, hc']
          cases outcome with
          | error e => exact ⟨.error e, .none, after⟩
          | @ok i i' h =>
            have handed : Option.Rel pairs' (if x.config.injectScope && inst.takesScope then some i else none)
                (if x.config.injectScope && inst.takesScope then some i' else none) := by
              split
              case isTrue => exact .some h
              case isFalse => exact .none
            exact ⟨.ok h, handed, after⟩

/-- The hook for a failed test answers the same in both worlds, and leaves them alike. -/
lemma alike_handleFailure (al : w.Alike view x.storage (x.key ctx) pairs w') (error : ε) :
    (x.handleFailure ctx error w).1 = (x.handleFailure ctx error w').1 ∧
      (x.handleFailure ctx error w).2.Alike view x.storage (x.key ctx) pairs (x.handleFailure ctx error w').2 := by
  have at_key : ∀ v : World P H, x.find ctx v = v.find x.storage (x.key ctx) := fun _ => rfl
  obtain ⟨hf, hf'⟩ | ⟨i, i', hf, hf', h⟩ := rel_cases al.found
  case inl =>
    simp only [handleFailure, at_key, hf, hf']
    exact ⟨trivial, al⟩
  case inr =>
    obtain ⟨r, w₁, w₁', eq, eq', after⟩ := al.invalidate h
    simp only [handleFailure, at_key, hf, hf', invalidateFound, eq, eq']
    -- what is logged besides does not matter
    cases r with
    | ok => exact ⟨trivial, after.of_spares (.of_same rfl rfl rfl) (.of_same rfl rfl rfl)⟩
    | error => exact ⟨trivial, after.of_spares (.of_same rfl rfl rfl) (.of_same rfl rfl rfl)⟩

/-- The hook after all tests leaves the worlds alike. -/
lemma alike_afterAll (al : w.Alike view x.storage (x.key ctx) pairs w') (od : w.Orderly uses x.storage)
    (od' : w'.Orderly uses x.storage) :
    (x.afterAll ctx w).Alike view x.storage (x.key ctx) pairs (x.afterAll ctx w') := by
  obtain ⟨same, same', removed⟩ := al.remove od od'
  have found := al.found
  rw [← same, ← same'] at found
  rw [afterAll, afterAll]
  cases hr : w.remove x.storage (x.key ctx) with
  | mk o w₁ =>
    cases hr' : w'.remove x.storage (x.key ctx) with
    | mk o' w₁' =>
      rw [hr, hr'] at found removed
      cases found with
      | none => exact removed
      | some h => exact (removed.close h).of_spares (.of_same rfl rfl rfl) (.of_same rfl rfl rfl)

end Extension

/-! ## Two sessions -/

namespace Session

variable {z z' : Session P H} {w w' : World P H}

/-- Two new sessions are alike. -/
lemma Alike.start (catalogs : CatalogId → SpecCatalog) (host : H) :
    (start catalogs host : Session P H).Alike view st key (fun _ _ => False) (start catalogs host) :=
  ⟨rfl, ⟨⟨nofun, nofun⟩, .none, nofun, rfl⟩, .nil⟩

/-- Sessions that are alike stay alike when another key is asked for in one of them only. -/
lemma Alike.of_concerns (al : z.Alike view st key pairs z') {key' : ScopeKey} (ne : key' ≠ key) {z₁ : Session P H}
    (co : z.Concerns uses view st key' z₁) : z₁.Alike view st key pairs z' := by
  refine ⟨al.catalogs.trans co.catalogs.symm, al.world.of_spares (co.spares key ne.symm) (.of_same rfl rfl rfl), ?_⟩
  rw [co.handed key ne.symm]
  exact al.handed

/-- Sessions that go on in worlds that are alike stay alike. -/
lemma Alike.goOn (al : z.Alike view st key pairs z') (world : w.Alike view st key pairs w') :
    (z.goOn w).Alike view st key pairs (z'.goOn w') :=
  ⟨al.catalogs, world, al.handed⟩

/-- Sessions that go on and hand scopes out that correspond to each other stay alike. -/
lemma Alike.proceed (al : z.Alike view st key pairs z') {pairs' : ScopeId → ScopeId → Prop}
    (more : ∀ i i', pairs i i' → pairs' i i') (world : w.Alike view st key pairs' w') {i i' : Option ScopeId}
    (had : Option.Rel pairs' i i') : (z.proceed w key i).Alike view st key pairs' (z'.proceed w' key i') := by
  refine ⟨al.catalogs, world, ?_⟩
  rw [handedFor_proceed, handedFor_proceed]
  have before := al.handed.imp more
  cases had with
  | none => simpa using before
  | some h => exact List.rel_append before (.cons h .nil)

/-- Sessions stay alike when the same is done to a catalog of both. -/
lemma Alike.modifyCatalog (al : z.Alike view st key pairs z') (c : CatalogId) (f : SpecCatalog → SpecCatalog) :
    (z.modifyCatalog c f).Alike view st key pairs (z'.modifyCatalog c f) := by
  refine ⟨?_, al.world, al.handed⟩
  simp only [Session.modifyCatalog, al.catalogs]

/-- Scopes that correspond to each other have the same place among those handed out. -/
lemma Alike.place_eq (al : z.Alike view st key pairs z') {i i' : ScopeId} (h : pairs i i') :
    z.place key i = z'.place key i' := by
  have same : ∀ {is is' : List ScopeId}, List.Forall₂ pairs is is' →
      is.findIdx? (· == i) = is'.findIdx? (· == i') := fun handed => by
    induction handed with
    | nil => rfl
    | @cons j j' _ _ hj _ ih =>
      have here : j = i ↔ j' = i' := ⟨fun e => al.world.unique.2 (e ▸ hj) h, fun e => al.world.unique.1 (e ▸ hj) h⟩
      simp only [List.findIdx?_cons, beq_iff_eq, here, ih]
  exact same al.handed

/-- Corresponding scopes answer calls the same. -/
lemma Alike.call (al : z.Alike view st key pairs z') (se : produce.Separate uses view) (od : z.Orderly uses st)
    {i i' : ScopeId} (h : pairs i i') (c : ScopeCall) :
    let a : Answer ScopeId Built ε × Session P H := z.call produce i c
    let a' : Answer ScopeId Built ε × Session P H := z'.call produce i' c
    a.1.Alike pairs a'.1 ∧ a.2.Alike view st key pairs a'.2 := by
  cases c with
  | model =>
    obtain ⟨r, w, r', w', eq, eq', outcome, after⟩ := al.world.modelOf se od.world h
    simp only [Session.call, eq, eq']
    exact ⟨fun _ _ _ => congrArg Answer.model (outcome.map_eq fun _ _ same => same), al.goOn after⟩
  | invalidate =>
    obtain ⟨r, w, w', eq, eq', after⟩ := al.world.invalidate h
    simp only [Session.call, eq, eq']
    exact ⟨fun _ _ _ => rfl, al.goOn after⟩
  | close => exact ⟨fun _ _ _ => rfl, al.goOn (al.world.close h)⟩
  | phase =>
    obtain ⟨s, s', hs, hs', -, same⟩ := al.world.scopes i i' h
    simp only [Session.call, hs, hs', Option.map_some, same.phase_eq]
    exact ⟨fun _ _ _ => rfl, al⟩

/-- What is asked for a key is answered the same in sessions that are alike for it. -/
lemma Alike.serve (al : z.Alike view st key pairs z') (se : produce.Separate uses view) (od : z.Orderly uses st)
    (od' : z'.Orderly uses st) {d : Demand P ε} (used : d.Uses uses) (hk : d.key? = some key) :
    ∃ pairs', (z.serve produce st d).2.Alike view st key pairs' (z'.serve produce st d).2 ∧
      (z.serve produce st d).1.Alike pairs' (z'.serve produce st d).1 := by
  -- for each demand: the two worlds come out alike, and what is answered corresponds, so it shows the same places
  cases d with
  | postProcess x c inst ctx =>
    cases hk
    obtain ⟨pairs', more, outcome, injected, after⟩ := Extension.alike_postProcess (x := x.sharing st) al.world se
      od.world od'.world (z.catalogs c) inst used.1 used.2
    simp only [Session.serve, al.catalogs]
    refine ⟨pairs', al.proceed more after outcome.toOption, fun place place' same => ?_⟩
    exact congrArg₂ Answer.processed (outcome.map_eq same) (map_eq_of_rel injected same)
  | handleFailure x ctx error =>
    cases hk
    obtain ⟨same, after⟩ := Extension.alike_handleFailure (x := x.sharing st) al.world error
    exact ⟨pairs, al.goOn after, fun _ _ _ => congrArg Answer.returned same⟩
  | afterAll x ctx =>
    cases hk
    exact ⟨pairs, al.goOn (Extension.alike_afterAll (x := x.sharing st) al.world od.world od'.world),
      fun _ _ _ => rfl⟩
  | findUnit x ctx =>
    cases hk
    exact ⟨pairs, al.proceed (fun _ _ => id) al.world al.world.found, fun _ _ same =>
      congrArg Answer.scope (map_eq_of_rel al.world.found same)⟩
  | getOrCreate key p registry =>
    cases hk
    obtain ⟨pairs', more, outcome, after⟩ := al.world.getOrCreate se od.world od'.world used (Eq.refl registry.settings)
    exact ⟨pairs', al.proceed more after outcome.toOption, fun _ _ same =>
      congrArg Answer.created (outcome.map_eq same)⟩
  | find key =>
    cases hk
    exact ⟨pairs, al.proceed (fun _ _ => id) al.world al.world.found, fun _ _ same =>
      congrArg Answer.scope (map_eq_of_rel al.world.found same)⟩
  | contains key =>
    cases hk
    have stored : z.world.contains st key = z'.world.contains st key := by
      have at_key : ∀ v : World P H, v.contains st key = (v.find st key).isSome := fun _ => rfl
      obtain ⟨hf, hf'⟩ | ⟨i, i', hf, hf', -⟩ := rel_cases al.world.found
      · rw [at_key, at_key, hf, hf']
      · rw [at_key, at_key, hf, hf', Option.isSome_some, Option.isSome_some]
    exact ⟨pairs, al, fun _ _ _ => congrArg Answer.flag stored⟩
  | remove key =>
    cases hk
    obtain ⟨same, same', after⟩ := al.world.remove od.world od'.world
    have found := al.world.found
    rw [← same, ← same'] at found
    exact ⟨pairs, al.proceed (fun _ _ => id) after found, fun _ _ same =>
      congrArg Answer.scope (map_eq_of_rel found same)⟩
  | newScope key registry p =>
    cases hk
    obtain ⟨pairs', more, outcome, after⟩ := al.world.newScope registry p
    exact ⟨pairs', al.proceed more after outcome.toOption, fun _ _ same =>
      congrArg Answer.created (outcome.map_eq same)⟩
  | openScope key registry p =>
    cases hk
    obtain ⟨pairs', more, outcome, after⟩ := al.world.openScope se used registry
    exact ⟨pairs', al.proceed more after outcome.toOption, fun _ _ same =>
      congrArg Answer.created (outcome.map_eq same)⟩
  | call key n c =>
    cases hk
    simp only [Session.serve]
    obtain ⟨hi, hi'⟩ | ⟨i, i', hi, hi', h⟩ := rel_cases (rel_getElem? al.handed n)
    · rw [hi, hi']
      exact ⟨pairs, al, fun _ _ _ => rfl⟩
    · rw [hi, hi']
      obtain ⟨same, after⟩ := al.call se od h c
      exact ⟨pairs, after, same⟩
  | attach | detach | closeAll => cases hk

/-- What is done for no key leaves sessions alike. -/
lemma Alike.serve_of_none (al : z.Alike view st key pairs z') (od : z.Orderly uses st)
    (od' : z'.Orderly uses st) {d : Demand P ε} (hk : d.key? = none) :
    (z.serve produce st d).2.Alike view st key pairs (z'.serve produce st d).2 := by
  cases d with
  | attach c element spec => exact al.modifyCatalog c fun specs => specs.insert element spec
  | detach c element => exact al.modifyCatalog c fun specs => specs.erase element
  | closeAll => exact al.goOn (al.world.closeAll od.world od'.world)
  | _ => cases hk

/-! ## Main statement -/

/-- Sessions that are alike for a key reply the same to its demands, though the demands for other keys are left out in
one of them. -/
lemma Alike.replies_filter (al : z.Alike view st key pairs z') (se : produce.Separate uses view)
    (od : z.Orderly uses st) (od' : z'.Orderly uses st) (demands : List (Demand P ε))
    (used : ∀ d ∈ demands, d.Uses uses) :
    z.replies produce st key demands = z'.replies produce st key (demands.filter (·.concerns key)) := by
  induction demands generalizing pairs z z' with
  | nil => rfl
  | cons d rest ih =>
    have mine : d.Uses uses := used d List.mem_cons_self
    have others : ∀ d' ∈ rest, d'.Uses uses := fun d' h => used d' (List.mem_cons_of_mem d h)
    have od₁ := orderly_serve od se mine
    have od₁' := orderly_serve od' se mine
    cases hk : d.key? with
    | none =>
      have kept : d.concerns key := by simp [Demand.concerns, hk]
      have al₁ : (z.serve produce st d).2.Alike view st key pairs (z'.serve produce st d).2 :=
        al.serve_of_none od od' hk
      rw [List.filter_cons_of_pos kept, replies, replies]
      simp only [hk, reduceCtorEq, if_false]
      exact ih al₁ od₁ od₁' others
    | some key' =>
      by_cases e : key' = key
      · subst e
        have kept : d.concerns key' := by simp [Demand.concerns, hk]
        obtain ⟨pairs', al₁, same⟩ := al.serve se od od' mine hk
        rw [List.filter_cons_of_pos kept, replies, replies]
        simp only [hk, if_true]
        exact congrArg₂ List.cons (same _ _ fun _ _ h => al₁.place_eq h) (ih al₁ od₁ od₁' others)
      · have left_out : ¬ d.concerns key := by simp [Demand.concerns, hk, e]
        have al₁ := al.of_concerns e (od.concerns_serve se mine hk)
        rw [List.filter_cons_of_neg left_out, replies]
        simp only [hk, Option.some.injEq, e, if_false]
        exact ih al₁ od₁ od' others

end Session

end ModelScopes
