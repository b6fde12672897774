import Mathlib.Logic.Relator
import ModelScopes.Proofs.Siblings.Concerns

/-!
# Worlds that are alike for one key

Two worlds are alike for a key if the scopes of this key in them correspond to each other, the same of them is stored,
and the same is remembered for the key (`World.Alike`). Whatever is done for the key in both leaves them alike, and
comes out the same but for the numbers of scopes and the identities of models. Whatever spares the key may be done in
one of the two worlds only (`World.Alike.of_spares`).
-/

namespace ModelScopes

variable {P H V : Type}

/-- The pairs, and one more. -/
def pairsWith (pairs : ScopeId → ScopeId → Prop) (j j' : ScopeId) : ScopeId → ScopeId → Prop := fun i i' =>
  pairs i i' ∨ i = j ∧ i' = j'

/-- Outcomes that are the same but for what is had. -/
inductive SameOutcome {α β : Type} (R : α → β → Prop) : Except ScopeError α → Except ScopeError β → Prop where
  | error (e : ScopeError) : SameOutcome R (.error e) (.error e)
  | ok {a : α} {b : β} : R a b → SameOutcome R (.ok a) (.ok b)

/-- The models are the same but for their identities. -/
def Built.Alike (b b' : Built) : Prop :=
  b.model.content = b'.model.content

/-- States of scopes whose models are the same but for their identities. -/
inductive ScopeState.Alike : ScopeState → ScopeState → Prop where
  | closed : Alike .closed .closed
  | empty : Alike (.active none) (.active none)
  | held {b b' : Built} : b.Alike b' → Alike (.active (some b)) (.active (some b'))

/-- Scopes that are the same but for the identities of their registries and models. -/
inductive Scope.Alike : Scope P → Scope P → Prop where
  | mk {key : ScopeKey} {p : P} {registry registry' : Registry} {state state' : ScopeState} :
    registry.settings = registry'.settings → state.Alike state' →
    Alike ⟨key, registry, p, state⟩ ⟨key, registry', p, state'⟩

namespace World

/-- The scopes of a key in two worlds correspond to each other, the same of them is stored, and the same is
remembered. -/
structure Alike (view : ScopeKey → H → V) (st : StorageId) (key : ScopeKey) (pairs : ScopeId → ScopeId → Prop)
    (w w' : World P H) : Prop where
  unique : Relator.BiUnique pairs
  found : Option.Rel pairs (w.find st key) (w'.find st key)
  scopes : ∀ i i', pairs i i' →
    ∃ s s' : Scope P, w.scopes[i]? = some s ∧ w'.scopes[i']? = some s' ∧ s.key = key ∧ s.Alike s'
  view : view key w.host = view key w'.host

/-- Two worlds come out alike of being asked for a scope, which is had in both or in neither. The scopes that
corresponded to each other before do so afterwards. -/
def OutAlike (view : ScopeKey → H → V) (st : StorageId) (key : ScopeKey) (pairs : ScopeId → ScopeId → Prop)
    (a a' : Except ScopeError ScopeId × World P H) : Prop :=
  ∃ pairs', (∀ i i', pairs i i' → pairs' i i') ∧ SameOutcome pairs' a.1 a'.1 ∧ a.2.Alike view st key pairs' a'.2

end World

variable {produce : Produce P H} {uses : ScopeKey → P → Prop} {view : ScopeKey → H → V}

/-! ## Options and outcomes that are related -/

section Options

variable {I I' J : Type} {R : I → I' → Prop} {o : Option I} {o' : Option I'}

/-- Options that are related are both empty, or hold what is related. -/
lemma rel_cases (rel : Option.Rel R o o') :
    (o = none ∧ o' = none) ∨ ∃ i i', o = some i ∧ o' = some i' ∧ R i i' := by
  cases rel with
  | none => exact .inl ⟨rfl, rfl⟩
  | some h => exact .inr ⟨_, _, rfl, rfl, h⟩

/-- Options that are related are the same once what they hold is named the same. -/
lemma map_eq_of_rel (rel : Option.Rel R o o') {f : I → J} {g : I' → J} (same : ∀ i i', R i i' → f i = g i') :
    o.map f = o'.map g := by
  cases rel with
  | none => rfl
  | some h => exact congrArg some (same _ _ h)

/-- Lists that are related are related at every place. -/
lemma rel_getElem? {l : List I} {l' : List I'} (rel : List.Forall₂ R l l') (n : Nat) : Option.Rel R l[n]? l'[n]? := by
  induction rel generalizing n with
  | nil => exact .none
  | cons h _ ih =>
    cases n with
    | zero => exact .some h
    | succ n => exact ih n

end Options

namespace SameOutcome

variable {α β γ : Type} {R : α → β → Prop} {r : Except ScopeError α} {r' : Except ScopeError β}

/-- Outcomes with the same image are the same but for what is had. -/
lemma of_map_eq {r r' : Except ScopeError α} {f : α → γ} (h : r.map f = r'.map f) :
    SameOutcome (fun a a' => f a = f a') r r' := by
  cases r with
  | error e =>
    cases r' with
    | error e' =>
      cases h
      exact .error e
    | ok => cases h
  | ok a =>
    cases r' with
    | error => cases h
    | ok a' => exact .ok (Except.ok.inj h)

/-- Outcomes that are the same but for what is had have the same image if this does not show. -/
lemma map_eq (so : SameOutcome R r r') {f : α → γ} {g : β → γ} (same : ∀ a b, R a b → f a = g b) :
    r.map f = r'.map g := by
  cases so with
  | error => rfl
  | ok h => exact congrArg Except.ok (same _ _ h)

/-- Outcomes that are the same but for what is had are had in both or in neither. -/
lemma toOption (so : SameOutcome R r r') : Option.Rel R r.toOption r'.toOption := by
  cases so with
  | error => exact .none
  | ok h => exact .some h

end SameOutcome

/-- The same producer is called in two worlds that remember the same for the key that it is used for. -/
lemma Produce.Separate.both (se : produce.Separate uses view) {key : ScopeKey} {p : P} {registry registry' : Registry}
    (used : uses key p) (settings : registry.settings = registry'.settings) (w w' : World P H)
    (view_eq : view key w.host = view key w'.host) :
    ∃ r v r' v', produce p registry w = (r, v) ∧ produce p registry' w' = (r', v') ∧
      SameOutcome (fun m m' => m.content = m'.content) r r' ∧ view key v.host = view key v'.host ∧
      (v.scopes = w.scopes ∧ v.storages = w.storages) ∧ v'.scopes = w'.scopes ∧ v'.storages = w'.storages := by
  obtain ⟨outcome, after⟩ := se.own key p registry registry' w w' used settings view_eq
  exact ⟨_, _, _, _, rfl, rfl, .of_map_eq outcome, after, ⟨se.scopes p registry w, se.storages p registry w⟩,
    se.scopes p registry' w', se.storages p registry' w'⟩

/-! ## Scopes that are alike -/

namespace Scope

variable {s s' : Scope P} {w w' : World P H}

/-- Scopes that are alike have the same key. -/
lemma Alike.key_eq (al : s.Alike s') : s'.key = s.key := by
  cases al
  rfl

/-- Scopes that are alike are in the same phase. -/
lemma Alike.phase_eq (al : s.Alike s') : s.phase = s'.phase := by
  obtain ⟨settings, same⟩ := al
  cases same <;> rfl

/-- Scopes that are alike are alike once they are closed. -/
lemma Alike.close (al : s.Alike s') : Alike { s with state := .closed } { s' with state := .closed } := by
  obtain ⟨settings, same⟩ := al
  exact .mk settings .closed

/-- Scopes that are alike answer the same to being invalidated, and stay alike. -/
lemma Alike.invalidate (al : s.Alike s') (w w' : World P H) :
    (s.invalidate w).1 = (s'.invalidate w').1 ∧ (s.invalidate w).2.1.Alike (s'.invalidate w').2.1 := by
  obtain ⟨settings, same⟩ := al
  cases same with
  | closed => exact ⟨rfl, .mk settings .closed⟩
  | empty | held => exact ⟨rfl, .mk settings .empty⟩

/-- Scopes that are alike give models that are the same but for their identities, and stay alike. -/
lemma Alike.model (al : s.Alike s') (se : produce.Separate uses view) (used : uses s.key s.producer)
    (w w' : World P H) (view_eq : view s.key w.host = view s.key w'.host) :
    SameOutcome Built.Alike (s.model produce w).1 (s'.model produce w').1 ∧
      (s.model produce w).2.1.Alike (s'.model produce w').2.1 ∧
      view s.key (s.model produce w).2.2.host = view s.key (s'.model produce w').2.2.host := by
  obtain @⟨key, p, registry, registry', state, state', settings, same⟩ := al
  cases same with
  | closed => exact ⟨.error _, .mk settings .closed, view_eq⟩
  | held content => exact ⟨.ok content, .mk settings (.held content), view_eq⟩
  | empty =>
    obtain ⟨r, v, r', v', hp, hp', outcome, after, -, -⟩ :=
      se.both used settings (w.emit (.building key)) (w'.emit (.building key)) view_eq
    cases outcome with
    | error e =>
      rw [model_of_failed rfl hp, model_of_failed rfl hp']
      exact ⟨.error e, .mk settings .empty, after⟩
    | ok content =>
      rw [model_of_built rfl hp, model_of_built rfl hp']
      exact ⟨.ok content, .mk settings (.held content), after⟩

end Scope

namespace World

variable {st : StorageId} {key : ScopeKey} {pairs : ScopeId → ScopeId → Prop} {w w' w₁ w₁' w₂ : World P H}
  {i i' : ScopeId} {s t t' : Scope P} {p : P} {registry registry' : Registry}

/-! ## Worlds that stay alike -/

/-- Worlds stay alike for a key that is spared in both. -/
lemma Alike.of_spares (al : w.Alike view st key pairs w') (sp : w.Spares view st key w₁)
    (sp' : w'.Spares view st key w₁') : w₁.Alike view st key pairs w₁' := by
  refine ⟨al.unique, ?_, fun i i' h => ?_, ?_⟩
  · rw [sp.found, sp'.found]
    exact al.found
  · obtain ⟨s, s', hs, hs', own, same⟩ := al.scopes i i' h
    exact ⟨s, s', sp.scopes i s hs own, sp'.scopes i' s' hs' (same.key_eq.trans own), own, same⟩
  · rw [sp.view, sp'.view]
    exact al.view

/-- Worlds stay alike if corresponding scopes are changed alike. -/
lemma Alike.of_set (al : w.Alike view st key pairs w') (h : pairs i i') (own : t.key = key) (same : t.Alike t')
    (scopes : w₁.scopes = w.scopes.set i t) (scopes' : w₁'.scopes = w'.scopes.set i' t')
    (storages : w₁.storages = w.storages) (storages' : w₁'.storages = w'.storages)
    (view_eq : view key w₁.host = view key w₁'.host) : w₁.Alike view st key pairs w₁' := by
  refine ⟨al.unique, ?_, fun j j' hj => ?_, view_eq⟩
  · rw [find, storages, find, storages']
    exact al.found
  · obtain ⟨s, s', hs, hs', own', same'⟩ := al.scopes j j' hj
    rw [scopes, scopes']
    -- the scopes that correspond to each other are changed both or neither
    by_cases e : i = j
    · subst e
      obtain rfl : i' = j' := al.unique.2 h hj
      exact ⟨t, t', List.getElem?_set_self (List.getElem?_eq_some_iff.mp hs).1,
        List.getElem?_set_self (List.getElem?_eq_some_iff.mp hs').1, own, same⟩
    · have e' : i' ≠ j' := fun e' => e (al.unique.1 (e' ▸ h) hj)
      exact ⟨s, s', by rw [List.getElem?_set_ne e, hs], by rw [List.getElem?_set_ne e', hs'], own', same'⟩

/-- With the next scopes paired, the next one of the first world has this one partner. -/
lemma Alike.pairsWith_iff_left (al : w.Alike view st key pairs w') (i' : ScopeId) :
    pairsWith pairs w.scopes.length w'.scopes.length w.scopes.length i' ↔ i' = w'.scopes.length := by
  refine ⟨fun h => ?_, fun h => .inr ⟨rfl, h⟩⟩
  rcases h with old | ⟨-, new⟩
  · obtain ⟨s, -, hs, -⟩ := al.scopes _ i' old
    simp at hs
  · exact new

/-- With the next scopes paired, the next one of the second world has this one partner. -/
lemma Alike.pairsWith_iff_right (al : w.Alike view st key pairs w') (i : ScopeId) :
    pairsWith pairs w.scopes.length w'.scopes.length i w'.scopes.length ↔ i = w.scopes.length := by
  refine ⟨fun h => ?_, fun h => .inr ⟨h, rfl⟩⟩
  rcases h with old | ⟨new, -⟩
  · obtain ⟨-, s', -, hs', -⟩ := al.scopes i _ old
    simp at hs'
  · exact new

/-- With the next scopes paired, each scope still has one partner at most. -/
lemma Alike.unique_pairsWith (al : w.Alike view st key pairs w') :
    Relator.BiUnique (pairsWith pairs w.scopes.length w'.scopes.length) := by
  constructor
  · rintro i j k (hi | ⟨rfl, rfl⟩) hj
    · rcases hj with hj | ⟨rfl, rfl⟩
      · exact al.unique.1 hi hj
      · exact (al.pairsWith_iff_right i).mp (.inl hi)
    · exact ((al.pairsWith_iff_right j).mp hj).symm
  · rintro i j k (hj | ⟨rfl, rfl⟩) hk
    · rcases hk with hk | ⟨rfl, rfl⟩
      · exact al.unique.2 hj hk
      · exact (al.pairsWith_iff_left j).mp (.inl hj)
    · exact ((al.pairsWith_iff_left k).mp hk).symm

/-- What is found corresponds with one more pair, too. -/
lemma Alike.found_with (al : w.Alike view st key pairs w') (j j' : ScopeId) :
    Option.Rel (pairsWith pairs j j') (w.find st key) (w'.find st key) := by
  obtain ⟨hf, hf'⟩ | ⟨i, i', hf, hf', h⟩ := rel_cases al.found
  · rw [hf, hf']
    exact .none
  · rw [hf, hf']
    exact .some (.inl h)

/-- Worlds stay alike if scopes that are alike are added to both. -/
lemma Alike.of_append (al : w.Alike view st key pairs w') (own : t.key = key) (same : t.Alike t')
    (scopes : w₁.scopes = w.scopes ++ [t]) (scopes' : w₁'.scopes = w'.scopes ++ [t'])
    (found : Option.Rel (pairsWith pairs w.scopes.length w'.scopes.length) (w₁.find st key) (w₁'.find st key))
    (view_eq : view key w₁.host = view key w₁'.host) :
    w₁.Alike view st key (pairsWith pairs w.scopes.length w'.scopes.length) w₁' := by
  refine ⟨al.unique_pairsWith, found, fun i i' h => ?_, view_eq⟩
  rw [scopes, scopes']
  rcases h with old | ⟨rfl, rfl⟩
  · obtain ⟨s, s', hs, hs', own', same'⟩ := al.scopes i i' old
    refine ⟨s, s', ?_, ?_, own', same'⟩
    · rw [List.getElem?_append_left (List.getElem?_eq_some_iff.mp hs).1, hs]
    · rw [List.getElem?_append_left (List.getElem?_eq_some_iff.mp hs').1, hs']
  · exact ⟨t, t', List.getElem?_concat_length, List.getElem?_concat_length, own, same⟩

/-- Worlds stay alike if no scopes are changed in them. -/
lemma Alike.of_same (al : w.Alike view st key pairs w') (scopes : w₁.scopes = w.scopes)
    (scopes' : w₁'.scopes = w'.scopes) (found : Option.Rel pairs (w₁.find st key) (w₁'.find st key))
    (view_eq : view key w₁.host = view key w₁'.host) : w₁.Alike view st key pairs w₁' := by
  refine ⟨al.unique, found, fun i i' h => ?_, view_eq⟩
  rw [scopes, scopes']
  exact al.scopes i i' h

/-! ## Operations in both worlds -/

/-- Corresponding scopes give models that are the same but for their identities. -/
lemma Alike.modelOf (al : w.Alike view st key pairs w') (se : produce.Separate uses view) (od : w.Orderly uses st)
    (h : pairs i i') :
    ∃ r w₁ r' w₁', w.modelOf produce i = some (r, w₁) ∧ w'.modelOf produce i' = some (r', w₁') ∧
      SameOutcome Built.Alike r r' ∧ w₁.Alike view st key pairs w₁' := by
  obtain ⟨s, s', hs, hs', own, same⟩ := al.scopes i i' h
  obtain ⟨w₁, eq, scopes, storages, host⟩ := modelOf_eq se hs
  obtain ⟨w₁', eq', scopes', storages', host'⟩ := modelOf_eq se hs'
  obtain ⟨answers, after, view_eq⟩ := same.model se (od.used i s hs) w w' (by rw [own]; exact al.view)
  have own' : (s.model produce w).2.1.key = key := (Scope.ages_model produce s w).key.trans own
  refine ⟨_, w₁, _, w₁', eq, eq', answers, al.of_set h own' after scopes scopes' storages storages' ?_⟩
  rw [host, host', ← own]
  exact view_eq

/-- Scopes that correspond answer the same to being invalidated, and the worlds stay alike. -/
lemma Alike.invalidate (al : w.Alike view st key pairs w') (h : pairs i i') :
    ∃ r w₁ w₁', w.invalidate i = some (r, w₁) ∧ w'.invalidate i' = some (r, w₁') ∧
      w₁.Alike view st key pairs w₁' := by
  obtain ⟨s, s', hs, hs', own, same⟩ := al.scopes i i' h
  obtain ⟨w₁, eq, scopes, storages, host⟩ := invalidate_eq hs
  obtain ⟨w₁', eq', scopes', storages', host'⟩ := invalidate_eq hs'
  obtain ⟨answers, after⟩ := same.invalidate w w'
  have own' : (s.invalidate w).2.1.key = key := (Scope.ages_invalidate s w).key.trans own
  refine ⟨_, w₁, w₁', eq, by rw [eq', answers], al.of_set h own' after scopes scopes' storages storages' ?_⟩
  rw [host, host']
  exact al.view

/-- The worlds stay alike when scopes that correspond are closed. -/
lemma Alike.close (al : w.Alike view st key pairs w') (h : pairs i i') :
    (w.close i).Alike view st key pairs (w'.close i') := by
  obtain ⟨s, s', hs, hs', own, same⟩ := al.scopes i i' h
  obtain ⟨scopes, host⟩ := close_eq hs
  obtain ⟨scopes', host'⟩ := close_eq hs'
  refine al.of_set (t := { s with state := .closed }) h own same.close scopes scopes' (storages_close i w)
    (storages_close i' w') ?_
  rw [host, host']
  exact al.view

/-- Removing the key answers with what is found in both, and the worlds stay alike. -/
lemma Alike.remove (al : w.Alike view st key pairs w') (od : w.Orderly uses st) (od' : w'.Orderly uses st) :
    (w.remove st key).1 = w.find st key ∧ (w'.remove st key).1 = w'.find st key ∧
      (w.remove st key).2.Alike view st key pairs (w'.remove st key).2 := by
  obtain ⟨w₁, eq, same, -, -, found⟩ := remove_eq od.tidy key
  obtain ⟨w₁', eq', same', -, -, found'⟩ := remove_eq od'.tidy key
  obtain ⟨scopes, -, host⟩ := Sight.mk.inj same
  obtain ⟨scopes', -, host'⟩ := Sight.mk.inj same'
  have gone : Option.Rel pairs (w₁.find st key) (w₁'.find st key) := by
    rw [found, found', if_pos rfl, if_pos rfl]
    exact .none
  rw [eq, eq']
  refine ⟨rfl, rfl, al.of_same scopes scopes' gone ?_⟩
  rw [host, host']
  exact al.view

/-- Of scopes that correspond both are found under the key, or neither is. -/
lemma Alike.found_iff (al : w.Alike view st key pairs w') (h : pairs i i') :
    w.find st key = some i ↔ w'.find st key = some i' := by
  obtain ⟨hf, hf'⟩ | ⟨j, j', hf, hf', hj⟩ := rel_cases al.found
  · rw [hf, hf']
    exact ⟨nofun, nofun⟩
  · rw [hf, hf', Option.some.injEq, Option.some.injEq]
    exact ⟨fun e => al.unique.2 (e ▸ hj) h, fun e => al.unique.1 (e ▸ hj) h⟩

/-- The worlds stay alike when all scopes are closed. -/
lemma Alike.closeAll (al : w.Alike view st key pairs w') (od : w.Orderly uses st) (od' : w'.Orderly uses st) :
    (w.closeAll st).2.Alike view st key pairs (w'.closeAll st).2 := by
  obtain ⟨w₁, eq, -, found, -, host, scopes⟩ := closeAll_eq od.tidy
  obtain ⟨w₁', eq', -, found', -, host', scopes'⟩ := closeAll_eq od'.tidy
  rw [eq, eq']
  refine ⟨al.unique, ?_, fun i i' h => ?_, ?_⟩
  · rw [found, found']
    exact .none
  · obtain ⟨s, s', hs, hs', own, same⟩ := al.scopes i i' h
    have stored : w.find st s.key = some i ↔ w'.find st s'.key = some i' := by
      rw [same.key_eq, own]
      exact al.found_iff h
    refine ⟨_, _, by rw [scopes, List.getElem?_mapIdx, hs]; rfl, by rw [scopes', List.getElem?_mapIdx, hs']; rfl, ?_,
      ?_⟩
    · split <;> exact own
    · simp only [od.stored_iff hs, od'.stored_iff hs', stored]
      split
      case isTrue => exact same.close
      case isFalse => exact same
  · rw [host, host']
    exact al.view

/-- The worlds come out alike if both fail with the same error and nothing has changed for the key. -/
lemma Alike.out_of_failed (al : w.Alike view st key pairs w') (e : ScopeError) (scopes : w₁.scopes = w.scopes)
    (scopes' : w₁'.scopes = w'.scopes) (found : w₁.find st key = w.find st key)
    (found' : w₁'.find st key = w'.find st key) (view_eq : view key w₁.host = view key w₁'.host) :
    OutAlike view st key pairs (.error e, w₁) (.error e, w₁') :=
  ⟨pairs, fun _ _ => id, .error e, al.of_same scopes scopes' (by rw [found, found']; exact al.found) view_eq⟩

/-- The worlds come out alike if both have a new scope of the key, which is had in both. -/
lemma Alike.out_of_append (al : w.Alike view st key pairs w') (own : t.key = key) (same : t.Alike t')
    (scopes : w₁.scopes = w.scopes ++ [t]) (scopes' : w₁'.scopes = w'.scopes ++ [t'])
    (found : Option.Rel (pairsWith pairs w.scopes.length w'.scopes.length) (w₁.find st key) (w₁'.find st key))
    (view_eq : view key w₁.host = view key w₁'.host) :
    OutAlike view st key pairs (.ok w.scopes.length, w₁) (.ok w'.scopes.length, w₁') :=
  ⟨_, fun _ _ => .inl, .ok (.inr ⟨rfl, rfl⟩), al.of_append own same scopes scopes' found view_eq⟩

/-- The worlds come out alike of making a scope. -/
lemma Alike.newScope (al : w.Alike view st key pairs w') (registry : Registry) (p : P) :
    OutAlike view st key pairs (.ok (w.newScope key registry p).1, (w.newScope key registry p).2)
      (.ok (w'.newScope key registry p).1, (w'.newScope key registry p).2) :=
  al.out_of_append (t := .new key registry p) rfl (.mk rfl .empty) rfl rfl (al.found_with _ _) al.view

/-- The worlds come out alike of opening a scope. -/
lemma Alike.openScope (al : w.Alike view st key pairs w') (se : produce.Separate uses view) (used : uses key p)
    (registry : Registry) :
    OutAlike view st key pairs (w.openScope produce key registry p) (w'.openScope produce key registry p) := by
  obtain ⟨r, v, r', v', hp, hp', outcome, after, ⟨scopes, storages⟩, ⟨scopes', storages'⟩⟩ :=
    se.both used (Eq.refl registry.settings) (w.emit (.building key)) (w'.emit (.building key)) al.view
  have found : v.find st key = w.find st key := by rw [find, storages]; rfl
  have found' : v'.find st key = w'.find st key := by rw [find, storages']; rfl
  cases outcome with
  | error e =>
    rw [openScope_of_failed hp, openScope_of_failed hp']
    exact al.out_of_failed e scopes scopes' found found' after
  | @ok m m' content =>
    have length : v.scopes.length = w.scopes.length := congrArg List.length scopes
    have length' : v'.scopes.length = w'.scopes.length := congrArg List.length scopes'
    have new : Scope.Alike ⟨key, registry, p, .active (some ⟨v.serial, m⟩)⟩
        ⟨key, registry, p, .active (some ⟨v'.serial, m'⟩)⟩ := .mk rfl (.held content)
    rw [openScope_of_built hp, openScope_of_built hp', length, length']
    refine al.out_of_append rfl new (congrArg (· ++ _) scopes) (congrArg (· ++ _) scopes') ?_ after
    have same := al.found_with w.scopes.length w'.scopes.length
    rw [← found, ← found'] at same
    exact same

/-- It comes out the same whether a scope is found or created. -/
lemma Alike.getOrCreate (al : w.Alike view st key pairs w') (se : produce.Separate uses view) (od : w.Orderly uses st)
    (od' : w'.Orderly uses st) (used : uses key p) (settings : registry.settings = registry'.settings) :
    OutAlike view st key pairs (w.getOrCreate produce st key p registry)
      (w'.getOrCreate produce st key p registry') := by
  obtain ⟨hf, hf'⟩ | ⟨i, i', hf, hf', h⟩ := rel_cases al.found
  case inr =>
    rw [getOrCreate_of_found hf, getOrCreate_of_found hf']
    exact ⟨pairs, fun _ _ => id, .ok h, al⟩
  case inl =>
    -- both builds see the same settings and remember the same, so they fail with one error or make one content
    obtain ⟨r, v, r', v', hp, hp', outcome, after, ⟨scopes, storages⟩, ⟨scopes', storages'⟩⟩ :=
      se.both used settings (w.beforeBuild st key) (w'.beforeBuild st key) al.view
    cases outcome with
    | error e =>
      obtain ⟨w₁, eq, same, -, -, kept⟩ := getOrCreate_of_failed od.tidy hf hp (congrFun storages st)
      obtain ⟨w₁', eq', same', -, -, kept'⟩ := getOrCreate_of_failed od'.tidy hf' hp' (congrFun storages' st)
      obtain ⟨scopes₁, -, host⟩ := Sight.mk.inj same
      obtain ⟨scopes₁', -, host'⟩ := Sight.mk.inj same'
      rw [eq, eq']
      refine al.out_of_failed e (scopes₁.trans scopes) (scopes₁'.trans scopes') (kept key) (kept' key) ?_
      rw [host, host']
      exact after
    | @ok m m' content =>
      obtain ⟨w₁, eq, same, -, -, kept⟩ := getOrCreate_of_built od.tidy hf hp (congrFun storages st)
      obtain ⟨w₁', eq', same', -, -, kept'⟩ := getOrCreate_of_built od'.tidy hf' hp' (congrFun storages' st)
      obtain ⟨scopes₁, -, host⟩ := Sight.mk.inj same
      obtain ⟨scopes₁', -, host'⟩ := Sight.mk.inj same'
      have length : v.scopes.length = w.scopes.length := congrArg List.length scopes
      have length' : v'.scopes.length = w'.scopes.length := congrArg List.length scopes'
      rw [length] at eq kept
      rw [length'] at eq' kept'
      have new : Scope.Alike ⟨key, registry, p, .active (some ⟨v.serial, m⟩)⟩
          ⟨key, registry', p, .active (some ⟨v'.serial, m'⟩)⟩ := .mk settings (.held content)
      rw [eq, eq']
      refine al.out_of_append rfl new (scopes₁.trans (congrArg (· ++ _) scopes))
        (scopes₁'.trans (congrArg (· ++ _) scopes')) ?_ ?_
      · rw [kept, kept', if_pos rfl, if_pos rfl]
        exact .some (.inr ⟨rfl, rfl⟩)
      · rw [host, host']
        exact after

end World

end ModelScopes
