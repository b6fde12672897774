import Mathlib.Tactic.Common
import ModelScopes.Scope.Basic

/-!
# Inversion of scope operations

What each operation on a scope answers and changes, by the state that the scope is in: one lemma for each way in
which it can come out. No operation changes the key, the registry or the producer of a scope (`Scope.Ages`), and a
scope that is closed stays closed.
-/

namespace ModelScopes

variable {P H : Type}

namespace World

/-! ## Fields of worlds -/

/-- A log entry changes no scope. -/
@[simp] lemma scopes_emit (w : World P H) (e : Event) : (w.emit e).scopes = w.scopes := rfl

/-- A log entry changes no storage. -/
@[simp] lemma storages_emit (w : World P H) (e : Event) : (w.emit e).storages = w.storages := rfl

/-- A log entry leaves the next id where it is. -/
@[simp] lemma serial_emit (w : World P H) (e : Event) : (w.emit e).serial = w.serial := rfl

/-- A log entry leaves the host's state as it is. -/
@[simp] lemma host_emit (w : World P H) (e : Event) : (w.emit e).host = w.host := rfl

end World

namespace Scope

/-- What a scope may become: it keeps its key, its registry and its producer, and stays closed if it is closed. -/
structure Ages (s s' : Scope P) : Prop where
  key : s'.key = s.key
  registry : s'.registry = s.registry
  producer : s'.producer = s.producer
  closed : s.state = .closed → s'.state = .closed

/-- A scope has aged from itself. -/
lemma Ages.refl (s : Scope P) : s.Ages s :=
  ⟨rfl, rfl, rfl, id⟩

/-- Ageing goes on from where it stopped. -/
lemma Ages.trans {s s' s'' : Scope P} (ag : s.Ages s') (ag' : s'.Ages s'') : s.Ages s'' :=
  ⟨ag'.key.trans ag.key, ag'.registry.trans ag.registry, ag'.producer.trans ag.producer, ag'.closed ∘ ag.closed⟩

/-- The phase reads closed just when the scope is closed. -/
@[simp] lemma phase_eq_closed_iff {s : Scope P} : s.phase = .closed ↔ s.state = .closed := by
  unfold phase
  split <;> simp_all

/-- The phase reads active and empty just when the scope is active and holds no model. -/
@[simp] lemma phase_eq_activeEmpty_iff {s : Scope P} : s.phase = .activeEmpty ↔ s.state = .active none := by
  unfold phase
  split <;> simp_all

/-- The phase reads populated just when the scope is active and holds a model. -/
@[simp] lemma phase_eq_activePopulated_iff {s : Scope P} :
    s.phase = .activePopulated ↔ ∃ b, s.state = .active (some b) := by
  unfold phase
  split <;> simp_all

/-! ## Asking for the model -/

/-- A closed scope refuses to give a model, and nothing changes. -/
lemma model_of_closed {s : Scope P} (h : s.state = .closed) (produce : Produce P H) (w : World P H) :
    s.model produce w = (.error (.inactive s.key), s, w) := by
  simp [model, h]

/-- A scope that holds a model gives that one, without the producer. -/
lemma model_of_populated {s : Scope P} {b : Built} (h : s.state = .active (some b)) (produce : Produce P H)
    (w : World P H) : s.model produce w = (.ok b, s, w) := by
  simp [model, h]

/-- An empty scope whose producer fails hands the error on and stays empty. -/
lemma model_of_failed {s : Scope P} {produce : Produce P H} {w w' : World P H} {e : ScopeError}
    (h : s.state = .active none)
    (hp : produce s.producer s.registry (w.emit (.building s.key)) = (.error e, w')) :
    s.model produce w = (.error e, s, w') := by
  simp [model, h, hp]

/-- An empty scope whose producer succeeds holds the model from then on. -/
lemma model_of_built {s : Scope P} {produce : Produce P H} {w w' : World P H} {m : Model}
    (h : s.state = .active none)
    (hp : produce s.producer s.registry (w.emit (.building s.key)) = (.ok m, w')) :
    s.model produce w =
      (.ok ⟨w'.serial, m⟩, { s with state := .active (some ⟨w'.serial, m⟩) },
        { w' with serial := w'.serial + 1 }.emit (.built s.key m.id m.entities.size m.collections.size)) := by
  simp [model, h, hp]

/-- The four ways in which asking for the model can come out. -/
lemma model_cases (produce : Produce P H) (s : Scope P) (w : World P H) :
    (s.state = .closed ∧ s.model produce w = (.error (.inactive s.key), s, w)) ∨
    (∃ b, s.state = .active (some b) ∧ s.model produce w = (.ok b, s, w)) ∨
    (∃ e w', s.state = .active none ∧
      produce s.producer s.registry (w.emit (.building s.key)) = (.error e, w') ∧
      s.model produce w = (.error e, s, w')) ∨
    ∃ m w', s.state = .active none ∧
      produce s.producer s.registry (w.emit (.building s.key)) = (.ok m, w') ∧
      s.model produce w =
        (.ok ⟨w'.serial, m⟩, { s with state := .active (some ⟨w'.serial, m⟩) },
          { w' with serial := w'.serial + 1 }.emit (.built s.key m.id m.entities.size m.collections.size)) := by
  cases h : s.state with
  | closed => exact .inl ⟨rfl, model_of_closed h produce w⟩
  | active held =>
    cases held with
    | some b => exact .inr (.inl ⟨b, rfl, model_of_populated h produce w⟩)
    | none =>
      cases hp : produce s.producer s.registry (w.emit (.building s.key)) with
      | mk r w' =>
        cases r with
        | error e => exact .inr (.inr (.inl ⟨e, w', rfl, rfl, model_of_failed h hp⟩))
        | ok m => exact .inr (.inr (.inr ⟨m, w', rfl, rfl, model_of_built h hp⟩))

/-- Asking for the model leaves the world as it is or, but for identities and what was logged, as the producer left
it. -/
lemma model_world (produce : Produce P H) (s : Scope P) (w : World P H) :
    (s.model produce w).2.2 = w ∨
      ((s.model produce w).2.2.scopes = (produce s.producer s.registry (w.emit (.building s.key))).2.scopes ∧
        (s.model produce w).2.2.storages =
          (produce s.producer s.registry (w.emit (.building s.key))).2.storages) := by
  obtain ⟨-, eq⟩ | ⟨b, -, eq⟩ | ⟨e, w', -, hp, eq⟩ | ⟨m, w', -, hp, eq⟩ := s.model_cases produce w
  · exact .inl (by rw [eq])
  · exact .inl (by rw [eq])
  · exact .inr (by rw [eq, hp]; exact ⟨rfl, rfl⟩)
  · exact .inr (by rw [eq, hp]; exact ⟨rfl, rfl⟩)

/-- Asking for the model only ages a scope. -/
lemma ages_model (produce : Produce P H) (s : Scope P) (w : World P H) : s.Ages (s.model produce w).2.1 := by
  obtain ⟨-, eq⟩ | ⟨b, -, eq⟩ | ⟨e, w', -, -, eq⟩ | ⟨m, w', empty, -, eq⟩ := s.model_cases produce w
  · rw [eq]; exact .refl s
  · rw [eq]; exact .refl s
  · rw [eq]; exact .refl s
  · rw [eq]; exact ⟨rfl, rfl, rfl, by simp [empty]⟩

/-! ## Opening -/

/-- No scope is made with its model if its producer fails. -/
lemma opened_of_failed {produce : Produce P H} {key : ScopeKey} {registry : Registry} {p : P} {w : World P H}
    {e : ScopeError} (h : ((new key registry p).model produce w).1 = .error e) :
    opened produce key registry p w = (.error e, ((new key registry p).model produce w).2.2) := by
  unfold opened
  split <;> simp_all

/-- A scope that is made with its model is what a new scope becomes that is asked for its model. -/
lemma opened_of_built {produce : Produce P H} {key : ScopeKey} {registry : Registry} {p : P} {w : World P H}
    {b : Built} (h : ((new key registry p).model produce w).1 = .ok b) :
    opened produce key registry p w =
      (.ok ((new key registry p).model produce w).2.1, ((new key registry p).model produce w).2.2) := by
  unfold opened
  split <;> simp_all

/-! ## Letting go of the model -/

/-- A closed scope refuses to be invalidated, and nothing changes. -/
lemma invalidate_of_closed {s : Scope P} (h : s.state = .closed) (w : World P H) :
    s.invalidate w = (.error (.inactive s.key), s, w) := by
  simp [invalidate, h]

/-- An active scope lets its model go. -/
lemma invalidate_of_active {s : Scope P} {held : Option Built} (h : s.state = .active held) (w : World P H) :
    (s.invalidate w).1 = .ok () ∧ (s.invalidate w).2.1 = { s with state := .active none } := by
  cases held with
  | none =>
    have hs : { s with state := .active none } = s := by rw [← h]
    simp [invalidate, h, hs]
  | some b => simp [invalidate, h]

/-- Letting go of a model changes nothing in the world but what was logged. -/
lemma invalidate_world (s : Scope P) (w : World P H) :
    (s.invalidate w).2.2.scopes = w.scopes ∧ (s.invalidate w).2.2.storages = w.storages ∧
      (s.invalidate w).2.2.serial = w.serial ∧ (s.invalidate w).2.2.host = w.host := by
  unfold invalidate
  split <;> exact ⟨rfl, rfl, rfl, rfl⟩

/-- What a scope makes of letting go of its model does not depend on the world. -/
lemma invalidate_congr (s : Scope P) (w w' : World P H) :
    (s.invalidate w).1 = (s.invalidate w').1 ∧ (s.invalidate w).2.1 = (s.invalidate w').2.1 := by
  unfold invalidate
  split <;> exact ⟨rfl, rfl⟩

/-- Invalidation only ages a scope. -/
lemma ages_invalidate (s : Scope P) (w : World P H) : s.Ages (s.invalidate w).2.1 := by
  cases h : s.state with
  | closed => rw [invalidate_of_closed h]; exact .refl s
  | active held => rw [(invalidate_of_active h w).2]; exact ⟨rfl, rfl, rfl, by simp [h]⟩

/-! ## Closing -/

/-- A scope that was told to close is closed, and is otherwise as it was. -/
@[simp] lemma close_fst (s : Scope P) (w : World P H) : (s.close w).1 = { s with state := .closed } := by
  cases h : s.state with
  | active held => simp [close, h]
  | closed =>
    have hs : { s with state := .closed } = s := by rw [← h]
    simp [close, h, hs]

/-- Closing a scope a second time does nothing. -/
lemma close_of_closed {s : Scope P} (h : s.state = .closed) (w : World P H) : s.close w = (s, w) := by
  simp [close, h]

/-- Closing changes nothing in the world but what was logged. -/
lemma close_world (s : Scope P) (w : World P H) :
    (s.close w).2.scopes = w.scopes ∧ (s.close w).2.storages = w.storages ∧
      (s.close w).2.serial = w.serial ∧ (s.close w).2.host = w.host := by
  unfold close
  split <;> exact ⟨rfl, rfl, rfl, rfl⟩

/-- Closing only ages a scope. -/
lemma ages_close (s : Scope P) (w : World P H) : s.Ages (s.close w).1 := by
  rw [close_fst]
  exact ⟨rfl, rfl, rfl, fun _ => rfl⟩

end Scope

end ModelScopes
