import ModelScopes.Proofs.Callers.Basic
import ModelScopes.Proofs.Storage.Slots

/-!
# Order among callers

What holds of callers and sweepers in any order of their steps: the storage is sound, the lock of a slot is held by
the one caller that has come past it, and a slot that was fetched for a key is never given to another key. The
invariant is `Crowd.Ordered`; `ordered_step` keeps it in each step, and `ordered_run` in each run.
-/

namespace ModelScopes

/-! ## Runs -/

/-- A run that makes a move makes it in a state that the moves before lead to. -/
lemma Run.split {s s' : Crowd} {before after : List Move} {m : Move} (run : Run s (before ++ m :: after) s') :
    ∃ s₁ s₂, Run s before s₁ ∧ Step s₁ m s₂ ∧ Run s₂ after s' := by
  -- a run grows at its end: its last move is the one in question or comes after it
  generalize e : before ++ m :: after = t at run
  induction run generalizing after with
  | rest => simp at e
  | @step t' s₁ s₂ m' run st ih =>
    rcases List.eq_nil_or_concat after with rfl | ⟨after', m'', rfl⟩
    · obtain ⟨rfl, last⟩ := List.append_inj' e rfl
      cases last
      exact ⟨s₁, s₂, run, st, .rest⟩
    · rw [List.concat_eq_append, ← List.cons_append, ← List.append_assoc] at e
      obtain ⟨same, last⟩ := List.append_inj' e rfl
      cases last
      obtain ⟨s₃, s₄, run', st', later⟩ := ih same
      exact ⟨s₃, s₄, run', st', by rw [List.concat_eq_append]; exact later.step st⟩

/-! ## Parts of a crowd -/

namespace Crowd

variable {s s' : Crowd} {c : CallerId} {x : Caller}

/-- A caller that is moved leaves the storage as it is. -/
@[simp] lemma storage_put (place : Place) : (s.put c x place).storage = s.storage := rfl

/-- The storage is the one that was put in place. -/
@[simp] lemma storage_restore (storage : Storage) : (s.restore storage).storage = storage := rfl

/-- A lock that is given leaves the storage as it is. -/
@[simp] lemma storage_lock (slot : SlotId) (o : Option CallerId) : (s.lock slot o).storage = s.storage := rfl

/-- A lock that is given changes its holder only. -/
lemma holder_lock (slot : SlotId) (o : Option CallerId) (t : SlotId) :
    (s.lock slot o).holder t = if t = slot then o else s.holder t :=
  Function.update_apply _ _ _ _

/-- A caller that is moved is in its new place, and the others are where they were. -/
lemma callers_put (hc : s.callers[c]? = some x) (place : Place) (c' : CallerId) :
    (s.put c x place).callers[c']? = if c' = c then some { x with place } else s.callers[c']? := by
  obtain ⟨lt, -⟩ := List.getElem?_eq_some_iff.mp hc
  by_cases e : c' = c
  · subst e
    simp [put, lt]
  · have ne : ¬ c = c' := fun h => e h.symm
    simp [put, e, ne]

/-- A caller that was moved is in its new place. -/
lemma caller_put (hc : s.callers[c]? = some x) (place : Place) :
    (s.put c x place).callers[c]? = some { x with place } :=
  (callers_put hc place c).trans (if_pos rfl)

end Crowd

/-- Among the callers with one more are those before and the new one. -/
lemma getElem?_concat_eq_some_iff {α : Type} {xs : List α} {a b : α} {i : Nat} :
    (xs ++ [a])[i]? = some b ↔ xs[i]? = some b ∨ i = xs.length ∧ a = b := by
  rw [List.getElem?_append]
  split
  case isTrue lt =>
    have ne : i ≠ xs.length := Nat.ne_of_lt lt
    simp [ne]
  case isFalse ge =>
    rw [List.getElem?_eq_none (Nat.not_lt.mp ge), List.getElem?_singleton]
    by_cases e : i = xs.length
    · simp [e]
    · have ne : i - xs.length ≠ 0 := by omega
      simp [e, ne]

/-! ## Places -/

namespace Place

/-- A caller holds the lock of the slot that it has checked. -/
lemma held?_of_checked? {place : Place} {slot : SlotId} (h : place.checked? = some slot) :
    place.held? = some slot := by
  cases place <;> first | exact h | cases h

/-- A caller has checked the slot that it has found empty. -/
lemma checked?_of_vacant? {place : Place} {slot : SlotId} (h : place.vacant? = some slot) :
    place.checked? = some slot := by
  cases place <;> first | exact h | cases h

end Place

/-! ## The invariant -/

namespace Crowd

/-- The storage is sound, slots that were fetched were made and are no other key's, and the holder of a slot's lock is
the caller that has come past it. -/
structure Ordered (s : Crowd) : Prop where
  sound : s.storage.Sound
  slots : ∀ (c : CallerId) (x : Caller) (slot : SlotId), s.callers[c]? = some x → x.place.slot? = some slot →
    slot < s.storage.slots.length ∧ ∀ key, s.storage.slot? key = some slot → key = x.key
  holder : ∀ (slot : SlotId) (c : CallerId), s.holder slot = some c ↔
    ∃ x, s.callers[c]? = some x ∧ x.place.held? = some slot

/-- What a caller that is moved does to the locks: it is the holder of those it has come past, and nothing changes for
the others. -/
def Hands (s s' : Crowd) (c : CallerId) (place : Place) : Prop :=
  ∀ (slot : SlotId) (c' : CallerId), s'.holder slot = some c' ↔
    if c' = c then place.held? = some slot else s.holder slot = some c'

variable {s s' : Crowd} {c : CallerId} {x : Caller} {slot : SlotId}

/-- A crowd in which nobody has called is in order. -/
lemma Ordered.start : start.Ordered :=
  ⟨.empty, fun _ _ _ h => by simp [Crowd.start] at h, fun _ _ => by simp [Crowd.start]⟩

/-- Two callers do not hold the lock of one slot. -/
lemma Ordered.exclusive (or : s.Ordered) {c' : CallerId} {y : Caller} (hc : s.callers[c]? = some x)
    (hc' : s.callers[c']? = some y) (h : x.place.held? = some slot) (h' : y.place.held? = some slot) : c = c' := by
  have mine := (or.holder slot c).mpr ⟨x, hc, h⟩
  rw [(or.holder slot c').mpr ⟨y, hc', h'⟩] at mine
  cases mine
  rfl

/-- A caller is the holder of a lock just when its place says so. -/
lemma Ordered.holder_iff (or : s.Ordered) (hc : s.callers[c]? = some x) :
    s.holder slot = some c ↔ x.place.held? = some slot := by
  rw [or.holder]
  constructor
  · rintro ⟨y, hy, h⟩
    rw [hc] at hy
    cases hy
    exact h
  · intro h
    exact ⟨x, hc, h⟩

/-- A caller that goes on with the lock it has hands on none. -/
lemma Ordered.hands_on (or : s.Ordered) (hc : s.callers[c]? = some x) {place : Place}
    (same : place.held? = x.place.held?) (kept : s'.holder = s.holder) : s.Hands s' c place := by
  intro t c'
  rw [kept]
  split
  case isTrue e => rw [e, or.holder_iff hc, same]
  case isFalse => rfl

/-- A caller that gets the lock it waits for is its holder. -/
lemma Ordered.hands_get (or : s.Ordered) (hc : s.callers[c]? = some x) (hp : x.place = .waiting slot)
    (free : s.holder slot = none) : s.Hands (s.lock slot (some c)) c (.checking slot) := by
  -- whoever waits for a lock holds none
  have none_held : ∀ t, s.holder t ≠ some c := fun t h => by
    rw [or.holder_iff hc, hp] at h
    cases h
  intro t c'
  rw [holder_lock]
  by_cases e : t = slot
  · subst e
    by_cases e' : c' = c
    · simp [e', Place.held?]
    · have ne : ¬ c = c' := fun h => e' h.symm
      simp [e', ne, free]
  · have ne : ¬ slot = t := fun h => e h.symm
    by_cases e' : c' = c
    · simp [e, e', none_held, Place.held?, ne]
    · simp [e, e']

/-- A caller that has come to its end gives its lock back. -/
lemma Ordered.hands_back (or : s.Ordered) (hc : s.callers[c]? = some x) (hp : x.place.held? = some slot)
    {place : Place} (none_left : place.held? = none) : s.Hands (s.lock slot none) c place := by
  intro t c'
  rw [holder_lock]
  by_cases e : t = slot
  · subst e
    have mine := (or.holder_iff hc).mpr hp
    by_cases e' : c' = c
    · simp [e', none_left]
    · have ne : ¬ c = c' := fun h => e' h.symm
      simp [e', mine, ne]
  · by_cases e' : c' = c
    · subst e'
      have not_mine : s.holder t ≠ some c' := fun h => by
        rw [or.holder_iff hc, hp] at h
        exact e (Option.some.inj h).symm
      simp [e, none_left, not_mine]
    · simp [e, e']

/-- The slot that a caller has fetched stays no other key's. -/
lemma Ordered.mine (or : s.Ordered) (hc : s.callers[c]? = some x) (h : x.place.slot? = some slot) {st : Storage}
    (la : s.storage.Later st) : slot < st.slots.length ∧ ∀ key, st.slot? key = some slot → key = x.key := by
  obtain ⟨lt, own⟩ := or.slots c x slot hc h
  exact ⟨Nat.lt_of_lt_of_le lt la.made, fun key hk => own key (la.slot? key slot lt hk)⟩

/-- All stays in order if one caller is moved, provided that the slot it has in its new place is its key's. -/
lemma Ordered.of_put (or : s.Ordered) (hc : s.callers[c]? = some x) {place : Place}
    (callers : s'.callers = (s.put c x place).callers) (so : s'.storage.Sound) (la : s.storage.Later s'.storage)
    (mine : ∀ slot, place.slot? = some slot →
      slot < s'.storage.slots.length ∧ ∀ key, s'.storage.slot? key = some slot → key = x.key)
    (hands : s.Hands s' c place) : s'.Ordered where
  sound := so
  slots := by
    intro c' y t hy ht
    rw [callers, callers_put hc] at hy
    split at hy
    case isTrue =>
      cases hy
      exact mine t ht
    case isFalse => exact or.mine hy ht la
  holder := by
    intro t c'
    rw [hands t c', callers, callers_put hc]
    split
    case isTrue => simp
    case isFalse => exact or.holder t c'

/-- All stays in order if one caller goes on with the slot and the lock it has. -/
lemma Ordered.of_go_on (or : s.Ordered) (hc : s.callers[c]? = some x) {place : Place}
    (callers : s'.callers = (s.put c x place).callers) (holder : s'.holder = s.holder) (so : s'.storage.Sound)
    (la : s.storage.Later s'.storage) (slot : place.slot? = x.place.slot?) (held : place.held? = x.place.held?) :
    s'.Ordered :=
  or.of_put hc callers so la (fun _ h => or.mine hc (slot ▸ h) la) (or.hands_on hc held holder)

/-- A later storage leaves the crowd in order. -/
lemma Ordered.of_restore (or : s.Ordered) (callers : s'.callers = s.callers) (holder : s'.holder = s.holder)
    (so : s'.storage.Sound) (la : s.storage.Later s'.storage) : s'.Ordered where
  sound := so
  slots := by
    intro c y t hy ht
    rw [callers] at hy
    exact or.mine hy ht la
  holder := by rw [callers, holder]; exact or.holder

/-- Each step keeps all in order. -/
lemma ordered_step {m : Move} (or : s.Ordered) (st : Step s m s') : s'.Ordered := by
  cases st with
  | @enter key parent may =>
    refine ⟨or.sound, ?_, ?_⟩
    · intro c x slot hc hp
      rcases getElem?_concat_eq_some_iff.mp hc with old | ⟨-, rfl⟩
      · exact or.slots c x slot old hp
      · cases hp
    · intro slot c
      rw [or.holder]
      constructor
      · rintro ⟨x, hc, h⟩
        exact ⟨x, getElem?_concat_eq_some_iff.mpr (.inl hc), h⟩
      · rintro ⟨x, hc, h⟩
        rcases getElem?_concat_eq_some_iff.mp hc with old | ⟨-, rfl⟩
        · exact ⟨x, old, h⟩
        · cases h
  | @fetch c x hc hp =>
    refine or.of_put hc rfl (or.sound.fetch _) (s.storage.later_fetch _) ?_ (or.hands_on hc (by rw [hp]; rfl) rfl)
    intro slot h
    cases h
    have here : (s.storage.fetch x.key).2.slot? x.key = some (s.storage.fetch x.key).1 := by
      rw [Storage.slot?_fetch, if_pos rfl]
    exact ⟨(or.sound.fetch x.key).slot_lt here, fun key h => (or.sound.fetch x.key).key_unique h here⟩
  | acquire hc hp free =>
    refine or.of_put hc rfl or.sound (.refl _) ?_ (or.hands_get hc hp free)
    intro t h
    exact or.slots _ _ t hc (by rw [hp]; exact h)
  -- from here on to the end the caller goes on with the slot and the lock it has
  | check hc hp | stale hc hp | read hc hp | miss hc hp | build hc hp | fail e hc hp =>
    exact or.of_go_on hc rfl rfl or.sound (.refl _) (by rw [hp]; rfl) (by rw [hp]; rfl)
  | publish hc hp =>
    exact or.of_go_on hc rfl rfl (or.sound.publish _ _) (s.storage.later_publish _ _) (by rw [hp]; rfl)
      (by rw [hp]; rfl)
  | release hc hp =>
    exact or.of_go_on hc rfl rfl (or.sound.release _ _) (s.storage.later_release _ _) (by rw [hp]; rfl)
      (by rw [hp]; rfl)
  | retry hc hp =>
    exact or.of_put hc rfl or.sound (.refl _) nofun (or.hands_back hc (by rw [hp]; rfl) rfl)
  | leave hc hp =>
    exact or.of_put hc rfl or.sound (.refl _) nofun (or.hands_back hc (by rw [hp]; rfl) rfl)
  | find => exact or
  | sweep => exact ⟨or.sound, or.slots, or.holder⟩
  | detach hn => exact or.of_restore rfl rfl (or.sound.forget _) (s.storage.later_forget _)
  | take hn => exact or.of_restore rfl rfl (or.sound.take _) (s.storage.later_take _)

/-- A run keeps a crowd in order. -/
lemma ordered_run {t : List Move} (or : s.Ordered) (run : Run s t s') : s'.Ordered := by
  induction run with
  | rest => exact or
  | step _ st ih => exact ordered_step ih st

end Crowd

end ModelScopes
