import ModelScopes.Proofs.Storage.Slots

/-!
# Slots that wait for a scope

While a scope is created its key has an empty slot. What else is done with the storage in the meantime may take keys
out, but fills none of the empty slots, and leaves no new ones behind: it respects them (`Storage.Respects`). So does a
creation as a whole, which fills the slot that it made or releases it (`Respects.publish`, `Respects.release`).
-/

namespace ModelScopes.Storage

/-- The key has a slot in which there is no scope yet. -/
def Pending (st : Storage) (key : ScopeKey) (slot : SlotId) : Prop :=
  st.slot? key = some slot ∧ st.read slot = none

/-- What may become of a storage while scopes are created: empty slots stay empty, and no key waits for a scope that did
not wait before. -/
structure Respects (st st' : Storage) : Prop extends st.Later st' where
  sound : st'.Sound
  empty : ∀ slot < st.slots.length, st.read slot = none → st'.read slot = none
  pending : ∀ key slot, st'.Pending key slot → st.Pending key slot

variable {st st' st'' : Storage} {key : ScopeKey}

/-- A sound storage respects itself. -/
lemma Sound.respects_refl (so : st.Sound) : st.Respects st :=
  ⟨.refl st, so, fun _ _ => id, fun _ _ => id⟩

/-- Respect goes on from where it stopped. -/
lemma Respects.trans (re : st.Respects st') (re' : st'.Respects st'') : st.Respects st'' where
  toLater := re.toLater.trans re'.toLater
  sound := re'.sound
  empty slot lt h := re'.empty slot (Nat.lt_of_lt_of_le lt re.made) (re.empty slot lt h)
  pending key slot h := re.pending key slot (re'.pending key slot h)

/-- In a tidy storage no key waits for a scope. -/
lemma Tidy.not_pending (ti : st.Tidy) (key : ScopeKey) (slot : SlotId) : ¬ st.Pending key slot := by
  rintro ⟨has, empty⟩
  have none : st.find key = none := by simp [find, has, empty]
  cases (ti.slot?_eq_none none).symm.trans has

/-- A tidy storage has no empty slots, and gets none. -/
lemma Respects.tidy (re : st.Respects st') (ti : st.Tidy) : st'.Tidy := by
  refine ⟨re.sound, fun key hk => ?_⟩
  cases h : st'.slot? key with
  | none => exact absurd hk (slot?_eq_none_iff.mp h)
  | some slot =>
    cases hr : st'.read slot with
    | some i => simp [find, h, hr]
    | none => exact absurd (re.pending key slot ⟨h, hr⟩) (ti.not_pending key slot)

/-- A key whose slot is not empty has no slot if there is no scope under it. -/
lemma slot?_eq_none_of_not_pending (free : ∀ slot, ¬ st.Pending key slot) (h : st.find key = none) :
    st.slot? key = none := by
  cases hs : st.slot? key with
  | none => rfl
  | some slot =>
    have empty : st.read slot = none := by simpa [find, hs] using h
    exact absurd ⟨hs, empty⟩ (free slot)

/-- Taking a key out respects the slots of the others. -/
lemma Sound.respects_remove (so : st.Sound) (key : ScopeKey) : st.Respects (st.remove key).2 := by
  cases h : st.slot? key with
  | none =>
    rw [show (st.remove key).2 = st.forget key by simp [Storage.remove, detach, h]]
    refine ⟨later_forget st key, so.forget key, fun _ _ => id, fun key' slot wait => ?_⟩
    exact ⟨(slot?_of_slot?_forget wait.1).2, wait.2⟩
  | some slot =>
    rw [show (st.remove key).2 = ((st.forget key).take slot).2 by simp [Storage.remove, detach, h]]
    refine ⟨(later_forget st key).trans (later_take _ slot), (so.forget key).take slot, ?_, ?_⟩
    · intro slot' _ empty
      rw [read_take]
      split
      case isTrue => rfl
      case isFalse => exact empty
    · rintro key' slot' ⟨has, empty⟩
      obtain ⟨ne, has⟩ := slot?_of_slot?_forget has
      -- the slot that is emptied was the removed key's only
      have ne_slot : slot' ≠ slot := fun e => ne (so.key_unique has (e ▸ h))
      rw [read_take, if_neg ne_slot] at empty
      exact ⟨has, empty⟩

/-! ## Creations -/

/-- The slot that was fetched for a new key is one of the storage. -/
lemma fetch_fst_lt (absent : st.slot? key = none) : (st.fetch key).1 < (st.fetch key).2.slots.length := by
  simp [fetch, absent]

section Creation

variable (re : (st.fetch key).2.Respects st')

include re

/-- A slot that was empty before the fetching is still empty. -/
lemma Respects.read_of_empty {slot : SlotId} (lt : slot < st.slots.length) (h : st.read slot = none) :
    st'.read slot = none := by
  apply re.empty
  · exact Nat.lt_of_lt_of_le lt (later_fetch st key).made
  · rwa [read_fetch]

/-- Besides the key for which the slot was fetched, only those wait that did before. -/
lemma Respects.pending_of_ne {key' : ScopeKey} {slot : SlotId} (wait : st'.Pending key' slot)
    (ne : ¬ (key' = key ∧ slot = (st.fetch key).1)) : st.Pending key' slot := by
  obtain ⟨has, empty⟩ := re.pending key' slot wait
  rw [slot?_fetch] at has
  rw [read_fetch] at empty
  split at has
  case isTrue e => exact absurd ⟨e, (Option.some.inj has).symm⟩ ne
  case isFalse => exact ⟨has, empty⟩

variable (absent : st.slot? key = none)

include absent

/-- The slot that was fetched is still empty. -/
lemma Respects.read_fetched : st'.read (st.fetch key).1 = none := by
  apply re.empty _ (fetch_fst_lt absent)
  rw [read_fetch, fetch_fst_of_none absent]
  exact read_of_le (Nat.le_refl _)

/-- What a slot holds once a scope was put into the one that was fetched. -/
lemma Respects.read_publish (i : ScopeId) (slot : SlotId) :
    (st'.publish (st.fetch key).1 i).read slot = if slot = (st.fetch key).1 then some i else st'.read slot :=
  Storage.read_publish (Nat.lt_of_lt_of_le (fetch_fst_lt absent) re.made) i slot

/-- A creation that succeeds fills the slot that it fetched. -/
lemma Respects.publish (i : ScopeId) : st.Respects (st'.publish (st.fetch key).1 i) where
  toLater := ((later_fetch st key).trans re.toLater).trans (later_publish st' _ i)
  sound := re.sound.publish _ i
  empty slot lt h := by
    have ne : slot ≠ (st.fetch key).1 := by
      rw [fetch_fst_of_none absent]
      exact Nat.ne_of_lt lt
    rw [re.read_publish absent, if_neg ne]
    exact re.read_of_empty lt h
  pending key' slot := by
    rintro ⟨has, empty⟩
    rw [re.read_publish absent] at empty
    split at empty
    case isTrue => cases empty
    case isFalse ne => exact re.pending_of_ne ⟨has, empty⟩ fun e => ne e.2

omit absent in
/-- A creation that fails releases the slot that it fetched. -/
lemma Respects.release : st.Respects (st'.release key (st.fetch key).1) where
  toLater := ((later_fetch st key).trans re.toLater).trans (later_release st' key _)
  sound := re.sound.release key _
  empty slot lt h := by
    rw [read_release]
    exact re.read_of_empty lt h
  pending key' slot := by
    rintro ⟨has, empty⟩
    rw [slot?_release] at has
    rw [read_release] at empty
    split at has
    case isTrue => cases has
    case isFalse kept =>
      refine re.pending_of_ne ⟨has, empty⟩ fun ⟨e, e_slot⟩ => kept ⟨e, ?_⟩
      rw [← e_slot, ← has, e]

/-- What is stored once a creation has failed: what was stored before its slot was released. -/
lemma Respects.find_release (key' : ScopeKey) : (st'.release key (st.fetch key).1).find key' = st'.find key' := by
  have hr : (st'.release key (st.fetch key).1).read = st'.read := funext fun slot => read_release st' key _ slot
  rw [find, find, hr, slot?_release]
  split
  case isFalse => rfl
  case isTrue h =>
    rw [h.1, h.2, Option.bind_some, re.read_fetched absent]
    rfl

/-- What is stored once a creation has succeeded: the new scope, if its key still has the slot. -/
lemma Respects.find_publish (so : st.Sound) (i : ScopeId) (key' : ScopeKey) :
    (st'.publish (st.fetch key).1 i).find key' =
      if key' = key ∧ st'.slot? key = some (st.fetch key).1 then some i else st'.find key' := by
  by_cases kept : st'.slot? key = some (st.fetch key).1
  · simp [re.sound.find_publish kept, kept]
  · -- no key has the slot any more
    have taken : ∀ slot, st'.slot? key' = some slot → slot ≠ (st.fetch key).1 := by
      intro slot h e
      have mine : (st.fetch key).2.slot? key = some (st.fetch key).1 := by simp [slot?_fetch]
      have had := re.slot? key' _ (fetch_fst_lt absent) (e ▸ h)
      cases (so.fetch key).key_unique had mine
      exact kept (h.trans (congrArg some e))
    rw [if_neg fun h => kept h.2, find, find, slot?_publish]
    cases h : st'.slot? key' with
    | none => rfl
    | some slot => simp [re.read_publish absent, taken slot h]

end Creation

end ModelScopes.Storage
