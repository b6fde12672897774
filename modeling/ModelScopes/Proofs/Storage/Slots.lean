import Mathlib.Data.List.Nodup
import Mathlib.Tactic.Common
import ModelScopes.Storage.Basic

/-!
# Slots of a storage

What each atomic step of a storage does to the two things that can be read off it: the slot of a key (`slot?`) and
what a slot holds (`read`). `Storage.Sound` says that no key has two slots, no slot has two keys, and every slot in
the table was made; the steps keep it. `Storage.Tidy` says besides that every slot in the table holds a scope, as
it does while nobody is building. A tidy storage stays tidy if a slot is fetched and then filled or released, and if
a key is removed.
-/

namespace ModelScopes.Storage

/-- Each key has one slot, each slot one key, and every slot in the table was made. -/
structure Sound (st : Storage) : Prop where
  keys : st.keys.Nodup
  slots : (st.table.map Prod.snd).Nodup
  made : ∀ e ∈ st.table, e.2 < st.slots.length

/-- A sound storage in which every slot of the table holds a scope. -/
structure Tidy (st : Storage) : Prop extends st.Sound where
  full : ∀ key ∈ st.keys, (st.find key).isSome

/-! ## The table -/

/-- The slot of a key is its entry in the table. -/
lemma slot?_eq_some_iff {st : Storage} (so : st.Sound) {key : ScopeKey} {slot : SlotId} :
    st.slot? key = some slot ↔ (key, slot) ∈ st.table := by
  constructor
  · intro h
    obtain ⟨e, he, rfl⟩ := Option.map_eq_some_iff.mp h
    have hk : e.1 = key := by simpa using List.find?_some he
    exact hk ▸ List.mem_of_find?_eq_some he
  · intro h
    cases hf : st.table.find? (fun e => e.1 == key) with
    | none => simpa using List.find?_eq_none.mp hf _ h
    | some e =>
      -- no key has two entries, so the one that is found first is this one
      have hk : e.1 = key := by simpa using List.find?_some hf
      have e_eq : e = (key, slot) :=
        List.inj_on_of_nodup_map so.keys (List.mem_of_find?_eq_some hf) h hk
      simp [slot?, hf, e_eq]

/-- A key without a slot is none of the storage's keys. -/
lemma slot?_eq_none_iff {st : Storage} {key : ScopeKey} : st.slot? key = none ↔ key ∉ st.keys := by
  rw [slot?, Option.map_eq_none_iff, List.find?_eq_none]
  constructor
  · intro h hk
    obtain ⟨e, he, e_key⟩ := List.mem_map.mp hk
    exact h e he (by simpa using e_key)
  · intro h e he e_key
    exact h (List.mem_map.mpr ⟨e, he, by simpa using e_key⟩)

/-- A slot has one key. -/
lemma Sound.key_unique {st : Storage} (so : st.Sound) {key key' : ScopeKey} {slot : SlotId}
    (h : st.slot? key = some slot) (h' : st.slot? key' = some slot) : key = key' := by
  have hm := (slot?_eq_some_iff so).mp h
  have hm' := (slot?_eq_some_iff so).mp h'
  exact congrArg Prod.fst (List.inj_on_of_nodup_map so.slots hm hm' rfl)

/-- The slot of a key was made. -/
lemma Sound.slot_lt {st : Storage} (so : st.Sound) {key : ScopeKey} {slot : SlotId}
    (h : st.slot? key = some slot) : slot < st.slots.length :=
  so.made _ ((slot?_eq_some_iff so).mp h)

/-- The empty storage is sound. -/
lemma Sound.empty : Storage.empty.Sound :=
  ⟨List.nodup_nil, List.nodup_nil, nofun⟩

/-! ## Fetching -/

/-- Fetching a key leaves the slots of other keys, and gives this key the slot it answers. -/
lemma slot?_fetch (st : Storage) (key key' : ScopeKey) :
    (st.fetch key).2.slot? key' = if key' = key then some (st.fetch key).1 else st.slot? key' := by
  unfold fetch
  split
  case h_1 slot h =>
    split
    case isTrue e => rw [e, h]
    case isFalse => rfl
  case h_2 h =>
    have absent : ∀ e ∈ st.table, ¬ (e.1 == key) = true := List.find?_eq_none.mp (by simpa [slot?] using h)
    split
    case isTrue e =>
      subst e
      simp [slot?, List.find?_append, List.find?_eq_none.mpr absent]
    case isFalse ne =>
      have ne' : (key == key') = false := by simpa using fun e => ne e.symm
      simp [slot?, List.find?_append, ne']

/-- A slot made by fetching holds nothing, and fetching changes no other slot. -/
lemma read_fetch (st : Storage) (key : ScopeKey) (slot : SlotId) :
    (st.fetch key).2.read slot = st.read slot := by
  unfold fetch
  split
  case h_1 => rfl
  case h_2 =>
    -- only the new slot is read otherwise than before, and it is empty
    simp only [read]
    rcases Nat.lt_trichotomy slot st.slots.length with lt | eq | gt
    · rw [List.getElem?_append_left lt]
    · simp [eq]
    · rw [List.getElem?_eq_none (by simp; omega), List.getElem?_eq_none (by omega)]

/-- A slot beyond the last one has nothing in it. -/
lemma read_of_le {st : Storage} {slot : SlotId} (h : st.slots.length ≤ slot) : st.read slot = none := by
  simp [read, List.getElem?_eq_none h]

/-- A slot that can be read was made before. -/
lemma lt_of_read {st : Storage} {slot : SlotId} {i : ScopeId} (h : st.read slot = some i) : slot < st.slots.length := by
  by_contra ge
  rw [read_of_le (Nat.not_lt.mp ge)] at h
  cases h

/-- A key without a slot is given the next one. -/
lemma fetch_fst_of_none {st : Storage} {key : ScopeKey} (h : st.slot? key = none) :
    (st.fetch key).1 = st.slots.length := by
  simp [fetch, h]

/-- A key that has a slot keeps it, and the storage does not change. -/
lemma fetch_of_some {st : Storage} {key : ScopeKey} {slot : SlotId} (h : st.slot? key = some slot) :
    st.fetch key = (slot, st) := by
  simp [fetch, h]

/-- A fetch takes no slot away from any key. -/
lemma slot?_fetch_of_some {st : Storage} (key : ScopeKey) {key' : ScopeKey} {slot : SlotId}
    (h : st.slot? key' = some slot) : (st.fetch key).2.slot? key' = some slot := by
  rw [slot?_fetch]
  split
  case isTrue e => rw [← e, fetch_of_some h]
  case isFalse => exact h

/-- A fetch changes nothing of what is found. -/
lemma find_fetch (st : Storage) (key key' : ScopeKey) : (st.fetch key).2.find key' = st.find key' := by
  have hr : (st.fetch key).2.read = st.read := funext (read_fetch st key)
  rw [find, find, hr, slot?_fetch]
  split
  case isFalse => rfl
  case isTrue e =>
    subst e
    cases h : st.slot? key' with
    | none => simp [fetch_fst_of_none h, read_of_le (Nat.le_refl _)]
    | some slot => simp [fetch_of_some h]

/-- A fetch keeps the storage sound. -/
lemma Sound.fetch {st : Storage} (so : st.Sound) (key : ScopeKey) : (st.fetch key).2.Sound := by
  unfold Storage.fetch
  split
  case h_1 => exact so
  case h_2 h =>
    have absent := slot?_eq_none_iff.mp h
    have unmade : st.slots.length ∉ st.table.map Prod.snd := by
      intro hm
      obtain ⟨e, he, e_slot⟩ := List.mem_map.mp hm
      exact Nat.lt_irrefl _ (e_slot ▸ so.made e he)
    refine ⟨?_, ?_, ?_⟩
    · simpa [Storage.keys, List.nodup_append] using ⟨so.keys, fun a b hm e => absent (e ▸ List.mem_map_of_mem hm)⟩
    · simpa [List.nodup_append] using ⟨so.slots, fun a b hm e => unmade (e ▸ List.mem_map_of_mem hm)⟩
    · intro e he
      rcases List.mem_append.mp he with old | new
      · exact Nat.lt_of_lt_of_le (so.made e old) (by simp)
      · simp [List.mem_singleton.mp new]

/-! ## Publishing -/

/-- Publishing a scope moves no key to another slot. -/
@[simp] lemma slot?_publish (st : Storage) (slot : SlotId) (i : ScopeId) (key : ScopeKey) :
    (st.publish slot i).slot? key = st.slot? key :=
  rfl

/-- Publishing fills one slot. -/
lemma read_publish {st : Storage} {slot : SlotId} (h : slot < st.slots.length) (i : ScopeId) (slot' : SlotId) :
    (st.publish slot i).read slot' = if slot' = slot then some i else st.read slot' := by
  simp only [read, publish, List.getElem?_set]
  split
  case isTrue e => simp [← e]
  case isFalse ne =>
    have ne' : ¬ slot' = slot := fun e => ne e.symm
    simp [ne']

/-- A scope published into the slot of a key is stored under this key and no other. -/
lemma Sound.find_publish {st : Storage} (so : st.Sound) {key : ScopeKey} {slot : SlotId}
    (h : st.slot? key = some slot) (i : ScopeId) (key' : ScopeKey) :
    (st.publish slot i).find key' = if key' = key then some i else st.find key' := by
  simp only [find, slot?_publish]
  split
  case isTrue e => simp [e, h, read_publish (so.slot_lt h)]
  case isFalse ne =>
    cases h' : st.slot? key' with
    | none => rfl
    | some slot' =>
      -- another key has another slot
      have ne_slot : slot' ≠ slot := fun e => ne (so.key_unique h' (e ▸ h))
      simp [read_publish (so.slot_lt h), ne_slot]

/-- Publishing a scope keeps the storage sound. -/
lemma Sound.publish {st : Storage} (so : st.Sound) (slot : SlotId) (i : ScopeId) : (st.publish slot i).Sound :=
  ⟨so.keys, so.slots, fun e he => by simpa [Storage.publish] using so.made e he⟩

/-! ## Taking keys out -/

/-- A forgotten key has no slot, and the others keep theirs. -/
lemma slot?_forget (st : Storage) (key key' : ScopeKey) :
    (st.forget key).slot? key' = if key' = key then none else st.slot? key' := by
  simp only [slot?, forget, List.find?_filter]
  split
  case isTrue e =>
    subst e
    simp
  case isFalse ne =>
    congr 2
    funext e
    cases h : e.1 == key' with
    | false => simp
    | true =>
      have e_ne : e.1 ≠ key := fun eq => ne ((by simpa using h : e.1 = key') ▸ eq)
      simp [e_ne]

/-- Forgetting a key leaves what stands in the slots. -/
@[simp] lemma read_forget (st : Storage) (key : ScopeKey) (slot : SlotId) :
    (st.forget key).read slot = st.read slot :=
  rfl

/-- Nothing is stored under a forgotten key, and under other keys what was. -/
lemma find_forget (st : Storage) (key key' : ScopeKey) :
    (st.forget key).find key' = if key' = key then none else st.find key' := by
  have hr : (st.forget key).read = st.read := rfl
  rw [find, find, hr, slot?_forget]
  split <;> rfl

/-- Forgetting a key keeps the storage sound. -/
lemma Sound.forget {st : Storage} (so : st.Sound) (key : ScopeKey) : (st.forget key).Sound := by
  have sub : (st.forget key).table.Sublist st.table := List.filter_sublist
  exact ⟨so.keys.sublist (sub.map _), so.slots.sublist (sub.map _), fun e he => so.made e (sub.subset he)⟩

/-- A key that still has its slot is not the one that was forgotten. -/
lemma slot?_of_slot?_forget {st : Storage} {key key' : ScopeKey} {slot : SlotId}
    (h : (st.forget key).slot? key' = some slot) : key' ≠ key ∧ st.slot? key' = some slot := by
  rw [slot?_forget] at h
  split at h
  case isTrue => cases h
  case isFalse ne => exact ⟨ne, h⟩

/-- Releasing the slot that a key has at the moment forgets the key. -/
lemma release_of_current {st : Storage} {key : ScopeKey} {slot : SlotId} (h : st.slot? key = some slot) :
    st.release key slot = st.forget key := by
  simp [release, isCurrent, h]

/-- Releasing a slot keeps the storage sound. -/
lemma Sound.release {st : Storage} (so : st.Sound) (key : ScopeKey) (slot : SlotId) : (st.release key slot).Sound := by
  unfold Storage.release
  split
  case isTrue => exact so.forget key
  case isFalse => exact so

/-- Releasing a slot leaves what stands in the slots. -/
@[simp] lemma read_release (st : Storage) (key : ScopeKey) (slot slot' : SlotId) :
    (st.release key slot).read slot' = st.read slot' := by
  unfold Storage.release
  split <;> rfl

/-- Releasing takes a key out of the table only if it has the given slot. -/
lemma slot?_release (st : Storage) (key key' : ScopeKey) (slot : SlotId) :
    (st.release key slot).slot? key' = if key' = key ∧ st.slot? key = some slot then none else st.slot? key' := by
  by_cases h : st.slot? key = some slot
  · simp [release_of_current h, slot?_forget, h]
  · simp [Storage.release, isCurrent, h]

/-- Taking from a slot empties this one only. -/
lemma read_take (st : Storage) (slot slot' : SlotId) :
    (st.take slot).2.read slot' = if slot' = slot then none else st.read slot' := by
  simp only [read, take, List.getElem?_set]
  split
  case isTrue e =>
    split <;> simp [← e]
  case isFalse ne =>
    have ne' : ¬ slot' = slot := fun e => ne e.symm
    simp [ne']

/-- Taking from a slot moves no key to another slot. -/
@[simp] lemma slot?_take (st : Storage) (slot : SlotId) (key : ScopeKey) :
    (st.take slot).2.slot? key = st.slot? key :=
  rfl

/-- Taking from a slot keeps the storage sound. -/
lemma Sound.take {st : Storage} (so : st.Sound) (slot : SlotId) : (st.take slot).2.Sound :=
  ⟨so.keys, so.slots, fun e he => by simpa [Storage.take] using so.made e he⟩

/-! ## Slots that were made -/

/-- What a storage may become: no slot is unmade, and no key is given a slot that was made before. -/
structure Later (st st' : Storage) : Prop where
  made : st.slots.length ≤ st'.slots.length
  slot? : ∀ key slot, slot < st.slots.length → st'.slot? key = some slot → st.slot? key = some slot

/-- A storage is later than itself. -/
lemma Later.refl (st : Storage) : st.Later st :=
  ⟨Nat.le_refl _, fun _ _ _ => id⟩

/-- Later than later is later. -/
lemma Later.trans {st st' st'' : Storage} (la : st.Later st') (la' : st'.Later st'') : st.Later st'' where
  made := Nat.le_trans la.made la'.made
  slot? key slot lt h := la.slot? key slot lt (la'.slot? key slot (Nat.lt_of_lt_of_le lt la.made) h)

/-- Fetching gives a key no slot but a new one. -/
lemma later_fetch (st : Storage) (key : ScopeKey) : st.Later (st.fetch key).2 := by
  refine ⟨?_, fun key' slot lt h => ?_⟩
  · unfold fetch
    split <;> simp
  · rw [slot?_fetch] at h
    split at h
    case isFalse => exact h
    case isTrue e =>
      -- a key gets a new slot only if it had none
      cases h' : st.slot? key with
      | none =>
        rw [fetch_fst_of_none h'] at h
        cases h
        exact absurd lt (Nat.lt_irrefl _)
      | some slot' =>
        rw [fetch_of_some h'] at h
        rw [e, h', h]

/-- After a scope was published the storage is a later one. -/
lemma later_publish (st : Storage) (slot : SlotId) (i : ScopeId) : st.Later (st.publish slot i) :=
  ⟨by simp [publish], fun _ _ _ => id⟩

/-- After a key was forgotten the storage is a later one. -/
lemma later_forget (st : Storage) (key : ScopeKey) : st.Later (st.forget key) :=
  ⟨Nat.le_refl _, fun _ _ _ h => (slot?_of_slot?_forget h).2⟩

/-- After a slot was released the storage is a later one. -/
lemma later_release (st : Storage) (key : ScopeKey) (slot : SlotId) : st.Later (st.release key slot) := by
  unfold release
  split
  case isTrue => exact later_forget st key
  case isFalse => exact .refl st

/-- After a slot was emptied the storage is a later one. -/
lemma later_take (st : Storage) (slot : SlotId) : st.Later (st.take slot).2 :=
  ⟨by simp [take], fun _ _ _ => id⟩

/-! ## Removing -/

/-- Removal answers with the scope that was found under the key. -/
@[simp] lemma remove_fst (st : Storage) (key : ScopeKey) : (st.remove key).1 = st.find key := by
  cases h : st.slot? key <;> simp [remove, detach, take, find, h]

/-- Removing leaves nothing under the key, and under other keys what was. -/
lemma Sound.find_remove {st : Storage} (so : st.Sound) (key key' : ScopeKey) :
    (st.remove key).2.find key' = if key' = key then none else st.find key' := by
  cases h : st.slot? key with
  | none => simpa [remove, detach, h] using find_forget st key key'
  | some slot =>
    have hs : ∀ k, (st.remove key).2.slot? k = (st.forget key).slot? k := fun k => by simp [remove, detach, h]
    rw [find, hs, slot?_forget]
    split
    case isTrue => rfl
    case isFalse ne =>
      -- the slot that is emptied is the removed key's only
      cases h' : st.slot? key' with
      | none => simp [find, h']
      | some slot' =>
        have ne_slot : slot' ≠ slot := fun e => ne (so.key_unique h' (e ▸ h))
        simp [remove, detach, h, find, h', read_take, ne_slot]

/-- Removal takes away this key only. -/
lemma keys_remove (st : Storage) (key : ScopeKey) : (st.remove key).2.keys = st.keys.filter (· != key) := by
  have hk : (st.forget key).keys = st.keys.filter (· != key) := by
    simp [keys, forget, List.filter_map, Function.comp_def]
  cases h : st.slot? key with
  | none => simpa [remove, detach, h] using hk
  | some slot => simpa [remove, detach, h, take, keys] using hk

/-- Removal keeps the storage sound. -/
lemma Sound.remove {st : Storage} (so : st.Sound) (key : ScopeKey) : (st.remove key).2.Sound := by
  cases h : st.slot? key with
  | none => simpa [Storage.remove, detach, h] using so.forget key
  | some slot => simpa [Storage.remove, detach, h] using (so.forget key).take slot

/-! ## Tidy storages -/

/-- A key under which a scope is found is one of the storage's keys. -/
lemma mem_keys_of_find {st : Storage} {key : ScopeKey} {i : ScopeId} (h : st.find key = some i) : key ∈ st.keys := by
  by_contra absent
  simp [find, slot?_eq_none_iff.mpr absent] at h

/-- The keys in the table of a tidy storage are those under which a scope is stored. -/
lemma Tidy.mem_keys_iff {st : Storage} (ti : st.Tidy) {key : ScopeKey} : key ∈ st.keys ↔ (st.find key).isSome := by
  constructor
  · exact ti.full key
  · intro h
    obtain ⟨i, hi⟩ := Option.isSome_iff_exists.mp h
    exact mem_keys_of_find hi

/-- A key of a tidy storage without a scope has no slot. -/
lemma Tidy.slot?_eq_none {st : Storage} (ti : st.Tidy) {key : ScopeKey} (h : st.find key = none) :
    st.slot? key = none := by
  rw [slot?_eq_none_iff, ti.mem_keys_iff]
  simp [h]

/-- In a tidy storage as many keys have a scope as have a slot. -/
lemma Tidy.size_eq_slotCount {st : Storage} (ti : st.Tidy) : st.size = st.slotCount := by
  rw [size, slotCount, List.countP_eq_length]
  intro e he
  have hs : st.slot? e.1 = some e.2 := (slot?_eq_some_iff ti.toSound).mpr he
  have hf := ti.full e.1 (List.mem_map_of_mem he)
  simpa [find, hs] using hf

/-- The empty storage is tidy. -/
lemma Tidy.empty : Storage.empty.Tidy :=
  ⟨.empty, nofun⟩

/-- A new key comes last. -/
lemma keys_fetch_of_none {st : Storage} {key : ScopeKey} (h : st.slot? key = none) :
    (st.fetch key).2.keys = st.keys ++ [key] := by
  simp [fetch, h, keys]

/-- What is stored once a scope was built in the slot of a key. -/
lemma Tidy.find_publish_fetch {st : Storage} (ti : st.Tidy) (key : ScopeKey) (i : ScopeId) (key' : ScopeKey) :
    ((st.fetch key).2.publish (st.fetch key).1 i).find key' = if key' = key then some i else st.find key' := by
  have hs : (st.fetch key).2.slot? key = some (st.fetch key).1 := by simp [slot?_fetch]
  rw [(ti.toSound.fetch key).find_publish hs, find_fetch]

/-- Building a scope in the slot of a key keeps a storage tidy. -/
lemma Tidy.publish_fetch {st : Storage} (ti : st.Tidy) {key : ScopeKey} (h : st.find key = none) (i : ScopeId) :
    ((st.fetch key).2.publish (st.fetch key).1 i).Tidy := by
  refine ⟨(ti.toSound.fetch key).publish _ i, ?_⟩
  intro key' hk
  rw [ti.find_publish_fetch]
  split
  case isTrue => rfl
  case isFalse ne =>
    have hk' : key' ∈ st.keys ++ [key] := keys_fetch_of_none (ti.slot?_eq_none h) ▸ hk
    exact ti.full key' ((List.mem_append.mp hk').resolve_right fun e => ne (List.mem_singleton.mp e))

/-- Releasing the slot that was fetched for a key leaves the table as it was before. -/
lemma table_release_fetch {st : Storage} {key : ScopeKey} (h : st.slot? key = none) :
    ((st.fetch key).2.release key (st.fetch key).1).table = st.table := by
  have absent := slot?_eq_none_iff.mp h
  rw [release_of_current (by simp [slot?_fetch])]
  simp only [forget, fetch, h, List.filter_append, List.filter_cons, bne_self_eq_false, List.filter_nil,
    Bool.false_eq_true, if_false, List.append_nil, List.filter_eq_self]
  intro e he
  have e_ne : e.1 ≠ key := fun e_key => absent (e_key ▸ List.mem_map_of_mem he)
  simpa using e_ne

/-- What is stored once a build has failed in the slot of a key. -/
lemma find_release_fetch {st : Storage} {key : ScopeKey} (h : st.find key = none) (key' : ScopeKey) :
    ((st.fetch key).2.release key (st.fetch key).1).find key' = st.find key' := by
  rw [release_of_current (by simp [slot?_fetch]), find_forget, find_fetch]
  split
  case isTrue e => rw [e, h]
  case isFalse => rfl

/-- A build that fails in the slot of a key keeps a storage tidy. -/
lemma Tidy.release_fetch {st : Storage} (ti : st.Tidy) {key : ScopeKey} (h : st.find key = none) :
    ((st.fetch key).2.release key (st.fetch key).1).Tidy := by
  -- the table is as it was before, so every key in it still has its scope
  have ht := table_release_fetch (ti.slot?_eq_none h)
  refine ⟨?_, ?_⟩
  · rw [release_of_current (by simp [slot?_fetch])]
    exact (ti.toSound.fetch key).forget key
  · intro key' hk
    rw [find_release_fetch h]
    exact ti.full key' (by simpa [keys, ht] using hk)

/-- Removal keeps the storage tidy. -/
lemma Tidy.remove {st : Storage} (ti : st.Tidy) (key : ScopeKey) : (st.remove key).2.Tidy := by
  refine ⟨ti.toSound.remove key, ?_⟩
  intro key' hk
  rw [keys_remove, List.mem_filter] at hk
  rw [ti.toSound.find_remove, if_neg (by simpa using hk.2)]
  exact ti.full key' hk.1

end ModelScopes.Storage
