import ModelScopes.Proofs.Callers.Order
import ModelScopes.Proofs.Callers.Turn

/-!
# Sweeping while others call

Sweepers may take keys out of the storage at any moment, even while the scope of such a key is found or created. A
slot that was taken out of the table never comes back, one that is in the table keeps its scope, and one that is in
the table without a scope is still in the hands of a caller. A build that fails takes nothing out but its own slot,
and no scope is taken out twice. `Crowd.Swept` is what holds of the slots then, `Crowd.Held` of the scopes, and the
main statement is `Crowd.upkeep`.
-/

namespace ModelScopes

/-! ## What sweepers take -/

namespace Move

/-- The scope that a sweeper takes out of a slot. -/
def taken? : Move → Option ScopeId
  | .take _ i => i
  | _ => none

/-- The scopes that were taken out of slots. -/
def takenIn (t : List Move) : List ScopeId :=
  t.filterMap taken?

/-- A move adds the scope that it takes out. -/
@[simp] lemma takenIn_concat (t : List Move) (m : Move) : takenIn (t ++ [m]) = takenIn t ++ m.taken?.toList := by
  cases h : m.taken? <;> simp [takenIn, h]

end Move

/-- The slot that a caller is about to part with. -/
def Place.parting? : Place → Option SlotId
  | .retrying t | .leaving t _ => some t
  | _ => none

/-- The slot that a caller is about to part with is the one that it has fetched. -/
lemma Place.slot?_of_parting? {place : Place} {slot : SlotId} (h : place.parting? = some slot) :
    place.slot? = some slot := by
  cases place <;> first | exact h | cases h

namespace Crowd

variable {s s' : Crowd} {c : CallerId} {x : Caller} {slot : SlotId} {t : List Move} {m : Move}

/-- A step leaves a later storage. -/
lemma later_step (st : Step s m s') : s.storage.Later s'.storage := by
  cases st with
  | fetch => exact s.storage.later_fetch _
  | publish => exact s.storage.later_publish _ _
  | release => exact s.storage.later_release _ _
  | detach => exact s.storage.later_forget _
  | take => exact s.storage.later_take _
  | _ => exact .refl _

/-- A run leaves a later storage. -/
lemma later_run (run : Run s t s') : s.storage.Later s'.storage := by
  induction run with
  | rest => exact .refl _
  | step _ st ih => exact ih.trans (later_step st)

/-! ## Slots -/

/-- A slot that a caller has found empty is still empty, one that a caller is about to part with holds a scope if it is
in the table, one whose scope a sweeper is about to take is out of the table, and one that is in the table without a
scope was fetched by a caller that has not parted with it. -/
structure Swept (s : Crowd) : Prop extends s.Ordered where
  vacant : ∀ (c : CallerId) (x : Caller) (slot : SlotId), s.callers[c]? = some x →
    x.place.vacant? = some slot → s.storage.read slot = none
  parting : ∀ (c : CallerId) (x : Caller) (slot : SlotId) (key : ScopeKey), s.callers[c]? = some x →
    x.place.parting? = some slot → s.storage.slot? key = some slot → s.storage.read slot ≠ none
  taking : ∀ (n : SweeperId) (y : Sweeper) (slot : SlotId), s.sweepers[n]? = some y → y.taking = some slot →
    slot < s.storage.slots.length ∧ ∀ key, s.storage.slot? key ≠ some slot
  awaited : ∀ (key : ScopeKey) (slot : SlotId), s.storage.slot? key = some slot → s.storage.read slot = none →
    ∃ (c : CallerId) (x : Caller), s.callers[c]? = some x ∧ x.place.slot? = some slot

/-- A crowd in which nobody has called is swept. -/
lemma Swept.start : start.Swept :=
  ⟨.start, fun _ _ _ h => by simp [Crowd.start] at h, fun _ _ _ _ h => by simp [Crowd.start] at h,
    fun _ _ _ h => by simp [Crowd.start] at h, fun _ _ h => by cases h⟩

/-- A slot that stays in the table keeps its scope. -/
lemma Swept.read_step (sw : s.Swept) (st : Step s m s') {key : ScopeKey} {i : ScopeId}
    (here : s'.storage.slot? key = some slot) (h : s.storage.read slot = some i) :
    s'.storage.read slot = some i := by
  cases st with
  | fetch =>
    rw [storage_put, storage_restore, Storage.read_fetch]
    exact h
  | @publish c x slot' j hc hp =>
    have empty := sw.vacant c x slot' hc (by rw [hp]; rfl)
    obtain ⟨lt, -⟩ := sw.slots c x slot' hc (by rw [hp]; rfl)
    -- a scope is published into an empty slot only, which is not this one
    have ne : slot ≠ slot' := fun e => by
      rw [e, empty] at h
      cases h
    exact (Storage.read_publish lt j slot).trans (by rw [if_neg ne, h])
  | release =>
    rw [storage_put, storage_restore, Storage.read_release]
    exact h
  | @take n keys slot' taken hn =>
    obtain ⟨-, out⟩ := sw.taking n _ slot' hn rfl
    have ne : slot ≠ slot' := fun e => out key (e ▸ here)
    exact (Storage.read_take _ _ _).trans (by rw [if_neg ne, h])
  | _ => exact h

/-- Releasing the slot that a caller has takes this slot out of the table and no other. -/
lemma Ordered.slot?_release (or : s.Ordered) (hc : s.callers[c]? = some x) (hp : x.place.slot? = some slot)
    (key : ScopeKey) (t : SlotId) :
    (s.storage.release x.key slot).slot? key = some t ↔ s.storage.slot? key = some t ∧ t ≠ slot := by
  obtain ⟨-, own⟩ := or.slots c x slot hc hp
  rw [Storage.slot?_release]
  split
  case isTrue h =>
    obtain ⟨rfl, here⟩ := h
    simp only [here, Option.some.injEq]
    exact ⟨nofun, fun ⟨e, ne⟩ => absurd e.symm ne⟩
  case isFalse h =>
    refine ⟨fun here => ⟨here, ?_⟩, And.left⟩
    -- the slot could only be this caller's key's, which it is not
    rintro rfl
    have mine := own key here
    exact h ⟨mine, mine ▸ here⟩

/-- An empty slot of the table that one caller does not have is in the hands of another. -/
lemma Swept.awaited_other (sw : s.Swept) (hc : s.callers[c]? = some x) (hp : x.place.slot? ≠ some slot)
    {key : ScopeKey} (here : s.storage.slot? key = some slot) (hr : s.storage.read slot = none) :
    ∃ (c' : CallerId) (y : Caller), c' ≠ c ∧ s.callers[c']? = some y ∧ y.place.slot? = some slot := by
  obtain ⟨c', y, hy, hp'⟩ := sw.awaited key slot here hr
  refine ⟨c', y, ?_, hy, hp'⟩
  rintro rfl
  rw [hc] at hy
  cases hy
  exact hp hp'

/-- All stays so if one caller is moved, provided that the slots in the hands of others stay as they are. -/
lemma Swept.of_put (sw : s.Swept) (st : Step s m s') (hc : s.callers[c]? = some x) {place : Place}
    (callers : s'.callers = (s.put c x place).callers) (sweepers : s'.sweepers = s.sweepers)
    (empty : ∀ c' y slot, c' ≠ c → s.callers[c']? = some y → y.place.vacant? = some slot →
      s'.storage.read slot = none)
    (vacant : ∀ slot, place.vacant? = some slot → s'.storage.read slot = none)
    (parting : ∀ slot key, place.parting? = some slot → s'.storage.slot? key = some slot →
      s'.storage.read slot ≠ none)
    (awaited : ∀ key slot, s'.storage.slot? key = some slot → s'.storage.read slot = none →
      place.slot? = some slot ∨
        ∃ (c' : CallerId) (y : Caller), c' ≠ c ∧ s.callers[c']? = some y ∧ y.place.slot? = some slot) :
    s'.Swept where
  toOrdered := ordered_step sw.toOrdered st
  vacant := by
    intro c' y slot hy hp
    rw [callers, callers_put hc] at hy
    split at hy
    case isTrue =>
      cases hy
      exact vacant slot hp
    case isFalse ne => exact empty c' y slot ne hy hp
  parting := by
    intro c' y slot key hy hp here
    rw [callers, callers_put hc] at hy
    split at hy
    case isTrue =>
      cases hy
      exact parting slot key hp here
    case isFalse =>
      -- the slot was in the table before, too, and so it held a scope, which it keeps
      obtain ⟨lt, -⟩ := sw.slots c' y slot hy (Place.slot?_of_parting? hp)
      have before := (later_step st).slot? key slot lt here
      obtain ⟨i, hr⟩ := Option.ne_none_iff_exists'.mp (sw.parting c' y slot key hy hp before)
      rw [sw.read_step st here hr]
      exact nofun
  taking := by
    intro n y slot hy hk
    rw [sweepers] at hy
    obtain ⟨lt, out⟩ := sw.taking n y slot hy hk
    have la := later_step st
    exact ⟨Nat.lt_of_lt_of_le lt la.made, fun key here => out key (la.slot? key slot lt here)⟩
  awaited := by
    intro key slot here hr
    rcases awaited key slot here hr with hp | ⟨c', y, ne, hy, hp⟩
    · exact ⟨c, _, by rw [callers, callers_put hc, if_pos rfl], hp⟩
    · exact ⟨c', y, by rw [callers, callers_put hc, if_neg ne, hy], hp⟩

/-- All stays so if a caller goes on with the slot it has. -/
lemma Swept.of_go_on (sw : s.Swept) (st : Step s m s') (hc : s.callers[c]? = some x) {place : Place}
    (callers : s'.callers = (s.put c x place).callers) (sweepers : s'.sweepers = s.sweepers)
    (storage : s'.storage = s.storage) (same : place.slot? = x.place.slot?)
    (vacant : ∀ slot, place.vacant? = some slot → s.storage.read slot = none)
    (parting : ∀ slot key, place.parting? = some slot → s.storage.slot? key = some slot →
      s.storage.read slot ≠ none) : s'.Swept := by
  refine sw.of_put st hc callers sweepers ?_ (by rwa [storage]) (by rwa [storage]) ?_
  · intro c' y slot _ hy hp
    rw [storage]
    exact sw.vacant c' y slot hy hp
  · intro key slot here hr
    rw [storage] at here hr
    by_cases hp : x.place.slot? = some slot
    · exact .inl (same.trans hp)
    · exact .inr (sw.awaited_other hc hp here hr)

/-- All stays so if a caller parts with its slot. -/
lemma Swept.of_part (sw : s.Swept) (st : Step s m s') (hc : s.callers[c]? = some x) {place : Place}
    (callers : s'.callers = (s.put c x place).callers) (sweepers : s'.sweepers = s.sweepers)
    (storage : s'.storage = s.storage) (parts : x.place.parting? = x.place.slot?)
    (vacant : place.vacant? = none) (parting : place.parting? = none) : s'.Swept := by
  refine sw.of_put st hc callers sweepers ?_ (by simp [vacant]) (by simp [parting]) ?_
  · intro c' y slot _ hy hp
    rw [storage]
    exact sw.vacant c' y slot hy hp
  · intro key slot here hr
    rw [storage] at here hr
    -- the slot it parts with is not one that is awaited
    exact .inr (sw.awaited_other hc (fun hp => sw.parting c x slot key hc (parts.trans hp) here hr) here hr)

/-- All stays so if a sweeper takes a key out of the table, or a scope out of a slot. -/
lemma Swept.of_sweep (sw : s.Swept) (st : Step s m s') (callers : s'.callers = s.callers)
    (slot? : ∀ key slot, s'.storage.slot? key = some slot → s.storage.slot? key = some slot)
    (empty : ∀ slot, s.storage.read slot = none → s'.storage.read slot = none)
    (taking : ∀ (n : SweeperId) (y : Sweeper) (slot : SlotId), s'.sweepers[n]? = some y → y.taking = some slot →
      slot < s'.storage.slots.length ∧ ∀ key, s'.storage.slot? key ≠ some slot) : s'.Swept where
  toOrdered := ordered_step sw.toOrdered st
  vacant := by
    intro c y slot hy hp
    rw [callers] at hy
    exact empty slot (sw.vacant c y slot hy hp)
  parting := by
    intro c y slot key hy hp here
    rw [callers] at hy
    obtain ⟨i, hr⟩ := Option.ne_none_iff_exists'.mp (sw.parting c y slot key hy hp (slot? key slot here))
    rw [sw.read_step st here hr]
    exact nofun
  taking := taking
  awaited := by
    intro key slot here hr
    -- the slot held no scope before, for it would have kept it
    have empty : s.storage.read slot = none := by
      cases h : s.storage.read slot with
      | none => rfl
      | some i =>
        rw [sw.read_step st here h] at hr
        cases hr
    rw [callers]
    exact sw.awaited key slot (slot? key slot here) empty

/-- All stays so if a caller publishes a scope into its slot. -/
lemma Swept.publish (sw : s.Swept) {key : ScopeKey} {i : ScopeId}
    (st : Step s (.publish c key i) ((s.restore (s.storage.publish slot i)).put c x (.leaving slot (.ok i))))
    (hc : s.callers[c]? = some x) (hp : x.place = .publishing slot i) :
    ((s.restore (s.storage.publish slot i)).put c x (.leaving slot (.ok i))).Swept := by
  obtain ⟨lt, -⟩ := sw.slots c x slot hc (by rw [hp]; rfl)
  have read : ∀ t, (s.storage.publish slot i).read t = if t = slot then some i else s.storage.read t :=
    Storage.read_publish lt i
  refine sw.of_put st hc rfl rfl ?_ nofun ?_ ?_
  · intro c' y t ne hy hv
    -- no other caller is at this slot, for it would hold the same lock
    have ne_slot : t ≠ slot := by
      rintro rfl
      exact ne (sw.exclusive hy hc (Place.held?_of_checked? (Place.checked?_of_vacant? hv)) (by rw [hp]; rfl))
    exact (read t).trans (by rw [if_neg ne_slot, sw.vacant c' y t hy hv])
  · intro t key h _
    cases h
    have filled : (s.storage.publish slot i).read slot = some i := (read slot).trans (if_pos rfl)
    exact fun empty => nomatch filled.symm.trans empty
  · intro key t here hr
    by_cases e : t = slot
    · exact .inl (congrArg some e.symm)
    · have hr : s.storage.read t = none := ((read t).trans (if_neg e)).symm.trans hr
      exact .inr (sw.awaited_other hc (by rw [hp]; exact fun h => e (Option.some.inj h).symm) here hr)

/-- All stays so if a caller releases its slot. -/
lemma Swept.release (sw : s.Swept) {e : ScopeError}
    (st : Step s (.release c) ((s.restore (s.storage.release x.key slot)).put c x (.leaving slot (.error e))))
    (hc : s.callers[c]? = some x) (hp : x.place = .releasing slot e) :
    ((s.restore (s.storage.release x.key slot)).put c x (.leaving slot (.error e))).Swept := by
  have kept := sw.toOrdered.slot?_release hc (by rw [hp]; rfl)
  have read : ∀ t, (s.storage.release x.key slot).read t = s.storage.read t := s.storage.read_release x.key slot
  refine sw.of_put st hc rfl rfl ?_ nofun ?_ ?_
  · intro c' y t _ hy hv
    exact (read t).trans (sw.vacant c' y t hy hv)
  · intro t key h here
    cases h
    exact absurd rfl ((kept key slot).mp here).2
  · intro key t here hr
    obtain ⟨here, ne⟩ := (kept key t).mp here
    refine .inr (sw.awaited_other hc ?_ here ((read t).symm.trans hr))
    rw [hp]
    exact fun h => ne (Option.some.inj h).symm

/-- A sweeper that goes on leaves the others as they are. -/
lemma sweepers_putSweeper {n : SweeperId} {y : Sweeper} (hn : s.sweepers[n]? = some y) (storage : Storage)
    (z : Sweeper) (n' : SweeperId) :
    ((s.restore storage).putSweeper n z).sweepers[n']? = if n' = n then some z else s.sweepers[n']? := by
  obtain ⟨lt, -⟩ := List.getElem?_eq_some_iff.mp hn
  by_cases e : n' = n
  · subst e
    simp [putSweeper, restore, lt]
  · have ne : ¬ n = n' := fun h => e h.symm
    simp [putSweeper, restore, e, ne]

/-- Each step keeps the slots so. -/
lemma swept_step (sw : s.Swept) (st : Step s m s') : s'.Swept := by
  have or := ordered_step sw.toOrdered st
  have st' := st
  cases st with
  | @enter key parent may =>
    refine ⟨or, ?_, ?_, sw.taking, ?_⟩
    · intro c x slot hc hp
      rcases getElem?_concat_eq_some_iff.mp hc with old | ⟨-, rfl⟩
      · exact sw.vacant c x slot old hp
      · cases hp
    · intro c x slot key hc hp here
      rcases getElem?_concat_eq_some_iff.mp hc with old | ⟨-, rfl⟩
      · exact sw.parting c x slot key old hp here
      · cases hp
    · intro key slot here hr
      obtain ⟨c, x, hc, hp⟩ := sw.awaited key slot here hr
      exact ⟨c, x, getElem?_concat_eq_some_iff.mpr (.inl hc), hp⟩
  | @fetch c x hc hp =>
    refine sw.of_put st' hc rfl rfl ?_ nofun nofun ?_
    · intro c' y slot _ hy hp
      exact (Storage.read_fetch _ _ slot).trans (sw.vacant c' y slot hy hp)
    · intro key slot here hr
      have here : (s.storage.fetch x.key).2.slot? key = some slot := here
      rw [Storage.slot?_fetch] at here
      split at here
      -- the slot that was fetched is in the hands of the caller that fetched it
      case isTrue => exact .inl here
      case isFalse =>
        have hr : s.storage.read slot = none := (Storage.read_fetch _ _ slot).symm.trans hr
        exact .inr (sw.awaited_other hc (by rw [hp]; exact nofun) here hr)
  | acquire hc hp => exact sw.of_go_on st' hc rfl rfl rfl (by rw [hp]; rfl) nofun nofun
  | check hc hp => exact sw.of_go_on st' hc rfl rfl rfl (by rw [hp]; rfl) nofun nofun
  | @stale c x slot hc hp stale =>
    refine sw.of_go_on st' hc rfl rfl rfl (by rw [hp]; rfl) nofun ?_
    -- the slot is not the key's any more, and no other key has it
    rintro slot' key h here
    cases h
    obtain ⟨-, own⟩ := sw.slots c x slot hc (by rw [hp]; rfl)
    rw [own key here] at here
    have current : s.storage.isCurrent x.key slot = true := beq_iff_eq.mpr here
    rw [current] at stale
    cases stale
  | @read c x slot i hc hp here =>
    refine sw.of_go_on st' hc rfl rfl rfl (by rw [hp]; rfl) nofun ?_
    rintro slot' key h -
    cases h
    simp [here]
  | @miss c x slot hc hp empty =>
    refine sw.of_go_on st' hc rfl rfl rfl (by rw [hp]; rfl) ?_ nofun
    rintro slot' h
    cases h
    exact empty
  | build hc hp | fail e hc hp =>
    refine sw.of_go_on st' hc rfl rfl rfl (by rw [hp]; rfl) ?_ nofun
    intro slot' h
    exact sw.vacant _ _ slot' hc (by rw [hp]; exact h)
  | publish hc hp => exact sw.publish st' hc hp
  | release hc hp => exact sw.release st' hc hp
  | retry hc hp | leave hc hp => exact sw.of_part st' hc rfl rfl rfl (by rw [hp]; rfl) rfl rfl
  | find => exact sw
  | sweep =>
    refine ⟨or, sw.vacant, sw.parting, ?_, sw.awaited⟩
    intro n y slot hy hk
    rcases getElem?_concat_eq_some_iff.mp hy with old | ⟨-, rfl⟩
    · exact sw.taking n y slot old hk
    · cases hk
  | @detach n key rest taken hn =>
    have kept := fun key' slot' => @Storage.slot?_of_slot?_forget s.storage key key' slot'
    refine sw.of_sweep st' rfl (fun key' slot' h => (kept key' slot' h).2) (fun _ => id) ?_
    intro n' y slot hy hk
    rw [sweepers_putSweeper hn] at hy
    split at hy
    case isTrue =>
      cases hy
      have here : s.storage.slot? key = some slot := hk
      refine ⟨sw.sound.slot_lt here, fun key' h => ?_⟩
      -- the slot had one key, which was taken out of the table
      obtain ⟨ne, there⟩ := kept key' slot h
      exact ne (sw.sound.key_unique there here)
    case isFalse =>
      obtain ⟨lt, out⟩ := sw.taking n' y slot hy hk
      exact ⟨lt, fun key' h => out key' (kept key' slot h).2⟩
  | @take n keys slot taken hn =>
    refine sw.of_sweep st' rfl (fun _ _ => id) ?_ ?_
    · intro slot' h
      refine (Storage.read_take _ _ _).trans ?_
      rw [h, ite_self]
    · intro n' y slot' hy hk
      rw [sweepers_putSweeper hn] at hy
      split at hy
      case isTrue =>
        cases hy
        cases hk
      case isFalse =>
        obtain ⟨lt, out⟩ := sw.taking n' y slot' hy hk
        exact ⟨Nat.lt_of_lt_of_le lt (later_step st').made, out⟩

/-- A run keeps a crowd swept. -/
lemma swept_run (sw : s.Swept) (run : Run s t s') : s'.Swept := by
  induction run with
  | rest => exact sw
  | step _ st ih => exact swept_step ih st

/-- A slot that is in the table keeps its scope from any time on at which it held one. -/
lemma Swept.read_run (sw : s.Swept) (run : Run s t s') {key : ScopeKey} {i : ScopeId}
    (here : s'.storage.slot? key = some slot) (h : s.storage.read slot = some i) :
    s'.storage.read slot = some i := by
  induction run with
  | rest => exact h
  | step run st ih =>
    -- the slot was in the table before the last step, too
    have lt := Nat.lt_of_lt_of_le (Storage.lt_of_read h) (later_run run).made
    exact (swept_run sw run).read_step st here (ih ((later_step st).slot? key slot lt here))

/-! ## Scopes -/

/-- Where a scope can be. -/
inductive Spot where
  | slot (slot : SlotId)
  | caller (c : CallerId)
  | taken

/-- Whether a scope is in a slot, in the hands of a caller that is about to publish it, or was taken out of a slot. -/
def Holds (t : List Move) (s : Crowd) : Spot → ScopeId → Prop
  | .slot slot, i => s.storage.read slot = some i
  | .caller c, i => ∃ (x : Caller) (slot : SlotId), s.callers[c]? = some x ∧ x.place = .publishing slot i
  | .taken, i => i ∈ Move.takenIn t

/-- Each scope was made and is in one spot, and none was taken out twice. -/
structure Held (t : List Move) (s : Crowd) : Prop where
  made : ∀ p i, Holds t s p i → i < s.made
  one : ∀ p p' i, Holds t s p i → Holds t s p' i → p = p'
  once : (Move.takenIn t).Nodup

/-- A crowd in which nobody has called holds no scope. -/
lemma Held.start : Held [] Crowd.start := by
  have nowhere : ∀ p i, ¬ Holds [] Crowd.start p i := by
    intro p i h
    cases p with
    | slot slot => cases h
    | caller c =>
      obtain ⟨x, slot, hc, -⟩ := h
      simp [Crowd.start] at hc
    | taken => cases h
  exact ⟨fun p i h => absurd h (nowhere p i), fun p _ i h => absurd h (nowhere p i), List.nodup_nil⟩

/-- All stays so if no scope gets anywhere. -/
lemma Held.of_rests (he : Held t s) (rests : ∀ p i, Holds (t ++ [m]) s' p i → Holds t s p i)
    (none_made : s'.made = s.made) (quiet : m.taken? = none) : Held (t ++ [m]) s' where
  made p i h := none_made ▸ he.made p i (rests p i h)
  one p p' i h h' := he.one p p' i (rests p i h) (rests p' i h')
  once := by simpa [quiet] using he.once

/-- A scope is in the hands of the caller that is moved, or it is where it was. -/
lemma holds_put (hc : s.callers[c]? = some x) {place : Place} (callers : s'.callers = (s.put c x place).callers)
    (read : ∀ slot, s'.storage.read slot = s.storage.read slot) (quiet : m.taken? = none) {p : Spot} {i : ScopeId}
    (h : Holds (t ++ [m]) s' p i) : Holds t s p i ∨ p = .caller c ∧ ∃ slot, place = .publishing slot i := by
  cases p with
  | slot slot => exact .inl ((read slot).symm.trans h)
  | caller c' =>
    obtain ⟨y, slot, hy, hp⟩ := h
    rw [callers, callers_put hc] at hy
    split at hy
    case isTrue e =>
      cases hy
      exact .inr ⟨congrArg Spot.caller e, slot, hp⟩
    case isFalse => exact .inl ⟨y, slot, hy, hp⟩
  | taken =>
    have h : i ∈ Move.takenIn (t ++ [m]) := h
    rw [Move.takenIn_concat, quiet, Option.toList_none, List.append_nil] at h
    exact .inl h

/-- All stays so if one caller is moved that does not come to hold a scope. -/
lemma Held.of_put (he : Held t s) (hc : s.callers[c]? = some x) {place : Place}
    (callers : s'.callers = (s.put c x place).callers) (read : ∀ slot, s'.storage.read slot = s.storage.read slot)
    (none_made : s'.made = s.made) (quiet : m.taken? = none) (empty : ∀ slot i, place ≠ .publishing slot i) :
    Held (t ++ [m]) s' := by
  refine he.of_rests (fun p i h => ?_) none_made quiet
  rcases holds_put hc callers read quiet h with old | ⟨-, slot, hp⟩
  · exact old
  · exact absurd hp (empty slot i)

/-- All stays so if scopes go from one spot to another and nowhere else. -/
lemma Held.of_goes (he : Held t s) (src dst : Spot)
    (goes : ∀ p i, Holds (t ++ [m]) s' p i → p ≠ src ∧ Holds t s p i ∨ p = dst ∧ Holds t s src i)
    (none_made : s'.made = s.made) (once : (Move.takenIn (t ++ [m])).Nodup) : Held (t ++ [m]) s' where
  made p i h := by
    rw [none_made]
    rcases goes p i h with ⟨-, old⟩ | ⟨-, new⟩
    · exact he.made p i old
    · exact he.made src i new
  one p p' i h h' := by
    rcases goes p i h with ⟨ne, old⟩ | ⟨rfl, new⟩
    · rcases goes p' i h' with ⟨-, old'⟩ | ⟨-, new'⟩
      · exact he.one p p' i old old'
      · exact absurd (he.one p src i old new') ne
    · rcases goes p' i h' with ⟨ne', old'⟩ | ⟨rfl, -⟩
      · exact absurd (he.one p' src i old' new) ne'
      · rfl
  once := once

/-- All stays so if a build succeeds: its scope is new. -/
lemma Held.build (he : Held t s) (hc : s.callers[c]? = some x) :
    Held (t ++ [.build c x.key (.ok s.made)])
      { s.put c x (.publishing slot s.made) with made := s.made + 1 } := by
  have cases_put : ∀ p i, Holds (t ++ [.build c x.key (.ok s.made)])
      { s.put c x (.publishing slot s.made) with made := s.made + 1 } p i →
      Holds t s p i ∨ p = .caller c ∧ i = s.made := by
    intro p i h
    rcases holds_put hc rfl (fun _ => rfl) rfl h with old | ⟨e, slot', hp⟩
    · exact .inl old
    · cases hp
      exact .inr ⟨e, rfl⟩
  refine ⟨fun p i h => ?_, fun p p' i h h' => ?_, by simpa [Move.taken?] using he.once⟩
  · rcases cases_put p i h with old | ⟨-, rfl⟩
    · exact Nat.lt_succ_of_lt (he.made p i old)
    · exact Nat.lt_succ_self _
  · rcases cases_put p i h with old | ⟨rfl, rfl⟩
    · rcases cases_put p' i h' with old' | ⟨-, rfl⟩
      · exact he.one p p' i old old'
      · exact absurd (he.made p _ old) (Nat.lt_irrefl _)
    · rcases cases_put p' _ h' with old' | ⟨rfl, -⟩
      · exact absurd (he.made p' _ old') (Nat.lt_irrefl _)
      · rfl

/-- All stays so if a scope is published: it goes from its caller to the slot. -/
lemma Held.publish (he : Held t s) (lt : slot < s.storage.slots.length) {i : ScopeId}
    (hc : s.callers[c]? = some x) (hp : x.place = .publishing slot i) :
    Held (t ++ [.publish c x.key i]) ((s.restore (s.storage.publish slot i)).put c x (.leaving slot (.ok i))) := by
  refine he.of_goes (.caller c) (.slot slot) (fun p j h => ?_) rfl (by simpa [Move.taken?] using he.once)
  cases p with
  | slot slot' =>
    have h : (s.storage.publish slot i).read slot' = some j := h
    rw [Storage.read_publish lt] at h
    split at h
    case isTrue e =>
      cases h
      exact .inr ⟨congrArg Spot.slot e, x, slot, hc, hp⟩
    case isFalse => exact .inl ⟨nofun, h⟩
  | caller c' =>
    obtain ⟨y, slot', hy, hp'⟩ := h
    have hy : (s.put c x (.leaving slot (.ok i))).callers[c']? = some y := hy
    rw [callers_put hc] at hy
    split at hy
    case isTrue =>
      cases hy
      cases hp'
    case isFalse ne => exact .inl ⟨fun e => ne (Spot.caller.inj e), y, slot', hy, hp'⟩
  | taken =>
    exact .inl ⟨nofun, by simpa [Holds, Move.taken?] using h⟩

/-- All stays so if a sweeper takes the scope out of a slot. -/
lemma Held.take (he : Held t s) {n : SweeperId} {y : Sweeper} :
    Held (t ++ [.take n (s.storage.take slot).1]) ((s.restore (s.storage.take slot).2).putSweeper n y) := by
  have taken : ∀ i, i ∈ ((s.storage.take slot).1).toList ↔ Holds t s (.slot slot) i := fun i => Option.mem_toList
  refine he.of_goes (.slot slot) .taken (fun p i h => ?_) rfl ?_
  · cases p with
    | slot slot' =>
      have h : (s.storage.take slot).2.read slot' = some i := h
      rw [Storage.read_take] at h
      split at h
      case isTrue => cases h
      case isFalse ne => exact .inl ⟨fun e => ne (Spot.slot.inj e), h⟩
    | caller c => exact .inl ⟨nofun, h⟩
    | taken =>
      have h : i ∈ Move.takenIn (t ++ [.take n (s.storage.take slot).1]) := h
      rw [Move.takenIn_concat] at h
      rcases List.mem_append.mp h with old | new
      · exact .inl ⟨nofun, old⟩
      · exact .inr ⟨rfl, (taken i).mp new⟩
  · rw [Move.takenIn_concat]
    have one : ((s.storage.take slot).1).toList.Nodup := by cases (s.storage.take slot).1 <;> simp
    refine List.nodup_append.mpr ⟨he.once, one, ?_⟩
    -- what is in the slot was not taken out before
    rintro i old j new rfl
    cases he.one _ .taken i ((taken i).mp new) old

/-- Each step keeps the scopes so. -/
lemma held_step (he : Held t s) (sw : s.Swept) (st : Step s m s') : Held (t ++ [m]) s' := by
  cases st with
  | enter =>
    refine he.of_rests (fun p i h => ?_) rfl rfl
    cases p with
    | slot slot => exact h
    | caller c =>
      obtain ⟨x, slot, hc, hp⟩ := h
      rcases getElem?_concat_eq_some_iff.mp hc with old | ⟨-, rfl⟩
      · exact ⟨x, slot, old, hp⟩
      · cases hp
    | taken => simpa [Holds, Move.taken?] using h
  | fetch hc => exact he.of_put hc rfl (Storage.read_fetch _ _) rfl rfl nofun
  | release hc => exact he.of_put hc rfl (Storage.read_release _ _ _) rfl rfl nofun
  | acquire hc | check hc | stale hc | read hc | miss hc | fail e hc | retry hc | leave hc =>
    exact he.of_put hc rfl (fun _ => rfl) rfl rfl nofun
  | build hc => exact he.build hc
  | publish hc hp => exact he.publish (sw.slots _ _ _ hc (by rw [hp]; rfl)).1 hc hp
  | find | sweep | detach =>
    refine he.of_rests (fun p i h => ?_) rfl rfl
    cases p with
    | slot slot => exact h
    | caller c => exact h
    | taken => simpa [Holds, Move.taken?] using h
  | take => exact he.take

/-- After every run each scope that was made is held in one spot. -/
lemma held_run (run : Run start t s) : Held t s := by
  induction run with
  | rest => exact .start
  | step run st ih => exact held_step ih (swept_run .start run) st

/-! ## Main statement -/

/-- The storage is tidy once no caller is under way. -/
lemma Swept.tidy (sw : s.Swept) (done : ∀ x ∈ s.callers, x.place.isDone) : s.storage.Tidy := by
  refine ⟨sw.sound, fun key hk => ?_⟩
  obtain ⟨slot, here⟩ := Option.ne_none_iff_exists'.mp (fun h => Storage.slot?_eq_none_iff.mp h hk)
  cases hr : s.storage.read slot with
  | some i => simp [Storage.find, here, hr]
  | none =>
    -- a slot without a scope would be in the hands of a caller
    obtain ⟨c, x, hc, hp⟩ := sw.awaited key slot here hr
    have ended := done x (List.mem_of_getElem? hc)
    cases h : x.place <;> simp [h, Place.isDone, Place.slot?] at ended hp

end Crowd

/-- What holds of a storage whoever calls and sweeps, after these moves and from then on. -/
structure Upkeep (t : List Move) (s : Crowd) : Prop where
  /-- A slot of the table without a scope was fetched for its key by a caller that has not returned. -/
  awaited : ∀ key slot, s.storage.slot? key = some slot → s.storage.read slot = none →
    ∃ (c : CallerId) (x : Caller), s.callers[c]? = some x ∧ x.key = key ∧ x.place.slot? = some slot
  /-- A slot that was taken out of the table never comes back, for any key. -/
  gone : ∀ slot < s.storage.slots.length, (∀ key, s.storage.slot? key ≠ some slot) →
    ∀ t' s', Run s t' s' → ∀ key, s'.storage.slot? key ≠ some slot
  /-- A slot that holds a scope keeps it as long as it is in the table. -/
  keeps : ∀ slot i, s.storage.read slot = some i →
    ∀ t' s' key, Run s t' s' → s'.storage.slot? key = some slot → s'.storage.read slot = some i
  /-- A caller whose build failed takes no slot out of the table but its own, and no scope out of the storage. -/
  spares : ∀ c s', Step s (.release c) s' → ∃ (x : Caller) (slot : SlotId) (e : ScopeError),
    s.callers[c]? = some x ∧ x.place = .releasing slot e ∧
    (∀ key other, s'.storage.slot? key = some other ↔ s.storage.slot? key = some other ∧ other ≠ slot) ∧
    ∀ key, s'.storage.find key = s.storage.find key
  /-- No scope is taken out twice. -/
  once : (Move.takenIn t).Nodup
  /-- While no caller is under way there are as many slots as scopes. -/
  settled : (∀ x ∈ s.callers, x.place.isDone) → s.storage.slotCount = s.storage.size

namespace Crowd

variable {s : Crowd} {t : List Move}

/-- The storage is kept up in every run, in which sweepers may take any keys out at any moment. -/
theorem upkeep (run : Run start t s) : Upkeep t s := by
  have sw := swept_run .start run
  constructor
  case awaited =>
    intro key slot here hr
    obtain ⟨c, x, hc, hp⟩ := sw.awaited key slot here hr
    obtain ⟨-, own⟩ := sw.slots c x slot hc hp
    exact ⟨c, x, hc, (own key here).symm, hp⟩
  case gone =>
    intro slot lt out t' s' run' key here
    exact out key ((later_run run').slot? key slot lt here)
  case keeps =>
    intro slot i hr t' s' key run' here
    exact sw.read_run run' here hr
  case spares =>
    intro c s' st
    cases st with
    | @release c x slot e hc hp =>
      have kept := sw.toOrdered.slot?_release hc (by rw [hp]; rfl)
      refine ⟨x, slot, e, hc, hp, kept, fun key => ?_⟩
      have empty := sw.vacant c x slot hc (by rw [hp]; rfl)
      have find : (s.storage.release x.key slot).find key = s.storage.find key := by
        rw [Storage.find, Storage.find, funext (s.storage.read_release x.key slot), Storage.slot?_release]
        split
        -- the one slot that is taken out holds no scope
        case isTrue h =>
          obtain ⟨rfl, here⟩ := h
          rw [here]
          exact empty.symm
        case isFalse => rfl
      exact find
  case once => exact (held_run run).once
  case settled =>
    intro done
    exact (sw.tidy done).size_eq_slotCount.symm

/-- While a caller builds, its key is taken out of the table and another caller stores a scope under the key. When the
first build fails in the end, this scope stays. -/
theorem upkeep_late_failure :
    let key : ScopeKey := ⟨"demo", "A"⟩
    let e : ScopeError := .producer "out of order"
    let t : List Move :=
      [.enter 0 key none, .fetch 0, .acquire 0, .check 0, .read 0, .sweep 0 [key], .detach 0 key (some 0),
        .enter 1 key none, .fetch 1, .acquire 1, .check 1, .read 1, .build 1 key (.ok 0), .publish 1 key 0,
        .leave 1 key (.ok 0), .take 0 none, .build 0 key (.error e)]
    ∃ s s', Run start t s ∧ Step s (.release 0) s' ∧ s'.storage.find key = some 0 := by
  intro key e t
  let first : Turn := .go 0 none
  let second : Turn := .go 1 none
  let turns : List Turn :=
    [.enter key none, first, first, first, first, .sweep [key], .reap 0, .enter key none, second, second, second,
      second, second, second, second, .reap 0, .go 0 (some e)]
  have played : (start.play turns).map (fun a => (a.1, (a.2.turn? first).map Prod.fst, a.2.storage)) =
      some (t, some (.release 0), ⟨[(key, 1)], [none, some 0]⟩) := by decide +kernel
  obtain ⟨⟨t', s⟩, hs, eq⟩ := Option.map_eq_some_iff.mp played
  obtain ⟨moves, rest⟩ := Prod.mk.inj eq
  obtain ⟨next, storage⟩ := Prod.mk.inj rest
  obtain ⟨⟨m, s'⟩, hs', rfl⟩ := Option.map_eq_some_iff.mp next
  have run : Run start t s := moves ▸ run_of_play .rest hs
  have st : Step s (.release 0) s' := step_of_turn? hs'
  obtain ⟨-, -, -, -, -, -, find⟩ := (upkeep run).spares 0 s' st
  refine ⟨s, s', run, st, ?_⟩
  rw [find, storage]
  decide +kernel

end Crowd

end ModelScopes
