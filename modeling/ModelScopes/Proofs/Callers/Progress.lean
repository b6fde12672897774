import Mathlib.Data.Fintype.EquivFin
import Mathlib.Order.WellFounded
import ModelScopes.Proofs.Callers.Order
import ModelScopes.Proofs.Callers.Turn

/-!
# Progress of callers

A caller waits while another one holds the lock of its slot, and while a call from within its own build is not done.
That a producer does not call for the key that it builds for is not enough to keep callers from waiting for each other
for ever (`Crowd.stuck_in_circle`). It is enough that the calls under way are not nested in a circle: no chain of keys,
each of which is called for from within a build for the one before, leads back to where it began. Then no group of
callers waits for locks that are held within the group, and somebody goes on (`Crowd.unblocked`). A scope that is being
built is handed to nobody before it is published, and look-ups and sweepers never wait.
-/

namespace ModelScopes

namespace Move

/-- The caller that goes on in a move. -/
def caller? : Move → Option CallerId
  | fetch c | acquire c | check c | read c | build c _ _ | publish c _ _ | release c | retry c | leave c _ _ => some c
  | _ => none

/-- The sweeper that goes on in a move. -/
def sweeper? : Move → Option SweeperId
  | detach n _ _ | take n _ => some n
  | _ => none

end Move

/-- Whether a sweeper has nothing left to do. -/
def Sweeper.isDone (y : Sweeper) : Bool :=
  y.keys.isEmpty && y.taking.isNone

namespace Crowd

/-- A caller has not returned yet. -/
def Underway (s : Crowd) (c : CallerId) : Prop :=
  ∃ x, s.callers[c]? = some x ∧ ¬ x.place.isDone

/-- A caller can take a step. -/
def GoesOn (s : Crowd) (c : CallerId) : Prop :=
  ∃ m s', Step s m s' ∧ m.caller? = some c

/-- A caller waits for another one: for the holder of the lock of its slot, or for a call from within its build. -/
inductive WaitsFor (s : Crowd) (c c' : CallerId) : Prop where
  | lock (x : Caller) (slot : SlotId) :
    s.callers[c]? = some x → x.place = .waiting slot → s.holder slot = some c' → WaitsFor s c c'
  | inner (x y : Caller) :
    s.callers[c]? = some x → x.place.isBuilding → s.callers[c']? = some y → y.parent = some c → ¬ y.place.isDone →
    WaitsFor s c c'

/-- Somebody builds for a key and calls for another from within the build. -/
inductive Nests (s : Crowd) : ScopeKey → ScopeKey → Prop where
  | call (c c' : CallerId) (x y : Caller) :
    s.callers[c]? = some x → x.place.isBuilding → s.callers[c']? = some y → y.parent = some c → ¬ y.place.isDone →
    Nests s x.key y.key

/-- The calls under way are not nested in a circle. -/
def Uncircled (s : Crowd) : Prop :=
  ∀ key, ¬ Relation.TransGen s.Nests key key

/-- No producer has called for the key that it was itself building for. -/
def Obedient (s : Crowd) : Prop :=
  ∀ x ∈ s.callers, ∀ c ∈ x.parent, ∀ y ∈ s.callers[c]?, x.key ≠ y.key

instance (s : Crowd) : Decidable s.Obedient :=
  inferInstanceAs (Decidable (∀ x ∈ s.callers, ∀ c ∈ x.parent, ∀ y ∈ s.callers[c]?, x.key ≠ y.key))

/-- What holds of a crowd in which nobody is stuck. -/
structure Unblocked (s : Crowd) : Prop where
  /-- In each group of callers under way there is one that waits for nobody in the group. -/
  apart : ∀ group : Set CallerId, group.Nonempty → (∀ c ∈ group, s.Underway c) →
    ∃ c ∈ group, ∀ c' ∈ group, ¬ s.WaitsFor c c'
  /-- While a caller is under way, there is one under way that can take a step. -/
  goes : (∃ c, s.Underway c) → ∃ c, s.Underway c ∧ s.GoesOn c
  /-- A sweeper can always take a step until it is done. -/
  sweeps : ∀ n y, s.sweepers[n]? = some y → ¬ y.isDone → ∃ m s', Step s m s' ∧ m.sweeper? = some n

variable {s s' : Crowd} {c c' : CallerId} {x y : Caller} {slot : SlotId} {t : List Move} {m : Move}

/-! ## Slots and keys -/

/-- Callers that have fetched the same slot have the same key. -/
def Keyed (s : Crowd) : Prop :=
  ∀ (c c' : CallerId) (x y : Caller) (slot : SlotId), s.callers[c]? = some x → s.callers[c']? = some y →
    x.place.slot? = some slot → y.place.slot? = some slot → x.key = y.key

/-- A crowd in which nobody has called is keyed. -/
lemma Keyed.start : start.Keyed :=
  fun _ _ _ _ _ h => by simp [Crowd.start] at h

/-- Slots still tell keys if one caller is moved, provided that all others with its new slot have its key. -/
lemma Keyed.of_put (ke : s.Keyed) (hc : s.callers[c]? = some x) {place : Place}
    (callers : s'.callers = (s.put c x place).callers)
    (same : ∀ (c' : CallerId) (y : Caller) (slot : SlotId), s.callers[c']? = some y → y.place.slot? = some slot →
      place.slot? = some slot → y.key = x.key) : s'.Keyed := by
  intro c₁ c₂ y₁ y₂ slot h₁ h₂ p₁ p₂
  rw [callers, callers_put hc] at h₁ h₂
  split at h₁
  case isTrue =>
    cases h₁
    split at h₂
    case isTrue =>
      cases h₂
      rfl
    case isFalse => exact (same c₂ y₂ slot h₂ p₂ p₁).symm
  case isFalse =>
    split at h₂
    case isTrue =>
      cases h₂
      exact same c₁ y₁ slot h₁ p₁ p₂
    case isFalse => exact ke c₁ c₂ y₁ y₂ slot h₁ h₂ p₁ p₂

/-- Slots still tell keys if a caller goes on with the slot it has, or parts with it. -/
lemma Keyed.of_go_on (ke : s.Keyed) (hc : s.callers[c]? = some x) {place : Place}
    (callers : s'.callers = (s.put c x place).callers)
    (slot : ∀ slot, place.slot? = some slot → x.place.slot? = some slot) : s'.Keyed :=
  ke.of_put hc callers fun c' y t hy p p' => ke c' c y x t hy hc p (slot t p')

/-- Each step keeps it so that slots tell keys. -/
lemma keyed_step (or : s.Ordered) (ke : s.Keyed) (st : Step s m s') : s'.Keyed := by
  cases st with
  | enter =>
    intro c₁ c₂ y₁ y₂ slot h₁ h₂ p₁ p₂
    rcases getElem?_concat_eq_some_iff.mp h₁ with old₁ | ⟨-, rfl⟩
    · rcases getElem?_concat_eq_some_iff.mp h₂ with old₂ | ⟨-, rfl⟩
      · exact ke c₁ c₂ y₁ y₂ slot old₁ old₂ p₁ p₂
      · cases p₂
    · cases p₁
  | @fetch c x hc hp =>
    refine ke.of_put hc rfl fun c' y slot hy p p' => ?_
    cases p'
    obtain ⟨lt, own⟩ := or.slots c' y _ hy p
    have here : (s.storage.fetch x.key).2.slot? x.key = some (s.storage.fetch x.key).1 := by
      rw [Storage.slot?_fetch, if_pos rfl]
    -- a slot that somebody has fetched already is not new, and so it is the key's
    exact (own x.key ((s.storage.later_fetch x.key).slot? x.key _ lt here)).symm
  | acquire hc hp | check hc hp | stale hc hp | read hc hp | miss hc hp | build hc hp | fail e hc hp | publish hc hp
  | release hc hp =>
    exact ke.of_go_on hc rfl fun slot h => by rw [hp]; exact h
  | retry hc | leave hc => exact ke.of_go_on hc rfl nofun
  | find => exact ke
  | sweep | detach | take => exact ke

/-- After every run the crowd is keyed. -/
lemma keyed_run (run : Run start t s) : s.Keyed := by
  induction run with
  | rest => exact .start
  | step run st ih => exact keyed_step (ordered_run .start run) ih st

/-! ## Waiting -/

/-- The holder of a lock is a caller that knows it. -/
lemma Ordered.holder_held (or : s.Ordered) (h : s.holder slot = some c) :
    ∃ x, s.callers[c]? = some x ∧ x.place.held? = some slot :=
  (or.holder slot c).mp h

/-- Whoever is waited for has not returned. -/
lemma Ordered.underway (or : s.Ordered) (w : s.WaitsFor c c') : s.Underway c' := by
  cases w with
  | lock x slot hc hp held =>
    obtain ⟨y, hy, hold⟩ := or.holder_held held
    refine ⟨y, hy, fun done => ?_⟩
    cases h : y.place <;> simp [h, Place.isDone, Place.held?] at done hold
  | inner x y hc hp hy parent undone => exact ⟨y, hy, undone⟩

/-- A caller under way goes on unless it waits. -/
lemma Underway.goes_on_or_waits (un : s.Underway c) : s.GoesOn c ∨ ∃ c', s.WaitsFor c c' := by
  obtain ⟨x, hc, undone⟩ := un
  -- a caller waits in two places only: for a lock, and for calls from within its build
  cases hp : x.place with
  | asking => exact .inl ⟨_, _, .fetch hc hp, rfl⟩
  | waiting slot =>
    cases held : s.holder slot with
    | none => exact .inl ⟨_, _, .acquire hc hp held, rfl⟩
    | some c' => exact .inr ⟨c', .lock x slot hc hp held⟩
  | checking slot =>
    cases current : s.storage.isCurrent x.key slot with
    | true => exact .inl ⟨_, _, .check hc hp current, rfl⟩
    | false => exact .inl ⟨_, _, .stale hc hp current, rfl⟩
  | reading slot =>
    cases here : s.storage.read slot with
    | some i => exact .inl ⟨_, _, .read hc hp here, rfl⟩
    | none => exact .inl ⟨_, _, .miss hc hp here, rfl⟩
  | building slot =>
    by_cases idle : s.Idle c
    · exact .inl ⟨_, _, .build hc hp idle, rfl⟩
    · obtain ⟨y, hy, parent, undone'⟩ : ∃ y ∈ s.callers, y.parent = some c ∧ ¬ y.place.isDone := by
        simpa [Idle] using idle
      obtain ⟨c', hy'⟩ := List.mem_iff_getElem?.mp hy
      exact .inr ⟨c', .inner x y hc (by rw [hp]; rfl) hy' parent undone'⟩
  | publishing slot i => exact .inl ⟨_, _, .publish hc hp, rfl⟩
  | releasing slot e => exact .inl ⟨_, _, .release hc hp, rfl⟩
  | retrying slot => exact .inl ⟨_, _, .retry hc hp, rfl⟩
  | leaving slot r => exact .inl ⟨_, _, .leave hc hp, rfl⟩
  | done r => exact absurd (by rw [hp]; rfl) undone

/-- A caller that takes a step is under way, finds the lock free that it waits for, and all calls from within its build
done. -/
lemma GoesOn.free (go : s.GoesOn c) :
    ∃ x, s.callers[c]? = some x ∧ ¬ x.place.isDone ∧ (∀ slot, x.place = .waiting slot → s.holder slot = none) ∧
      (x.place.isBuilding → s.Idle c) := by
  obtain ⟨m, s', st, mine⟩ := go
  cases st with
  | @acquire c x slot hc hp free =>
    cases mine
    refine ⟨x, hc, by simp [hp, Place.isDone], fun slot' hp' => ?_, by simp [hp, Place.isBuilding]⟩
    rw [hp] at hp'
    cases hp'
    exact free
  | build hc hp idle | fail e hc hp idle =>
    cases mine
    exact ⟨_, hc, by simp [hp, Place.isDone], by simp [hp], fun _ => idle⟩
  | fetch hc hp | check hc hp | stale hc hp | read hc hp | miss hc hp | publish hc hp | release hc hp
  | retry hc hp | leave hc hp =>
    cases mine
    exact ⟨_, hc, by simp [hp, Place.isDone], by simp [hp], by simp [hp, Place.isBuilding]⟩
  | enter | find | sweep | detach | take => cases mine

/-- Whoever waits cannot take a step. -/
lemma WaitsFor.stays (w : s.WaitsFor c c') : ¬ s.GoesOn c := by
  intro go
  obtain ⟨x', hc', -, free, idle⟩ := go.free
  cases w with
  | lock x slot hc hp held =>
    rw [hc] at hc'
    cases hc'
    rw [free slot hp] at held
    cases held
  | inner x y hc hp hy parent undone =>
    rw [hc] at hc'
    cases hc'
    exact undone (idle hp y (List.mem_of_getElem? hy) parent)

/-! ## Circles -/

/-- Whoever waits for the lock of a slot has the same key as its holder, which does not wait for a lock. -/
lemma Ordered.holder_of_waits (or : s.Ordered) (ke : s.Keyed) (hc : s.callers[c]? = some x)
    (unbuilding : ¬ x.place.isBuilding) (w : s.WaitsFor c c') :
    ∃ y, s.callers[c']? = some y ∧ y.key = x.key ∧ ∀ slot, y.place ≠ .waiting slot := by
  cases w with
  | lock x' slot hc' hp held =>
    rw [hc] at hc'
    cases hc'
    obtain ⟨y, hy, hold⟩ := or.holder_held held
    have fetched : y.place.slot? = some slot := by
      cases h : y.place <;> rw [h] at hold <;> first | exact hold | cases hold
    refine ⟨y, hy, ke c' c y x slot hy hc fetched (by rw [hp]; rfl), fun slot' waits => ?_⟩
    rw [waits] at hold
    cases hold
  | inner x' y hc' hp =>
    rw [hc] at hc'
    cases hc'
    exact absurd hp unbuilding

/-- In a group whose members all wait for members, each key is built for by a member. -/
lemma Ordered.exists_builder (or : s.Ordered) (ke : s.Keyed) {group : Set CallerId}
    (waits : ∀ c ∈ group, ∃ c' ∈ group, s.WaitsFor c c') (mem : c ∈ group) (hc : s.callers[c]? = some x) :
    ∃ c' ∈ group, ∃ y, s.callers[c']? = some y ∧ y.key = x.key ∧ y.place.isBuilding := by
  by_cases building : x.place.isBuilding
  · exact ⟨c, mem, x, hc, rfl, building⟩
  · obtain ⟨c', mem', w⟩ := waits c mem
    obtain ⟨y, hy, key, unlocked⟩ := or.holder_of_waits ke hc building w
    obtain ⟨c'', -, w'⟩ := waits c' mem'
    -- the holder waits, too, though for no lock
    cases w' with
    | lock y' slot hy' hp =>
      rw [hy] at hy'
      cases hy'
      exact absurd hp (unlocked slot)
    | inner y' _ hy' hp =>
      rw [hy] at hy'
      cases hy'
      exact ⟨c', mem', y, hy, key, hp⟩

/-- In such a group, whoever builds has called for another key that is built for by a member. -/
lemma Ordered.exists_nested (or : s.Ordered) (ke : s.Keyed) {group : Set CallerId}
    (waits : ∀ c ∈ group, ∃ c' ∈ group, s.WaitsFor c c') (mem : c ∈ group) (hc : s.callers[c]? = some x)
    (building : x.place.isBuilding) :
    ∃ c' ∈ group, ∃ y, s.callers[c']? = some y ∧ y.place.isBuilding ∧ s.Nests x.key y.key := by
  obtain ⟨c', mem', w⟩ := waits c mem
  cases w with
  | lock x' slot hc' hp =>
    rw [hc] at hc'
    cases hc'
    rw [hp] at building
    cases building
  | inner x' z hc' hp hz parent undone =>
    rw [hc] at hc'
    cases hc'
    obtain ⟨c'', mem'', y, hy, key, building'⟩ := or.exists_builder ke waits mem' hz
    exact ⟨c'', mem'', y, hy, building', key ▸ .call c c' x z hc hp hz parent undone⟩

/-- Among finitely many callers, keys that are not nested in a circle are not nested for ever. -/
lemma Uncircled.wellFounded (un : s.Uncircled) :
    WellFounded fun i j : Fin s.callers.length => Relation.TransGen s.Nests s.callers[j].key s.callers[i].key := by
  let inside (i j : Fin s.callers.length) := Relation.TransGen s.Nests s.callers[j].key s.callers[i].key
  have trans : IsTrans _ inside := ⟨fun _ _ _ h h' => h'.trans h⟩
  have irrefl : Std.Irrefl inside := ⟨fun i => un s.callers[i].key⟩
  exact Finite.wellFounded_of_trans_of_irrefl inside

/-- If no calls are nested in a circle then in each group there is one that waits for nobody in the group. -/
lemma Ordered.exists_apart (or : s.Ordered) (ke : s.Keyed) (un : s.Uncircled) {group : Set CallerId}
    (inhabited : group.Nonempty) (underway : ∀ c ∈ group, s.Underway c) :
    ∃ c ∈ group, ∀ c' ∈ group, ¬ s.WaitsFor c c' := by
  by_contra none_apart
  have waits : ∀ c ∈ group, ∃ c' ∈ group, s.WaitsFor c c' := by
    intro c mem
    by_contra apart
    exact none_apart ⟨c, mem, fun c' mem' w => apart ⟨c', mem', w⟩⟩
  obtain ⟨c, mem⟩ := inhabited
  obtain ⟨x, hc, -⟩ := underway c mem
  obtain ⟨c₁, mem₁, y, hy, -, building⟩ := or.exists_builder ke waits mem hc
  obtain ⟨lt, here⟩ := List.getElem?_eq_some_iff.mp hy
  -- the innermost of those that build has called from within its build, too
  obtain ⟨i, ⟨memᵢ, buildingᵢ⟩, innermost⟩ := un.wellFounded.has_min
    {i | i.val ∈ group ∧ s.callers[i].place.isBuilding} ⟨⟨c₁, lt⟩, mem₁, by simpa [here] using building⟩
  obtain ⟨c₂, mem₂, z, hz, building₂, nested⟩ :=
    or.exists_nested ke waits memᵢ (List.getElem?_eq_getElem i.isLt) buildingᵢ
  obtain ⟨lt₂, here₂⟩ := List.getElem?_eq_some_iff.mp hz
  refine innermost ⟨c₂, lt₂⟩ ⟨mem₂, by simpa [here₂] using building₂⟩ ?_
  exact .single (by simpa [here₂] using nested)

/-- A numbering of keys that falls with each call from within a build rules circles out. -/
lemma uncircled_of_rank (rank : ScopeKey → Nat)
    (falls : ∀ x ∈ s.callers, ∀ c ∈ x.parent, ∀ y ∈ s.callers[c]?, rank x.key < rank y.key) : s.Uncircled := by
  have step : ∀ key key', s.Nests key key' → rank key' < rank key := by
    rintro _ _ ⟨c, c', x, y, hc, -, hy, parent, -⟩
    exact falls y (List.mem_of_getElem? hy) c parent x hc
  intro key circle
  have lt : ∀ key', Relation.TransGen s.Nests key key' → rank key' < rank key := by
    intro key' h
    induction h with
    | single h => exact step _ _ h
    | tail _ h ih => exact Nat.lt_trans (step _ _ h) ih
  exact Nat.lt_irrefl _ (lt key circle)

/-! ## Main statements -/

/-- A sweeper that is not done can always go on. -/
lemma sweeper_goes_on {n : SweeperId} {y : Sweeper} (hn : s.sweepers[n]? = some y) (undone : ¬ y.isDone) :
    ∃ m s', Step s m s' ∧ m.sweeper? = some n := by
  obtain ⟨keys, taking, taken⟩ := y
  cases taking with
  | some slot => exact ⟨_, _, .take hn, rfl⟩
  | none =>
    cases keys with
    | nil => exact absurd rfl undone
    | cons key rest => exact ⟨_, _, .detach hn, rfl⟩

/-- Nobody is stuck as long as the calls under way are not nested in a circle, whoever calls, nests and sweeps. -/
theorem unblocked (run : Run start t s) (un : s.Uncircled) : s.Unblocked := by
  have or := ordered_run .start run
  have apart : ∀ group : Set CallerId, group.Nonempty → (∀ c ∈ group, s.Underway c) →
      ∃ c ∈ group, ∀ c' ∈ group, ¬ s.WaitsFor c c' := fun _ => or.exists_apart (keyed_run run) un
  refine ⟨apart, ?_, fun n y => sweeper_goes_on⟩
  rintro ⟨c, begun⟩
  obtain ⟨c₁, underway, alone⟩ := apart {c | s.Underway c} ⟨c, begun⟩ fun _ => id
  refine ⟨c₁, underway, ?_⟩
  rcases underway.goes_on_or_waits with goes | ⟨c₂, w⟩
  · exact goes
  · exact absurd w (alone c₂ (or.underway w))

/-- A caller for one key waits for another one, from within whose build another key is called for, which a fourth one
builds for. The calls are not nested in a circle, and the last of them goes on. -/
theorem unblocked_nested :
    let a : ScopeKey := ⟨"demo", "A"⟩
    let b : ScopeKey := ⟨"demo", "B"⟩
    let t : List Move :=
      [.enter 0 a none, .fetch 0, .acquire 0, .check 0, .read 0, .enter 1 a none, .fetch 1, .enter 2 b none, .fetch 2,
        .acquire 2, .check 2, .read 2, .enter 3 b (some 0), .fetch 3]
    ∃ s, Run start t s ∧ s.Uncircled ∧ (s.WaitsFor 1 0 ∧ s.WaitsFor 0 3 ∧ s.WaitsFor 3 2) ∧ s.Unblocked := by
  intro a b t
  let turns : List Turn :=
    [.enter a none, .go 0 none, .go 0 none, .go 0 none, .go 0 none, .enter a none, .go 1 none, .enter b none,
      .go 2 none, .go 2 none, .go 2 none, .go 2 none, .enter b (some 0), .go 3 none]
  have played : (start.play turns).map (fun p => (p.1, p.2.callers, p.2.holder 0, p.2.holder 1)) =
      some (t, [⟨a, none, .building 0⟩, ⟨a, none, .waiting 0⟩, ⟨b, none, .building 1⟩, ⟨b, some 0, .waiting 1⟩],
        some 0, some 2) := by decide +kernel
  obtain ⟨⟨t', s⟩, hs, eq⟩ := Option.map_eq_some_iff.mp played
  obtain ⟨moves, rest⟩ := Prod.mk.inj eq
  obtain ⟨callers, locks⟩ := Prod.mk.inj rest
  obtain ⟨first, second⟩ := Prod.mk.inj locks
  have run : Run start t s := moves ▸ run_of_play .rest hs
  have un : s.Uncircled := by
    refine uncircled_of_rank (fun key => if key = a then 1 else 0) ?_
    rw [callers]
    decide +kernel
  refine ⟨s, run, un, ⟨?_, ?_, ?_⟩, unblocked run un⟩
  · exact .lock ⟨a, none, .waiting 0⟩ 0 (by rw [callers]; rfl) rfl first
  · exact .inner ⟨a, none, .building 0⟩ ⟨b, some 0, .waiting 1⟩ (by rw [callers]; rfl) rfl (by rw [callers]; rfl) rfl
      (by decide)
  · exact .lock ⟨b, some 0, .waiting 1⟩ 1 (by rw [callers]; rfl) rfl second

/-- If all that are under way wait then nobody goes on. -/
lemma stuck_of_waits (waits : ∀ c, s.Underway c → ∃ c', s.WaitsFor c c') (c : CallerId) : ¬ s.GoesOn c := by
  intro go
  obtain ⟨x, hc, undone, -⟩ := go.free
  obtain ⟨c', w⟩ := waits c ⟨x, hc, undone⟩
  exact w.stays go

/-- A producer calls for another key, and the producer of that key calls for the first: none of them calls for the key
it builds for, and yet all of them wait for ever. So do two callers whose producers call for each other's key. -/
theorem stuck_in_circle :
    let a : ScopeKey := ⟨"demo", "A"⟩
    let b : ScopeKey := ⟨"demo", "B"⟩
    let one : List Move :=
      [.enter 0 a none, .fetch 0, .acquire 0, .check 0, .read 0, .enter 1 b (some 0), .fetch 1, .acquire 1, .check 1,
        .read 1, .enter 2 a (some 1), .fetch 2]
    let two : List Move :=
      [.enter 0 a none, .fetch 0, .acquire 0, .check 0, .read 0, .enter 1 b none, .fetch 1, .acquire 1, .check 1,
        .read 1, .enter 2 b (some 0), .fetch 2, .enter 3 a (some 1), .fetch 3]
    ∀ t ∈ [one, two], ∃ s, Run start t s ∧ s.Obedient ∧ (∃ c, s.Underway c) ∧ ∀ c, ¬ s.GoesOn c := by
  intro a b one two t mem
  rcases List.mem_pair.mp mem with rfl | rfl
  · let turns : List Turn :=
      [.enter a none, .go 0 none, .go 0 none, .go 0 none, .go 0 none, .enter b (some 0), .go 1 none, .go 1 none,
        .go 1 none, .go 1 none, .enter a (some 1), .go 2 none]
    have played : (start.play turns).map (fun p => (p.1, p.2.callers, p.2.holder 0)) =
        some (one, [⟨a, none, .building 0⟩, ⟨b, some 0, .building 1⟩, ⟨a, some 1, .waiting 0⟩], some 0) := by
      decide +kernel
    obtain ⟨⟨t', s⟩, hs, eq⟩ := Option.map_eq_some_iff.mp played
    obtain ⟨moves, rest⟩ := Prod.mk.inj eq
    obtain ⟨callers, first⟩ := Prod.mk.inj rest
    have outer : s.callers[0]? = some ⟨a, none, .building 0⟩ := by rw [callers]; rfl
    have middle : s.callers[1]? = some ⟨b, some 0, .building 1⟩ := by rw [callers]; rfl
    have inner : s.callers[2]? = some ⟨a, some 1, .waiting 0⟩ := by rw [callers]; rfl
    refine ⟨s, moves ▸ run_of_play .rest hs, ?_, ⟨0, _, outer, by decide⟩, stuck_of_waits ?_⟩
    · unfold Obedient
      rw [callers]
      decide +kernel
    · rintro c ⟨x, hc, -⟩
      rw [callers] at hc
      match c, hc with
      | 0, _ => exact ⟨1, .inner _ _ outer rfl middle rfl (by decide)⟩
      | 1, _ => exact ⟨2, .inner _ _ middle rfl inner rfl (by decide)⟩
      | 2, _ => exact ⟨0, .lock _ 0 inner rfl first⟩
  · let turns : List Turn :=
      [.enter a none, .go 0 none, .go 0 none, .go 0 none, .go 0 none, .enter b none, .go 1 none, .go 1 none,
        .go 1 none, .go 1 none, .enter b (some 0), .go 2 none, .enter a (some 1), .go 3 none]
    have played : (start.play turns).map (fun p => (p.1, p.2.callers, p.2.holder 0, p.2.holder 1)) =
        some (two, [⟨a, none, .building 0⟩, ⟨b, none, .building 1⟩, ⟨b, some 0, .waiting 1⟩, ⟨a, some 1, .waiting 0⟩],
          some 0, some 1) := by decide +kernel
    obtain ⟨⟨t', s⟩, hs, eq⟩ := Option.map_eq_some_iff.mp played
    obtain ⟨moves, rest⟩ := Prod.mk.inj eq
    obtain ⟨callers, locks⟩ := Prod.mk.inj rest
    obtain ⟨first, second⟩ := Prod.mk.inj locks
    have buildsA : s.callers[0]? = some ⟨a, none, .building 0⟩ := by rw [callers]; rfl
    have buildsB : s.callers[1]? = some ⟨b, none, .building 1⟩ := by rw [callers]; rfl
    have callsB : s.callers[2]? = some ⟨b, some 0, .waiting 1⟩ := by rw [callers]; rfl
    have callsA : s.callers[3]? = some ⟨a, some 1, .waiting 0⟩ := by rw [callers]; rfl
    refine ⟨s, moves ▸ run_of_play .rest hs, ?_, ⟨0, _, buildsA, by decide⟩, stuck_of_waits ?_⟩
    · unfold Obedient
      rw [callers]
      decide +kernel
    · rintro c ⟨x, hc, -⟩
      rw [callers] at hc
      match c, hc with
      | 0, _ => exact ⟨2, .inner _ _ buildsA rfl callsB rfl (by decide)⟩
      | 1, _ => exact ⟨3, .inner _ _ buildsB rfl callsA rfl (by decide)⟩
      | 2, _ => exact ⟨1, .lock _ 1 callsB rfl second⟩
      | 3, _ => exact ⟨0, .lock _ 0 callsA rfl first⟩

end Crowd

end ModelScopes
