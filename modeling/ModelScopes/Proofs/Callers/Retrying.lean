import Mathlib.Algebra.BigOperators.Intervals
import Mathlib.Algebra.Order.BigOperators.Group.Finset
import Mathlib.Algebra.Order.BigOperators.Group.List
import Mathlib.Data.Nat.Nth
import ModelScopes.Proofs.Callers.Progress

/-!
# Starting again

A caller starts again if the slot that it has fetched is not its key's any more by the time it holds the lock. Nothing
counts how often it does so, and the key may have got another slot each time. But a slot that it fetched was its key's
then, so it was taken out of the table in the meantime: by another caller whose build failed, or by a sweeper. Each call
takes out no more slots than it asks for keys, so a caller goes round no more often than there are calls on its key, its
own included, and if it is alone it never starts again. `Crowd.Course.bounded` is the main statement.
-/

namespace ModelScopes

/-! ## Places -/

namespace Place

/-- How many steps there are at most before the caller has returned, unless it starts again later on. -/
def rest : Place → ℕ
  | retrying _ => 8
  | asking => 7
  | waiting _ => 6
  | checking _ => 5
  | reading _ => 4
  | building _ => 3
  | publishing _ _ | releasing _ _ => 2
  | leaving _ _ => 1
  | done _ => 0

/-- Whether the caller has no slot yet that was found to be the one of its key. -/
def isSearching : Place → Bool
  | asking | waiting _ | checking _ | retrying _ => true
  | _ => false

/-- Whether the caller was found to have another slot than its key. -/
def isRetrying : Place → Bool
  | retrying _ => true
  | _ => false

/-- Whether the caller has its answer. -/
def isAnswered : Place → Bool
  | leaving _ _ | done _ => true
  | _ => false

/-- Whether the slot that a caller has fetched is not its key's any more, as far as this matters to the caller. -/
def isStale (st : Storage) (key : ScopeKey) : Place → Bool
  | waiting slot | checking slot => !st.isCurrent key slot
  | retrying _ => true
  | _ => false

variable {place : Place} {st st' : Storage} {key : ScopeKey}

/-- The slot of a caller that gives it up is stale. -/
lemma isStale_of_retrying (h : place.isRetrying) : place.isStale st key := by
  cases place <;> first | rfl | cases h

/-- Once a caller has checked its slot it does not matter whether the slot gets stale. -/
lemma isStale_of_not_searching (h : ¬ place.isSearching) : place.isStale st key = false := by
  cases place <;> first | rfl | exact absurd rfl h

/-- A slot does not get stale while it is its key's. -/
lemma isStale_of_still (still : ∀ slot, st.isCurrent key slot → st'.isCurrent key slot)
    (h : place.isStale st' key) : place.isStale st key := by
  cases place with
  | waiting slot | checking slot =>
    simp only [isStale, Bool.not_eq_true', Bool.eq_false_iff] at h ⊢
    exact fun current => h (still slot current)
  | _ => exact h

end Place

/-- How many slots of a key a caller may still take out: one, until it has its answer. -/
def Caller.takers (x : Caller) (key : ScopeKey) : ℕ :=
  if x.key = key ∧ ¬ x.place.isAnswered then 1 else 0

namespace Caller

variable {x : Caller} {key : ScopeKey} {place : Place}

/-- A caller may take a slot of its key out, or it has its answer. -/
lemma takers_add_isAnswered (of_key : x.key = key) : x.takers key + x.place.isAnswered.toNat = 1 := by
  cases h : x.place.isAnswered <;> simp [takers, of_key, h]

/-- A caller that goes on takes no more slots out than before. -/
lemma takers_le (on : x.place.isAnswered → place.isAnswered) (key : ScopeKey) :
    { x with place }.takers key ≤ x.takers key := by
  unfold takers
  split
  case isTrue may => rw [if_pos ⟨may.1, fun h => may.2 (on h)⟩]
  case isFalse => exact Nat.zero_le _

end Caller

/-- How many slots of a key may be taken out by whoever comes in a move. -/
def Move.takers (m : Move) (key : ScopeKey) : ℕ :=
  match m with
  | .enter _ key' _ => if key' = key then 1 else 0
  | .sweep _ keys => keys.count key
  | _ => 0

/-- A sum over a list with one member changed. -/
lemma sum_map_set {α : Type} (f : α → ℕ) {xs : List α} {i : ℕ} {a : α} (h : xs[i]? = some a) (b : α) :
    ((xs.set i b).map f).sum + f a = (xs.map f).sum + f b := by
  induction xs generalizing i with
  | nil => cases h
  | cons x rest ih =>
    cases i with
    | zero =>
      cases h
      simp only [List.set_cons_zero, List.map_cons, List.sum_cons]
      omega
    | succ i =>
      have changed := ih h
      simp only [List.set_cons_succ, List.map_cons, List.sum_cons]
      omega

namespace Crowd

variable {s s' : Crowd} {c c' : CallerId} {x x' : Caller} {key : ScopeKey} {slot : SlotId} {m : Move}
  {parent : Option CallerId}

/-! ## A step of one caller -/

/-- What a caller does in a step of its own: how it gets and loses slots, and else that it comes closer to its end. -/
inductive Advances (s s' : Crowd) (c : CallerId) (key : ScopeKey) : Place → Move → Place → Prop where
  | fetch (slot : SlotId) : s'.storage.slot? key = some slot → Advances s s' c key .asking (.fetch c) (.waiting slot)
  | acquire (slot : SlotId) : s'.storage = s.storage →
    Advances s s' c key (.waiting slot) (.acquire c) (.checking slot)
  | stale (slot : SlotId) : s.storage.isCurrent key slot = false →
    Advances s s' c key (.checking slot) (.check c) (.retrying slot)
  | retry (slot : SlotId) : Advances s s' c key (.retrying slot) (.retry c) .asking
  | settle {place place' : Place} {m : Move} : place ≠ .asking → ¬ place.isRetrying → ¬ place'.isSearching →
    place'.rest < place.rest → m ≠ .fetch c → m ≠ .retry c → Advances s s' c key place m place'

/-- A caller stays where it is, or takes a step of its own. -/
inductive StaysOrAdvances (s s' : Crowd) (c : CallerId) (x : Caller) (m : Move) : Prop where
  | stays : m.caller? ≠ some c → s'.callers[c]? = some x → StaysOrAdvances s s' c x m
  | advances (place : Place) : m.caller? = some c → s'.callers[c]? = some { x with place } →
    Advances s s' c x.key x.place m place → StaysOrAdvances s s' c x m

/-- A caller stays where it is when another one is moved, and takes a step of its own when it is itself. -/
lemma StaysOrAdvances.of_put {place : Place} (hc : s.callers[c]? = some x) (hc' : s.callers[c']? = some x')
    (callers : s'.callers = (s.put c' x' place).callers) (mine : m.caller? = some c')
    (ad : Advances s s' c' x'.key x'.place m place) : StaysOrAdvances s s' c x m := by
  by_cases e : c = c'
  · subst e
    rw [hc] at hc'
    cases hc'
    exact .advances place mine (by rw [callers, caller_put hc]) ad
  · refine .stays (fun h => ?_) (by rw [callers, callers_put hc', if_neg e, hc])
    rw [mine] at h
    exact e (Option.some.inj h).symm

/-- What a step means for a caller. -/
lemma stays_or_advances (st : Step s m s') (hc : s.callers[c]? = some x) : StaysOrAdvances s s' c x m := by
  cases st with
  | enter => exact .stays nofun (getElem?_concat_eq_some_iff.mpr (.inl hc))
  | @fetch c' x' hc' hp =>
    have had : (s.storage.fetch x'.key).2.slot? x'.key = some (s.storage.fetch x'.key).1 := by
      rw [Storage.slot?_fetch, if_pos rfl]
    exact .of_put hc hc' rfl rfl (hp ▸ .fetch _ had)
  | acquire hc' hp => exact .of_put hc hc' rfl rfl (hp ▸ .acquire _ rfl)
  | stale hc' hp stale => exact .of_put hc hc' rfl rfl (hp ▸ .stale _ stale)
  | retry hc' hp => exact .of_put hc hc' rfl rfl (hp ▸ .retry _)
  | check hc' hp | read hc' hp | miss hc' hp | build hc' hp | fail e hc' hp | publish hc' hp | release hc' hp
  | leave hc' hp =>
    refine .of_put hc hc' rfl rfl (hp ▸ .settle ?_ ?_ ?_ ?_ nofun nofun) <;>
      simp [Place.isRetrying, Place.isSearching, Place.rest]
  | find | sweep | detach | take => exact .stays nofun hc

variable {place place' : Place}

/-- A caller that is not about to fetch a slot has begun a round, and ends it when it gives the slot up. -/
lemma Advances.rounds (ad : Advances s s' c key place m place') :
    (if place = .asking then 0 else 1) + (if m = .fetch c then 1 else 0) =
      (if m = .retry c then 1 else 0) + if place' = .asking then 0 else 1 := by
  cases ad with
  | fetch | acquire | stale | retry => simp
  | settle asks retries settled less not_fetch not_retry =>
    have asks' : place' ≠ .asking := fun h => settled (by rw [h]; rfl)
    simp [asks, asks', not_fetch, not_retry]

/-- A caller gives up no slot but a stale one, and what it fetches is not stale. -/
lemma Advances.isStale (ad : Advances s s' c key place m place') :
    (if m = .retry c then 1 else 0) + (place'.isStale s'.storage key).toNat ≤
      (place.isStale s.storage key).toNat := by
  cases ad with
  | fetch slot had => simp [Place.isStale, Storage.isCurrent, had]
  | acquire slot same => simp [Place.isStale, same]
  | stale slot stale => simp [Place.isStale, stale]
  | retry slot => simp [Place.isStale]
  | settle asks retries settled less not_fetch not_retry => simp [Place.isStale_of_not_searching settled, not_retry]

/-- A caller comes closer to its end in each step, but for four steps that it loses when it finds its slot stale. -/
lemma Advances.rest (ad : Advances s s' c key place m place') :
    place'.rest + 1 + 4 * place.isRetrying.toNat ≤
      place.rest + 4 * ((if m = .retry c then 1 else 0) + place'.isRetrying.toNat) := by
  cases ad with
  | fetch | acquire | stale | retry => simp [Place.rest, Place.isRetrying]
  | settle asks retries settled less not_fetch not_retry =>
    simp only [Bool.not_eq_true] at retries
    simp only [retries, Bool.toNat_false]
    omega

/-! ## Slots that are taken out -/

/-- The key's slot is taken out of the table in a step, and not by this caller. -/
def Lost (s : Crowd) (m : Move) (s' : Crowd) (key : ScopeKey) (c : CallerId) : Prop :=
  s.storage.slot? key ≠ none ∧ s'.storage.slot? key ≠ s.storage.slot? key ∧ m ≠ .release c

instance (s : Crowd) (m : Move) (s' : Crowd) (key : ScopeKey) (c : CallerId) : Decidable (Lost s m s' key c) :=
  inferInstanceAs (Decidable (_ ∧ _ ∧ _))

/-- What takes the key's slot out of the table: another caller for the key whose build has failed, or a sweeper. -/
inductive TakesOut (s : Crowd) (key : ScopeKey) (c : CallerId) : Move → Prop where
  | release {c' : CallerId} {x : Caller} (slot : SlotId) (e : ScopeError) : c' ≠ c → s.callers[c']? = some x →
    x.key = key → x.place = .releasing slot e → s.storage.slot? key = some slot → TakesOut s key c (.release c')
  | detach (n : SweeperId) (slot : SlotId) : s.storage.slot? key = some slot →
    TakesOut s key c (.detach n key (some slot))

/-- A key whose slot stays in the table has lost nothing. -/
lemma not_lost (kept : ∀ slot, s.storage.slot? key = some slot → s'.storage.slot? key = some slot) :
    ¬ Lost s m s' key c := by
  rintro ⟨had, other, -⟩
  obtain ⟨slot, had⟩ := Option.ne_none_iff_exists'.mp had
  exact other (by rw [had, kept slot had])

/-- A slot is taken out of the table by a caller whose build has failed, or by a sweeper. -/
lemma Lost.takesOut (lost : Lost s m s' key c) (st : Step s m s') : TakesOut s key c m := by
  obtain ⟨had, other, kept⟩ := lost
  obtain ⟨slot, had⟩ := Option.ne_none_iff_exists'.mp had
  rw [had] at other
  cases st with
  | fetch => exact absurd (Storage.slot?_fetch_of_some _ had) other
  | @release c' x slot' e hc hp =>
    have after : (s.storage.release x.key slot').slot? key ≠ some slot := other
    rw [Storage.slot?_release] at after
    split at after
    case isTrue h =>
      obtain ⟨rfl, own⟩ := h
      exact .release slot' e (fun same => kept (by rw [same])) hc rfl hp own
    case isFalse => exact absurd had after
  | @detach n key' =>
    have after : (s.storage.forget key').slot? key ≠ some slot := other
    rw [Storage.slot?_forget] at after
    split at after
    case isTrue same =>
      subst same
      rw [Storage.detach, had]
      exact .detach n slot had
    case isFalse => exact absurd had after
  | _ => exact absurd had other

/-- The caller itself takes no step then. -/
lemma TakesOut.caller?_ne (ta : TakesOut s key c m) : m.caller? ≠ some c := by
  cases ta with
  | release slot e other => exact fun same => other (Option.some.inj same)
  | detach => exact nofun

/-! ## Those who may take slots out -/

/-- How many slots of a key callers and sweepers may still take out. -/
def takers (s : Crowd) (key : ScopeKey) : ℕ :=
  (s.callers.map (·.takers key)).sum + (s.sweepers.map (·.keys.count key)).sum

/-- The same, with one for the given caller even if it has its answer. -/
def takersWith (s : Crowd) (key : ScopeKey) (c : CallerId) : ℕ :=
  s.takers key + ((s.callers[c]?).any (·.place.isAnswered)).toNat

/-- When a caller is moved only its own share changes. -/
lemma takers_put (hc : s.callers[c]? = some x) (callers : s'.callers = (s.put c x place).callers)
    (sweepers : s'.sweepers = s.sweepers) (key : ScopeKey) :
    s'.takers key + x.takers key = s.takers key + { x with place }.takers key := by
  have changed := sum_map_set (·.takers key) hc { x with place }
  rw [takers, takers, callers, sweepers]
  simp only [put]
  omega

/-- When a sweeper goes on only its own share changes. -/
lemma takersWith_putSweeper_add {n : SweeperId} {y y' : Sweeper} (hn : s.sweepers[n]? = some y)
    (callers : s'.callers = s.callers) (sweepers : s'.sweepers = (s.putSweeper n y').sweepers) :
    s'.takersWith key c + y.keys.count key = s.takersWith key c + y'.keys.count key := by
  have changed := sum_map_set (·.keys.count key) hn y'
  rw [takersWith, takersWith, takers, takers, callers, sweepers]
  simp only [putSweeper]
  omega

/-- A sweeper that goes on takes no more slots out than before. -/
lemma takersWith_putSweeper {n : SweeperId} {y y' : Sweeper} (hn : s.sweepers[n]? = some y)
    (callers : s'.callers = s.callers) (sweepers : s'.sweepers = (s.putSweeper n y').sweepers)
    (less : y'.keys.count key ≤ y.keys.count key) : s'.takersWith key c ≤ s.takersWith key c := by
  have changed : s'.takersWith key c + _ = _ + _ := takersWith_putSweeper_add hn callers sweepers
  omega

/-- A sweeper that is past a key takes one slot of it less. -/
lemma takersWith_putSweeper_lt {n : SweeperId} {y y' : Sweeper} (hn : s.sweepers[n]? = some y)
    (callers : s'.callers = s.callers) (sweepers : s'.sweepers = (s.putSweeper n y').sweepers)
    (less : y'.keys.count key < y.keys.count key) : s'.takersWith key c < s.takersWith key c := by
  have changed : s'.takersWith key c + _ = _ + _ := takersWith_putSweeper_add hn callers sweepers
  omega

/-- A caller that is moved takes no more slots out than before. -/
lemma takersWith_put (hc : s.callers[c]? = some x) (of_key : x.key = key) (hc' : s.callers[c']? = some x')
    (callers : s'.callers = (s.put c' x' place).callers) (sweepers : s'.sweepers = s.sweepers)
    (on : x'.place.isAnswered → place.isAnswered) : s'.takersWith key c ≤ s.takersWith key c := by
  have changed := takers_put hc' callers sweepers key
  rw [takersWith, takersWith, callers, callers_put hc']
  split
  case isTrue same =>
    rw [← same, hc] at hc'
    cases hc'
    have before := Caller.takers_add_isAnswered of_key
    have after := Caller.takers_add_isAnswered (x := { x with place }) of_key
    simp only [hc, Option.any_some] at before after ⊢
    omega
  case isFalse =>
    have less := Caller.takers_le on key
    omega

/-- One that has its answer takes no slot out any more. -/
lemma takersWith_put_lt (hc' : s.callers[c']? = some x') (other : c' ≠ c) (of_key : x'.key = key)
    (callers : s'.callers = (s.put c' x' place).callers) (sweepers : s'.sweepers = s.sweepers)
    (before : ¬ x'.place.isAnswered) (after : place.isAnswered) : s'.takersWith key c < s.takersWith key c := by
  have changed := takers_put hc' callers sweepers key
  have one : x'.takers key = 1 := if_pos ⟨of_key, before⟩
  have none : { x' with place }.takers key = 0 := if_neg fun h => h.2 after
  rw [takersWith, takersWith, callers, callers_put hc', if_neg (fun same => other same.symm)]
  omega

/-- One that comes adds itself to those who may take its key's slot out. -/
lemma enter_step (st : Step s (.enter c key parent) s') :
    s'.storage = s.storage ∧ s'.callers[c]? = some ⟨key, parent, .asking⟩ ∧
      s'.takersWith key c = 1 + s.takers key := by
  cases st
  refine ⟨rfl, getElem?_concat_eq_some_iff.mpr (.inr ⟨rfl, rfl⟩), ?_⟩
  have itself : (⟨key, parent, .asking⟩ : Caller).takers key = 1 := if_pos ⟨rfl, nofun⟩
  simp only [takersWith, takers, List.map_append, List.sum_append, List.map_singleton, List.sum_singleton,
    List.getElem?_concat_length, Option.any_some, itself, Place.isAnswered, Bool.toNat_false]
  omega

/-- A step in which the key loses nothing costs nothing. -/
lemma takersWith_of_not_lost (kept : ¬ Lost s m s' key c) {n : ℕ} (le : s'.takersWith key c ≤ n) :
    s'.takersWith key c + (if Lost s m s' key c then 1 else 0) ≤ n := by
  rwa [if_neg kept]

/-- A step after which there is one less to come pays for a loss. -/
lemma takersWith_of_lt {n : ℕ} (lt : s'.takersWith key c < n) :
    s'.takersWith key c + (if Lost s m s' key c then 1 else 0) ≤ n := by
  split
  · exact lt
  · exact Nat.le_of_lt lt

/-- There are no more who may take the key's slot out than before, but for who comes, and one less if it is taken
out. -/
lemma takersWith_step (st : Step s m s') (hc : s.callers[c]? = some x) (of_key : x.key = key) :
    s'.takersWith key c + (if Lost s m s' key c then 1 else 0) ≤ s.takersWith key c + m.takers key := by
  cases st with
  | @enter key' parent =>
    refine takersWith_of_not_lost (not_lost fun _ => id) (Nat.le_of_eq ?_)
    obtain ⟨lt, -⟩ := List.getElem?_eq_some_iff.mp hc
    have new : (⟨key', parent, .asking⟩ : Caller).takers key = if key' = key then 1 else 0 := by
      simp [Caller.takers, Place.isAnswered]
    simp only [takersWith, takers, Move.takers, List.getElem?_append_left lt, List.map_append, List.sum_append,
      List.map_singleton, List.sum_singleton, new]
    omega
  | find => exact takersWith_of_not_lost (not_lost fun _ => id) (Nat.le_refl _)
  | sweep =>
    refine takersWith_of_not_lost (not_lost fun _ => id) (Nat.le_of_eq ?_)
    simp only [takersWith, takers, Move.takers, List.map_append, List.sum_append, List.map_singleton,
      List.sum_singleton]
    omega
  -- a slot is lost in two steps only, and whoever takes it out has then done so
  | @detach n key' rest taken hn =>
    refine Nat.le_add_right_of_le ?_
    by_cases same : key' = key
    · refine takersWith_of_lt (takersWith_putSweeper_lt hn rfl rfl ?_)
      rw [same, List.count_cons_self]
      exact Nat.lt_add_one _
    · have kept : ∀ slot, s.storage.slot? key = some slot → (s.storage.forget key').slot? key = some slot := by
        intro slot had
        rw [Storage.slot?_forget, if_neg (fun e => same e.symm), had]
      exact takersWith_of_not_lost (not_lost kept) (takersWith_putSweeper hn rfl rfl List.count_le_count_cons)
  | take hn =>
    refine Nat.le_add_right_of_le (takersWith_of_not_lost (not_lost fun _ => id) ?_)
    exact takersWith_putSweeper hn rfl rfl (Nat.le_refl _)
  | @release c' x' slot e hc' hp =>
    refine Nat.le_add_right_of_le ?_
    by_cases taker : c' ≠ c ∧ x'.key = key
    · exact takersWith_of_lt (takersWith_put_lt hc' taker.1 taker.2 rfl rfl (by rw [hp]; exact nofun) rfl)
    · refine takersWith_of_not_lost ?_ (takersWith_put hc of_key hc' rfl rfl fun _ => rfl)
      rintro ⟨had, other, kept⟩
      refine taker ⟨fun same => kept (by rw [same]), ?_⟩
      by_contra ne
      exact other ((Storage.slot?_release _ _ _ _).trans (if_neg fun h => ne h.1.symm))
  | fetch hc' hp =>
    refine takersWith_of_not_lost (not_lost fun _ => Storage.slot?_fetch_of_some _) (Nat.le_add_right_of_le ?_)
    exact takersWith_put hc of_key hc' rfl rfl (by rw [hp]; exact nofun)
  | acquire hc' hp | check hc' hp | stale hc' hp | read hc' hp | miss hc' hp | build hc' hp | fail e hc' hp
  | publish hc' hp | retry hc' hp | leave hc' hp =>
    refine takersWith_of_not_lost (not_lost fun _ => id) (Nat.le_add_right_of_le ?_)
    exact takersWith_put hc of_key hc' rfl rfl (by simp [hp, Place.isAnswered])

end Crowd

/-! ## Courses -/

/-- What happens from some crowd on for ever, move by move. -/
structure Course where
  crowd : ℕ → Crowd
  move : ℕ → Move
  step (k : ℕ) : Step (crowd k) (move k) (crowd (k + 1))

namespace Course

/-- From here on one only looks a key up. -/
def idle (s : Crowd) (key : ScopeKey) : Course where
  crowd _ := s
  move _ := .find key (s.storage.find key)
  step _ := .find

/-- A course begins with a step. -/
def cons {s : Crowd} {m : Move} (co : Course) (st : Step s m (co.crowd 0)) : Course where
  crowd
    | 0 => s
    | k + 1 => co.crowd k
  move
    | 0 => m
    | k + 1 => co.move k
  step
    | 0 => st
    | k + 1 => co.step k

/-- Every run goes on, and may do so in any way. -/
lemma exists_of_run {s s' : Crowd} {t : List Move} (run : Run s t s') (co : Course) (h : co.crowd 0 = s') :
    ∃ co' : Course, co'.crowd 0 = s ∧ (∀ k m, t[k]? = some m → co'.move k = m) ∧
      ∀ k, co'.crowd (t.length + k) = co.crowd k ∧ co'.move (t.length + k) = co.move k := by
  induction run generalizing co with
  | rest => exact ⟨co, h, nofun, fun k => by simp⟩
  | @step t s₁ s₂ m run st ih =>
    obtain ⟨co', start, moves, later⟩ := ih (co.cons (h ▸ st)) rfl
    refine ⟨co', start, fun k m' hm => ?_, fun k => ?_⟩
    · rcases getElem?_concat_eq_some_iff.mp hm with old | ⟨rfl, rfl⟩
      · exact moves k m' old
      · exact (later 0).2
    · have next := later (k + 1)
      rw [List.length_append, List.length_singleton, Nat.add_assoc, Nat.add_comm 1 k]
      exact next

/-! ## What is counted -/

variable (co : Course) (key : ScopeKey) (c : CallerId)

/-- The key's slot is taken out of the table in a move, and not by this caller. -/
def Loses (k : ℕ) : Prop :=
  (co.crowd k).Lost (co.move k) (co.crowd (k + 1)) key c

instance (k : ℕ) : Decidable (co.Loses key c k) :=
  inferInstanceAs (Decidable (Crowd.Lost ..))

/-- How often the key's slot has been taken out of the table by others. -/
def losses (n : ℕ) : ℕ :=
  n.count (co.Loses key c)

/-- How often a caller has gone round, which it begins to do by fetching a slot. -/
def rounds (n : ℕ) : ℕ :=
  n.count (co.move · = .fetch c)

/-- How often a caller has given a slot up to start again. -/
def retries (n : ℕ) : ℕ :=
  n.count (co.move · = .retry c)

/-- How many steps a caller has taken. -/
def steps (n : ℕ) : ℕ :=
  n.count fun k => (co.move k).caller? = some c

/-- A move counts as a loss if the key loses its slot in it. -/
lemma losses_succ (n : ℕ) : co.losses key c (n + 1) = co.losses key c n + if co.Loses key c n then 1 else 0 :=
  Nat.count_succ _ n

/-- A move counts as a round if the caller fetches a slot in it. -/
lemma rounds_succ (n : ℕ) : co.rounds c (n + 1) = co.rounds c n + if co.move n = .fetch c then 1 else 0 :=
  Nat.count_succ _ n

/-- A move counts as a retry if the caller starts again in it. -/
lemma retries_succ (n : ℕ) : co.retries c (n + 1) = co.retries c n + if co.move n = .retry c then 1 else 0 :=
  Nat.count_succ _ n

/-- A move counts as a step of the caller that goes on in it. -/
lemma steps_succ (n : ℕ) : co.steps c (n + 1) = co.steps c n + if (co.move n).caller? = some c then 1 else 0 :=
  Nat.count_succ _ n

variable {co key c} {n : ℕ} {parent : Option CallerId} {place : Place}

/-! ## Rounds -/

/-- What has been counted when a caller is in a place: each round but the last one ended with a slot given up, each slot
that was given up or is going to be has been lost, and each slot that was given up cost four steps. -/
structure Paced (co : Course) (key : ScopeKey) (parent : Option CallerId) (c : CallerId) (n : ℕ) (place : Place) :
    Prop where
  here : (co.crowd n).callers[c]? = some ⟨key, parent, place⟩
  rounds : co.rounds c n = co.retries c n + if place = .asking then 0 else 1
  lost : co.retries c n + (place.isStale (co.crowd n).storage key).toNat ≤ co.losses key c n
  steps : co.steps c n + place.rest ≤ 7 + 4 * (co.retries c n + place.isRetrying.toNat)

/-- When a caller comes nothing has been counted. -/
lemma Paced.start (enters : co.move 0 = .enter c key parent) : co.Paced key parent c 1 .asking := by
  obtain ⟨-, here, -⟩ := Crowd.enter_step (enters ▸ co.step 0)
  refine ⟨here, ?_, ?_, ?_⟩
  · rw [rounds_succ, retries_succ, enters]
    rfl
  · rw [retries_succ, enters]
    exact Nat.zero_le _
  · rw [steps_succ, retries_succ, enters]
    rfl

/-- The slot of a caller that takes no step gets stale only if the key loses it. -/
lemma isStale_le (place : Place) (kept : co.move n ≠ .release c) :
    (place.isStale (co.crowd (n + 1)).storage key).toNat ≤
      (place.isStale (co.crowd n).storage key).toNat + if co.Loses key c n then 1 else 0 := by
  by_cases lost : co.Loses key c n
  · rw [if_pos lost]
    exact Nat.le_trans (Bool.toNat_le _) (Nat.le_add_left 1 _)
  · have still (slot : SlotId) (current : (co.crowd n).storage.isCurrent key slot) :
        (co.crowd (n + 1)).storage.isCurrent key slot := by
      rw [Storage.isCurrent, beq_iff_eq] at current ⊢
      by_contra other
      exact lost ⟨by simp [current], by rwa [current], kept⟩
    rw [if_neg lost, Nat.add_zero]
    exact Bool.toNat_le_toNat (Place.isStale_of_still still)

/-- The count goes on with every move. -/
lemma Paced.succ (pa : co.Paced key parent c n place) : ∃ place', co.Paced key parent c (n + 1) place' := by
  have rounds := pa.rounds
  have lost := pa.lost
  have steps := pa.steps
  cases Crowd.stays_or_advances (co.step n) pa.here with
  -- one that stays may have its slot lost to others; one that advances pays for each step out of its rest
  | stays other here =>
    have not_fetch : co.move n ≠ .fetch c := fun h => other (by rw [h]; rfl)
    have not_retry : co.move n ≠ .retry c := fun h => other (by rw [h]; rfl)
    have not_release : co.move n ≠ .release c := fun h => other (by rw [h]; rfl)
    have stale : _ ≤ (place.isStale (co.crowd n).storage key).toNat + _ := isStale_le place not_release
    refine ⟨place, here, ?_, ?_, ?_⟩
    · rw [rounds_succ, retries_succ, if_neg not_fetch, if_neg not_retry]
      exact rounds
    · rw [retries_succ, losses_succ, if_neg not_retry]
      omega
    · rw [steps_succ, retries_succ, if_neg other, if_neg not_retry]
      exact steps
  | advances place' mine here ad =>
    have ad : Crowd.Advances _ _ c key place (co.move n) place' := ad
    have round := ad.rounds
    have stale := ad.isStale
    have closer := ad.rest
    refine ⟨place', here, ?_, ?_, ?_⟩
    · rw [rounds_succ, retries_succ]
      omega
    · rw [retries_succ, losses_succ]
      omega
    · rw [steps_succ, retries_succ, if_pos mine]
      omega

/-- A caller that came is always in some place, with what has been counted. -/
lemma exists_paced (enters : co.move 0 = .enter c key parent) (n : ℕ) :
    ∃ place, co.Paced key parent c (n + 1) place := by
  induction n with
  | zero => exact ⟨.asking, .start enters⟩
  | succ n ih => exact ih.elim fun _ => Paced.succ

/-- All slots of the key that are lost after a caller comes are taken out by those who were there when it came, or who
came since. -/
lemma losses_add_takersWith_le (enters : co.move 0 = .enter c key parent) (n : ℕ) :
    co.losses key c (n + 1) + (co.crowd (n + 1)).takersWith key c ≤
      1 + (co.crowd 0).takers key + ∑ k ∈ Finset.Ico 1 (n + 1), (co.move k).takers key := by
  induction n with
  | zero =>
    obtain ⟨same, -, takers⟩ := Crowd.enter_step (enters ▸ co.step 0)
    have kept : ¬ co.Loses key c 0 := fun lost => lost.2.1 (by rw [same])
    rw [losses_succ, if_neg kept]
    exact Nat.le_of_eq (by simpa [losses] using takers)
  | succ n ih =>
    obtain ⟨place, pa⟩ := exists_paced enters n
    have step : (co.crowd (n + 1 + 1)).takersWith key c + (if co.Loses key c (n + 1) then 1 else 0) ≤
        (co.crowd (n + 1)).takersWith key c + (co.move (n + 1)).takers key :=
      Crowd.takersWith_step (co.step (n + 1)) pa.here rfl
    rw [losses_succ, Finset.sum_Ico_succ_top (Nat.le_add_left 1 n)]
    omega

/-- The caller itself is always counted. -/
lemma Paced.takersWith_pos (pa : co.Paced key parent c n place) : 1 ≤ (co.crowd n).takersWith key c := by
  have itself : (⟨key, parent, place⟩ : Caller).takers key + place.isAnswered.toNat = 1 :=
    Caller.takers_add_isAnswered rfl
  have counted : (⟨key, parent, place⟩ : Caller).takers key ≤ ((co.crowd n).callers.map (·.takers key)).sum :=
    List.le_sum_of_mem (List.mem_map_of_mem (List.mem_of_getElem? pa.here))
  simp only [Crowd.takersWith, Crowd.takers, pa.here, Option.any_some]
  omega

/-- Rounds are counted by moves. -/
lemma rounds_eq_count {t : List Move} (moves : ∀ k m, t[k]? = some m → co.move k = m) (c : CallerId) :
    co.rounds c t.length = t.count (.fetch c) := by
  induction t using List.reverseRecOn with
  | nil => rfl
  | append_singleton t m ih =>
    have before := ih fun k m' hm => moves k m' (getElem?_concat_eq_some_iff.mpr (.inl hm))
    have last := moves t.length m (getElem?_concat_eq_some_iff.mpr (.inr ⟨rfl, rfl⟩))
    rw [List.length_append, List.length_singleton, rounds_succ, before, last, List.count_append, List.count_singleton]
    simp only [beq_iff_eq]

/-! ## Main statements -/

/-- What bounds a call in the moves before the given one. -/
structure Bounded (co : Course) (key : ScopeKey) (c : CallerId) (n : ℕ) : Prop where
  /-- It goes round once more than the key's slot was taken out of the table by others, at most. -/
  rounds : co.rounds c n ≤ 1 + co.losses key c n
  /-- It starts again at most once for each time that the key's slot was taken out. -/
  retries : co.retries c n ≤ co.losses key c n
  /-- It takes seven steps, and four more for each time that the key's slot was taken out, at most. -/
  steps : co.steps c n ≤ 7 + 4 * co.losses key c n
  /-- What takes the slot out is another caller for the key whose build has failed, or a sweeper. -/
  causes : ∀ k < n, co.Loses key c k → (co.crowd k).TakesOut key c (co.move k)
  /-- The slot is taken out no more often than those ask for who are there when the caller comes, or come since. -/
  others : co.losses key c n ≤ (co.crowd 0).takers key + ∑ k ∈ Finset.Ico 1 n, (co.move k).takers key
  /-- If nobody else takes a step then it does not start again. -/
  alone : (∀ k < n, 0 < k → (co.move k).caller? = some c) → ∀ k < n, co.move k ≠ .retry c

/-- A caller that came is bounded at all times. -/
lemma bounded_of_enters (enters : co.move 0 = .enter c key parent) (n : ℕ) : co.Bounded key c n := by
  have causes : ∀ k < n, co.Loses key c k → (co.crowd k).TakesOut key c (co.move k) :=
    fun k _ loses => loses.takesOut (co.step k)
  cases n with
  | zero =>
    exact ⟨Nat.zero_le _, Nat.le_refl _, Nat.zero_le _, causes, Nat.zero_le _,
      fun _ k lt => absurd lt (Nat.not_lt_zero k)⟩
  | succ n =>
    obtain ⟨place, pa⟩ := exists_paced enters n
    have retries := Nat.le_of_add_right_le pa.lost
    refine ⟨?_, retries, ?_, causes, ?_, fun alone k lt again => ?_⟩
    · have rounds := pa.rounds
      split at rounds <;> omega
    · have flagged : place.isRetrying.toNat ≤ (place.isStale (co.crowd (n + 1)).storage key).toNat :=
        Bool.toNat_le_toNat Place.isStale_of_retrying
      have lost := pa.lost
      have steps := pa.steps
      omega
    · have one := pa.takersWith_pos
      have others := losses_add_takersWith_le enters n
      omega
    · -- whoever starts again has lost a slot, which needs somebody else's step
      have none_lost : co.losses key c (n + 1) = 0 := by
        refine Nat.count_iff_forall_not.mpr fun j ltj loses => ?_
        have taken := causes j ltj loses
        cases j with
        | zero =>
          rw [enters] at taken
          cases taken
        | succ j => exact taken.caller?_ne (alone (j + 1) ltj (Nat.succ_pos j))
      have none_retried : co.retries c (n + 1) = 0 := by omega
      exact Nat.count_iff_forall_not.mp none_retried k lt again

/-- If only finitely many moves bring somebody who may take the key's slot out, then it is lost only so many times. -/
lemma losses_le_of_finite (enters : co.move 0 = .enter c key parent)
    (finite : (Set.ofPred fun k => (co.move k).takers key ≠ 0).Finite) (n : ℕ) :
    co.losses key c n ≤ (co.crowd 0).takers key + ∑ k ∈ finite.toFinset, (co.move k).takers key := by
  refine Nat.le_trans (bounded_of_enters enters n).others (Nat.add_le_add_left ?_ _)
  exact Finset.sum_le_sum_of_ne_zero fun k _ some => finite.mem_toFinset.mpr some

/-- A caller that takes only so many steps, and is not left waiting for ever, returns. -/
lemma exists_done_of_steps_le (enters : co.move 0 = .enter c key parent) {b : ℕ} (bound : ∀ n, co.steps c n ≤ b)
    (fair : ∀ n, (co.crowd n).Underway c → ∃ k, n ≤ k ∧ (co.move k).caller? = some c) :
    ∃ n x r, (co.crowd n).callers[c]? = some x ∧ x.place = .done r := by
  by_contra never
  have underway (n : ℕ) : (co.crowd (n + 1)).Underway c := by
    obtain ⟨place, pa⟩ := exists_paced enters n
    refine ⟨_, pa.here, fun done => ?_⟩
    cases place with
    | done r => exact never ⟨n + 1, _, r, pa.here, rfl⟩
    | _ => cases done
  -- it would take steps for ever, but there is a bound to their number
  have infinite : (Set.ofPred fun k => (co.move k).caller? = some c).Infinite := by
    refine Set.infinite_of_forall_exists_gt fun n => ?_
    obtain ⟨k, le, mine⟩ := fair (n + 1) (underway n)
    exact ⟨k, mine, le⟩
  have all := Nat.count_nth_of_infinite infinite (b + 1)
  exact Nat.not_succ_le_self b (Nat.le_trans (Nat.le_of_eq all.symm) (bound _))

/-- A caller that comes goes round at most once more than its key's slot is taken out of the table, whoever calls and
sweeps in whatever order. If there are finitely many calls on the key then it goes round only so many times, and it
returns, provided that it is not left waiting for ever. -/
theorem bounded (co : Course) (enters : co.move 0 = .enter c key parent) :
    (∀ n, co.Bounded key c n) ∧
    ((Set.ofPred fun k => (co.move k).takers key ≠ 0).Finite →
      (∃ b, ∀ n, co.rounds c n ≤ b) ∧
      ((∀ n, (co.crowd n).Underway c → ∃ k, n ≤ k ∧ (co.move k).caller? = some c) →
        ∃ n x r, (co.crowd n).callers[c]? = some x ∧ x.place = .done r)) := by
  refine ⟨bounded_of_enters enters, fun finite => ?_⟩
  have few := losses_le_of_finite enters finite
  have rounds (n : ℕ) : co.rounds c n ≤ 1 + _ :=
    Nat.le_trans (bounded_of_enters enters n).rounds (Nat.add_le_add_left (few n) 1)
  have steps (n : ℕ) : co.steps c n ≤ 7 + 4 * _ :=
    Nat.le_trans (bounded_of_enters enters n).steps (Nat.add_le_add_left (Nat.mul_le_mul_left 4 (few n)) 7)
  exact ⟨⟨_, rounds⟩, exists_done_of_steps_le enters steps⟩

/-- A caller waits for the build of another one, which fails: it starts again, and builds itself. -/
theorem bounded_after_failure :
    let a : ScopeKey := ⟨"demo", "A"⟩
    ∃ co : Course, co.crowd 0 = .start ∧ co.move 0 = .enter 0 a none ∧ (∀ n, co.Bounded a 0 n) ∧ co.rounds 0 20 = 2 ∧
      ∃ n x r, (co.crowd n).callers[0]? = some x ∧ x.place = .done r := by
  intro a
  let e : ScopeError := .producer "boom"
  let turns : List Turn :=
    [.enter a none, .go 0 none, .enter a none, .go 1 none, .go 1 none, .go 1 none, .go 1 none, .go 1 (some e),
      .go 1 none, .go 1 none, .go 0 none, .go 0 none, .go 0 none, .go 0 none, .go 0 none, .go 0 none, .go 0 none,
      .go 0 none, .go 0 none, .go 0 none]
  let t : List Move :=
    [.enter 0 a none, .fetch 0, .enter 1 a none, .fetch 1, .acquire 1, .check 1, .read 1, .build 1 a (.error e),
      .release 1, .leave 1 a (.error e), .acquire 0, .check 0, .retry 0, .fetch 0, .acquire 0, .check 0, .read 0,
      .build 0 a (.ok 0), .publish 0 a 0, .leave 0 a (.ok 0)]
  have played : (Crowd.start.play turns).map (fun p => (p.1, p.2.callers)) =
      some (t, [⟨a, none, .done (.ok 0)⟩, ⟨a, none, .done (.error e)⟩]) := by decide +kernel
  obtain ⟨⟨t', s⟩, hs, eq⟩ := Option.map_eq_some_iff.mp played
  obtain ⟨moves, callers⟩ := Prod.mk.inj eq
  have run : Run .start t s := moves ▸ Crowd.run_of_play .rest hs
  obtain ⟨co, start, early, late⟩ := exists_of_run run (.idle s a) rfl
  have enters : co.move 0 = .enter 0 a none := early 0 _ rfl
  have after (n : ℕ) (le : 20 ≤ n) : co.crowd n = s ∧ co.move n = .find a (s.storage.find a) := by
    obtain ⟨k, rfl⟩ := Nat.exists_eq_add_of_le le
    exact late k
  obtain ⟨bounds, ends⟩ := bounded co enters
  have finite : (Set.ofPred fun k => (co.move k).takers a ≠ 0).Finite := by
    refine (Set.finite_Iio 20).subset fun k some => ?_
    by_contra ge
    exact some (by rw [(after k (Nat.not_lt.mp ge)).2]; rfl)
  -- the last step that the caller takes is its return
  have fair (n : ℕ) (underway : (co.crowd n).Underway 0) : ∃ k, n ≤ k ∧ (co.move k).caller? = some 0 := by
    refine ⟨19, ?_, by rw [early 19 _ rfl]; rfl⟩
    by_contra lt
    obtain ⟨x, hx, undone⟩ := underway
    rw [(after n (Nat.not_le.mp lt)).1, callers] at hx
    cases hx
    exact undone rfl
  exact ⟨co, start, enters, bounds, (rounds_eq_count early 0).trans (by decide +kernel), (ends finite).2 fair⟩

end Course

end ModelScopes
