import ModelScopes.Proofs.Callers.Order
import ModelScopes.Proofs.Callers.Turn

/-!
# Agreement of callers

As long as nobody takes keys out of the storage, callers agree: at most one build succeeds for each key, whoever ends
with a scope ends with the one that was built for its key, and whoever ends with an error has called its own producer,
once, and hands on what this call came to. A look-up finds nothing before a scope is published, and this scope ever
after. `Crowd.Calm` is what holds of the places then, and `Crowd.Agreed` of the places and the moves so far; the main
statement is `Crowd.agreement`.
-/

namespace ModelScopes

/-! ## What moves tell -/

namespace Move

/-- The scope that is built for a key. -/
def built? (key : ScopeKey) : Move → Option ScopeId
  | .build _ key' (.ok i) => if key' = key then some i else none
  | _ => none

/-- The scope that is published for a key. -/
def published? (key : ScopeKey) : Move → Option ScopeId
  | .publish _ key' i => if key' = key then some i else none
  | _ => none

/-- What comes of the build of a caller. -/
def ran? (c : CallerId) : Move → Option Ending
  | .build c' _ r => if c' = c then some r else none
  | _ => none

/-- The scopes that were built for a key. -/
def builtFor (key : ScopeKey) (t : List Move) : List ScopeId :=
  t.filterMap (built? key)

/-- The scopes that were published for a key. -/
def publishedFor (key : ScopeKey) (t : List Move) : List ScopeId :=
  t.filterMap (published? key)

/-- What came of the builds of a caller. -/
def ranBy (c : CallerId) (t : List Move) : List Ending :=
  t.filterMap (ran? c)

/-- A move that neither builds nor publishes. -/
structure Quiet (m : Move) : Prop where
  built : ∀ key, m.built? key = none
  published : ∀ key, m.published? key = none
  ran : ∀ c, m.ran? c = none

/-- A move adds the scope that it builds. -/
@[simp] lemma builtFor_concat (key : ScopeKey) (t : List Move) (m : Move) :
    builtFor key (t ++ [m]) = builtFor key t ++ (m.built? key).toList := by
  cases h : m.built? key <;> simp [builtFor, h]

/-- A move adds the scope that it publishes. -/
@[simp] lemma publishedFor_concat (key : ScopeKey) (t : List Move) (m : Move) :
    publishedFor key (t ++ [m]) = publishedFor key t ++ (m.published? key).toList := by
  cases h : m.published? key <;> simp [publishedFor, h]

/-- A move adds what comes of the build that it is. -/
@[simp] lemma ranBy_concat (c : CallerId) (t : List Move) (m : Move) :
    ranBy c (t ++ [m]) = ranBy c t ++ (m.ran? c).toList := by
  cases h : m.ran? c <;> simp [ranBy, h]

end Move

/-- What a run without sweeps obeys. -/
structure Agreement (t : List Move) : Prop where
  /-- At most one scope is built for each key. -/
  once : ∀ key, (Move.builtFor key t).length ≤ 1
  /-- Nothing is published but what was built. -/
  published : ∀ key, Move.publishedFor key t <+: Move.builtFor key t
  /-- Whoever ends does so with the key it called with. -/
  own : ∀ c key r, .leave c key r ∈ t → ∃ parent, .enter c key parent ∈ t
  /-- Whoever ends with a scope ends with the one that was built for its key and published. -/
  ok : ∀ c key i, .leave c key (.ok i) ∈ t → Move.builtFor key t = [i] ∧ Move.publishedFor key t = [i]
  /-- Whoever ends with an error called its producer once, and this call failed with this error. -/
  error : ∀ c key e, .leave c key (.error e) ∈ t → Move.ranBy c t = [.error e]
  /-- What is found under a key is what was published for it before. -/
  find : ∀ before key r after, t = before ++ .find key r :: after → Move.publishedFor key before = r.toList

/-- What is known of a caller by its place: what its producer came to, and which scope is stored or to be stored. -/
def Place.Tells (key : ScopeKey) (c : CallerId) (t : List Move) (st : Storage) : Place → Prop
  | publishing _ i => Move.ranBy c t = [.ok i] ∧ Move.builtFor key t = [i]
  | releasing _ e | leaving _ (.error e) | done (.error e) => Move.ranBy c t = [.error e]
  | leaving _ (.ok i) | done (.ok i) => st.find key = some i
  | _ => Move.ranBy c t = []

/-- What a place tells stays true while its caller's producer is not called, nothing is built for its key that it would
publish, and what is stored under its key stays. -/
lemma Place.Tells.mono {place : Place} {key : ScopeKey} {c : CallerId} {t t' : List Move} {st st' : Storage}
    (te : place.Tells key c t st) (ran : Move.ranBy c t' = Move.ranBy c t)
    (built : ∀ slot i, place = .publishing slot i → Move.builtFor key t' = Move.builtFor key t)
    (kept : ∀ i, st.find key = some i → st'.find key = some i) : place.Tells key c t' st' := by
  cases place with
  | publishing slot i => exact ⟨ran.trans te.1, (built slot i rfl).trans te.2⟩
  | leaving slot r | done r =>
    cases r with
    | ok i => exact kept i te
    | error e => exact ran.trans te
  | _ => exact ran.trans te

namespace Crowd

/-- Nobody takes keys out of the storage, a slot that was checked is still the key's, and one that was found empty is
still empty. -/
structure Calm (s : Crowd) : Prop extends s.Ordered where
  unswept : s.sweepers = []
  checked : ∀ (c : CallerId) (x : Caller) (slot : SlotId), s.callers[c]? = some x →
    x.place.checked? = some slot → s.storage.slot? x.key = some slot
  vacant : ∀ (c : CallerId) (x : Caller) (slot : SlotId), s.callers[c]? = some x →
    x.place.vacant? = some slot → s.storage.read slot = none

/-- What was published is what is stored, what was built is published or about to be, and every caller's place tells
the truth. -/
structure Agreed (t : List Move) (s : Crowd) : Prop extends s.Calm where
  published : ∀ key, Move.publishedFor key t = (s.storage.find key).toList
  built : ∀ key, Move.builtFor key t = Move.publishedFor key t ∨
    ∃ (c : CallerId) (x : Caller) (slot : SlotId) (i : ScopeId),
      s.callers[c]? = some x ∧ x.key = key ∧ x.place = .publishing slot i
  tells : ∀ (c : CallerId) (x : Caller), s.callers[c]? = some x → x.place.Tells x.key c t s.storage
  fresh : ∀ c, s.callers.length ≤ c → Move.ranBy c t = []
  entered : ∀ (c : CallerId) (x : Caller), s.callers[c]? = some x → .enter c x.key x.parent ∈ t
  left : ∀ c key r, .leave c key r ∈ t → ∃ x, s.callers[c]? = some x ∧ x.key = key ∧ x.place = .done r

variable {s s' : Crowd} {c : CallerId} {x : Caller} {slot : SlotId}

/-! ## Calm -/

/-- A crowd in which nobody has called is calm. -/
lemma Calm.start : start.Calm :=
  ⟨.start, rfl, fun _ _ _ h => by simp [Crowd.start] at h, fun _ _ _ h => by simp [Crowd.start] at h⟩

/-- Two callers that have checked the slot of one key are the same. -/
lemma Calm.alone (ca : s.Calm) {c' : CallerId} {y : Caller} {t : SlotId} (hc : s.callers[c]? = some x)
    (hc' : s.callers[c']? = some y) (h : x.place.checked? = some slot) (h' : y.place.checked? = some t)
    (e : x.key = y.key) : c = c' := by
  have mine := ca.checked c x slot hc h
  rw [e, ca.checked c' y t hc' h'] at mine
  cases mine
  exact ca.exclusive hc hc' (Place.held?_of_checked? h) (Place.held?_of_checked? h')

/-- As long as the slot is vacant to a caller nothing is found under its key. -/
lemma Calm.find_eq_none (ca : s.Calm) (hc : s.callers[c]? = some x) (h : x.place.vacant? = some slot) :
    s.storage.find x.key = none := by
  rw [Storage.find, ca.checked c x slot hc (Place.checked?_of_vacant? h)]
  exact ca.vacant c x slot hc h

/-- All stays calm if one caller is moved, provided that the slots that were checked stay as they are. -/
lemma Calm.of_put (ca : s.Calm) (hc : s.callers[c]? = some x) {place : Place}
    (callers : s'.callers = (s.put c x place).callers) (sweepers : s'.sweepers = s.sweepers) (or : s'.Ordered)
    (others : ∀ c' y t, c' ≠ c → s.callers[c']? = some y → y.place.checked? = some t →
      s'.storage.slot? y.key = some t ∧ s'.storage.read t = s.storage.read t)
    (checked : ∀ t, place.checked? = some t → s'.storage.slot? x.key = some t)
    (vacant : ∀ t, place.vacant? = some t → s'.storage.read t = none) : s'.Calm where
  toOrdered := or
  unswept := sweepers.trans ca.unswept
  checked := by
    intro c' y t hy ht
    rw [callers, callers_put hc] at hy
    split at hy
    case isTrue =>
      cases hy
      exact checked t ht
    case isFalse ne => exact (others c' y t ne hy ht).1
  vacant := by
    intro c' y t hy ht
    rw [callers, callers_put hc] at hy
    split at hy
    case isTrue =>
      cases hy
      exact vacant t ht
    case isFalse ne =>
      rw [(others c' y t ne hy (Place.checked?_of_vacant? ht)).2]
      exact ca.vacant c' y t hy ht

/-- A caller that goes on and leaves the storage alone leaves the crowd calm. -/
lemma Calm.of_go_on (ca : s.Calm) (hc : s.callers[c]? = some x) {place : Place}
    (callers : s'.callers = (s.put c x place).callers) (sweepers : s'.sweepers = s.sweepers) (or : s'.Ordered)
    (storage : s'.storage = s.storage) (checked : ∀ t, place.checked? = some t → s.storage.slot? x.key = some t)
    (vacant : ∀ t, place.vacant? = some t → s.storage.read t = none) : s'.Calm := by
  refine ca.of_put hc callers sweepers or ?_ (by rwa [storage]) (by rwa [storage])
  intro c' y t _ hy ht
  rw [storage]
  exact ⟨ca.checked c' y t hy ht, rfl⟩

/-- A caller that goes on to a place without a slot of its own leaves the crowd calm. -/
lemma Calm.of_unchecked (ca : s.Calm) (hc : s.callers[c]? = some x) {place : Place}
    (callers : s'.callers = (s.put c x place).callers) (sweepers : s'.sweepers = s.sweepers) (or : s'.Ordered)
    (storage : s'.storage = s.storage) (unchecked : place.checked? = none) : s'.Calm := by
  refine ca.of_go_on hc callers sweepers or storage (by simp [unchecked]) ?_
  intro t ht
  rw [Place.checked?_of_vacant? ht] at unchecked
  cases unchecked

/-- Each step but the beginning of a sweep keeps all calm. -/
lemma calm_step {m : Move} (ca : s.Calm) (st : Step s m s') (ns : ¬ m.isSweep) : s'.Calm := by
  have or := ordered_step ca.toOrdered st
  cases st with
  | enter =>
    refine ⟨or, ca.unswept, ?_, ?_⟩
    · intro c x slot hc hp
      rcases getElem?_concat_eq_some_iff.mp hc with old | ⟨-, rfl⟩
      · exact ca.checked c x slot old hp
      · cases hp
    · intro c x slot hc hp
      rcases getElem?_concat_eq_some_iff.mp hc with old | ⟨-, rfl⟩
      · exact ca.vacant c x slot old hp
      · cases hp
  | fetch hc hp =>
    refine ca.of_put hc rfl rfl or ?_ (by simp [Place.checked?]) (by simp [Place.vacant?])
    intro c' y t _ hy ht
    exact ⟨Storage.slot?_fetch_of_some _ (ca.checked c' y t hy ht), Storage.read_fetch _ _ t⟩
  | acquire hc | stale hc | read hc | retry hc | leave hc => exact ca.of_unchecked hc rfl rfl or rfl rfl
  | @check c x slot hc hp current =>
    refine ca.of_go_on hc rfl rfl or rfl ?_ (by simp [Place.vacant?])
    intro t ht
    cases ht
    simpa [Storage.isCurrent] using current
  | @miss c x slot hc hp empty =>
    refine ca.of_go_on hc rfl rfl or rfl ?_ ?_
    · intro t ht
      exact ca.checked c x t hc (by rw [hp]; exact ht)
    · intro t ht
      cases ht
      exact empty
  | build hc hp | fail e hc hp =>
    refine ca.of_go_on hc rfl rfl or rfl ?_ ?_
    · intro t ht
      exact ca.checked _ _ t hc (by rw [hp]; exact ht)
    · intro t ht
      exact ca.vacant _ _ t hc (by rw [hp]; exact ht)
  | @publish c x slot i hc hp =>
    refine ca.of_put hc rfl rfl or ?_ (by simp [Place.checked?]) (by simp [Place.vacant?])
    intro c' y t ne hy ht
    -- no other caller is at this slot, for it would hold the same lock
    have ne_slot : t ≠ slot := by
      rintro rfl
      exact ne (ca.exclusive hy hc (Place.held?_of_checked? ht) (by rw [hp]; rfl))
    have here := ca.checked c x slot hc (by rw [hp]; rfl)
    refine ⟨ca.checked c' y t hy ht, ?_⟩
    exact (Storage.read_publish (ca.sound.slot_lt here) i t).trans (if_neg ne_slot)
  | @release c x slot e hc hp =>
    refine ca.of_put hc rfl rfl or ?_ (by simp [Place.checked?]) (by simp [Place.vacant?])
    intro c' y t ne hy ht
    have here := ca.checked c x slot hc (by rw [hp]; rfl)
    -- no other caller has checked this key's slot, so forgetting the key takes nothing from it
    have ne_key : y.key ≠ x.key := fun e => ne (ca.alone hy hc ht (by rw [hp]; rfl) e)
    have forgets : s.storage.release x.key slot = s.storage.forget x.key := Storage.release_of_current here
    refine ⟨?_, by simp [forgets]⟩
    have kept := Storage.slot?_forget s.storage x.key y.key
    rw [if_neg ne_key, ca.checked c' y t hy ht] at kept
    simpa [forgets] using kept
  | find => exact ca
  | sweep => exact absurd rfl ns
  | detach hn =>
    rw [ca.unswept] at hn
    cases hn
  | take hn =>
    rw [ca.unswept] at hn
    cases hn

/-! ## Callers that agree -/

/-- Before the first move there is nothing to agree on. -/
lemma Agreed.start : Agreed [] start where
  toCalm := .start
  published _ := rfl
  built _ := .inl rfl
  tells _ _ h := by simp [Crowd.start] at h
  fresh _ _ := rfl
  entered _ _ h := by simp [Crowd.start] at h
  left _ _ _ h := by cases h

variable {t : List Move} {m : Move}

/-- Callers still agree if one is moved, provided that its new place tells the truth, that what was published is what
is stored, and that what was built is published or about to be. -/
lemma Agreed.of_put (ag : Agreed t s) (hc : s.callers[c]? = some x) {place : Place}
    (callers : s'.callers = (s.put c x place).callers) (ca : s'.Calm)
    (kept : ∀ key i, s.storage.find key = some i → s'.storage.find key = some i)
    (published : ∀ key, Move.publishedFor key (t ++ [m]) = (s'.storage.find key).toList)
    (built : ∀ key, Move.builtFor key (t ++ [m]) = Move.publishedFor key (t ++ [m]) ∨
      ∃ (c : CallerId) (x : Caller) (slot : SlotId) (i : ScopeId),
        s'.callers[c]? = some x ∧ x.key = key ∧ x.place = .publishing slot i)
    (ran : ∀ c', c' ≠ c → m.ran? c' = none)
    (builds : ∀ c' y slot i, c' ≠ c → s.callers[c']? = some y → y.place = .publishing slot i →
      m.built? y.key = none)
    (tells : place.Tells x.key c (t ++ [m]) s'.storage) (undone : ∀ r, x.place ≠ .done r)
    (left : ∀ c' key r, m = .leave c' key r → c' = c ∧ key = x.key ∧ place = .done r) : Agreed (t ++ [m]) s' where
  toCalm := ca
  published := published
  built := built
  tells := by
    intro c' y hy
    rw [callers, callers_put hc] at hy
    split at hy
    case isTrue e =>
      cases hy
      rw [e]
      exact tells
    case isFalse ne =>
      refine (ag.tells c' y hy).mono (by simp [ran c' ne]) ?_ (kept y.key)
      intro slot i hp
      simp [builds c' y slot i ne hy hp]
  fresh := by
    intro c' le
    obtain ⟨lt, -⟩ := List.getElem?_eq_some_iff.mp hc
    have le' : s.callers.length ≤ c' := by simpa [callers, put] using le
    have ne : c' ≠ c := fun e => Nat.not_lt.mpr le' (e ▸ lt)
    simp [ag.fresh c' le', ran c' ne]
  entered := by
    intro c' y hy
    rw [callers, callers_put hc] at hy
    split at hy
    case isTrue e =>
      cases hy
      rw [e]
      exact List.mem_append_left _ (ag.entered c x hc)
    case isFalse => exact List.mem_append_left _ (ag.entered c' y hy)
  left := by
    intro c' key r h
    rw [callers, callers_put hc]
    rcases List.mem_append.mp h with old | new
    · obtain ⟨y, hy, e, hp⟩ := ag.left c' key r old
      -- whoever was done before is not the one that is moved
      have ne : c' ≠ c := by
        rintro rfl
        rw [hc] at hy
        cases hy
        exact undone r hp
      exact ⟨y, by rw [if_neg ne, hy], e, hp⟩
    · obtain ⟨rfl, e, hp⟩ := left c' key r (List.mem_singleton.mp new).symm
      exact ⟨_, if_pos rfl, e.symm, hp⟩

/-- What was built for a key is still published or about to be if one caller is moved that does not publish for this
key. -/
lemma Agreed.built_of_put (ag : Agreed t s) (hc : s.callers[c]? = some x) {place : Place}
    (callers : s'.callers = (s.put c x place).callers) {key : ScopeKey} (built : m.built? key = none)
    (published : m.published? key = none) (other : ∀ slot i, x.place = .publishing slot i → x.key ≠ key) :
    Move.builtFor key (t ++ [m]) = Move.publishedFor key (t ++ [m]) ∨
      ∃ (c : CallerId) (x : Caller) (slot : SlotId) (i : ScopeId),
        s'.callers[c]? = some x ∧ x.key = key ∧ x.place = .publishing slot i := by
  rw [Move.builtFor_concat, Move.publishedFor_concat, built, published]
  simp only [Option.toList_none, List.append_nil]
  rcases ag.built key with same | ⟨c', y, slot, i, hy, e, hp⟩
  · exact .inl same
  · refine .inr ⟨c', y, slot, i, ?_, e, hp⟩
    have ne : c' ≠ c := by
      rintro rfl
      rw [hc] at hy
      cases hy
      exact other slot i hp e
    rw [callers, callers_put hc, if_neg ne, hy]

/-- Callers still agree if one is moved without a build or a publication, and the same scopes are found. -/
lemma Agreed.of_quiet (ag : Agreed t s) (q : m.Quiet) (hc : s.callers[c]? = some x) {place : Place}
    (callers : s'.callers = (s.put c x place).callers) (ca : s'.Calm)
    (find : ∀ key, s'.storage.find key = s.storage.find key) (unpublished : ∀ slot i, x.place ≠ .publishing slot i)
    (tells : place.Tells x.key c t s.storage) (undone : ∀ r, x.place ≠ .done r)
    (left : ∀ c' key r, m = .leave c' key r → c' = c ∧ key = x.key ∧ place = .done r) : Agreed (t ++ [m]) s' := by
  have kept : ∀ key i, s.storage.find key = some i → s'.storage.find key = some i := by
    intro key i h
    rwa [find]
  refine ag.of_put hc callers ca kept ?_ ?_ (fun c' _ => q.ran c') (fun _ y _ _ _ _ _ => q.built y.key) ?_ undone left
  · intro key
    simp [q.published key, find, ag.published key]
  · intro key
    exact ag.built_of_put hc callers (q.built key) (q.published key) fun slot i h => absurd h (unpublished slot i)
  · exact tells.mono (by simp [q.ran c]) (fun _ _ _ => by simp [q.built x.key]) (kept x.key)

/-- Nothing is built or published for a key whose slot was found empty. -/
lemma Agreed.builtFor_eq_nil (ag : Agreed t s) (hc : s.callers[c]? = some x) (hp : x.place = .building slot) :
    Move.builtFor x.key t = [] := by
  have empty : x.place.vacant? = some slot := by rw [hp]; rfl
  rcases ag.built x.key with same | ⟨c', y, slot', i, hy, e, hp'⟩
  · rw [same, ag.published, ag.find_eq_none hc empty]
    rfl
  · -- whoever is about to publish for this key is this caller, which is building
    have checked : y.place.checked? = some slot' := by rw [hp']; rfl
    have same := ag.alone hy hc checked (Place.checked?_of_vacant? empty) e
    rw [same, hc] at hy
    cases hy
    rw [hp] at hp'
    cases hp'

/-- A new caller knows nothing yet. -/
lemma Agreed.enter (ag : Agreed t s) (ca : s'.Calm) {key : ScopeKey} {parent : Option CallerId}
    (callers : s'.callers = s.callers ++ [⟨key, parent, .asking⟩]) (storage : s'.storage = s.storage) :
    Agreed (t ++ [.enter s.callers.length key parent]) s' where
  toCalm := ca
  published key' := by simp [Move.published?, storage, ag.published key']
  built key' := by
    simp only [Move.builtFor_concat, Move.publishedFor_concat, Move.built?, Move.published?, Option.toList_none,
      List.append_nil]
    refine (ag.built key').imp_right ?_
    rintro ⟨c, x, slot, i, hc, h⟩
    exact ⟨c, x, slot, i, by rw [callers]; exact getElem?_concat_eq_some_iff.mpr (.inl hc), h⟩
  -- those who were there know what they knew, and the new one has nothing to tell
  tells c x hc := by
    rw [callers] at hc
    rcases getElem?_concat_eq_some_iff.mp hc with old | ⟨rfl, rfl⟩
    · exact (ag.tells c x old).mono (by simp [Move.ran?]) (by simp [Move.built?]) (by simp [storage])
    · simp [Place.Tells, Move.ran?, ag.fresh]
  fresh c le := by
    have le' : s.callers.length ≤ c := by
      rw [callers, List.length_append] at le
      exact Nat.le_of_add_right_le le
    simp [Move.ran?, ag.fresh c le']
  entered c x hc := by
    rw [callers] at hc
    rcases getElem?_concat_eq_some_iff.mp hc with old | ⟨rfl, rfl⟩
    · exact List.mem_append_left _ (ag.entered c x old)
    · exact List.mem_append_right _ List.mem_cons_self
  left c key' r h := by
    rcases List.mem_append.mp h with old | new
    · obtain ⟨x, hc, h⟩ := ag.left c key' r old
      exact ⟨x, by rw [callers]; exact getElem?_concat_eq_some_iff.mpr (.inl hc), h⟩
    · cases List.mem_singleton.mp new

/-- A look at the storage tells what is stored. -/
lemma Agreed.find (ag : Agreed t s) (key : ScopeKey) : Agreed (t ++ [.find key (s.storage.find key)]) s where
  toCalm := ag.toCalm
  published key' := by simp [Move.published?, ag.published key']
  built key' := by simpa [Move.published?, Move.built?] using ag.built key'
  tells c x hc := (ag.tells c x hc).mono (by simp [Move.ran?]) (by simp [Move.built?]) (fun _ => id)
  fresh c le := by simp [Move.ran?, ag.fresh c le]
  entered c x hc := List.mem_append_left _ (ag.entered c x hc)
  left c key' r h := by
    rcases List.mem_append.mp h with old | new
    · exact ag.left c key' r old
    · cases List.mem_singleton.mp new

/-- Callers still agree when a build succeeds. -/
lemma Agreed.build (ag : Agreed t s) (hc : s.callers[c]? = some x) (hp : x.place = .building slot)
    (ca : ({ s.put c x (.publishing slot s.made) with made := s.made + 1 } : Crowd).Calm) :
    Agreed (t ++ [.build c x.key (.ok s.made)]) { s.put c x (.publishing slot s.made) with made := s.made + 1 } := by
  have none_built := ag.builtFor_eq_nil hc hp
  have te := ag.tells c x hc
  rw [hp] at te
  -- the build tells something about its own key only, for which nothing was built so far
  have quiet_for : ∀ key, key ≠ x.key → (Move.build c x.key (.ok s.made)).built? key = none := by
    intro key ne
    exact if_neg fun e => ne e.symm
  refine ag.of_put hc rfl ca (fun _ _ => id) ?_ ?_ ?_ ?_ ?_ (by simp [hp]) (by simp)
  · intro key
    simpa [Move.published?] using ag.published key
  · intro key
    by_cases e : key = x.key
    · refine .inr ⟨c, { x with place := .publishing slot s.made }, slot, s.made, ?_, e.symm, rfl⟩
      exact (callers_put hc _ c).trans (if_pos rfl)
    · exact ag.built_of_put hc rfl (quiet_for key e) rfl (by simp [hp])
  · intro c' ne
    exact if_neg fun e => ne e.symm
  · intro c' y slot' i ne hy hp'
    have mine : x.place.checked? = some slot := by rw [hp]; rfl
    have theirs : y.place.checked? = some slot' := by rw [hp']; rfl
    exact quiet_for y.key fun e => ne (ag.alone hy hc theirs mine e)
  · refine ⟨?_, ?_⟩
    · have none_ran : Move.ranBy c t = [] := te
      simp [none_ran, Move.ran?]
    · simp [none_built, Move.built?]

/-- Callers still agree when a scope is published. -/
lemma Agreed.publish (ag : Agreed t s) {i : ScopeId} (hc : s.callers[c]? = some x)
    (hp : x.place = .publishing slot i)
    (ca : ((s.restore (s.storage.publish slot i)).put c x (.leaving slot (.ok i))).Calm) :
    Agreed (t ++ [.publish c x.key i]) ((s.restore (s.storage.publish slot i)).put c x (.leaving slot (.ok i))) := by
  have te := ag.tells c x hc
  rw [hp] at te
  obtain ⟨-, built⟩ := te
  have empty : x.place.vacant? = some slot := by rw [hp]; rfl
  have none_found := ag.find_eq_none hc empty
  have here := ag.checked c x slot hc (by rw [hp]; rfl)
  have found : ∀ key, (s.storage.publish slot i).find key = if key = x.key then some i else s.storage.find key :=
    ag.sound.find_publish here i
  -- the slot was empty until now, so this scope is the first that is published for its key
  have published : ∀ key, Move.publishedFor key (t ++ [.publish c x.key i]) =
      ((s.storage.publish slot i).find key).toList := by
    intro key
    rw [Move.publishedFor_concat, ag.published, found]
    by_cases e : key = x.key
    · simp [e, none_found, Move.published?]
    · have ne : ¬ x.key = key := fun h => e h.symm
      simp [e, ne, Move.published?]
  refine ag.of_put hc rfl ca ?_ published ?_ (fun _ _ => rfl) (fun _ _ _ _ _ _ _ => rfl) ?_ (by simp [hp]) (by simp)
  · intro key j h
    have ne : key ≠ x.key := fun e => by
      rw [e, none_found] at h
      cases h
    exact (found key).trans (by rw [if_neg ne, h])
  · intro key
    by_cases e : key = x.key
    · refine .inl ?_
      rw [published, found, e, if_pos rfl, Move.builtFor_concat, built]
      rfl
    · exact ag.built_of_put hc rfl rfl (if_neg fun h => e h.symm) fun _ _ _ h => e h.symm
  · exact (found x.key).trans (if_pos rfl)

/-- Each step but the beginning of a sweep keeps callers in agreement. -/
lemma agreed_step (ag : Agreed t s) (st : Step s m s') (ns : ¬ m.isSweep) : Agreed (t ++ [m]) s' := by
  have ca := calm_step ag.toCalm st ns
  cases st with
  | enter => exact ag.enter ca rfl rfl
  | @fetch c x hc hp =>
    have te := ag.tells c x hc
    rw [hp] at te
    exact ag.of_quiet ⟨fun _ => rfl, fun _ => rfl, fun _ => rfl⟩ hc rfl ca (fun key => s.storage.find_fetch x.key key)
      (by simp [hp]) te (by simp [hp]) (by simp)
  | @acquire c x slot hc hp | @check c x slot hc hp | @stale c x slot hc hp | @miss c x slot hc hp
  | @retry c x slot hc hp =>
    have te := ag.tells c x hc
    rw [hp] at te
    exact ag.of_quiet ⟨fun _ => rfl, fun _ => rfl, fun _ => rfl⟩ hc rfl ca (fun _ => rfl) (by simp [hp]) te
      (by simp [hp]) (by simp)
  | @read c x slot i hc hp here =>
    -- the slot was checked, so what it holds is what is found under the key
    have stored : s.storage.find x.key = some i := by
      rw [Storage.find, ag.checked c x slot hc (by rw [hp]; rfl)]
      exact here
    exact ag.of_quiet ⟨fun _ => rfl, fun _ => rfl, fun _ => rfl⟩ hc rfl ca (fun _ => rfl) (by simp [hp]) stored
      (by simp [hp]) (by simp)
  | build hc hp => exact ag.build hc hp ca
  | @fail c x slot e hc hp =>
    have te := ag.tells c x hc
    rw [hp] at te
    have none_ran : Move.ranBy c t = [] := te
    refine ag.of_put hc rfl ca (fun _ _ => id) ?_ ?_ ?_ (fun _ _ _ _ _ _ _ => rfl) ?_ (by simp [hp]) (by simp)
    · intro key
      simpa [Move.published?] using ag.published key
    · intro key
      exact ag.built_of_put hc rfl rfl rfl (by simp [hp])
    · intro c' ne
      exact if_neg fun e => ne e.symm
    · simp [Place.Tells, none_ran, Move.ran?]
  | publish hc hp => exact ag.publish hc hp ca
  | @release c x slot e hc hp =>
    have te := ag.tells c x hc
    rw [hp] at te
    have empty : x.place.vacant? = some slot := by rw [hp]; rfl
    have none_found := ag.find_eq_none hc empty
    have forgets : s.storage.release x.key slot = s.storage.forget x.key :=
      Storage.release_of_current (ag.checked c x slot hc (by rw [hp]; rfl))
    refine ag.of_quiet ⟨fun _ => rfl, fun _ => rfl, fun _ => rfl⟩ hc rfl ca ?_ (by simp [hp]) te
      (by simp [hp]) (by simp)
    -- the key that is forgotten had no scope
    intro key
    rw [storage_put, storage_restore, forgets, Storage.find_forget]
    split
    case isTrue e' => rw [e', none_found]
    case isFalse => rfl
  | @leave c x slot r hc hp =>
    have te := ag.tells c x hc
    rw [hp] at te
    refine ag.of_quiet ⟨fun _ => rfl, fun _ => rfl, fun _ => rfl⟩ hc rfl ca (fun _ => rfl) (by simp [hp]) ?_
      (by simp [hp]) ?_
    · cases r with
      | ok i => exact te
      | error e => exact te
    · intro c' key r' h
      cases h
      exact ⟨rfl, rfl, rfl⟩
  | find => exact ag.find _
  | sweep => exact absurd rfl ns
  | detach hn | take hn =>
    rw [ag.unswept] at hn
    cases hn

/-- A run without sweeps keeps to the agreement. -/
lemma agreed_run (run : Run start t s) (ns : ∀ m ∈ t, ¬ m.isSweep) : Agreed t s := by
  induction run with
  | rest => exact .start
  | step _ st ih =>
    have ag := ih fun m h => ns m (List.mem_append_left _ h)
    exact agreed_step ag st (ns _ (List.mem_append_right _ List.mem_cons_self))

/-- Whoever is done has found a scope that is stored, or called its producer once. -/
lemma Agreed.tells_of_leave (ag : Agreed t s) {key : ScopeKey} {r : Ending} (h : .leave c key r ∈ t) :
    (Place.done r).Tells key c t s.storage ∧ ∃ parent, .enter c key parent ∈ t := by
  obtain ⟨x, hc, rfl, hp⟩ := ag.left c key r h
  exact ⟨hp ▸ ag.tells c x hc, x.parent, ag.entered c x hc⟩

/-- Callers agree in every run in which nobody takes keys out of the storage. -/
theorem agreement (run : Run start t s) (ns : ∀ m ∈ t, ¬ m.isSweep) : Agreement t := by
  have ag := agreed_run run ns
  -- what is built for a key is what is published for it, unless it is about to be
  have built : ∀ key, Move.builtFor key t = Move.publishedFor key t ∨
      Move.publishedFor key t = [] ∧ ∃ i, Move.builtFor key t = [i] := by
    intro key
    refine (ag.built key).imp_right ?_
    rintro ⟨c, x, slot, i, hc, rfl, hp⟩
    have te := ag.tells c x hc
    rw [hp] at te
    have empty : x.place.vacant? = some slot := by rw [hp]; rfl
    refine ⟨?_, i, te.2⟩
    rw [ag.published, ag.find_eq_none hc empty]
    rfl
  constructor
  case once =>
    intro key
    rcases built key with same | ⟨-, i, one⟩
    · rw [same, ag.published]
      cases s.storage.find key <;> simp
    · simp [one]
  case published =>
    intro key
    rcases built key with same | ⟨none_yet, -⟩
    · exact ⟨[], by rw [same, List.append_nil]⟩
    · rw [none_yet]
      exact List.nil_prefix
  case own =>
    intro c key r h
    exact (ag.tells_of_leave h).2
  case ok =>
    intro c key i h
    have stored : s.storage.find key = some i := (ag.tells_of_leave h).1
    have published : Move.publishedFor key t = [i] := by rw [ag.published, stored]; rfl
    refine ⟨?_, published⟩
    rcases built key with same | ⟨none_yet, -⟩
    · rw [same, published]
    · rw [published] at none_yet
      cases none_yet
  case error =>
    intro c key e h
    exact (ag.tells_of_leave h).1
  case find =>
    rintro before key r after rfl
    -- a look-up shows the storage of its own moment, at which the callers agreed already
    obtain ⟨s₁, s₂, run₁, st, -⟩ := run.split
    have ag₁ := agreed_run run₁ fun m h => ns m (List.mem_append_left _ h)
    cases st
    exact ag₁.published key

/-- Two callers of one key, the second of which waits while the build of the first fails: it finds its slot released,
starts again and builds, and the look-ups before and after find nothing and its scope. -/
theorem agreement_after_failure :
    let key : ScopeKey := ⟨"demo", "A"⟩
    let e : ScopeError := .producer "out of order"
    let t : List Move :=
      [.enter 0 key none, .enter 1 key none, .fetch 0, .acquire 0, .check 0, .read 0, .fetch 1,
        .build 0 key (.error e), .release 0, .leave 0 key (.error e), .acquire 1, .check 1, .retry 1, .fetch 1,
        .acquire 1, .check 1, .read 1, .find key none, .build 1 key (.ok 0), .publish 1 key 0, .find key (some 0),
        .leave 1 key (.ok 0)]
    (∃ s, Run start t s) ∧ (∀ m ∈ t, ¬ m.isSweep) ∧ Move.ranBy 0 t = [.error e] ∧ Move.builtFor key t = [0] := by
  intro key e t
  let first : Turn := .go 0 none
  let second : Turn := .go 1 none
  let turns : List Turn :=
    [.enter key none, .enter key none, first, first, first, first, second, .go 0 (some e), first, first, second, second,
      second, second, second, second, second, .find key, second, second, .find key, second]
  have played : (start.play turns).map Prod.fst = some t := by decide +kernel
  obtain ⟨s, run⟩ := exists_run_of_play played
  have ns : ∀ m ∈ t, ¬ m.isSweep := by decide +kernel
  have ag := agreement run ns
  exact ⟨⟨s, run⟩, ns, ag.error 0 key e (by decide +kernel), (ag.ok 1 key 0 (by decide +kernel)).1⟩

end Crowd

end ModelScopes
