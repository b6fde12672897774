import ModelScopes.Proofs.Callers.Basic

/-!
# Taking turns

Each caller has one thing to do next, unless it is done, waits for a lock that is held, or waits for calls from within
its build; so has each sweeper. A run is played by saying whose turn it is, and whether a build fails. What is played
is a run (`run_of_play`).
-/

namespace ModelScopes

/-- Whose turn it is: one who calls, a caller, whose producer fails or not if it is called, one who looks a key up, one
who begins to sweep, or a sweeper. -/
inductive Turn where
  | enter (key : ScopeKey) (parent : Option CallerId)
  | go (c : CallerId) (failing : Option ScopeError)
  | find (key : ScopeKey)
  | sweep (keys : List ScopeKey)
  | reap (n : SweeperId)

namespace Crowd

/-- What a caller does next. -/
def go? (s : Crowd) (c : CallerId) (x : Caller) (failing : Option ScopeError) : Option (Move × Crowd) :=
  match x.place with
  | .asking => some (.fetch c, (s.restore (s.storage.fetch x.key).2).put c x (.waiting (s.storage.fetch x.key).1))
  | .waiting slot =>
    if s.holder slot = none then some (.acquire c, (s.lock slot (some c)).put c x (.checking slot)) else none
  | .checking slot =>
    some (.check c, s.put c x (bif s.storage.isCurrent x.key slot then .reading slot else .retrying slot))
  | .reading slot =>
    match s.storage.read slot with
    | some i => some (.read c, s.put c x (.leaving slot (.ok i)))
    | none => some (.read c, s.put c x (.building slot))
  | .building slot =>
    if s.Idle c then
      match failing with
      | some e => some (.build c x.key (.error e), s.put c x (.releasing slot e))
      | none => some (.build c x.key (.ok s.made), { s.put c x (.publishing slot s.made) with made := s.made + 1 })
    else none
  | .publishing slot i =>
    some (.publish c x.key i, (s.restore (s.storage.publish slot i)).put c x (.leaving slot (.ok i)))
  | .releasing slot e =>
    some (.release c, (s.restore (s.storage.release x.key slot)).put c x (.leaving slot (.error e)))
  | .retrying slot => some (.retry c, (s.lock slot none).put c x .asking)
  | .leaving slot r => some (.leave c x.key r, (s.lock slot none).put c x (.done r))
  | .done _ => none

/-- What a sweeper does next. -/
def reap? (s : Crowd) (n : SweeperId) : Sweeper → Option (Move × Crowd)
  | ⟨keys, some slot, taken⟩ =>
    let (i, storage) := s.storage.take slot
    some (.take n i, (s.restore storage).putSweeper n ⟨keys, none, taken ++ i.toList⟩)
  | ⟨key :: rest, none, taken⟩ =>
    let (slot, storage) := s.storage.detach key
    some (.detach n key slot, (s.restore storage).putSweeper n ⟨rest, slot, taken⟩)
  | ⟨[], none, _⟩ => none

/-- What is done in a turn. -/
def turn? (s : Crowd) : Turn → Option (Move × Crowd)
  | .enter key parent =>
    if s.Permits parent then
      some (.enter s.callers.length key parent, { s with callers := s.callers ++ [⟨key, parent, .asking⟩] })
    else none
  | .go c failing => (s.callers[c]?).bind fun x => s.go? c x failing
  | .find key => some (.find key (s.storage.find key), s)
  | .sweep keys => some (.sweep s.sweepers.length keys, { s with sweepers := s.sweepers ++ [⟨keys, none, []⟩] })
  | .reap n => (s.sweepers[n]?).bind fun y => s.reap? n y

/-- Plays turns, and tells the moves. -/
def play : List Turn → Crowd → Option (List Move × Crowd)
  | [], s => some ([], s)
  | turn :: rest, s =>
    match s.turn? turn with
    | none => none
    | some (m, s) => (play rest s).map fun a => (m :: a.1, a.2)

variable {s s' : Crowd} {m : Move}

/-- What a caller does next is a step. -/
lemma step_of_go? {c : CallerId} {x : Caller} (hc : s.callers[c]? = some x) {failing : Option ScopeError}
    (h : s.go? c x failing = some (m, s')) : Step s m s' := by
  -- what is done depends on the place, and in some places on what the storage says by then
  cases hp : x.place with
  | asking =>
    simp only [go?, hp] at h
    cases h
    exact .fetch hc hp
  | waiting slot =>
    simp only [go?, hp] at h
    split at h
    case isTrue free =>
      cases h
      exact .acquire hc hp free
    case isFalse => cases h
  | checking slot =>
    cases hk : s.storage.isCurrent x.key slot with
    | true =>
      simp only [go?, hp, hk] at h
      cases h
      exact .check hc hp hk
    | false =>
      simp only [go?, hp, hk] at h
      cases h
      exact .stale hc hp hk
  | reading slot =>
    cases hr : s.storage.read slot with
    | some i =>
      simp only [go?, hp, hr] at h
      cases h
      exact .read hc hp hr
    | none =>
      simp only [go?, hp, hr] at h
      cases h
      exact .miss hc hp hr
  | building slot =>
    simp only [go?, hp] at h
    split at h
    case isTrue idle =>
      cases failing with
      | some e =>
        cases h
        exact .fail e hc hp idle
      | none =>
        cases h
        exact .build hc hp idle
    case isFalse => cases h
  | publishing slot i =>
    simp only [go?, hp] at h
    cases h
    exact .publish hc hp
  | releasing slot e =>
    simp only [go?, hp] at h
    cases h
    exact .release hc hp
  | retrying slot =>
    simp only [go?, hp] at h
    cases h
    exact .retry hc hp
  | leaving slot r =>
    simp only [go?, hp] at h
    cases h
    exact .leave hc hp
  | done r =>
    simp only [go?, hp] at h
    cases h

/-- What is done in a turn is a step. -/
lemma step_of_turn? {turn : Turn} (h : s.turn? turn = some (m, s')) : Step s m s' := by
  cases turn with
  | enter key parent =>
    simp only [turn?] at h
    split at h
    case isTrue may =>
      cases h
      exact .enter may
    case isFalse => cases h
  | go c failing =>
    obtain ⟨x, hc, h⟩ := Option.bind_eq_some_iff.mp h
    exact step_of_go? hc h
  | find key =>
    cases h
    exact .find
  | sweep keys =>
    cases h
    exact .sweep
  | reap n =>
    obtain ⟨⟨keys, taking, taken⟩, hn, h⟩ := Option.bind_eq_some_iff.mp h
    cases taking with
    | some slot =>
      cases h
      exact .take hn
    | none =>
      cases keys with
      | nil => cases h
      | cons key rest =>
        cases h
        exact .detach hn

/-- What is played after a run prolongs it. -/
lemma run_of_play {s₀ : Crowd} {t t' : List Move} {turns : List Turn} (run : Run s₀ t s)
    (h : s.play turns = some (t', s')) : Run s₀ (t ++ t') s' := by
  induction turns generalizing s t t' with
  | nil =>
    cases h
    rwa [List.append_nil]
  | cons turn rest ih =>
    simp only [play] at h
    split at h
    case h_1 => cases h
    case h_2 m s₁ hm =>
      obtain ⟨⟨t₁, s₂⟩, hr, e⟩ := Option.map_eq_some_iff.mp h
      cases e
      have run' := ih (run.step (step_of_turn? hm)) hr
      rwa [List.append_assoc] at run'

/-- Moves that can be played are the moves of a run. -/
lemma exists_run_of_play {t : List Move} {turns : List Turn} (h : (s.play turns).map Prod.fst = some t) :
    ∃ s', Run s t s' := by
  obtain ⟨⟨t', s'⟩, played, rfl⟩ := Option.map_eq_some_iff.mp h
  exact ⟨s', run_of_play .rest played⟩

end Crowd

end ModelScopes
