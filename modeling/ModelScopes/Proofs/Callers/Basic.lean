import Mathlib.Logic.Function.Basic
import Mathlib.Tactic.Common
import ModelScopes.Storage.Basic

/-!
# Callers of one storage

Any number of callers work on one storage at the same time. A caller that finds or creates a scope goes through these
places: it fetches the slot of its key, waits for the slot's lock, checks that its key still has this slot, reads
the slot, builds a scope if there is none, and publishes it, or releases the slot if the build fails; then it gives
the lock back. If its key has another slot by the time it holds the lock, it gives the lock back and starts again. A
sweeper takes keys out of the storage, one after another; each is taken out of the table first, and the scope is taken
out of its slot later. Each step is atomic, and the steps of different callers and sweepers come in any order.

A producer may call from within its build: such a caller has the one that is building for its parent, which goes on
when all that it waits for are done.
-/

namespace ModelScopes

/-- The number of a caller. -/
abbrev CallerId := Nat

/-- The number of a sweeper. -/
abbrev SweeperId := Nat

/-- What a caller ends with: a scope or an error. -/
abbrev Ending := Except ScopeError ScopeId

/-- How far a caller has come. -/
inductive Place where
  | asking
  | waiting (slot : SlotId)
  | checking (slot : SlotId)
  | reading (slot : SlotId)
  | building (slot : SlotId)
  | publishing (slot : SlotId) (i : ScopeId)
  | releasing (slot : SlotId) (e : ScopeError)
  | retrying (slot : SlotId)
  | leaving (slot : SlotId) (r : Ending)
  | done (r : Ending)
  deriving DecidableEq

namespace Place

/-- The slot that was fetched. -/
def slot? : Place → Option SlotId
  | asking | done _ => none
  | waiting t | checking t | reading t | building t | publishing t _ | releasing t _ | retrying t | leaving t _ =>
    some t

/-- The slot whose lock is held. -/
def held? : Place → Option SlotId
  | asking | waiting _ | done _ => none
  | checking t | reading t | building t | publishing t _ | releasing t _ | retrying t | leaving t _ => some t

/-- The slot that was found to be the one of the key, until its work is done. -/
def checked? : Place → Option SlotId
  | reading t | building t | publishing t _ | releasing t _ => some t
  | _ => none

/-- The slot that was found empty, until it is filled or released. -/
def vacant? : Place → Option SlotId
  | building t | publishing t _ | releasing t _ => some t
  | _ => none

/-- Whether the caller's producer is at work. -/
def isBuilding : Place → Bool
  | building _ => true
  | _ => false

/-- Whether the caller has returned. -/
def isDone : Place → Bool
  | done _ => true
  | _ => false

end Place

/-- One that finds or creates the scope of a key. -/
structure Caller where
  key : ScopeKey
  parent : Option CallerId
  place : Place
  deriving DecidableEq

/-- One that takes keys out of the storage: those still to come, the slot that was taken out of the table last if its
scope is still in it, and the scopes that were taken out. -/
structure Sweeper where
  keys : List ScopeKey
  taking : Option SlotId
  taken : List ScopeId
  deriving DecidableEq

/-- A storage, who holds the lock of each slot, all callers and sweepers, and the number of scopes made so far. -/
structure Crowd where
  storage : Storage
  holder : SlotId → Option CallerId
  callers : List Caller
  sweepers : List Sweeper
  made : Nat

/-- What happens in one step, as far as it can be told. -/
inductive Move where
  | enter (c : CallerId) (key : ScopeKey) (parent : Option CallerId)
  | fetch (c : CallerId)
  | acquire (c : CallerId)
  | check (c : CallerId)
  | read (c : CallerId)
  | build (c : CallerId) (key : ScopeKey) (r : Ending)
  | publish (c : CallerId) (key : ScopeKey) (i : ScopeId)
  | release (c : CallerId)
  | retry (c : CallerId)
  | leave (c : CallerId) (key : ScopeKey) (r : Ending)
  | find (key : ScopeKey) (i : Option ScopeId)
  | sweep (n : SweeperId) (keys : List ScopeKey)
  | detach (n : SweeperId) (key : ScopeKey) (slot : Option SlotId)
  | take (n : SweeperId) (i : Option ScopeId)
  deriving DecidableEq

namespace Crowd

/-- Nobody has called yet. -/
def start : Crowd :=
  ⟨.empty, fun _ => none, [], [], 0⟩

/-- Whether one may call for this parent: it is building, or there is none. -/
def Permits (s : Crowd) (parent : Option CallerId) : Prop :=
  ∀ c ∈ parent, ∃ x ∈ s.callers[c]?, x.place.isBuilding

/-- Whether all calls from within the build of a caller are done. -/
def Idle (s : Crowd) (c : CallerId) : Prop :=
  ∀ x ∈ s.callers, x.parent = some c → x.place.isDone

instance (s : Crowd) (parent : Option CallerId) : Decidable (s.Permits parent) :=
  inferInstanceAs (Decidable (∀ c ∈ parent, ∃ x ∈ s.callers[c]?, x.place.isBuilding))

instance (s : Crowd) (c : CallerId) : Decidable (s.Idle c) :=
  inferInstanceAs (Decidable (∀ x ∈ s.callers, x.parent = some c → x.place.isDone))

/-- A caller without a parent may always call. -/
lemma permits_none (s : Crowd) : s.Permits none := by
  simp [Permits]

/-- Moves a caller to a place. -/
def put (s : Crowd) (c : CallerId) (x : Caller) (place : Place) : Crowd :=
  { s with callers := s.callers.set c { x with place } }

/-- Puts another storage in place. -/
def restore (s : Crowd) (storage : Storage) : Crowd :=
  { s with storage }

/-- Gives the lock of a slot to a caller, or back. -/
def lock (s : Crowd) (slot : SlotId) (c : Option CallerId) : Crowd :=
  { s with holder := Function.update s.holder slot c }

/-- Changes a sweeper. -/
def putSweeper (s : Crowd) (n : SweeperId) (y : Sweeper) : Crowd :=
  { s with sweepers := s.sweepers.set n y }

end Crowd

/-- One step of one caller or sweeper. -/
inductive Step : Crowd → Move → Crowd → Prop where
  | enter {s : Crowd} {key : ScopeKey} {parent : Option CallerId} (may : s.Permits parent) :
    Step s (.enter s.callers.length key parent) { s with callers := s.callers ++ [⟨key, parent, .asking⟩] }
  | fetch {s : Crowd} {c : CallerId} {x : Caller} (hc : s.callers[c]? = some x) (hp : x.place = .asking) :
    Step s (.fetch c) ((s.restore (s.storage.fetch x.key).2).put c x (.waiting (s.storage.fetch x.key).1))
  | acquire {s : Crowd} {c : CallerId} {x : Caller} {slot : SlotId} (hc : s.callers[c]? = some x)
    (hp : x.place = .waiting slot) (free : s.holder slot = none) :
    Step s (.acquire c) ((s.lock slot (some c)).put c x (.checking slot))
  | check {s : Crowd} {c : CallerId} {x : Caller} {slot : SlotId} (hc : s.callers[c]? = some x)
    (hp : x.place = .checking slot) (current : s.storage.isCurrent x.key slot = true) :
    Step s (.check c) (s.put c x (.reading slot))
  | stale {s : Crowd} {c : CallerId} {x : Caller} {slot : SlotId} (hc : s.callers[c]? = some x)
    (hp : x.place = .checking slot) (stale : s.storage.isCurrent x.key slot = false) :
    Step s (.check c) (s.put c x (.retrying slot))
  | read {s : Crowd} {c : CallerId} {x : Caller} {slot : SlotId} {i : ScopeId} (hc : s.callers[c]? = some x)
    (hp : x.place = .reading slot) (here : s.storage.read slot = some i) :
    Step s (.read c) (s.put c x (.leaving slot (.ok i)))
  | miss {s : Crowd} {c : CallerId} {x : Caller} {slot : SlotId} (hc : s.callers[c]? = some x)
    (hp : x.place = .reading slot) (empty : s.storage.read slot = none) :
    Step s (.read c) (s.put c x (.building slot))
  | build {s : Crowd} {c : CallerId} {x : Caller} {slot : SlotId} (hc : s.callers[c]? = some x)
    (hp : x.place = .building slot) (idle : s.Idle c) :
    Step s (.build c x.key (.ok s.made)) { s.put c x (.publishing slot s.made) with made := s.made + 1 }
  | fail {s : Crowd} {c : CallerId} {x : Caller} {slot : SlotId} (e : ScopeError) (hc : s.callers[c]? = some x)
    (hp : x.place = .building slot) (idle : s.Idle c) :
    Step s (.build c x.key (.error e)) (s.put c x (.releasing slot e))
  | publish {s : Crowd} {c : CallerId} {x : Caller} {slot : SlotId} {i : ScopeId} (hc : s.callers[c]? = some x)
    (hp : x.place = .publishing slot i) :
    Step s (.publish c x.key i) ((s.restore (s.storage.publish slot i)).put c x (.leaving slot (.ok i)))
  | release {s : Crowd} {c : CallerId} {x : Caller} {slot : SlotId} {e : ScopeError} (hc : s.callers[c]? = some x)
    (hp : x.place = .releasing slot e) :
    Step s (.release c) ((s.restore (s.storage.release x.key slot)).put c x (.leaving slot (.error e)))
  | retry {s : Crowd} {c : CallerId} {x : Caller} {slot : SlotId} (hc : s.callers[c]? = some x)
    (hp : x.place = .retrying slot) :
    Step s (.retry c) ((s.lock slot none).put c x .asking)
  | leave {s : Crowd} {c : CallerId} {x : Caller} {slot : SlotId} {r : Ending} (hc : s.callers[c]? = some x)
    (hp : x.place = .leaving slot r) :
    Step s (.leave c x.key r) ((s.lock slot none).put c x (.done r))
  | find {s : Crowd} {key : ScopeKey} :
    Step s (.find key (s.storage.find key)) s
  | sweep {s : Crowd} {keys : List ScopeKey} :
    Step s (.sweep s.sweepers.length keys) { s with sweepers := s.sweepers ++ [⟨keys, none, []⟩] }
  | detach {s : Crowd} {n : SweeperId} {key : ScopeKey} {rest : List ScopeKey} {taken : List ScopeId}
    (hn : s.sweepers[n]? = some ⟨key :: rest, none, taken⟩) :
    Step s (.detach n key (s.storage.detach key).1)
      ((s.restore (s.storage.detach key).2).putSweeper n ⟨rest, (s.storage.detach key).1, taken⟩)
  | take {s : Crowd} {n : SweeperId} {keys : List ScopeKey} {slot : SlotId} {taken : List ScopeId}
    (hn : s.sweepers[n]? = some ⟨keys, some slot, taken⟩) :
    Step s (.take n (s.storage.take slot).1)
      ((s.restore (s.storage.take slot).2).putSweeper n ⟨keys, none, taken ++ (s.storage.take slot).1.toList⟩)

/-- Steps one after another, in any order that they can come in. -/
inductive Run (s : Crowd) : List Move → Crowd → Prop where
  | rest : Run s [] s
  | step {t : List Move} {s' s'' : Crowd} {m : Move} (run : Run s t s') (st : Step s' m s'') : Run s (t ++ [m]) s''

/-- Whether a move begins to take keys out of the storage. -/
def Move.isSweep : Move → Bool
  | .sweep _ _ => true
  | _ => false

end ModelScopes
