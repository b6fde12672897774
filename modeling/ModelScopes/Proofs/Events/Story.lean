import ModelScopes.Event
import ModelScopes.Proofs.Since
import ModelScopes.Scope.Basic

/-!
# The story of a key

An event is emitted as a message and fields, in which its key is a text. `Story key log x` says how the events of a log
may follow one another as far as they concern a key, and where they leave it: at the standing `x`. If no other key of
the log reads alike, then what is emitted can be read back: which standing it leaves the key at
(`Standing.Told.replay`), and that it was emitted in the right order (`Story.inOrder`).
-/

namespace ModelScopes

/-- What is emitted of an event. -/
structure Emission where
  message : String
  fields : List (String × EventValue)
  deriving DecidableEq

/-- Where a log leaves a key. Before its scope is stored, creation is announced, the build is tried, and the model is
made. A stored scope is empty, perhaps with a build that was tried, or full, or shut. -/
inductive Standing where
  | absent
  | announced
  | tried
  | made (m : Uuid)
  | empty (tried : Bool)
  | full (m : Uuid)
  | shut

namespace Event

/-- The event as it is emitted. -/
def emission (e : Event) : Emission :=
  ⟨e.message, e.fields⟩

/-- The key that an event names. -/
def key? : Event → Option ScopeKey
  | creating key | created key | notCreated key _ | building key | built key .. | modelReleased key _ | closed key
  | scopeReleased key | invalidatedAfterFailure key | notInvalidated key _ => some key
  | closedAll _ | cacheApplied .. => none

/-- An event that makes no difference to the standing of a key. -/
def Aside (key : ScopeKey) : Event → Prop
  | creating k | created k | notCreated k _ | building k | built k .. | modelReleased k _ | closed k
  | scopeReleased k => k ≠ key
  | closedAll _ => False
  | invalidatedAfterFailure _ | notInvalidated .. | cacheApplied .. => True

/-- No key but this one is named by a text that reads like it. -/
def Apart (key : ScopeKey) (log : List Event) : Prop :=
  ∀ e ∈ log, ∀ k ∈ e.key?, k.text = key.text → k = key

instance (key : ScopeKey) (log : List Event) : Decidable (Apart key log) :=
  inferInstanceAs (Decidable (∀ e ∈ log, ∀ k ∈ e.key?, k.text = key.text → k = key))

end Event

namespace Emission

variable (key : ScopeKey) (e : Emission)

/-- An emission with this message that names the key. -/
def Says (message : String) : Prop :=
  e.message = message ∧ ("key", .text key.text) ∈ e.fields

instance (message : String) : Decidable (e.Says key message) :=
  inferInstanceAs (Decidable (_ ∧ _))

/-- An emission that names a model. -/
def Carries (m : Uuid) : Prop :=
  e.fields.lookup "model" = some (.model m)

instance (m : Uuid) : Decidable (e.Carries m) :=
  inferInstanceAs (Decidable (_ = _))

/-- The creation of a scope is announced. -/
abbrev Creating : Prop := e.Says key "creating domain model scope"

/-- A scope was created. -/
abbrev Created : Prop := e.Says key "domain model scope created"

/-- A scope was created or not. -/
abbrev Outcome : Prop := e.Created key ∨ e.Says key "domain model scope not created"

/-- A model is about to be built. -/
abbrev Building : Prop := e.Says key "building domain model"

/-- A model was built. -/
abbrev Built : Prop := e.Says key "domain model built"

/-- A model was let go of. -/
abbrev LetGo : Prop := e.Says key "domain model released"

/-- A scope was closed. -/
abbrev Closed : Prop := e.Says key "domain model scope closed"

/-- No scope is stored any more: that of the key was taken out, or all were. -/
abbrev Emptied : Prop :=
  e.Says key "domain model scope released" ∨ e.message = "closed all domain model scopes"

/-- What is emitted by the scope itself. -/
abbrev FromScope : Prop := e.Building key ∨ e.Built key ∨ e.LetGo key ∨ e.Closed key

/-- The phase of the scope stored under a key, from what was emitted. -/
def replay (log : List Emission) : Option ScopePhase :=
  if Since (Created key) (Emptied key) log then
    if Since (Closed key) (Creating key) log then some .closed
    else if Since (Built key) (LetGo key) log then some .activePopulated
    else some .activeEmpty
  else none

end Emission

/-- How an event goes on with the story of a key. -/
inductive Moves (key : ScopeKey) : Standing → Event → Standing → Prop
  | announced : Moves key .absent (.creating key) .announced
  | tried : Moves key .announced (.building key) .tried
  | made {m n c} : Moves key .tried (.built key m n c) (.made m)
  | created {m} : Moves key (.made m) (.created key) (.full m)
  | failed {e} : Moves key .tried (.notCreated key e) .absent
  | triedAgain {t} : Moves key (.empty t) (.building key) (.empty true)
  | madeAgain {m n c} : Moves key (.empty true) (.built key m n c) (.full m)
  | letGo {m} : Moves key (.full m) (.modelReleased key m) (.empty false)
  | closedEmpty {t} : Moves key (.empty t) (.closed key) .shut
  | closedFull {m} : Moves key (.full m) (.closed key) .shut
  | released : Moves key .shut (.scopeReleased key) .absent
  | closedAll {n} : Moves key .shut (.closedAll n) .absent
  | closedOthers {n} : Moves key .absent (.closedAll n) .absent
  | aside {x e} (h : e.Aside key) : Moves key x e x

/-- The story of a key in a log, up to a standing. -/
inductive Story (key : ScopeKey) : List Event → Standing → Prop
  | start : Story key [] .absent
  | go {log x e y} (story : Story key log x) (mv : Moves key x e y) : Story key (log ++ [e]) y

/-- What was emitted is in the right order as far as it names a key. Nothing is built that was not going to be built;
what is let go of is the model that was built last, and not let go of before; a scope that is closed emits nothing
more before another one is created; and creations alternate with their outcomes. -/
structure Emission.InOrder (key : ScopeKey) (log : List Emission) : Prop where
  built : Each (fun before e => e.Built key → Since (·.Building key) (·.Built key) before) log
  letGo : Each (fun before e => e.LetGo key →
    ∃ m, e.Carries m ∧ Since (fun b => b.Built key ∧ b.Carries m) (fun b => b.Built key ∨ b.LetGo key) before) log
  closed : Each (fun before e => e.FromScope key → ¬ Since (·.Closed key) (·.Creating key) before) log
  creating : Each (fun before e => e.Creating key → ¬ Since (·.Creating key) (·.Outcome key) before) log
  outcome : Each (fun before e => e.Outcome key → Since (·.Creating key) (·.Outcome key) before) log

namespace Standing

/-- Whether a scope is stored. -/
def isStored : Standing → Bool
  | empty _ | full _ | shut => true
  | absent | announced | tried | made _ => false

/-- Whether the outcome of a creation is open. -/
def isPending : Standing → Bool
  | announced | tried | made _ => true
  | absent | empty _ | full _ | shut => false

/-- The phase of the scope that is stored. -/
def phase? : Standing → Option ScopePhase
  | empty _ => some .activeEmpty
  | full _ => some .activePopulated
  | shut => some .closed
  | absent | announced | tried | made _ => none

/-- What a log tells of its key if it leaves it at a standing. -/
structure Told (key : ScopeKey) (log : List Emission) (x : Standing) : Prop where
  stored : Since (·.Created key) (·.Emptied key) log ↔ x.isStored
  pending : Since (·.Creating key) (·.Outcome key) log ↔ x.isPending
  shut : x = .shut → Since (·.Closed key) (·.Creating key) log
  unshut : x.isStored ∨ x.isPending → x ≠ .shut → ¬ Since (·.Closed key) (·.Creating key) log
  tried : x = .tried ∨ x = .empty true → Since (·.Building key) (·.Built key) log
  held : ∀ m, x = .made m ∨ x = .full m →
    Since (fun e => e.Built key ∧ e.Carries m) (fun e => e.Built key ∨ e.LetGo key) log
  gone : ∀ t, x = .empty t → ¬ Since (·.Built key) (·.LetGo key) log

end Standing

variable {key : ScopeKey} {log : List Event} {em : List Emission} {x y : Standing} {e : Event}

/-! ## One event -/

namespace Event

/-- An event says what its message is to the key that it names, if no other key that it names reads like this one. -/
lemma says_iff (apart : ∀ k ∈ e.key?, k.text = key.text → k = key) (message : String) :
    e.emission.Says key message ↔ e.message = message ∧ e.key? = some key := by
  refine and_congr_right fun _ => ?_
  have reads (k : ScopeKey) (named : e.key? = some k) : key.text = k.text ↔ k = key :=
    ⟨fun eq => apart k named eq.symm, fun eq => by rw [eq]⟩
  cases e with
  | closedAll | cacheApplied => simp [emission, fields, key?]
  | _ k => simpa [emission, fields, key?] using reads _ rfl

/-- An event is emitted with its own message. -/
@[simp] lemma message_emission : e.emission.message = e.message := rfl

/-- What is emitted of a build carries the model that was built. -/
@[simp] lemma carries_built {k : ScopeKey} {m m' : Uuid} {n c : Nat} :
    (built k m n c).emission.Carries m' ↔ m = m' := by
  simp [Emission.Carries, emission, fields, List.lookup_cons]

/-- What is emitted of a release carries the model that was let go of. -/
@[simp] lemma carries_modelReleased {k : ScopeKey} {m m' : Uuid} :
    (modelReleased k m).emission.Carries m' ↔ m = m' := by
  simp [Emission.Carries, emission, fields, List.lookup_cons]

/-- An event that makes no difference says nothing of the key, if no key that it names reads like this one. -/
lemma Aside.silent (as : e.Aside key) (apart : ∀ k ∈ e.key?, k.text = key.text → k = key) :
    ¬ e.emission.FromScope key ∧ ¬ e.emission.Creating key ∧ ¬ e.emission.Outcome key ∧ ¬ e.emission.Emptied key := by
  simp only [Emission.FromScope, Emission.Outcome, Emission.Emptied, says_iff apart]
  cases e with
  | closedAll => exact absurd as id
  | invalidatedAfterFailure | notInvalidated | cacheApplied => simp [message]
  | _ =>
    simp only [Aside] at as
    simp [message, key?, as]

end Event

/-- What is told of a key goes on with each event as its standing does. -/
lemma Standing.Told.move (td : x.Told key em) (mv : Moves key x e y)
    (apart : ∀ k ∈ e.key?, k.text = key.text → k = key) : y.Told key (em ++ [e.emission]) := by
  have speech := Event.says_iff apart
  obtain ⟨stored, pending, shut, unshut, tried, held, gone⟩ := td
  cases mv with
  | aside as =>
    obtain ⟨scope, creating, outcome, emptied⟩ := as.silent apart
    simp only [not_or] at scope outcome emptied
    clear speech apart
    constructor <;> simp_all
  -- in each other case the event and both standings are given, and so is what the event says
  | _ =>
    simp only [Event.key?, Event.message] at speech
    clear apart
    constructor <;> simp_all [isStored, isPending, Event.message]

/-- An event with which a story goes on is in order after what is told up to there. -/
lemma Standing.Told.inOrder (td : x.Told key em) (mv : Moves key x e y)
    (apart : ∀ k ∈ e.key?, k.text = key.text → k = key) :
    (e.emission.Built key → Since (·.Building key) (·.Built key) em) ∧
    (e.emission.LetGo key → ∃ m, e.emission.Carries m ∧
      Since (fun b => b.Built key ∧ b.Carries m) (fun b => b.Built key ∨ b.LetGo key) em) ∧
    (e.emission.FromScope key → ¬ Since (·.Closed key) (·.Creating key) em) ∧
    (e.emission.Creating key → ¬ Since (·.Creating key) (·.Outcome key) em) ∧
    (e.emission.Outcome key → Since (·.Creating key) (·.Outcome key) em) := by
  have speech := Event.says_iff apart
  obtain ⟨stored, pending, shut, unshut, tried, held, gone⟩ := td
  cases mv with
  | aside as =>
    obtain ⟨scope, creating, outcome, -⟩ := as.silent apart
    exact ⟨fun b => absurd (.inr (.inl b)) scope, fun l => absurd (.inr (.inr (.inl l))) scope,
      fun s => absurd s scope, fun c => absurd c creating, fun o => absurd o outcome⟩
  | _ =>
    simp only [Event.key?, Event.message] at speech
    clear apart
    simp_all [Emission.FromScope, isStored, isPending]

/-- What is told of a key gives its phase back. -/
lemma Standing.Told.replay (td : x.Told key em) : Emission.replay key em = x.phase? := by
  obtain ⟨stored, -, shut, unshut, -, held, gone⟩ := td
  cases x with
  | absent | announced | tried | made => exact if_neg (by simp [stored, isStored])
  | empty t =>
    rw [Emission.replay, if_pos (stored.mpr rfl), if_neg (unshut (.inl rfl) nofun), if_neg (gone t rfl), phase?]
  | full m =>
    have built : Since (Emission.Built key) (Emission.LetGo key) em :=
      (held m (.inr rfl)).mono (fun _ => And.left) fun _ => .inr
    rw [Emission.replay, if_pos (stored.mpr rfl), if_neg (unshut (.inl rfl) nofun), if_pos built, phase?]
  | shut => rw [Emission.replay, if_pos (stored.mpr rfl), if_pos (shut rfl), phase?]

/-! ## All events -/

namespace Story

/-- Events that make no difference leave a key where it is. -/
lemma asides (story : Story key log x) {es : List Event} (as : ∀ e ∈ es, e.Aside key) : Story key (log ++ es) x := by
  induction es using List.reverseRecOn with
  | nil => rwa [List.append_nil]
  | append_singleton es e ih =>
    rw [List.forall_mem_append, List.forall_mem_singleton] at as
    rw [← List.append_assoc]
    exact (ih as.1).go (.aside as.2)

end Story

/-- A key stands apart in a longer log if the new event names no other key that reads like it. -/
@[simp] lemma apart_concat :
    Event.Apart key (log ++ [e]) ↔ Event.Apart key log ∧ ∀ k ∈ e.key?, k.text = key.text → k = key := by
  simp only [Event.Apart, List.forall_mem_append, List.forall_mem_singleton]

/-- The emissions that a scope was closed are the events that one of the key was. -/
lemma Event.Apart.countP_closed (apart : Event.Apart key log) :
    (log.map Event.emission).countP (fun e => e.Closed key) = log.count (.closed key) := by
  rw [List.countP_map, List.count]
  refine List.countP_congr fun e he => ?_
  simp only [Function.comp_apply, decide_eq_true_eq, Event.says_iff (apart e he), beq_iff_eq]
  cases e <;> simp [Event.message, Event.key?]

/-- A story is told by what is emitted of it, as long as the key stands apart. -/
lemma Story.told (story : Story key log x) (apart : Event.Apart key log) : x.Told key (log.map Event.emission) := by
  induction story with
  | start => constructor <;> simp [Standing.isStored, Standing.isPending]
  | go _ mv ih =>
    obtain ⟨before, last⟩ := apart_concat.mp apart
    rw [List.map_append]
    exact (ih before).move mv last

/-- What is emitted is in the right order. -/
lemma Story.inOrder (story : Story key log x) (apart : Event.Apart key log) :
    Emission.InOrder key (log.map Event.emission) := by
  induction story with
  | start => constructor <;> exact each_nil
  | go story mv ih =>
    obtain ⟨before, last⟩ := apart_concat.mp apart
    obtain ⟨built, letGo, closed, creating, outcome⟩ := ih before
    obtain ⟨built', letGo', closed', creating', outcome'⟩ := (story.told before).inOrder mv last
    rw [List.map_append]
    exact ⟨each_concat.mpr ⟨built, built'⟩, each_concat.mpr ⟨letGo, letGo'⟩, each_concat.mpr ⟨closed, closed'⟩,
      each_concat.mpr ⟨creating, creating'⟩, each_concat.mpr ⟨outcome, outcome'⟩⟩

end ModelScopes
