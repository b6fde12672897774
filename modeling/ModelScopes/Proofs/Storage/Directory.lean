import Mathlib.Data.Finmap
import ModelScopes.Proofs.Scope.Lifecycle
import ModelScopes.Proofs.Scope.Stored

/-!
# A storage as a finite map

A `Directory` is a finite map from keys to scopes beside what can be seen of the world, with the operations one
expects of a map. Whatever a storage is asked, and whatever is asked of the scopes that it handed out, it answers
as a directory does, and shows the same afterwards: no slot is left behind by a build that failed. Producers are
taken to be `Aloof`: they neither touch nor look at storages. The main statement is `World.answers_as_directory`.
-/

namespace ModelScopes

variable {P H : Type}

/-- What is asked of a storage, and of scopes by their numbers. -/
inductive StorageCall (P : Type) where
  | getOrCreate (key : ScopeKey) (p : P) (registry : Registry)
  | find (key : ScopeKey)
  | contains (key : ScopeKey)
  | remove (key : ScopeKey)
  | closeAll
  | len
  | isEmpty
  | stats
  | model (i : ScopeId)
  | invalidate (i : ScopeId)
  | close (i : ScopeId)

/-- What a storage and its scopes answer. -/
inductive StorageAnswer where
  | scope (r : Except ScopeError ScopeId)
  | found (i : Option ScopeId)
  | flag (b : Bool)
  | count (n : Nat)
  | stats (scopes slots : Nat)
  | model (r : Option (Except ScopeError Built))
  | invalidated (r : Option (Except ScopeError Unit))
  | closed
  deriving DecidableEq

/-- Producers that neither change the storages nor look at them, nor at what was logged, and take no scope away. -/
structure Produce.Aloof (produce : Produce P H) : Prop where
  storages : ∀ p registry w, (produce p registry w).2.storages = w.storages
  blind : ∀ p registry w w', w.sight = w'.sight →
    (produce p registry w).1 = (produce p registry w').1 ∧
      (produce p registry w).2.sight = (produce p registry w').2.sight
  grows : ∀ p registry w, w.scopes.length ≤ (produce p registry w).2.scopes.length

/-- A world without storages of which this can be seen. -/
def Sight.world (seen : Sight P H) : World P H :=
  ⟨seen.scopes, fun _ => .empty, [], seen.serial, seen.host⟩

/-- A world made from what is seen shows the same again. -/
@[simp] lemma Sight.sight_world (seen : Sight P H) : seen.world.sight = seen := rfl

/-- A world made from what is seen has the scopes that were seen. -/
@[simp] lemma Sight.scopes_world (seen : Sight P H) : seen.world.scopes = seen.scopes := rfl

/-- A finite map from keys to scopes, beside what can be seen of the world. -/
structure Directory (P H : Type) where
  entries : Finmap fun _ : ScopeKey => ScopeId
  seen : Sight P H

namespace World

/-- Asks a storage. -/
def answer (produce : Produce P H) (st : StorageId) (call : StorageCall P) (w : World P H) :
    StorageAnswer × World P H :=
  match call with
  | .getOrCreate key p registry =>
    let (r, w) := w.getOrCreate produce st key p registry
    (.scope r, w)
  | .find key => (.found (w.find st key), w)
  | .contains key => (.flag (w.contains st key), w)
  | .remove key =>
    let (i, w) := w.remove st key
    (.found i, w)
  | .closeAll =>
    let (n, w) := w.closeAll st
    (.count n, w)
  | .len => (.count (w.storages st).size, w)
  | .isEmpty => (.flag (w.storages st).isEmpty, w)
  | .stats => (.stats (w.storages st).size (w.storages st).slotCount, w)
  | .model i =>
    match w.modelOf produce i with
    | none => (.model none, w)
    | some (r, w) => (.model (some r), w)
  | .invalidate i =>
    match w.invalidate i with
    | none => (.invalidated none, w)
    | some (r, w) => (.invalidated (some r), w)
  | .close i => (.closed, w.close i)

/-- Asks a storage again and again. -/
def answers (produce : Produce P H) (st : StorageId) : List (StorageCall P) → World P H →
    List StorageAnswer × World P H
  | [], w => ([], w)
  | call :: rest, w =>
    let (a, w) := w.answer produce st call
    let (as, w) := answers produce st rest w
    (a :: as, w)

end World

namespace Directory

/-- The directory without entries. -/
def empty (seen : Sight P H) : Directory P H :=
  ⟨∅, seen⟩

/-- The number of entries. -/
def size (d : Directory P H) : Nat :=
  d.entries.keys.card

/-- Whether a scope is the entry of some key. -/
def Maps (d : Directory P H) (i : ScopeId) : Prop :=
  ∃ key ∈ d.entries.keys, d.entries.lookup key = some i

instance (d : Directory P H) (i : ScopeId) : Decidable (d.Maps i) :=
  inferInstanceAs (Decidable (∃ key ∈ d.entries.keys, d.entries.lookup key = some i))

/-- The entry of a key. If there is none then the producer is called once, and a new scope with what it built becomes
the entry; if it fails then its error is answered, and the entries stay as they are. -/
def getOrCreate (produce : Produce P H) (key : ScopeKey) (p : P) (registry : Registry) (d : Directory P H) :
    Except ScopeError ScopeId × Directory P H :=
  match d.entries.lookup key with
  | some i => (.ok i, d)
  | none =>
    match produce p registry d.seen.world with
    | (.error e, w) => (.error e, ⟨d.entries, w.sight⟩)
    | (.ok m, w) =>
      let s : Scope P := ⟨key, registry, p, .active (some ⟨w.serial, m⟩)⟩
      (.ok w.scopes.length, ⟨d.entries.insert key w.scopes.length, ⟨w.scopes ++ [s], w.serial + 1, w.host⟩⟩)

/-- Takes the entry of a key out, and leaves its scope as it is. -/
def remove (key : ScopeKey) (d : Directory P H) : Option ScopeId × Directory P H :=
  (d.entries.lookup key, ⟨d.entries.erase key, d.seen⟩)

/-- Takes all entries out and closes their scopes and no others; answers with their number. -/
def closeAll (d : Directory P H) : Nat × Directory P H :=
  let scopes := d.seen.scopes.mapIdx fun i s => if d.Maps i then { s with state := .closed } else s
  (d.size, ⟨∅, ⟨scopes, d.seen.serial, d.seen.host⟩⟩)

/-- Asks a directory. -/
def answer (produce : Produce P H) (call : StorageCall P) (d : Directory P H) : StorageAnswer × Directory P H :=
  match call with
  | .getOrCreate key p registry =>
    let (r, d) := d.getOrCreate produce key p registry
    (.scope r, d)
  | .find key => (.found (d.entries.lookup key), d)
  | .contains key => (.flag (d.entries.lookup key).isSome, d)
  | .remove key =>
    let (i, d) := d.remove key
    (.found i, d)
  | .closeAll =>
    let (n, d) := d.closeAll
    (.count n, d)
  | .len => (.count d.size, d)
  | .isEmpty => (.flag (d.size == 0), d)
  | .stats => (.stats d.size d.size, d)
  | .model i =>
    match d.seen.world.modelOf produce i with
    | none => (.model none, d)
    | some (r, w) => (.model (some r), ⟨d.entries, w.sight⟩)
  | .invalidate i =>
    match d.seen.world.invalidate i with
    | none => (.invalidated none, d)
    | some (r, w) => (.invalidated (some r), ⟨d.entries, w.sight⟩)
  | .close i => (.closed, ⟨d.entries, (d.seen.world.close i).sight⟩)

/-- Asks a directory again and again. -/
def answers (produce : Produce P H) : List (StorageCall P) → Directory P H → List StorageAnswer × Directory P H
  | [], d => ([], d)
  | call :: rest, d =>
    let (a, d) := d.answer produce call
    let (as, d) := answers produce rest d
    (a :: as, d)

/-- A directory shows a tidy storage: the same scope is found under each key, and the same world is seen. -/
structure Shows (d : Directory P H) (w : World P H) (st : StorageId) : Prop where
  tidy : (w.storages st).Tidy
  entries : ∀ key, w.find st key = d.entries.lookup key
  seen : w.sight = d.seen

end Directory

/-! ## Aloof producers -/

/-- Producers that work on nothing but what they work on besides are aloof. -/
lemma Produce.aloof_ofHost (f : P → Registry → H → Except ScopeError Model × H) : (ofHost f).Aloof where
  storages _ _ _ := rfl
  blind p registry w w' same := by
    obtain ⟨scopes, serial, host⟩ := Sight.mk.inj same
    simp [ofHost, World.sight, scopes, serial, host]
  grows _ _ _ := Nat.le_refl _

namespace Produce.Aloof

variable {produce : Produce P H} (al : produce.Aloof)

include al

/-- Asking a scope for its model touches no storage when the producer is aloof. -/
lemma storages_model (s : Scope P) (w : World P H) : (s.model produce w).2.2.storages = w.storages := by
  rcases s.model_world produce w with same | ⟨-, storages⟩
  · rw [same]
  · exact storages.trans (al.storages s.producer s.registry _)

/-- What a scope that is asked for its model makes of two worlds is the same if the worlds look the same. -/
lemma model_congr (s : Scope P) {w w' : World P H} (same : w.sight = w'.sight) :
    (s.model produce w).1 = (s.model produce w').1 ∧ (s.model produce w).2.1 = (s.model produce w').2.1 ∧
      (s.model produce w).2.2.sight = (s.model produce w').2.2.sight := by
  have blind := al.blind s.producer s.registry (w.emit (.building s.key)) (w'.emit (.building s.key)) same
  cases hp' : produce s.producer s.registry (w'.emit (.building s.key)) with
  | mk r' v' =>
    obtain ⟨closed, eq⟩ | ⟨b, held, eq⟩ | ⟨e, v, empty, hp, eq⟩ | ⟨m, v, empty, hp, eq⟩ := s.model_cases produce w
    · simp [eq, Scope.model_of_closed closed, same]
    · simp [eq, Scope.model_of_populated held, same]
    · rw [hp, hp'] at blind
      obtain ⟨answers, worlds⟩ := blind
      cases answers
      simpa [eq, Scope.model_of_failed empty hp'] using worlds
    · rw [hp, hp'] at blind
      obtain ⟨answers, worlds⟩ := blind
      cases answers
      have worlds : v.sight = v'.sight := worlds
      obtain ⟨scopes, serial, host⟩ := Sight.mk.inj worlds
      simp [eq, Scope.model_of_built empty hp', World.sight, scopes, serial, host]

end Produce.Aloof

/-! ## One call -/

namespace Directory

namespace Shows

variable {produce : Produce P H} {d : Directory P H} {w : World P H} {st : StorageId} (sh : d.Shows w st)

include sh

/-- A storage has as many slots as its directory has entries. -/
lemma slotCount : (w.storages st).slotCount = d.size := by
  -- the keys with a slot and the keys with an entry are the same finite set
  have keys : (w.storages st).keys.toFinset = d.entries.keys := by
    ext key
    rw [List.mem_toFinset, sh.tidy.mem_keys_iff, Finmap.mem_keys, ← Finmap.lookup_isSome, ← sh.entries]
    rfl
  rw [size, ← keys, List.toFinset_card_of_nodup sh.tidy.keys, Storage.keys, List.length_map, Storage.slotCount]

/-- A storage has as many scopes as its directory maps. -/
lemma size : (w.storages st).size = d.size := by
  rw [sh.tidy.size_eq_slotCount, sh.slotCount]

/-- A directory maps a key to a scope just when the storage finds the scope under one of its keys. -/
lemma maps_iff (i : ScopeId) : d.Maps i ↔ ∃ key ∈ (w.storages st).keys, w.find st key = some i := by
  refine exists_congr fun key => ?_
  rw [Finmap.mem_keys, ← Finmap.lookup_isSome, ← sh.entries, sh.tidy.mem_keys_iff]
  rfl

/-- A directory goes on showing a storage that did not change in a world that looks as the directory sees it. -/
lemma of_storages {w' : World P H} {seen : Sight P H} (kept : w'.storages = w.storages) (same : w'.sight = seen) :
    Shows ⟨d.entries, seen⟩ w' st where
  tidy := by rw [kept]; exact sh.tidy
  entries key := by rw [World.find, kept]; exact sh.entries key
  seen := same

/-- Finding or creating does the same to a storage and to its directory. -/
lemma getOrCreate (al : produce.Aloof) (key : ScopeKey) (p : P) (registry : Registry) :
    (w.getOrCreate produce st key p registry).1 = (d.getOrCreate produce key p registry).1 ∧
      (d.getOrCreate produce key p registry).2.Shows (w.getOrCreate produce st key p registry).2 st := by
  have entry := sh.entries key
  have kept := congrFun (al.storages p registry (w.beforeBuild st key)) st
  have blind := al.blind p registry (w.beforeBuild st key) d.seen.world (by simpa using sh.seen)
  cases hp' : produce p registry d.seen.world with
  | mk r' v' =>
    -- the producer is blind to storages, so it answers the same in the world and in what is seen of it
    obtain ⟨i, h, eq⟩ | ⟨e, v, w', h, hp, eq, same, ti, -, found⟩ | ⟨m, v, w', h, hp, eq, same, ti, -, found⟩ :=
      World.getOrCreate_cases sh.tidy kept
    · rw [eq, Directory.getOrCreate, ← entry, h]
      exact ⟨rfl, sh⟩
    · rw [hp, hp'] at blind
      obtain ⟨answers, worlds⟩ := blind
      cases answers
      rw [eq, Directory.getOrCreate, ← entry, h, hp']
      exact ⟨rfl, ti, fun key' => (found key').trans (sh.entries key'), same.trans worlds⟩
    · rw [hp, hp'] at blind
      obtain ⟨answers, worlds⟩ := blind
      cases answers
      have worlds : v.sight = v'.sight := worlds
      obtain ⟨scopes, serial, host⟩ := Sight.mk.inj worlds
      rw [scopes, serial, host] at same
      rw [scopes] at eq found
      rw [eq, Directory.getOrCreate, ← entry, h, hp']
      refine ⟨rfl, ti, ?_, same⟩
      intro key'
      rw [found]
      split
      case isTrue e => rw [e, Finmap.lookup_insert]
      case isFalse ne => rw [Finmap.lookup_insert_of_ne _ ne]; exact sh.entries key'

/-- Removal gives the answer that the directory gives, and the directory shows the storage again. -/
lemma remove (key : ScopeKey) :
    (w.remove st key).1 = (d.remove key).1 ∧ (d.remove key).2.Shows (w.remove st key).2 st := by
  obtain ⟨w', eq, same, ti, -, found⟩ := World.remove_eq sh.tidy key
  rw [eq]
  refine ⟨sh.entries key, ti, ?_, same.trans sh.seen⟩
  intro key'
  rw [found, Directory.remove]
  split
  case isTrue e => rw [e, Finmap.lookup_erase]
  case isFalse ne => rw [Finmap.lookup_erase_ne ne]; exact sh.entries key'

/-- Closing all scopes gives the count that the directory gives, and the directory shows the storage again. -/
lemma closeAll : (w.closeAll st).1 = d.closeAll.1 ∧ d.closeAll.2.Shows (w.closeAll st).2 st := by
  obtain ⟨w', eq, ti, found, serial, host, scopes⟩ := World.closeAll_eq sh.tidy
  have seen := sh.seen
  rw [eq]
  refine ⟨sh.slotCount, ti, fun key => by rw [found]; rfl, ?_⟩
  simp only [← sh.maps_iff] at scopes
  simp only [Directory.closeAll, World.sight, scopes, serial, host, ← seen]

/-- A storage answers each call as its directory does, and they go on showing the same. -/
lemma answer (al : produce.Aloof) (call : StorageCall P) :
    (w.answer produce st call).1 = (d.answer produce call).1 ∧
      (d.answer produce call).2.Shows (w.answer produce st call).2 st := by
  have seen := sh.seen
  have scopes : w.scopes = d.seen.world.scopes := congrArg Sight.scopes seen
  have same : w.sight = d.seen.world.sight := seen
  cases call with
  | getOrCreate key p registry =>
    obtain ⟨answers, shows⟩ := sh.getOrCreate al key p registry
    exact ⟨congrArg StorageAnswer.scope answers, shows⟩
  | find key => exact ⟨congrArg StorageAnswer.found (sh.entries key), sh⟩
  | contains key => exact ⟨congrArg (StorageAnswer.flag ∘ Option.isSome) (sh.entries key), sh⟩
  | remove key =>
    obtain ⟨answers, shows⟩ := sh.remove key
    exact ⟨congrArg StorageAnswer.found answers, shows⟩
  | closeAll =>
    obtain ⟨answers, shows⟩ := sh.closeAll
    exact ⟨congrArg StorageAnswer.count answers, shows⟩
  | len => exact ⟨congrArg StorageAnswer.count sh.size, sh⟩
  | isEmpty => exact ⟨congrArg (fun n => StorageAnswer.flag (n == 0)) sh.size, sh⟩
  | stats => exact ⟨congrArg₂ StorageAnswer.stats sh.size sh.slotCount, sh⟩
  | model i =>
    simp only [World.answer, Directory.answer, World.modelOf, ← scopes]
    cases w.scopes[i]? with
    | none => exact ⟨rfl, sh⟩
    | some s =>
      -- storages play no part here, so both worlds come to the same
      obtain ⟨answers, states, worlds⟩ := al.model_congr s same
      refine ⟨congrArg (StorageAnswer.model ∘ some) answers, sh.of_storages (al.storages_model s w) ?_⟩
      obtain ⟨scopes', serial, host⟩ := Sight.mk.inj worlds
      simp [World.sight, World.setScope, scopes', serial, host, states]
  | invalidate i =>
    simp only [World.answer, Directory.answer, World.invalidate, ← scopes]
    cases w.scopes[i]? with
    | none => exact ⟨rfl, sh⟩
    | some s =>
      obtain ⟨answers, states⟩ := s.invalidate_congr w d.seen.world
      obtain ⟨scopes₁, storages₁, serial₁, host₁⟩ := s.invalidate_world w
      obtain ⟨scopes₂, -, serial₂, host₂⟩ := s.invalidate_world d.seen.world
      obtain ⟨-, serial, host⟩ := Sight.mk.inj same
      refine ⟨congrArg (StorageAnswer.invalidated ∘ some) answers, sh.of_storages storages₁ ?_⟩
      simp [World.sight, World.setScope, scopes₁, scopes₂, serial₁, serial₂, host₁, host₂, states, scopes, serial, host]
  | close i =>
    obtain ⟨scopes, serial, host⟩ := Sight.mk.inj same
    have shut : (w.close i).sight = (d.seen.world.close i).sight := by
      rw [World.sight_close, World.sight_close, scopes, serial, host]
    exact ⟨rfl, sh.of_storages (World.storages_close i w) shut⟩

/-! ## All calls -/

/-- A storage answers calls as its directory does, and they go on showing the same. -/
lemma answers (al : produce.Aloof) (calls : List (StorageCall P)) :
    (w.answers produce st calls).1 = (d.answers produce calls).1 ∧
      (d.answers produce calls).2.Shows (w.answers produce st calls).2 st := by
  induction calls generalizing d w with
  | nil => exact ⟨rfl, sh⟩
  | cons call rest ih =>
    obtain ⟨first, shows⟩ := sh.answer al call
    obtain ⟨others, shows'⟩ := ih shows
    exact ⟨congrArg₂ List.cons first others, shows'⟩

end Shows

/-- The empty directory shows a new storage. -/
lemma shows_empty {w : World P H} {st : StorageId} (new : w.storages st = .empty) :
    (empty w.sight).Shows w st where
  tidy := by rw [new]; exact .empty
  entries key := by rw [World.find, new]; rfl
  seen := rfl

/-! ## Scopes that are taken out -/

section Detached

variable {produce : Produce P H} (al : produce.Aloof)

/-- A scope is an entry if it is found under some key. -/
lemma maps_iff {d : Directory P H} {i : ScopeId} : d.Maps i ↔ ∃ key, d.entries.lookup key = some i := by
  refine exists_congr fun key => and_iff_right_of_imp fun h => ?_
  exact Finmap.mem_keys.mpr (Finmap.mem_of_lookup_eq_some h)

/-- No number that was given out becomes an entry, unless it is one already. -/
structure Renews (d d' : Directory P H) : Prop where
  grows : d.seen.scopes.length ≤ d'.seen.scopes.length
  maps : ∀ i < d.seen.scopes.length, d'.Maps i → d.Maps i

/-- A directory renews itself. -/
lemma Renews.refl (d : Directory P H) : d.Renews d :=
  ⟨Nat.le_refl _, fun _ _ => id⟩

/-- Renewal goes on from where it stopped. -/
lemma Renews.trans {d d' d'' : Directory P H} (re : d.Renews d') (re' : d'.Renews d'') : d.Renews d'' :=
  ⟨Nat.le_trans re.grows re'.grows, fun i lt h => re.maps i lt (re'.maps i (Nat.lt_of_lt_of_le lt re.grows) h)⟩

/-- The same entries over more scopes are a renewal. -/
lemma Renews.of_grows {d : Directory P H} {seen : Sight P H} (h : d.seen.scopes.length ≤ seen.scopes.length) :
    d.Renews ⟨d.entries, seen⟩ :=
  ⟨h, fun _ _ => id⟩

include al

/-- Asking for a model forgets no scope when the producer is aloof. -/
lemma grows_model (s : Scope P) (w : World P H) : w.scopes.length ≤ (s.model produce w).2.2.scopes.length := by
  rcases s.model_world produce w with same | ⟨scopes, -⟩
  · rw [same]
  · rw [scopes]
    exact al.grows s.producer s.registry (w.emit (.building s.key))

/-- Finding or creating makes no entry but a new one. -/
lemma renews_getOrCreate (d : Directory P H) (key : ScopeKey) (p : P) (registry : Registry) :
    d.Renews (d.getOrCreate produce key p registry).2 := by
  unfold getOrCreate
  split
  case h_1 => exact .refl d
  case h_2 =>
    have grows := al.grows p registry d.seen.world
    split
    case h_1 e w hp =>
      rw [hp] at grows
      exact .of_grows grows
    case h_2 m w hp =>
      rw [hp] at grows
      refine ⟨Nat.le_trans grows (by simp), ?_⟩
      -- an entry whose number was given out before is not the new one
      intro i lt h
      obtain ⟨key', h⟩ := maps_iff.mp h
      by_cases e : key' = key
      · subst e
        rw [Finmap.lookup_insert] at h
        cases h
        exact absurd lt (Nat.not_lt.mpr grows)
      · rw [Finmap.lookup_insert_of_ne _ e] at h
        exact maps_iff.mpr ⟨key', h⟩

/-- No call makes an entry but a new one. -/
lemma renews_answer (d : Directory P H) (call : StorageCall P) : d.Renews (d.answer produce call).2 := by
  cases call with
  | getOrCreate key p registry => exact renews_getOrCreate al d key p registry
  | remove key =>
    refine ⟨Nat.le_refl _, fun i _ h => ?_⟩
    obtain ⟨key', h⟩ := maps_iff.mp h
    by_cases e : key' = key
    · subst e
      simp [answer, remove] at h
    · exact maps_iff.mpr ⟨key', by simpa [answer, remove, Finmap.lookup_erase_ne e] using h⟩
  | closeAll =>
    refine ⟨by simp [answer, closeAll], fun i _ h => ?_⟩
    obtain ⟨key, h⟩ := maps_iff.mp h
    simp [answer, closeAll] at h
  | model i =>
    simp only [answer, World.modelOf, Sight.scopes_world]
    cases d.seen.scopes[i]? with
    | none => exact .refl d
    | some s => exact .of_grows (by simpa [World.setScope] using grows_model al s d.seen.world)
  | invalidate i =>
    simp only [answer, World.invalidate, Sight.scopes_world]
    cases d.seen.scopes[i]? with
    | none => exact .refl d
    | some s => exact .of_grows (by simp [World.setScope, (s.invalidate_world d.seen.world).1])
  | close i => exact .of_grows (by simp)
  | find | contains | len | isEmpty | stats => exact .refl d

/-- A list of calls renews the directory. -/
lemma renews_answers (d : Directory P H) (calls : List (StorageCall P)) :
    d.Renews (d.answers produce calls).2 := by
  induction calls generalizing d with
  | nil => exact .refl d
  | cons call rest ih => exact (renews_answer al d call).trans (ih _)

omit al in
/-- Calls after calls are one list of calls. -/
lemma answers_append (d : Directory P H) (calls more : List (StorageCall P)) :
    (d.answers produce (calls ++ more)).2 = ((d.answers produce calls).2.answers produce more).2 := by
  induction calls generalizing d with
  | nil => rfl
  | cons call rest ih => exact ih _

end Detached

end Directory

namespace World

/-- A storage without slots that is asked again and again, and whose scopes are asked in between, answers as the empty
directory does, and shows the same afterwards. It then has as many scopes and as many slots as there are entries, and
scopes that were taken out before were not put back. -/
theorem answers_as_directory {produce : Produce P H} (al : produce.Aloof) {w : World P H} {st : StorageId}
    (new : w.storages st = .empty) (calls : List (StorageCall P)) :
    let d := Directory.empty w.sight
    (w.answers produce st calls).1 = (d.answers produce calls).1 ∧
    (d.answers produce calls).2.Shows (w.answers produce st calls).2 st ∧
    ((w.answers produce st calls).2.storages st).size = (d.answers produce calls).2.size ∧
    ((w.answers produce st calls).2.storages st).slotCount = (d.answers produce calls).2.size ∧
    ∀ before after, calls = before ++ after → ∀ i < (d.answers produce before).2.seen.scopes.length,
      ¬ (d.answers produce before).2.Maps i → ¬ (d.answers produce calls).2.Maps i := by
  obtain ⟨same, shows⟩ := (Directory.shows_empty new).answers al calls
  refine ⟨same, shows, shows.size, shows.slotCount, ?_⟩
  intro before after e i lt out back
  subst e
  rw [Directory.answers_append] at back
  exact out ((Directory.renews_answers al _ after).maps i lt back)

/-- A creation that fails, is tried again and is asked for once more, between two tellings of the numbers. -/
theorem answers_as_directory_everyOther :
    let key : ScopeKey := ⟨"demo", "A"⟩
    let registry : Registry := ⟨.ofSerial 0, .empty⟩
    Produce.everyOther.Aloof ∧ (start 0 : World Unit Nat).storages 0 = .empty ∧
    ((start 0).answers Produce.everyOther 0 [.getOrCreate key () registry, .stats, .getOrCreate key () registry,
      .getOrCreate key () registry, .stats, .closeAll, .find key]).1 =
      [.scope (.error (.producer "out of order")), .stats 0 0, .scope (.ok 0), .scope (.ok 0), .stats 1 1, .count 1,
        .found none] := by
  have al : Produce.everyOther.Aloof := Produce.aloof_ofHost _
  exact ⟨al, rfl, (answers_as_directory al rfl _).1.trans rfl⟩

end World

end ModelScopes
