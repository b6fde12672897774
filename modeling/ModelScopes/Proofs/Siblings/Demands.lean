import ModelScopes.Proofs.Extension.Session
import ModelScopes.Proofs.Scope.Lifecycle
import ModelScopes.Proofs.Siblings.Concerns

/-!
# Demands for one key among others

Extensions that share a storage, the storage itself, and scopes that were handed out are asked for things, each of them
for one key. In the replies a scope shows as its place among those that were handed out for the key, and a model without
its identity. A demand for a key spares all other keys (`Session.Orderly.concerns_serve`).
-/

namespace ModelScopes

variable {P H V ε : Type}

/-- What is asked of extensions that share a storage, of the storage, and of scopes that were handed out. Such a scope
is named by its key and its place among those handed out for this key. -/
inductive Demand (P ε : Type) where
  | postProcess (x : Extension P) (catalog : CatalogId) (inst : Instance P) (ctx : Context)
  | handleFailure (x : Extension P) (ctx : Context) (error : ε)
  | afterAll (x : Extension P) (ctx : Context)
  | findUnit (x : Extension P) (ctx : Context)
  | getOrCreate (key : ScopeKey) (p : P) (registry : Registry)
  | find (key : ScopeKey)
  | contains (key : ScopeKey)
  | remove (key : ScopeKey)
  | newScope (key : ScopeKey) (registry : Registry) (p : P)
  | openScope (key : ScopeKey) (registry : Registry) (p : P)
  | call (key : ScopeKey) (n : Nat) (c : ScopeCall)
  | attach (catalog : CatalogId) (element : String) (spec : Spec)
  | detach (catalog : CatalogId) (element : String)
  | closeAll

namespace Demand

/-- The key that something is asked for. Specs are attached and detached, and all scopes are closed, for no key. -/
def key? : Demand P ε → Option ScopeKey
  | postProcess x _ _ ctx | handleFailure x ctx _ | afterAll x ctx | findUnit x ctx => some (x.key ctx)
  | getOrCreate key _ _ | find key | contains key | remove key => some key
  | newScope key _ _ | openScope key _ _ | call key _ _ => some key
  | attach .. | detach .. | closeAll => none

/-- Whether the demand is for the key or for none. -/
def concerns (key : ScopeKey) (d : Demand P ε) : Bool :=
  d.key?.all (· == key)

/-- All producers that come with a demand are used for its key, also those that may be made from specs. -/
def Uses (uses : ScopeKey → P → Prop) : Demand P ε → Prop
  | postProcess x _ inst ctx =>
    (∀ spec, uses (x.key ctx) (x.ofSpec spec)) ∧ ∀ p, inst.producer = some p → uses (x.key ctx) p
  | getOrCreate key p _ | newScope key _ p | openScope key _ p => uses key p
  | _ => True

end Demand

/-- What is answered to a demand. -/
inductive Answer (I M ε : Type) where
  | nothing
  | processed (r : Except ScopeError I) (injected : Option I)
  | returned (r : Except ε Unit)
  | created (r : Except ScopeError I)
  | scope (i : Option I)
  | flag (b : Bool)
  | count (n : Nat)
  | replaced (old : Option Spec)
  | model (r : Except ScopeError M)
  | invalidated (r : Except ScopeError Unit)
  | phase (p : Option ScopePhase)
  deriving DecidableEq

namespace Answer

/-- The answer with other names for scopes and models. -/
def map {I J M N : Type} (f : I → J) (g : M → N) : Answer I M ε → Answer J N ε
  | nothing => nothing
  | processed r injected => processed (r.map f) (injected.map f)
  | returned r => returned r
  | created r => created (r.map f)
  | scope i => scope (i.map f)
  | flag b => flag b
  | count n => count n
  | replaced old => replaced old
  | model r => model (r.map g)
  | invalidated r => invalidated r
  | phase p => phase p

end Answer

namespace Session

/-- Goes on in another world. -/
def goOn (z : Session P H) (w : World P H) : Session P H :=
  { z with world := w }

/-- The scopes that were handed out for a key. -/
def handedFor (z : Session P H) (key : ScopeKey) : List ScopeId :=
  (z.handed.filter fun e => e.1 == key).map Prod.snd

/-- The place of a scope among those handed out for a key. -/
def place (z : Session P H) (key : ScopeKey) (i : ScopeId) : Option Nat :=
  (z.handedFor key).findIdx? (· == i)

/-- Calls a scope. -/
def call (produce : Produce P H) (z : Session P H) (i : ScopeId) :
    ScopeCall → Answer ScopeId Built ε × Session P H
  | .model =>
    match z.world.modelOf produce i with
    | none => (.nothing, z)
    | some (r, w) => (.model r, z.goOn w)
  | .invalidate =>
    match z.world.invalidate i with
    | none => (.nothing, z)
    | some (r, w) => (.invalidated r, z.goOn w)
  | .close => (.nothing, z.goOn (z.world.close i))
  | .phase => (.phase ((z.world.scopes[i]?).map Scope.phase), z)

/-- Answers a demand, with all extensions on one storage. -/
def serve (produce : Produce P H) (st : StorageId) (z : Session P H) :
    Demand P ε → Answer ScopeId Built ε × Session P H
  | .postProcess x c inst ctx =>
    let (r, w) := (x.sharing st).postProcess produce (z.catalogs c) inst ctx z.world
    (.processed r.outcome r.injected, z.proceed w (x.key ctx) r.outcome.toOption)
  | .handleFailure x ctx error =>
    let (r, w) := (x.sharing st).handleFailure ctx error z.world
    (.returned r, z.goOn w)
  | .afterAll x ctx => (.nothing, z.goOn ((x.sharing st).afterAll ctx z.world))
  | .findUnit x ctx =>
    let i := (x.sharing st).find ctx z.world
    (.scope i, z.proceed z.world (x.key ctx) i)
  | .getOrCreate key p registry =>
    let (r, w) := z.world.getOrCreate produce st key p registry
    (.created r, z.proceed w key r.toOption)
  | .find key =>
    let i := z.world.find st key
    (.scope i, z.proceed z.world key i)
  | .contains key => (.flag (z.world.contains st key), z)
  | .remove key =>
    let (i, w) := z.world.remove st key
    (.scope i, z.proceed w key i)
  | .newScope key registry p =>
    let (i, w) := z.world.newScope key registry p
    (.created (.ok i), z.proceed w key (some i))
  | .openScope key registry p =>
    let (r, w) := z.world.openScope produce key registry p
    (.created r, z.proceed w key r.toOption)
  | .call key n c =>
    match (z.handedFor key)[n]? with
    | none => (.nothing, z)
    | some i => z.call produce i c
  | .attach c element spec =>
    (.replaced ((z.catalogs c).get? element), z.modifyCatalog c fun specs => specs.insert element spec)
  | .detach c element => (.replaced ((z.catalogs c).get? element), z.modifyCatalog c fun specs => specs.erase element)
  | .closeAll =>
    let (n, w) := z.world.closeAll st
    (.count n, z.goOn w)

/-- What is replied to the demands for a key, as it shows by then. -/
def replies (produce : Produce P H) (st : StorageId) (key : ScopeKey) :
    Session P H → List (Demand P ε) → List (Answer (Option Nat) Model ε)
  | _, [] => []
  | z, d :: rest =>
    let (a, z) := z.serve produce st d
    if d.key? = some key then
      a.map (z.place key) (·.model.content) :: replies produce st key z rest
    else replies produce st key z rest

/-- The world is orderly, and what was handed out for a key is a scope of this key. -/
structure Orderly (uses : ScopeKey → P → Prop) (st : StorageId) (z : Session P H) : Prop where
  world : z.world.Orderly uses st
  handed : ∀ key i, (key, i) ∈ z.handed → z.world.HasKey key i

/-- What is done for a key spares all other keys, and hands nothing out for them. -/
structure Concerns (uses : ScopeKey → P → Prop) (view : ScopeKey → H → V) (st : StorageId) (key : ScopeKey)
    (z z' : Session P H) : Prop where
  orderly : z'.Orderly uses st
  catalogs : z'.catalogs = z.catalogs
  spares : ∀ key' ≠ key, z.world.Spares view st key' z'.world
  handed : ∀ key' ≠ key, z'.handedFor key' = z.handedFor key'

end Session

variable {produce : Produce P H} {uses : ScopeKey → P → Prop} {view : ScopeKey → H → V} {st : StorageId}
  {key : ScopeKey} {pairs : ScopeId → ScopeId → Prop}

/-! ## Hooks for one key -/

namespace Extension

open World

variable {x : Extension P} {ctx : Context} {w w' : World P H}

/-- The producer that a unit gets is one that is used for its key. -/
lemma used_of_producerFor {specs : SpecCatalog} {inst : Instance P} {ctx : Context} {p : P}
    (ofSpec : ∀ spec, uses (x.key ctx) (x.ofSpec spec)) (own : ∀ p, inst.producer = some p → uses (x.key ctx) p)
    (h : x.producerFor specs inst ctx = .ok p) : uses (x.key ctx) p := by
  unfold producerFor at h
  split at h
  case h_1 q hq =>
    cases h
    exact own _ hq
  case h_2 =>
    unfold specProducer at h
    split at h
    case h_1 => cases h
    case h_2 =>
      split at h
      case h_1 => cases h
      case h_2 spec _ =>
        cases h
        exact ofSpec spec

/-- The hook for test instances does what it does for its unit's key. -/
lemma concerns_postProcess (od : w.Orderly uses x.storage) (se : produce.Separate uses view) (specs : SpecCatalog)
    (inst : Instance P) (ctx : Context) (ofSpec : ∀ spec, uses (x.key ctx) (x.ofSpec spec))
    (own : ∀ p, inst.producer = some p → uses (x.key ctx) p) :
    let a := x.postProcess produce specs inst ctx w
    w.Concerns uses view x.storage (x.key ctx) a.2 ∧ ∀ i, a.1.outcome = .ok i → a.2.HasKey (x.key ctx) i := by
  unfold postProcess
  split
  case h_1 i hf =>
    refine ⟨od.concerns_same rfl rfl rfl, fun j hj => ?_⟩
    cases hj
    exact od.own _ i hf
  case h_2 =>
    split
    case h_1 => exact ⟨od.concerns_same rfl rfl rfl, nofun⟩
    case h_2 p hp =>
      -- making a registry only gives out an identity
      have fresh : w.Concerns uses view x.storage (x.key ctx) (w.freshRegistry x.config.settings).2 :=
        od.concerns_same rfl rfl rfl
      obtain ⟨created, mine⟩ :=
        fresh.orderly.concerns_getOrCreate se (used_of_producerFor ofSpec own hp)
          (w.freshRegistry x.config.settings).1
      simp only
      split
      case h_1 e w' eq =>
        rw [eq] at created
        exact ⟨fresh.trans created, nofun⟩
      case h_2 i w' eq =>
        rw [eq] at created mine
        refine ⟨fresh.trans created, fun j hj => ?_⟩
        cases hj
        exact mine i rfl

/-- The hook for a failed test does what it does for its unit's key. -/
lemma concerns_handleFailure (od : w.Orderly uses x.storage) (ctx : Context) (error : ε) :
    w.Concerns uses view x.storage (x.key ctx) (x.handleFailure ctx error w).2 := by
  unfold handleFailure
  split
  case h_1 => exact od.concerns_same rfl rfl rfl
  case h_2 i hf =>
    obtain ⟨s, hs, own⟩ := od.own _ i hf
    obtain ⟨w₁, eq, -⟩ := invalidate_eq hs
    have invalidated : w.Concerns uses view x.storage s.key w₁ := od.concerns_invalidate hs eq
    rw [own] at invalidated
    -- what is logged besides does not matter
    rw [invalidateFound, eq]
    cases (s.invalidate w).1 with
    | ok => exact invalidated.trans (invalidated.orderly.concerns_same rfl rfl rfl)
    | error => exact invalidated.trans (invalidated.orderly.concerns_same rfl rfl rfl)

/-- The hook after all tests does what it does for its unit's key. -/
lemma concerns_afterAll (od : w.Orderly uses x.storage) (ctx : Context) :
    w.Concerns uses view x.storage (x.key ctx) (x.afterAll ctx w) := by
  have removed : w.Concerns uses view x.storage _ _ := od.concerns_remove (x.key ctx)
  obtain ⟨w₁, eq, -⟩ := remove_eq od.tidy (x.key ctx)
  rw [afterAll]
  rw [eq] at removed ⊢
  cases hf : w.find x.storage (x.key ctx) with
  | none => exact removed
  | some i =>
    obtain ⟨s, hs, own⟩ := removed.hasKey (od.own _ i hf)
    have closed : w₁.Concerns uses view x.storage s.key (w₁.close i) := removed.orderly.concerns_close hs
    rw [own] at closed
    exact (removed.trans closed).trans (closed.orderly.concerns_same rfl rfl rfl)

end Extension

/-! ## Sessions -/

namespace Session

variable {z z' : Session P H} {w w' : World P H}

/-- What is handed out for a key comes last among what was handed out for it. -/
lemma handedFor_proceed (z : Session P H) (w : World P H) (key : ScopeKey) (i : Option ScopeId) :
    (z.proceed w key i).handedFor key = z.handedFor key ++ i.toList := by
  cases i <;> simp [proceed, handedFor]

/-- What is handed out for one key does not count for another. -/
lemma handedFor_proceed_of_ne {key' : ScopeKey} (ne : key' ≠ key) (z : Session P H) (w : World P H)
    (i : Option ScopeId) : (z.proceed w key i).handedFor key' = z.handedFor key' := by
  cases i <;> simp [proceed, handedFor, ne.symm]

/-- What was handed out for a key was handed out. -/
lemma mem_handedFor {i : ScopeId} (h : i ∈ z.handedFor key) : (key, i) ∈ z.handed := by
  obtain ⟨e, he, rfl⟩ := List.mem_map.mp h
  obtain ⟨mem, own⟩ := List.mem_filter.mp he
  rwa [← beq_iff_eq.mp own]

/-- A new session is orderly. -/
lemma Orderly.start (catalogs : CatalogId → SpecCatalog) (host : H) :
    (start catalogs host : Session P H).Orderly uses st :=
  ⟨.start host, nofun⟩

/-- A session that goes on and hands a scope out for a key does this for the key. -/
lemma Orderly.concerns_proceed (od : z.Orderly uses st) (co : z.world.Concerns uses view st key w)
    {i : Option ScopeId} (mine : ∀ j, i = some j → w.HasKey key j) :
    z.Concerns uses view st key (z.proceed w key i) := by
  refine ⟨⟨co.orderly, fun key' j h => ?_⟩, rfl, co.spares, fun key' ne => handedFor_proceed_of_ne ne z w i⟩
  rcases List.mem_append.mp h with old | new
  · exact co.hasKey (od.handed key' j old)
  · obtain ⟨k, hk, e⟩ := Option.map_eq_some_iff.mp (Option.mem_toList.mp new)
    cases e
    exact mine j hk

/-- A session that goes on in a world that was changed for a key does this for the key. -/
lemma Orderly.concerns_goOn (od : z.Orderly uses st) (co : z.world.Concerns uses view st key w) :
    z.Concerns uses view st key (z.goOn w) :=
  ⟨⟨co.orderly, fun key' j h => co.hasKey (od.handed key' j h)⟩, rfl, co.spares, fun _ _ => rfl⟩

/-- Nothing at all may be done for any key. -/
lemma Orderly.concerns_self (od : z.Orderly uses st) : z.Concerns uses view st key z :=
  od.concerns_goOn (od.world.concerns_same rfl rfl rfl)

/-- A call of a scope is for the scope's key. -/
lemma Orderly.concerns_call (od : z.Orderly uses st) (se : produce.Separate uses view) {i : ScopeId}
    (own : z.world.HasKey key i) (c : ScopeCall) :
    z.Concerns uses view st key (z.call produce i c : Answer ScopeId Built ε × Session P H).2 := by
  obtain ⟨s, hs, rfl⟩ := own
  cases c with
  | model =>
    obtain ⟨w, eq, -⟩ := World.modelOf_eq se hs
    rw [call, eq]
    exact od.concerns_goOn (od.world.concerns_modelOf se hs eq)
  | invalidate =>
    obtain ⟨w, eq, -⟩ := World.invalidate_eq hs
    rw [call, eq]
    exact od.concerns_goOn (od.world.concerns_invalidate hs eq)
  | close => exact od.concerns_goOn (od.world.concerns_close hs)
  | phase => exact od.concerns_self

/-- A demand for a key spares all other keys. -/
lemma Orderly.concerns_serve (od : z.Orderly uses st) (se : produce.Separate uses view) {d : Demand P ε}
    (used : d.Uses uses) (hk : d.key? = some key) : z.Concerns uses view st key (z.serve produce st d).2 := by
  -- a demand names its key; what is handed out for it has to be a scope of this key
  cases d with
  | postProcess x c inst ctx =>
    cases hk
    obtain ⟨co, mine⟩ :=
      Extension.concerns_postProcess (x := x.sharing st) od.world se (z.catalogs c) inst ctx used.1 used.2
    exact od.concerns_proceed co fun j e => mine j (ok_of_toOption e)
  | handleFailure x ctx error =>
    cases hk
    exact od.concerns_goOn (Extension.concerns_handleFailure (x := x.sharing st) od.world ctx error)
  | afterAll x ctx =>
    cases hk
    exact od.concerns_goOn (Extension.concerns_afterAll (x := x.sharing st) od.world ctx)
  | findUnit x ctx =>
    cases hk
    exact od.concerns_proceed (od.world.concerns_same rfl rfl rfl) fun j e => od.world.own _ j e
  | getOrCreate key p registry =>
    cases hk
    obtain ⟨co, mine⟩ := od.world.concerns_getOrCreate se used registry
    exact od.concerns_proceed co fun j e => mine j (ok_of_toOption e)
  | find key =>
    cases hk
    exact od.concerns_proceed (od.world.concerns_same rfl rfl rfl) fun j e => od.world.own _ j e
  | contains => exact od.concerns_self
  | remove key =>
    cases hk
    have co : z.world.Concerns uses view st key _ := od.world.concerns_remove key
    refine od.concerns_proceed co fun j e => co.hasKey (od.world.own key j ?_)
    rw [← e]
    exact (Storage.remove_fst _ _).symm
  | newScope key registry p =>
    cases hk
    refine od.concerns_proceed (od.world.concerns_newScope used registry) fun j e => ?_
    cases e
    exact World.hasKey_append (w := z.world) (s := .new key registry p) rfl
  | openScope key registry p =>
    cases hk
    obtain ⟨co, mine⟩ := od.world.concerns_openScope se used registry
    exact od.concerns_proceed co fun j e => mine j (ok_of_toOption e)
  | call key n c =>
    cases hk
    rw [serve]
    split
    case h_1 => exact od.concerns_self
    case h_2 i hi => exact od.concerns_call se (od.handed _ i (mem_handedFor (List.mem_of_getElem? hi))) c
  | attach | detach | closeAll => cases hk

/-- A session stays orderly whatever is asked of it. -/
lemma orderly_serve (od : z.Orderly uses st) (se : produce.Separate uses view) {d : Demand P ε}
    (used : d.Uses uses) : (z.serve produce st d).2.Orderly uses st := by
  cases hk : d.key? with
  | some key => exact (od.concerns_serve se used hk).orderly
  | none =>
    cases d with
    | attach | detach => exact ⟨od.world, od.handed⟩
    | closeAll =>
      obtain ⟨closed, kept⟩ := od.world.closeAll
      exact ⟨closed, fun key i h => kept key i (od.handed key i h)⟩
    | _ => cases hk

end Session

end ModelScopes
