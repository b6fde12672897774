import ModelScopes.Recorder
import ModelScopes.Script.Basic

/-!
# What scripts work on

The setting that stays the same while a script runs, and the bench on which its producers and steps keep what they
count, write down and show. A scope or model has its place from the first time that an answer shows it.
-/

namespace ModelScopes.Script

/-- What stays the same while a script runs. -/
structure Setting where
  catalog : ClassCatalog
  refusals : Refusals
  descriptors : DescriptorRegistry
  extensions : List (Extension Producer)

/-- What a build under way holds: the slot in which it creates a scope, or the scope whose model it builds. -/
inductive Lock where
  | slot (st : StorageId) (slot : SlotId)
  | scope (i : ScopeId)
  deriving DecidableEq, Repr

/-- What producers and steps keep: named counters, the cells of sequences, what the collector wrote down and how
many collections were begun, the attached specs, what was shown, the answers of steps run inside builds, those of the
steps that ran while a leader's build was held, what the builds under way hold, and whether a step waits for ever. -/
structure Bench where
  counters : List (String × Nat)
  cells : List Nat
  log : List Contribution
  collections : Nat
  specs : SpecCatalog
  shownScopes : List ScopeId
  shownModels : List Built
  inner : List Reply
  held : List Reply
  locks : List Lock
  stuck : Bool

/-- The world that scripts work on. -/
abbrev ScriptWorld := World Producer Bench

namespace Bench

/-- The bench before the first step. -/
def start : Bench :=
  ⟨[], [], [], 0, .empty, [], [], [], [], [], false⟩

/-- The value of a counter. -/
def counter (b : Bench) (name : String) : Nat :=
  ((b.counters.find? (fun e => e.1 == name)).map Prod.snd).getD 0

/-- Raises a counter by one. -/
def raise (b : Bench) (name : String) : Bench :=
  { b with counters := (name, b.counter name + 1) :: b.counters.filter fun e => e.1 != name }

/-- The number of calls in a cell, which is raised by one. -/
def nextCall (b : Bench) (cell : Nat) : Nat × Bench :=
  let n := (b.cells[cell]?).getD 0
  (n, { b with cells := b.cells.set cell (n + 1) })

end Bench

mutual

/-- Sets a producer up: gives its sequences cells of their own, counted from `free`. -/
def Producer.setUp (free : Nat) : Producer → Producer × Nat
  | .sequence _ items =>
    let (items, next) := Producer.setUpAll (free + 1) items
    (.sequence free items, next)
  | .reentrant steps next =>
    let (p, free) := next.setUp free
    (.reentrant steps p, free)
  | p => (p, free)

/-- Sets producers up in turn. -/
def Producer.setUpAll (free : Nat) : List Producer → List Producer × Nat
  | [] => ([], free)
  | p :: rest =>
    let (p, free) := p.setUp free
    let (ps, free) := Producer.setUpAll free rest
    (p :: ps, free)

end

/-- Sets a producer up in a world. -/
def setUp (p : Producer) (w : ScriptWorld) : Producer × ScriptWorld :=
  let free := w.host.cells.length
  let (p, next) := p.setUp free
  (p, w.modifyHost fun b => { b with cells := b.cells ++ List.replicate (next - free) 0 })

/-- The place of a scope among those shown; it is shown now if it was not before. -/
def showScope (i : ScopeId) (w : ScriptWorld) : Nat × ScriptWorld :=
  match w.host.shownScopes.findIdx? (· == i) with
  | some n => (n, w)
  | none => (w.host.shownScopes.length, w.modifyHost fun b => { b with shownScopes := b.shownScopes ++ [i] })

/-- The place of a scope, if there is one. -/
def showOptional (i : Option ScopeId) (w : ScriptWorld) : Option Nat × ScriptWorld :=
  match i with
  | none => (none, w)
  | some i =>
    let (n, w) := showScope i w
    (some n, w)

/-- The place of a scope that was had or not. -/
def showOutcome (r : Except ScopeError ScopeId) (w : ScriptWorld) : Except ScopeError Nat × ScriptWorld :=
  match r with
  | .error e => (.error e, w)
  | .ok i =>
    let (n, w) := showScope i w
    (.ok n, w)

/-- Shows a model: its place, and the place of the first one shown with the same identity. -/
def showModel (b : Built) (w : ScriptWorld) : ShownModel × ScriptWorld :=
  let (n, w) :=
    match w.host.shownModels.findIdx? (fun b' => b'.serial == b.serial) with
    | some n => (n, w)
    | none => (w.host.shownModels.length, w.modifyHost fun h => { h with shownModels := h.shownModels ++ [b] })
  let idOf := (w.host.shownModels.findIdx? (fun b' => b'.model.id == b.model.id)).getD n
  (⟨n, idOf, b.model⟩, w)

/-- The number that a label gives, if fewer things are shown than that: a letter and the place. -/
def place? (letter : Char) (shown : Nat) (label : String) : Option Nat :=
  (List.range shown).find? fun n => label == String.ofList (letter :: (toString n).toList)

/-- The scope of a label. -/
def scopeOf? (w : ScriptWorld) (label : String) : Option ScopeId :=
  (place? 's' w.host.shownScopes.length label).bind fun n => w.host.shownScopes[n]?

/-- The lock of the slot that a key has, if it has one. -/
def slotLock? (st : StorageId) (key : ScopeKey) (w : ScriptWorld) : Option Lock :=
  ((w.storages st).slot? key).map (.slot st)

/-- The locks of the scopes that are stored. -/
def storedLocks (st : StorageId) (w : ScriptWorld) : List Lock :=
  (w.storages st).keys.filterMap fun key => (w.find st key).map .scope

/-- Builds as before, and holds a lock meanwhile. -/
def holding (lock : ScriptWorld → Option Lock) (produce : Produce Producer Bench) : Produce Producer Bench :=
  fun p registry w =>
    let locks := w.host.locks
    let (r, w) := produce p registry (w.modifyHost fun b => { b with locks := (lock w).toList ++ locks })
    (r, w.modifyHost fun b => { b with locks := locks })

/-- Does something for which locks are needed. If a build under way holds one of them then this waits for the build,
and the build waits for this. -/
def unlessHeld {α : Type} (locks : List Lock) (stopped : α) (f : ScriptWorld → α × ScriptWorld) (w : ScriptWorld) :
    α × ScriptWorld :=
  if locks.any w.host.locks.contains then (stopped, w.modifyHost fun b => { b with stuck := true }) else f w

/-- The live scopes and the slots of a storage. -/
def statsOf (st : StorageId) (w : ScriptWorld) : Nat × Nat :=
  ((w.storages st).size, (w.storages st).slotCount)

end ModelScopes.Script
