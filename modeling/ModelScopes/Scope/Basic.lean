import ModelScopes.Event
import ModelScopes.Registry
import ModelScopes.Storage.Basic
import ModelScopes.Text.Characters

/-!
# Scopes

A scope holds the model of one test unit. It is active, with or without a model, or closed for ever. The model is
built when it is first asked for and kept until it is invalidated; a build that fails leaves the scope without a
model. A producer may itself work on the world in which its scope lives, so building is a function on worlds.
-/

namespace ModelScopes

/-- The version of the library's scopes. -/
def scopeVersion : String :=
  "0.1.0"

/-- A model as it was built: two builds are different even if their models are equal. -/
structure Built where
  serial : Nat
  model : Model
  deriving DecidableEq

/-- What a scope holds. -/
inductive ScopeState where
  | active (built : Option Built)
  | closed
  deriving DecidableEq

/-- What can be seen of a scope's state. -/
inductive ScopePhase where
  | activeEmpty
  | activePopulated
  | closed
  deriving DecidableEq, Repr

/-- The holder of one model. The key, the registry and the producer never change. -/
structure Scope (P : Type) where
  key : ScopeKey
  registry : Registry
  producer : P
  state : ScopeState

/-- The number of a storage. -/
abbrev StorageId := Nat

/-- All that operations work on: the scopes ever stored or handed out, the storages, the events so far, the number
of identities given out so far, and whatever the producers work on besides. -/
structure World (P H : Type) where
  scopes : List (Scope P)
  storages : StorageId → Storage
  events : List Event
  serial : Nat
  host : H

/-- How a producer builds a model from a registry. -/
abbrev Produce (P H : Type) := P → Registry → World P H → Except ScopeError Model × World P H

namespace World

variable {P H : Type}

/-- The world in which nothing has happened. -/
def start (host : H) : World P H :=
  ⟨[], fun _ => .empty, [], 0, host⟩

/-- Logs an event. -/
def emit (w : World P H) (e : Event) : World P H :=
  { w with events := w.events ++ [e] }

/-- Logs events. -/
def emitAll (w : World P H) (es : List Event) : World P H :=
  { w with events := w.events ++ es }

/-- Gives out an identity. -/
def freshId (w : World P H) : Uuid × World P H :=
  (.ofSerial w.serial, { w with serial := w.serial + 1 })

/-- Makes a registry with an identity of its own. -/
def freshRegistry (w : World P H) (settings : Settings) : Registry × World P H :=
  let (id, w) := w.freshId
  (⟨id, settings⟩, w)

/-- Changes what the producers work on. -/
def modifyHost (w : World P H) (f : H → H) : World P H :=
  { w with host := f w.host }

/-- Changes one storage. -/
def modifyStorage (w : World P H) (i : StorageId) (f : Storage → Storage) : World P H :=
  { w with storages := fun j => if j = i then f (w.storages i) else w.storages j }

/-- Keeps a scope, under the next number. -/
def addScope (w : World P H) (s : Scope P) : ScopeId × World P H :=
  (w.scopes.length, { w with scopes := w.scopes ++ [s] })

/-- Changes a scope. -/
def setScope (w : World P H) (i : ScopeId) (s : Scope P) : World P H :=
  { w with scopes := w.scopes.set i s }

end World

namespace ScopePhase

/-- The name of the phase. -/
def name : ScopePhase → String
  | activeEmpty => "ActiveEmpty"
  | activePopulated => "ActivePopulated"
  | closed => "Closed"

/-- Whether a scope in this phase still accepts operations. -/
def isActive : ScopePhase → Bool
  | closed => false
  | _ => true

end ScopePhase

namespace Scope

variable {P H : Type}

/-- An active scope without a model. -/
def new (key : ScopeKey) (registry : Registry) (producer : P) : Scope P :=
  ⟨key, registry, producer, .active none⟩

/-- The phase of the scope. -/
def phase (s : Scope P) : ScopePhase :=
  match s.state with
  | .active none => .activeEmpty
  | .active (some _) => .activePopulated
  | .closed => .closed

/-- Whether the scope is not closed. -/
def isActive (s : Scope P) : Bool :=
  s.phase.isActive

/-- The model of the scope, which is built if there is none: what is answered, the scope, and the world. -/
def model (produce : Produce P H) (s : Scope P) (w : World P H) :
    Except ScopeError Built × Scope P × World P H :=
  match s.state with
  | .closed => (.error (.inactive s.key), s, w)
  | .active (some b) => (.ok b, s, w)
  | .active none =>
    match produce s.producer s.registry (w.emit (.building s.key)) with
    | (.error e, w) => (.error e, s, w)
    | (.ok m, w) =>
      let b : Built := ⟨w.serial, m⟩
      let w := { w with serial := w.serial + 1 }
      (.ok b, { s with state := .active (some b) },
        w.emit (.built s.key m.id m.entities.size m.collections.size))

/-- Lets go of the model. -/
def invalidate (s : Scope P) (w : World P H) : Except ScopeError Unit × Scope P × World P H :=
  match s.state with
  | .closed => (.error (.inactive s.key), s, w)
  | .active none => (.ok (), s, w)
  | .active (some b) => (.ok (), { s with state := .active none }, w.emit (.modelReleased s.key b.model.id))

/-- Closes the scope for ever. -/
def close (s : Scope P) (w : World P H) : Scope P × World P H :=
  match s.state with
  | .closed => (s, w)
  | .active _ => ({ s with state := .closed }, w.emit (.closed s.key))

/-- An active scope whose model is built at once; no scope if the build fails. -/
def opened (produce : Produce P H) (key : ScopeKey) (registry : Registry) (producer : P) (w : World P H) :
    Except ScopeError (Scope P) × World P H :=
  match (new key registry producer).model produce w with
  | (.ok _, s, w) => (.ok s, w)
  | (.error e, _, w) => (.error e, w)

/-- The key as messages show it. -/
def shownKey (k : ScopeKey) : String :=
  "ScopeKey \x7b namespace: " ++ Text.quoted k.namespaceName ++ ", unit: " ++ Text.quoted k.unit ++ " \x7d"

/-- The scope as messages show it, with a text for the registry's identity. -/
def shown (s : Scope P) (registry : String) : String :=
  "DomainModelScope \x7b key: " ++ shownKey s.key ++ ", registry: RegistryId(" ++ registry ++ "), phase: " ++
    s.phase.name ++ ", .. \x7d"

end Scope

end ModelScopes
