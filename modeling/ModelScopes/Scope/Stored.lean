import ModelScopes.Scope.Basic

/-!
# Operations on stored scopes

Operations on a scope by its number, and the operations of a storage: find, find or create, remove, and close all.
A scope is built before it is stored. If its build fails the key's slot is released, unless the key was given
another slot in the meantime.
-/

namespace ModelScopes.World

variable {P H : Type}

/-- The model of a scope; nothing if there is no such scope. -/
def modelOf (produce : Produce P H) (i : ScopeId) (w : World P H) :
    Option (Except ScopeError Built × World P H) :=
  (w.scopes[i]?).map fun s =>
    let (r, s, w) := s.model produce w
    (r, w.setScope i s)

/-- Lets go of the model of a scope; nothing if there is no such scope. -/
def invalidate (i : ScopeId) (w : World P H) : Option (Except ScopeError Unit × World P H) :=
  (w.scopes[i]?).map fun s =>
    let (r, s, w) := s.invalidate w
    (r, w.setScope i s)

/-- Closes a scope. -/
def close (i : ScopeId) (w : World P H) : World P H :=
  match w.scopes[i]? with
  | none => w
  | some s =>
    let (s, w) := s.close w
    w.setScope i s

/-- Keeps a new scope outside of every storage. -/
def newScope (key : ScopeKey) (registry : Registry) (producer : P) (w : World P H) : ScopeId × World P H :=
  w.addScope (.new key registry producer)

/-- Keeps a new scope with its model outside of every storage. -/
def openScope (produce : Produce P H) (key : ScopeKey) (registry : Registry) (producer : P) (w : World P H) :
    Except ScopeError ScopeId × World P H :=
  match Scope.opened produce key registry producer w with
  | (.error e, w) => (.error e, w)
  | (.ok s, w) =>
    let (i, w) := w.addScope s
    (.ok i, w)

/-- The scope stored under a key. -/
def find (st : StorageId) (key : ScopeKey) (w : World P H) : Option ScopeId :=
  (w.storages st).find key

/-- Whether a scope is stored under a key. -/
def contains (st : StorageId) (key : ScopeKey) (w : World P H) : Bool :=
  (w.storages st).contains key

/-- Builds a scope in the slot of its key. -/
def createIn (produce : Produce P H) (st : StorageId) (key : ScopeKey) (slot : SlotId) (producer : P)
    (registry : Registry) (w : World P H) : Except ScopeError ScopeId × World P H :=
  match openScope produce key registry producer (w.emit (.creating key)) with
  | (.error e, w) => (.error e, (w.modifyStorage st (·.release key slot)).emit (.notCreated key e))
  | (.ok i, w) => (.ok i, (w.modifyStorage st (·.publish slot i)).emit (.created key))

/-- The scope stored under a key, which is created if there is none. -/
def getOrCreate (produce : Produce P H) (st : StorageId) (key : ScopeKey) (producer : P) (registry : Registry)
    (w : World P H) : Except ScopeError ScopeId × World P H :=
  let (slot, storage) := (w.storages st).fetch key
  let w := w.modifyStorage st fun _ => storage
  -- nobody else is at work, so the slot that was fetched is still the key's
  match storage.read slot with
  | some i => (.ok i, w)
  | none => createIn produce st key slot producer registry w

/-- Takes the scope of a key out of the storage, as it is. -/
def remove (st : StorageId) (key : ScopeKey) (w : World P H) : Option ScopeId × World P H :=
  let (i, storage) := (w.storages st).remove key
  (i, w.modifyStorage st fun _ => storage)

/-- Takes the scopes of keys out of the storage and closes them; answers with their number. -/
def closeKeys (st : StorageId) : List ScopeKey → World P H → Nat × World P H
  | [], w => (0, w)
  | key :: rest, w =>
    match w.remove st key with
    | (none, w) => closeKeys st rest w
    | (some i, w) =>
      let (n, w) := closeKeys st rest (w.close i)
      (n + 1, w)

/-- Takes all scopes out of the storage and closes them; answers with their number. -/
def closeAll (st : StorageId) (w : World P H) : Nat × World P H :=
  let (n, w) := closeKeys st (w.storages st).keys w
  (n, if n = 0 then w else w.emit (.closedAll n))

end ModelScopes.World
