import ModelScopes.Error

/-!
# Storage of scopes

Each key owns a slot, and a slot holds at most one scope. A slot is made when its key is first asked for and is
empty while the scope is built. Taking a key's slot out of the table leaves the slot itself to whoever works with
it; slots are never used again for another key. The functions here are the atomic steps from which finding,
creating and removing are made. Scopes are named by numbers.
-/

namespace ModelScopes

/-- The name of a scope. -/
abbrev ScopeId := Nat

/-- The name of a slot. -/
abbrev SlotId := Nat

/-- Which slot each key has, and what each slot that was ever made holds. -/
structure Storage where
  table : List (ScopeKey × SlotId)
  slots : List (Option ScopeId)
  deriving DecidableEq, Repr

namespace Storage

/-- The storage without slots. -/
def empty : Storage :=
  ⟨[], []⟩

instance : Inhabited Storage :=
  ⟨empty⟩

/-- The slot of a key. -/
def slot? (st : Storage) (key : ScopeKey) : Option SlotId :=
  (st.table.find? (fun e => e.1 == key)).map Prod.snd

/-- What a slot holds. -/
def read (st : Storage) (slot : SlotId) : Option ScopeId :=
  (st.slots[slot]?).join

/-- The slot of a key, which is made if there is none. -/
def fetch (st : Storage) (key : ScopeKey) : SlotId × Storage :=
  match st.slot? key with
  | some slot => (slot, st)
  | none => (st.slots.length, ⟨st.table ++ [(key, st.slots.length)], st.slots ++ [none]⟩)

/-- Whether a slot is the one that its key has. -/
def isCurrent (st : Storage) (key : ScopeKey) (slot : SlotId) : Bool :=
  st.slot? key == some slot

/-- Puts a scope into a slot. -/
def publish (st : Storage) (slot : SlotId) (scope : ScopeId) : Storage :=
  { st with slots := st.slots.set slot (some scope) }

/-- Takes a key out of the table. -/
def forget (st : Storage) (key : ScopeKey) : Storage :=
  { st with table := st.table.filter fun e => e.1 != key }

/-- Takes a key out of the table if it has the given slot. -/
def release (st : Storage) (key : ScopeKey) (slot : SlotId) : Storage :=
  if st.isCurrent key slot then st.forget key else st

/-- Takes a key out of the table, and says which slot it had. -/
def detach (st : Storage) (key : ScopeKey) : Option SlotId × Storage :=
  (st.slot? key, st.forget key)

/-- Takes the scope out of a slot. -/
def take (st : Storage) (slot : SlotId) : Option ScopeId × Storage :=
  (st.read slot, { st with slots := st.slots.set slot none })

/-- The scope stored under a key. -/
def find (st : Storage) (key : ScopeKey) : Option ScopeId :=
  (st.slot? key).bind st.read

/-- Whether a scope is stored under a key. -/
def contains (st : Storage) (key : ScopeKey) : Bool :=
  (st.find key).isSome

/-- Takes a key and its scope out of the storage. -/
def remove (st : Storage) (key : ScopeKey) : Option ScopeId × Storage :=
  match st.detach key with
  | (none, st) => (none, st)
  | (some slot, st) => st.take slot

/-- The keys that have a slot. -/
def keys (st : Storage) : List ScopeKey :=
  st.table.map Prod.fst

/-- The number of keys with a slot. -/
def slotCount (st : Storage) : Nat :=
  st.table.length

/-- The number of keys with a scope. -/
def size (st : Storage) : Nat :=
  st.table.countP fun e => (st.read e.2).isSome

/-- Whether no scope is stored. -/
def isEmpty (st : Storage) : Bool :=
  st.size == 0

end Storage

end ModelScopes
