import Mathlib.Data.List.Induction
import Mathlib.Data.List.Nodup
import Mathlib.Tactic.Common
import ModelScopes.Map.Ordered

/-!
# Changing ordered maps

What an ordered map is after changes in turn. A change puts a value under a key, or goes over all values and changes
each where it stands. The keys are those that there were, and then the new ones in the order in which they came first;
so a key keeps its place once it has one. Under a key stands the value that was put there last, with all that was done
later to the value at its place. The main statement is `OrderedMap.changed`.
-/

namespace ModelScopes

namespace OrderedMap

variable {α : Type} {m : OrderedMap α} {key : String} {a : α}

/-! ## Looking up -/

/-- What is found under a key is its entry. -/
lemma get?_eq_some_iff : m.get? key = some a ↔ (key, a) ∈ m.entries := by
  obtain ⟨es, nodup⟩ := m
  unfold get?
  induction es with
  | nil => simp
  | cons e rest ih =>
    rw [List.map_cons, List.nodup_cons] at nodup
    by_cases here : e.1 = key
    · subst here
      have absent : ∀ b, (e.1, b) ∉ rest := fun b mem => nodup.1 (List.mem_map.mpr ⟨(e.1, b), mem, rfl⟩)
      simp [Prod.ext_iff, absent, eq_comm]
    · have other : (key, a) ≠ e := fun eq => here (eq ▸ rfl)
      simpa [here, other] using ih nodup.2

/-- A key under which something is found is among the keys. -/
lemma mem_keys_of_get? (h : m.get? key = some a) : key ∈ m.keys :=
  List.mem_map_of_mem (get?_eq_some_iff.mp h)

/-- The values stand in the order of their keys. -/
lemma map_get?_keys (m : OrderedMap α) : m.keys.map m.get? = m.values.map some := by
  rw [keys, values, List.map_map, List.map_map]
  exact List.map_congr_left fun e he => get?_eq_some_iff.mpr he

/-! ## Values changed by their places -/

/-- The map with each value changed by its place, and the keys as they are. -/
def mapPlaces (f : Nat → α → α) (m : OrderedMap α) : OrderedMap α :=
  ⟨m.entries.mapIdx fun i e => (e.1, f i e.2), by
    have keys : (m.entries.mapIdx fun i e => (e.1, f i e.2)).map Prod.fst = m.entries.map Prod.fst :=
      List.ext_getElem? fun i => by simp [Function.comp_def]
    rw [keys]
    exact m.nodup⟩

/-- Changing values by their places keeps the keys. -/
@[simp] lemma keys_mapPlaces (f : Nat → α → α) (m : OrderedMap α) : (m.mapPlaces f).keys = m.keys :=
  List.ext_getElem? fun i => by simp [keys, mapPlaces, Function.comp_def]

/-- If the place does not matter then all values are changed alike. -/
lemma mapPlaces_const (f : α → α) (m : OrderedMap α) : m.mapPlaces (fun _ => f) = m.mapValues f := by
  have entries : (m.entries.mapIdx fun _ e => (e.1, f e.2)) = m.entries.map fun e => (e.1, f e.2) :=
    List.ext_getElem? fun i => by simp
  simp only [mapPlaces, mapValues, entries]

/-- An entry stands at the place of its key. -/
lemma idxOf_keys {i : Nat} (h : m.entries[i]? = some (key, a)) : m.keys.idxOf key = i := by
  have there : m.keys[i]? = some key := by simp [keys, h]
  obtain ⟨lt, rfl⟩ := List.getElem?_eq_some_iff.mp there
  exact m.nodup.idxOf_getElem i lt

/-- Under a key stands the changed value that stood there, which is the one at the key's place. -/
lemma get?_mapPlaces (f : Nat → α → α) (m : OrderedMap α) (key : String) :
    (m.mapPlaces f).get? key = (m.get? key).map (f (m.keys.idxOf key)) := by
  refine Option.ext fun b => ?_
  rw [Option.map_eq_some_iff, get?_eq_some_iff, List.mem_iff_getElem?]
  constructor
  · rintro ⟨i, h⟩
    rw [mapPlaces, List.getElem?_mapIdx, Option.map_eq_some_iff] at h
    obtain ⟨⟨_, a⟩, there, eq⟩ := h
    cases eq
    exact ⟨a, get?_eq_some_iff.mpr (List.mem_of_getElem? there), by rw [idxOf_keys there]⟩
  · rintro ⟨a, h, rfl⟩
    obtain ⟨i, there⟩ := List.mem_iff_getElem?.mp (get?_eq_some_iff.mp h)
    exact ⟨i, by simp [mapPlaces, there, idxOf_keys there]⟩

/-! ## Changes -/

/-- A change of a map: a value is put under a key, or each value is changed where it stands. -/
inductive Change (α : Type) where
  | put (key : String) (value : α)
  | touch (f : Nat → α → α)

namespace Change

/-- The key under which something is put. -/
def key? : Change α → Option String
  | put key _ => some key
  | touch _ => none

/-- What becomes of a value that stays at its place. -/
def stay (place : Nat) (a : α) : Change α → α
  | put .. => a
  | touch f => f place a

end Change

/-- Makes a change. -/
def change (m : OrderedMap α) : Change α → OrderedMap α
  | .put key a => m.insert key a
  | .touch f => m.mapPlaces f

/-- Makes changes in turn. -/
def changeAll (m : OrderedMap α) (cs : List (Change α)) : OrderedMap α :=
  cs.foldl change m

/-- What becomes of a value that stays at its place by changes in turn. -/
def stayAll (place : Nat) (cs : List (Change α)) (a : α) : α :=
  cs.foldl (fun a c => c.stay place a) a

variable {c : Change α} {cs : List (Change α)}

/-- Without changes the map stays as it is. -/
@[simp] lemma changeAll_nil (m : OrderedMap α) : m.changeAll [] = m := rfl

/-- The first change is made before the others. -/
lemma changeAll_cons (m : OrderedMap α) (c : Change α) (cs : List (Change α)) :
    m.changeAll (c :: cs) = (m.change c).changeAll cs := rfl

/-- Changes are made one list after the other. -/
lemma changeAll_append (m : OrderedMap α) (cs cs' : List (Change α)) :
    m.changeAll (cs ++ cs') = (m.changeAll cs).changeAll cs' :=
  List.foldl_append

/-- Of what comes to one change or to none the first goes first. -/
lemma changeAll_filterMap_cons {β : Type} (m : OrderedMap α) (g : β → Option (Change α)) (b : β) (rest : List β) :
    m.changeAll ((b :: rest).filterMap g) = (m.changeAll (g b).toList).changeAll (rest.filterMap g) := by
  cases h : g b with
  | none => rw [List.filterMap_cons_none h, Option.toList_none, changeAll_nil]
  | some c => rw [List.filterMap_cons_some h, ← changeAll_append, Option.toList_some, List.singleton_append]

/-- A list without repeats gets longer at its end by what it does not have. -/
lemma eraseDups_concat {κ : Type} [BEq κ] [LawfulBEq κ] (keys : List κ) (key : κ) :
    (keys ++ [key]).eraseDups = if key ∈ keys then keys.eraseDups else keys.eraseDups ++ [key] := by
  rw [List.eraseDups_append]
  by_cases old : key ∈ keys <;> simp [List.removeAll, old, List.eraseDups_cons]

/-- The keys after changes: those there were, and behind them the new ones, each at the place where it came first. -/
lemma keys_changeAll (m : OrderedMap α) (cs : List (Change α)) :
    (m.changeAll cs).keys = m.keys ++ ((cs.filterMap Change.key?).removeAll m.keys).eraseDups := by
  induction cs using List.reverseRecOn with
  | nil => simp [List.removeAll]
  | append_singleton cs c ih =>
    rw [changeAll_append, List.filterMap_append]
    cases c with
    | touch f =>
      have same : ((m.changeAll cs).changeAll [.touch f]).keys = (m.changeAll cs).keys := keys_mapPlaces f _
      rw [same, ih, show [Change.touch f].filterMap Change.key? = [] from rfl, List.append_nil]
    | put key a =>
      have inserted : ((m.changeAll cs).changeAll [.put key a]).keys = _ := keys_insert (m.changeAll cs) key a
      have split : (cs.filterMap Change.key? ++ [key]).removeAll m.keys =
          (cs.filterMap Change.key?).removeAll m.keys ++ [key].removeAll m.keys := List.filter_append ..
      rw [inserted, ih, show [Change.put key a].filterMap Change.key? = [key] from rfl, split]
      by_cases old : key ∈ m.keys
      · simp [List.removeAll, old]
      · have new : [key].removeAll m.keys = [key] := by simp [List.removeAll, old]
        rw [new, eraseDups_concat]
        simp only [List.mem_append, old, List.mem_eraseDups, false_or]
        split
        case isTrue => rfl
        case isFalse => exact List.append_assoc ..

/-- A key keeps its place. -/
lemma idxOf_keys_changeAll (mem : key ∈ m.keys) (cs : List (Change α)) :
    (m.changeAll cs).keys.idxOf key = m.keys.idxOf key := by
  rw [keys_changeAll]
  exact List.idxOf_append_of_mem mem

/-- A change that puts nothing under a key changes the value that stands there by its place. -/
lemma get?_change (other : c.key? ≠ some key) (m : OrderedMap α) :
    (m.change c).get? key = (m.get? key).map (c.stay (m.keys.idxOf key)) := by
  cases c with
  | put key' a =>
    have ne : key ≠ key' := fun eq => other (eq ▸ rfl)
    rw [change, get?_insert, if_neg ne]
    exact Option.map_id'.symm
  | touch f => exact get?_mapPlaces f m key

/-- Changes that do not put the key leave its value where it is, and may only change it there. -/
lemma get?_changeAll (others : ∀ c ∈ cs, c.key? ≠ some key) (m : OrderedMap α) :
    (m.changeAll cs).get? key = (m.get? key).map (stayAll (m.keys.idxOf key) cs) := by
  induction cs generalizing m with
  | nil => exact Option.map_id'.symm
  | cons c rest ih =>
    obtain ⟨other, others⟩ := List.forall_mem_cons.mp others
    rw [changeAll_cons, ih others, get?_change other, Option.map_map]
    cases h : m.get? key with
    | none => rfl
    | some a =>
      have place : (m.change c).keys.idxOf key = m.keys.idxOf key := idxOf_keys_changeAll (mem_keys_of_get? h) [c]
      rw [place]
      rfl

/-! ## Main statement -/

/-- What there is to say of a map that came of another one by changes in turn. -/
structure Changed (m m' : OrderedMap α) (cs : List (Change α)) : Prop where
  /-- No key comes twice. -/
  nodup : m'.keys.Nodup
  /-- The keys are those there were, and then the new ones in the order in which they came first. -/
  order : m'.keys = m.keys ++ ((cs.filterMap Change.key?).removeAll m.keys).eraseDups
  /-- A value that is not replaced is what the changes make of it at its place. -/
  kept : ∀ key, (∀ c ∈ cs, c.key? ≠ some key) → m'.get? key = (m.get? key).map (stayAll (m'.keys.idxOf key) cs)
  /-- The value that is put under a key last is what later changes make of it at the key's place. -/
  put : ∀ before key a after, cs = before ++ .put key a :: after → (∀ c ∈ after, c.key? ≠ some key) →
    m'.get? key = some (stayAll (m'.keys.idxOf key) after a)
  /-- What is found under a key is the entry of this key. -/
  found : ∀ key a, m'.get? key = some a ↔ (key, a) ∈ m'.entries
  /-- The values are those that are found under the keys, in their order. -/
  values : m'.keys.map m'.get? = m'.values.map some
  /-- The values are counted one by one. -/
  size : m'.size = m'.values.length

/-- A run of changes does to a map what is said of it as a whole. -/
theorem changed (m : OrderedMap α) (cs : List (Change α)) : m.Changed (m.changeAll cs) cs where
  nodup := (m.changeAll cs).nodup
  order := m.keys_changeAll cs
  kept key others := by
    rw [get?_changeAll others]
    cases h : m.get? key with
    | none => rfl
    | some a => rw [idxOf_keys_changeAll (mem_keys_of_get? h)]
  put before key a after split others := by
    subst split
    rw [changeAll_append, changeAll_cons, get?_changeAll others]
    have there : ((m.changeAll before).change (.put key a)).get? key = some a := by simp [change, get?_insert]
    rw [idxOf_keys_changeAll (mem_keys_of_get? there), there]
    rfl
  found _ _ := get?_eq_some_iff
  values := map_get?_keys _
  size := by simp [OrderedMap.size, OrderedMap.values]

end OrderedMap

end ModelScopes
