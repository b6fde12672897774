/-!
# Ordered maps

A map from names that keeps its entries in the order in which their keys were first inserted; replacing an
entry keeps its place. Main statements: what `get?` finds after an insertion, and which keys there are.
-/

namespace ModelScopes

/-- A map from names, in the order in which the names were first inserted. -/
structure OrderedMap (α : Type) where
  entries : List (String × α)
  nodup : (entries.map Prod.fst).Nodup

namespace OrderedMap

variable {α : Type}

instance [DecidableEq α] : DecidableEq (OrderedMap α) := fun a b =>
  if h : a.entries = b.entries then
    isTrue (by cases a; cases b; simpa using h)
  else
    isFalse (fun e => h (congrArg entries e))

/-- The map without entries. -/
def empty : OrderedMap α :=
  ⟨[], List.nodup_nil⟩

instance : Inhabited (OrderedMap α) :=
  ⟨empty⟩

/-- The keys, in order. -/
def keys (m : OrderedMap α) : List String :=
  m.entries.map Prod.fst

/-- The values, in the order of their keys. -/
def values (m : OrderedMap α) : List α :=
  m.entries.map Prod.snd

/-- The number of entries. -/
def size (m : OrderedMap α) : Nat :=
  m.entries.length

/-- The value under a key. -/
def get? (m : OrderedMap α) (key : String) : Option α :=
  (m.entries.find? (fun e => e.1 == key)).map Prod.snd

/-- Puts a value under a key: in its place if it is there, else at the end. -/
def put (key : String) (value : α) : List (String × α) → List (String × α)
  | [] => [(key, value)]
  | e :: rest => if e.1 = key then (key, value) :: rest else e :: put key value rest

/-- Putting a value under a key keeps the keys as they are, or adds the key behind them. -/
theorem keys_put (key : String) (value : α) (es : List (String × α)) :
    (put key value es).map Prod.fst =
      if key ∈ es.map Prod.fst then es.map Prod.fst else es.map Prod.fst ++ [key] := by
  induction es with
  | nil => simp [put]
  | cons e rest ih =>
    by_cases h : e.1 = key
    · simp [put, h]
    · have h' : ¬ key = e.1 := fun e => h e.symm
      by_cases hm : key ∈ rest.map Prod.fst
      · simp only [put, if_neg h, List.map_cons, ih, List.mem_cons, hm, or_true, if_true]
      · simp only [put, if_neg h, List.map_cons, ih, List.mem_cons, h', hm, or_self, if_false,
          List.cons_append]

/-- Distinct keys stay distinct. -/
theorem nodup_put (key : String) (value : α) {es : List (String × α)} (h : (es.map Prod.fst).Nodup) :
    ((put key value es).map Prod.fst).Nodup := by
  rw [keys_put]
  split
  · exact h
  · rename_i hm
    refine List.nodup_append.2 ⟨h, by simp, ?_⟩
    intro a ha b hb e
    simp only [List.mem_singleton] at hb
    exact hm (hb ▸ e ▸ ha)

/-- The map with a value under a key. -/
def insert (m : OrderedMap α) (key : String) (value : α) : OrderedMap α :=
  ⟨put key value m.entries, nodup_put key value m.nodup⟩

/-- The map without a key. -/
def erase (m : OrderedMap α) (key : String) : OrderedMap α :=
  ⟨m.entries.filter (fun e => e.1 ≠ key), (List.filter_sublist.map _).nodup m.nodup⟩

/-- The map with every value changed, and the keys as they are. -/
def mapValues (f : α → α) (m : OrderedMap α) : OrderedMap α :=
  ⟨m.entries.map (fun e => (e.1, f e.2)), by simpa [List.map_map, Function.comp_def] using m.nodup⟩

/-- The map that inserting the pairs one after another builds. -/
def ofList (es : List (String × α)) : OrderedMap α :=
  es.foldl (fun m e => m.insert e.1 e.2) empty

/-- The keys after an insertion. -/
theorem keys_insert (m : OrderedMap α) (key : String) (value : α) :
    (m.insert key value).keys = if key ∈ m.keys then m.keys else m.keys ++ [key] :=
  keys_put key value m.entries

/-- Under the key there is the new value, and under every other key what was there. -/
theorem find?_put (key k : String) (value : α) (es : List (String × α)) :
    (put key value es).find? (fun e => e.1 == k) =
      if k = key then some (key, value) else es.find? (fun e => e.1 == k) := by
  induction es with
  | nil =>
    by_cases h : k = key
    · simp [put, h]
    · have h1 : ¬ key = k := fun e => h e.symm
      simp [put, h, h1]
  | cons e rest ih =>
    by_cases he : e.1 = key
    · by_cases h : k = key
      · simp [put, he, h]
      · have h1 : ¬ key = k := fun e => h e.symm
        simp [put, he, h, h1]
    · by_cases h : k = key
      · subst h
        simp [put, he, ih]
      · by_cases hk : e.1 = k
        · subst hk
          simp [put, h]
        · simp [put, he, ih, h, hk]

/-- What a key has after an insertion. -/
theorem get?_insert (m : OrderedMap α) (key k : String) (value : α) :
    (m.insert key value).get? k = if k = key then some value else m.get? k := by
  simp only [get?, insert, find?_put]
  split <;> simp

end OrderedMap

end ModelScopes
