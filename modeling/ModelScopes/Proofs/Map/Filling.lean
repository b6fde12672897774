import ModelScopes.Proofs.Map.Changing

/-!
# Filling ordered maps

What an ordered map holds after values were put into it one after another, each under its name. Its keys are those that
it had, and then the names that are new in the order in which they came first (`keys_fill`). Under each name it holds
the value of this name that came last (`get?_fill`).
-/

namespace ModelScopes.OrderedMap

variable {α : Type} {name : α → String}

/-- Puts values into the map one after another, each under its name. -/
def fill (name : α → String) (m : OrderedMap α) (as : List α) : OrderedMap α :=
  as.foldl (fun m a => m.insert (name a) a) m

/-- Nothing is filled in. -/
@[simp] lemma fill_nil (m : OrderedMap α) : m.fill name [] = m := rfl

/-- Values are filled in one list after the other. -/
lemma fill_append (m : OrderedMap α) (as bs : List α) : m.fill name (as ++ bs) = (m.fill name as).fill name bs :=
  List.foldl_append

/-- The last value is put in its place last. -/
lemma fill_concat (m : OrderedMap α) (as : List α) (a : α) :
    m.fill name (as ++ [a]) = (m.fill name as).insert (name a) a :=
  fill_append m as [a]

/-- Filling is putting each value under its own name. -/
lemma fill_eq_changeAll (m : OrderedMap α) (as : List α) :
    m.fill name as = m.changeAll (as.map fun a => .put (name a) a) := by
  rw [changeAll, List.foldl_map]
  rfl

/-- The keys of a filled map: those there were, and behind them the new names, each at the place where it came first. -/
lemma keys_fill (m : OrderedMap α) (as : List α) :
    (m.fill name as).keys = m.keys ++ ((as.map name).removeAll m.keys).eraseDups := by
  rw [fill_eq_changeAll, keys_changeAll, List.filterMap_map]
  simp only [Function.comp_def, Change.key?, List.filterMap_eq_map']

/-- In a map that was filled the names stand where they came first. -/
lemma keys_fill_empty (as : List α) : (empty.fill name as).keys = (as.map name).eraseDups := by
  have all : (as.map name).removeAll (empty : OrderedMap α).keys = as.map name := by
    simp [List.removeAll, keys, empty]
  rw [keys_fill, all]
  rfl

/-- A filled map holds under a key the last value of this name, or else what it held there before. -/
lemma get?_fill (m : OrderedMap α) (as : List α) (key : String) :
    (m.fill name as).get? key = ((as.filter fun a => name a = key).getLast?).or (m.get? key) := by
  induction as using List.reverseRecOn with
  | nil => simp
  | append_singleton as a ih =>
    rw [fill_concat, get?_insert, ih, List.filter_append, List.getLast?_append]
    by_cases here : key = name a
    · simp [here]
    · simp [here, Ne.symm here]

end ModelScopes.OrderedMap
