import Mathlib.Data.List.Induction
import ModelScopes.Proofs.Codec.Parts
import ModelScopes.Proofs.Map.Changing
import ModelScopes.Proofs.Since

/-!
# Keys and names of bindings

A model stores an entity under its name and a collection under its role, as long as it is put together by additions. A
text chooses the keys and the bindings by itself. What a model promises of its bindings holds of a model that was taken
from a text just if the last binding under each key of the text has the key for its name (`Model.decoded_unique_iff`),
which nothing makes sure of (`Model.decoded_twice`).
-/

namespace ModelScopes

/-! ## Looking up in maps -/

namespace OrderedMap

variable {α : Type} {m : OrderedMap α} {key : String} {a : α}

/-- A map that is filled in order has under each key the last value that was inserted there. -/
lemma get?_ofList_eq_some_iff {es : List (String × α)} :
    (ofList es).get? key = some a ↔ Since (· = (key, a)) (fun e => e.1 = key) es := by
  induction es using List.reverseRecOn with
  | nil => simp [ofList, get?, empty]
  | append_singleton es e ih =>
    rw [since_concat, ← ih, ofList, List.foldl_append, ← ofList]
    simp only [List.foldl_cons, List.foldl_nil, get?_insert]
    by_cases here : key = e.1
    · subst here
      simp [Prod.ext_iff, eq_comm]
    · have other : e ≠ (key, a) := fun eq => here (by rw [eq])
      simp [here, Ne.symm here, other]

/-- Among keys that are all different a value is put in the place of its key, and nowhere else. -/
lemma put_of_mem {es : List (String × α)} (mem : key ∈ es.map Prod.fst) (nodup : (es.map Prod.fst).Nodup) :
    put key a es = es.map fun e => if e.1 = key then (key, a) else e := by
  induction es with
  | nil => cases mem
  | cons e rest ih =>
    rw [List.map_cons, List.nodup_cons] at nodup
    by_cases here : e.1 = key
    · have others : ∀ d ∈ rest, (if d.1 = key then (key, a) else d) = d := fun d hd =>
        if_neg fun same => nodup.1 (List.mem_map.mpr ⟨d, hd, same.trans here.symm⟩)
      rw [put, if_pos here, List.map_cons, if_pos here, List.map_congr_left others, List.map_id']
    · have later : key ∈ rest.map Prod.fst := (List.mem_cons.mp mem).resolve_left (Ne.symm here)
      rw [put, if_neg here, List.map_cons, if_neg here, ih later nodup.2]

end OrderedMap

/-! ## What a model promises -/

namespace Model

variable {m : Model}

/-- What a model promises of its bindings: each has a name of its own, is found by this name, and is replaced where it
stands by a binding of this name that is added later. -/
structure Unique (m : Model) : Prop where
  names : (m.entities.values.map Entity.name).Nodup
  roles : (m.collections.values.map Collection.role).Nodup
  entity : ∀ e ∈ m.entities.values, m.entity? e.name = some e
  collection : ∀ c ∈ m.collections.values, m.collection? c.role = some c
  addEntity : ∀ e ∈ m.entities.values, ∀ e', e'.name = e.name →
    (m.addEntity e').entities.values = m.entities.values.map fun d => if d.name = e'.name then e' else d
  addCollection : ∀ c ∈ m.collections.values, ∀ c', c'.role = c.role →
    (m.addCollection c').collections.values = m.collections.values.map fun d => if d.role = c'.role then c' else d

end Model

namespace OrderedMap

variable {α : Type} {m : OrderedMap α} {name : α → String}

/-- Every value stands under its own name. -/
def Named (m : OrderedMap α) (name : α → String) : Prop :=
  ∀ key a, m.get? key = some a → name a = key

/-- An entry stands under the name of its value. -/
lemma Named.entries (na : m.Named name) {e : String × α} (mem : e ∈ m.entries) : name e.2 = e.1 :=
  na e.1 e.2 (get?_eq_some_iff.mpr mem)

/-- The names of the values are the keys. -/
lemma Named.map_values (na : m.Named name) : m.values.map name = m.keys := by
  rw [values, keys, List.map_map]
  exact List.map_congr_left fun e mem => na.entries mem

/-- A value is found by its own name. -/
lemma Named.get? (na : m.Named name) {a : α} (mem : a ∈ m.values) : m.get? (name a) = some a := by
  obtain ⟨e, he, rfl⟩ := List.mem_map.mp mem
  rw [na.entries he]
  exact get?_eq_some_iff.mpr he

/-- A value that is inserted under a name that is there replaces the one of this name where it stands. -/
lemma Named.values_insert (na : m.Named name) {a b : α} (mem : a ∈ m.values) (same : name b = name a) :
    (m.insert (name b) b).values = m.values.map fun d => if name d = name b then b else d := by
  have key : name b ∈ m.entries.map Prod.fst := by
    rw [same]
    exact List.mem_map_of_mem (get?_eq_some_iff.mp (na.get? mem))
  have filled : (m.insert (name b) b).entries = m.entries.map fun e => if e.1 = name b then (name b, b) else e :=
    put_of_mem key m.nodup
  rw [values, filled, values, List.map_map, List.map_map]
  refine List.map_congr_left fun e he => ?_
  simp only [Function.comp_apply, na.entries he]
  split <;> rfl

/-- Values that have names of their own and are found by them stand under them. -/
lemma named_of_unique (names : (m.values.map name).Nodup) (found : ∀ a ∈ m.values, m.get? (name a) = some a) :
    m.Named name := by
  intro key a h
  have here : (key, a) ∈ m.entries := get?_eq_some_iff.mp h
  have there : (name a, a) ∈ m.entries := get?_eq_some_iff.mp (found a (List.mem_map_of_mem here))
  rw [values, List.map_map] at names
  have same := List.inj_on_of_nodup_map names here there rfl
  exact (congrArg Prod.fst same).symm

end OrderedMap

namespace Model

variable {m : Model}

/-- A model keeps its promises just if every binding stands under its own name or role. -/
lemma unique_iff : m.Unique ↔ m.entities.Named Entity.name ∧ m.collections.Named Collection.role := by
  refine ⟨fun un => ?_, fun ⟨en, co⟩ => ⟨?_, ?_, ?_, ?_, ?_, ?_⟩⟩
  · exact ⟨OrderedMap.named_of_unique un.names un.entity, OrderedMap.named_of_unique un.roles un.collection⟩
  · rw [en.map_values]; exact m.entities.nodup
  · rw [co.map_values]; exact m.collections.nodup
  · exact fun e mem => en.get? mem
  · exact fun c mem => co.get? mem
  · exact fun e mem e' same => en.values_insert mem same
  · exact fun c mem c' same => co.values_insert mem same

/-! ## Models that were taken from texts -/

/-- The part of data that gives a field is an object of these entries, in order. -/
def GivesEntries {α : Type} (d : Data) (field : String) (c : Codec α) (es : List (String × α)) : Prop :=
  ∃ part members, shape.given? field d = some part ∧ part.members? = some members ∧
    c.Gives (Frame.top .json).inner.inner members es

/-- The entities of a model that was taken from data are the entries of the data, filled in in order. -/
lemma entities_of_decode {d : Data} (h : shape.decode (.top .json) d = .ok m) :
    ∃ es, GivesEntries d "entity_bindings" Entity.shape.codec es ∧ m.entities = .ofList es := by
  have listed : Field.needed "entity_bindings" (.orderedMap Entity.shape.codec) (·.entities)
      (fun x m => { m with entities := x }) ∈ shape.fields := by simp [shape]
  have others : ∀ g ∈ shape.fields, g.name ≠ "entity_bindings" → ∀ d w w',
      g.store (Frame.top .json).inner d w = .ok w' → w'.entities = w.entities := by
    simp only [shape, List.forall_mem_cons]
    refine ⟨?_, fun ne => absurd rfl ne, ?_, ?_, nofun⟩ <;>
    · intro _ d w w' stored
      obtain ⟨x, -, rfl⟩ := Shape.store_needed.mp stored
      rfl
  obtain ⟨part, given, taken⟩ := (Shape.Puts.needed listed (fun _ _ => rfl) others).decode (by decide) rfl h
  obtain ⟨members, es, found, gives, eq⟩ := Codec.gives_of_orderedMap taken
  exact ⟨es, ⟨part, members, given, found, gives⟩, eq⟩

/-- The collections of a model that was taken from data are the entries of the data, filled in in order. -/
lemma collections_of_decode {d : Data} (h : shape.decode (.top .json) d = .ok m) :
    ∃ cs, GivesEntries d "collection_bindings" Collection.shape.codec cs ∧ m.collections = .ofList cs := by
  have listed : Field.needed "collection_bindings" (.orderedMap Collection.shape.codec) (·.collections)
      (fun x m => { m with collections := x }) ∈ shape.fields := by simp [shape]
  have others : ∀ g ∈ shape.fields, g.name ≠ "collection_bindings" → ∀ d w w',
      g.store (Frame.top .json).inner d w = .ok w' → w'.collections = w.collections := by
    simp only [shape, List.forall_mem_cons]
    refine ⟨?_, ?_, fun ne => absurd rfl ne, ?_, nofun⟩ <;>
    · intro _ d w w' stored
      obtain ⟨x, -, rfl⟩ := Shape.store_needed.mp stored
      rfl
  obtain ⟨part, given, taken⟩ := (Shape.Puts.needed listed (fun _ _ => rfl) others).decode (by decide) rfl h
  obtain ⟨members, cs, found, gives, eq⟩ := Codec.gives_of_orderedMap taken
  exact ⟨cs, ⟨part, members, given, found, gives⟩, eq⟩

/-- The bindings of a model that was taken from a text are those that the text gives, and the model keeps its promises
just if the last binding that the text gives under each key has the key for its name or role. -/
theorem decoded_unique_iff {text : String} (h : shape.codec.ofJson text = .ok m) :
    ∃ (es : List (String × Entity)) (cs : List (String × Collection)),
      GivesEntries (Json.read text.toList).1 "entity_bindings" Entity.shape.codec es ∧
      GivesEntries (Json.read text.toList).1 "collection_bindings" Collection.shape.codec cs ∧
      m.entities = .ofList es ∧ m.collections = .ofList cs ∧
      (m.Unique ↔
        (∀ key e, Since (· = (key, e)) (fun entry => entry.1 = key) es → e.name = key) ∧
        ∀ key c, Since (· = (key, c)) (fun entry => entry.1 = key) cs → c.role = key) := by
  have taken : shape.decode (.top .json) (Json.read text.toList).1 = .ok m := Codec.decode_of_ofJson h
  obtain ⟨es, gives, entities⟩ := entities_of_decode taken
  obtain ⟨cs, gives', collections⟩ := collections_of_decode taken
  refine ⟨es, cs, gives, gives', entities, collections, ?_⟩
  rw [unique_iff, entities, collections]
  simp only [OrderedMap.Named, OrderedMap.get?_ofList_eq_some_iff]

/-- The one entity of this model stands under a key of the text that also has an entity of another name, which comes
first. -/
theorem decoded_unique_iff_overridden :
    let text := "\x7b\"id\":\"67e55044-10b1-426f-9247-bb680e5fe0c8\",\"imports\":\x7b\x7d," ++
      "\"collection_bindings\":\x7b\x7d,\"entity_bindings\":\x7b" ++
      "\"A\":\x7b\"entity_name\":\"B\",\"properties\":[],\"cached\":true\x7d," ++
      "\"A\":\x7b\"entity_name\":\"A\",\"properties\":[],\"cached\":false\x7d\x7d\x7d"
    let m : Model := (empty ⟨[6, 7, 14, 5, 5, 0, 4, 4, 1, 0, 11, 1, 4, 2, 6, 15, 9, 2, 4, 7, 11, 11, 6, 8, 0, 14, 5, 15,
      14, 0, 12, 8], rfl⟩).addEntity (.root "A" [])
    shape.codec.ofJson text = .ok m ∧ m.Unique ∧
      ∃ es, GivesEntries (Json.read text.toList).1 "entity_bindings" Entity.shape.codec es ∧ m.entities = .ofList es ∧
        ∀ key e, Since (· = (key, e)) (fun entry => entry.1 = key) es → e.name = key := by
  intro text m
  have taken : shape.codec.ofJson text = .ok m := by decide +kernel
  have unique : m.Unique := by
    refine unique_iff.mpr ⟨fun key e h => ?_, nofun⟩
    obtain ⟨rfl, rfl⟩ : key = "A" ∧ e = .root "A" [] := by
      simpa [m, addEntity, OrderedMap.insert, OrderedMap.put, empty, OrderedMap.empty, Entity.root] using
        OrderedMap.get?_eq_some_iff.mp h
    rfl
  obtain ⟨es, _, gives, -, entities, -, un⟩ := decoded_unique_iff taken
  exact ⟨taken, unique, es, gives, entities, (un.mp unique).1⟩

/-- A text whose one entity stands under another key than its name: it is not found by its name, and an entity of its
name that is added later comes to stand beside it. -/
theorem decoded_twice :
    let text := "\x7b\"id\":\"67e55044-10b1-426f-9247-bb680e5fe0c8\",\"entity_bindings\":\x7b" ++
      "\"B\":\x7b\"entity_name\":\"A\",\"properties\":[],\"cached\":false\x7d\x7d," ++
      "\"collection_bindings\":\x7b\x7d,\"imports\":\x7b\x7d\x7d"
    ∃ m, shape.codec.ofJson text = .ok m ∧ m.entities.values = [.root "A" []] ∧ m.entity? "A" = none ∧
      (m.addEntity (.root "A" [])).entities.values = [.root "A" [], .root "A" []] ∧ ¬ m.Unique := by
  intro text
  let m : Model := { empty ⟨[6, 7, 14, 5, 5, 0, 4, 4, 1, 0, 11, 1, 4, 2, 6, 15, 9, 2, 4, 7, 11, 11, 6, 8, 0, 14, 5, 15,
    14, 0, 12, 8], rfl⟩ with entities := OrderedMap.empty.insert "B" (.root "A" []) }
  have lost : m.entity? "A" = none := by decide +kernel
  refine ⟨m, by decide +kernel, by decide +kernel, lost, by decide +kernel, fun unique => ?_⟩
  have found := unique.entity (.root "A" []) (by decide +kernel)
  exact absurd (lost.symm.trans found) nofun

end Model

end ModelScopes
