import ModelScopes.Proofs.Codec.Repeats
import ModelScopes.Proofs.Model.Keys
import ModelScopes.Proofs.Spec.Content
import ModelScopes.Proofs.Text.Order
import ModelScopes.Registry

/-!
# Entries with the same key

An object that is taken for a map may list entries with the same key. The map is what inserting them in order makes of
it: each key stands where it came first, with the value that came last, as when the entries are added to a model one
after another. Settings have the text that came last for each name, in the order of the names in UTF-8. The main
statements are `Model.decode_of_lists` and `Registry.decode_of_lists`.
-/

namespace ModelScopes

variable {α : Type}

/-! ## Maps filled from pairs -/

/-- The value that comes last under a key. -/
def lastUnder (key : String) (es : List (String × α)) : Option α :=
  ((es.filter fun e => e.1 = key).getLast?).map Prod.snd

/-- An entry that comes last is the last one under its key. -/
lemma lastUnder_concat (key : String) (es : List (String × α)) (e : String × α) :
    lastUnder key (es ++ [e]) = if key = e.1 then some e.2 else lastUnder key es := by
  unfold lastUnder
  by_cases here : e.1 = key
  · simp [here]
  · simp [here, Ne.symm here]

/-- The map of these entries: each key stands where it came first, with the value that came last. -/
structure OrderedMap.Folds (m : OrderedMap α) (es : List (String × α)) : Prop where
  keys : m.keys = (es.map Prod.fst).eraseDups
  get? : ∀ key, m.get? key = lastUnder key es

/-- The settings of these entries: each name has the text that came last, and they are in the order of the names in
UTF-8. -/
structure Settings.Folds (s : Settings) (es : List (String × String)) : Prop where
  sorted : s.entries.Pairwise fun a b => Text.utf8 a.1 < Text.utf8 b.1
  get? : ∀ name, s.get? name = lastUnder name es

/-- A map that is filled in order has each key where it came first, with its last value. -/
lemma OrderedMap.folds_ofList (es : List (String × α)) : (ofList es).Folds es where
  keys := by
    have changes : ofList es = empty.changeAll (es.map fun e => .put e.1 e.2) := by
      rw [changeAll, List.foldl_map]
      rfl
    rw [changes, keys_changeAll, List.filterMap_map]
    simp [Function.comp_def, Change.key?, OrderedMap.keys, empty, List.removeAll]
  get? key := by
    induction es using List.reverseRecOn with
    | nil => rfl
    | append_singleton es e ih =>
      rw [lastUnder_concat, ← ih, ofList, List.foldl_append]
      exact get?_insert _ _ _ _

/-- Settings that are filled in order are sorted, each with its last text. -/
lemma Settings.folds_ofList (es : List (String × String)) : (ofList es).Folds es where
  sorted := (ofList es).sorted.imp Text.lt_iff_utf8_lt.mp
  get? name := by
    induction es using List.reverseRecOn with
    | nil => rfl
    | append_singleton es e ih =>
      rw [lastUnder_concat, ← ih, ofList, List.foldl_append]
      exact get?_insert _ _ _ _

/-- Bindings that come under their own names and roles make the model that adding them in order builds. -/
lemma Model.foldl_add (id : Uuid) (es : List Entity) (cs : List Collection) (is : List (String × String)) :
    is.foldl (fun m i => m.addImport i.1 i.2) (cs.foldl addCollection (es.foldl addEntity (empty id))) =
      ⟨id, .ofList (es.map fun e => (e.name, e)), .ofList (cs.map fun c => (c.role, c)), .ofList is⟩ := by
  have imports (m : Model) : is.foldl (fun m i => m.addImport i.1 i.2) m =
      { m with imports := is.foldl (fun m i => m.insert i.1 i.2) m.imports } := by
    induction is generalizing m with
    | nil => rfl
    | cons i rest ih => exact ih (m.addImport i.1 i.2)
  rw [imports, foldl_addCollection, foldl_addEntity]
  simp only [OrderedMap.ofList, List.foldl_map]
  rfl

/-! ## Maps and settings that are taken -/

namespace Codec

variable {c : Codec α} {frame : Frame} {d : Data} {ms : List (Option String × Data)}

/-- Entries are inserted one after another. -/
lemma decodeEntries_of_gives {es : List (String × α)} (gives : c.Gives frame ms es) (m : OrderedMap α) :
    c.decodeEntries frame m ms = .ok (es.foldl (fun m e => m.insert e.1 e.2) m) := by
  induction gives generalizing m with
  | nil => rfl
  | @cons member e _ _ first _ ih =>
    obtain ⟨key, d⟩ := member
    obtain ⟨rfl, taken⟩ := first
    rw [decodeEntries, taken]
    exact ih (m.insert e.1 e.2)

/-- A map is taken from the object of its entries, whatever keys these have. -/
lemma orderedMap_of_gives {es : List (String × α)} (found : d.members? = some ms) (gives : c.Gives frame.inner ms es) :
    (orderedMap c).decode frame d = .ok (.ofList es) := by
  simp only [orderedMap, found]
  exact decodeEntries_of_gives gives .empty

/-- Entries as they are written give themselves. -/
lemma gives_membersData (fa : c.Faithful) (frame : Frame) (es : List (String × α)) :
    c.Gives frame (Json.membersData (es.map fun e => (e.1, c.encode e.2))) es :=
  (forall₂_membersData (R := fun v d => c.decode frame d = .ok v) (fa frame) es).flip

/-- Texts are inserted one after another. -/
lemma decodeSettings_of_gives {es : List (String × String)} (gives : string.Gives frame ms es) (s : Settings) :
    decodeSettings frame s ms = .ok (es.foldl (fun s e => s.insert e.1 e.2) s) := by
  induction gives generalizing s with
  | nil => rfl
  | @cons member e _ _ first _ ih =>
    obtain ⟨key, d⟩ := member
    obtain ⟨rfl, taken⟩ := first
    rw [decodeSettings, taken]
    exact ih (s.insert e.1 e.2)

/-- Settings are taken from the object of their entries, whatever names these have. -/
lemma settings_of_gives {es : List (String × String)} (found : d.members? = some ms)
    (gives : string.Gives frame.inner ms es) : settings.decode frame d = .ok (.ofList es) := by
  simp only [settings, found]
  exact decodeSettings_of_gives gives .empty

/-- What is taken from data is taken from its spellings, which leave nothing behind. -/
lemma ofJson_of_decode {text : String} (spelling : Json.Spelling d text) :
    c.ofJson text = finish true (c.decode (.top .json) d) := by
  obtain ⟨r, read, clean, -⟩ := spelling.read
  simp only [ofJson, read, clean]

end Codec

/-! ## Models and registries that are taken -/

section Records

variable {β γ : Type} {sh : Shape α} {frame : Frame} {v : α} {d : Data} {c : Codec β} {name : String} {get : α → β}
  {put : β → α → α}

/-- What is stored in the field leaves something of the record as it is. -/
def Field.Keeps (f : Field α) (get : α → γ) : Prop :=
  ∀ frame d w w', f.store frame d w = .ok w' → get w' = get w

/-- A needed field leaves alone what its way to put a value leaves alone. -/
lemma Field.keeps_needed {get' : α → γ} (kept : ∀ x w, get' (put x w) = get' w) :
    (Field.needed name c get put).Keeps get' := by
  intro frame d w w' stored
  obtain ⟨x, -, rfl⟩ := Shape.store_needed.mp stored
  exact kept x w

/-- A record that is taken from whole data is taken from each of its spellings. -/
lemma Shape.ofJson_of_decode {text : String} (spelling : Json.Spelling d text)
    (taken : d.isWhole → sh.decode (.top .json) d = .ok v) : sh.codec.ofJson text = .ok v := by
  obtain ⟨-, -, -, whole⟩ := spelling.read
  rw [Codec.ofJson_of_decode spelling]
  exact congrArg (Codec.finish true) (taken whole)

/-- A record that is taken from written data is taken from its text. -/
lemma Shape.ofJson_text_of_decode {j : Json} (taken : j.toData.isWhole → sh.decode (.top .json) j.toData = .ok v) :
    sh.codec.ofJson j.text = .ok v := by
  rw [Codec.ofJson_text]
  exact congrArg (Codec.finish true) (taken j.whole_toData)

/-- What data gives for the field of a name is taken for a value. -/
def Shape.Gets (sh : Shape α) (frame : Frame) (d : Data) (name : String) (c : Codec β) (b : β) : Prop :=
  ∃ x, sh.given? name d = some x ∧ c.decode frame.inner x = .ok b

/-- Only one value is given for a field. -/
lemma Shape.Gets.unique {b b' : β} (ge : sh.Gets frame d name c b) (ge' : sh.Gets frame d name c b') : b = b' := by
  obtain ⟨x, given, taken⟩ := ge
  obtain ⟨x', given', taken'⟩ := ge'
  rw [given] at given'
  cases given'
  rw [taken] at taken'
  exact Except.ok.inj taken'

/-- What is given for a needed field can be stored. -/
lemma Shape.Gets.stores {b : β} (ge : sh.Gets frame d name c b) {x : Data} (given : sh.given? name d = some x) (w : α) :
    ∃ w', (Field.needed name c get put).store frame.inner x w = .ok w' := by
  obtain ⟨x', given', taken⟩ := ge
  rw [given] at given'
  cases given'
  exact ⟨_, Shape.store_needed.mpr ⟨b, taken, rfl⟩⟩

/-- A needed field of a record that is taken is what was given for it. -/
lemma Shape.gets_of_decode (nodup : (sh.fields.map Field.name).Nodup) (closed : sh.openEnded = false)
    (h : sh.decode frame d = .ok v) {i : Nat} (here : sh.fields[i]? = some (.needed name c get put))
    (get_put : ∀ x w, get (put x w) = x) (others : ∀ g ∈ sh.fields, g.name ≠ name → g.Keeps get) :
    sh.Gets frame d name c (get v) :=
  (Puts.needed (List.mem_of_getElem? here) get_put fun g gmem ne => others g gmem ne frame.inner).decode nodup closed h

end Records

namespace Model

variable {d : Data} {id : Uuid} {es : List (String × Entity)} {cs : List (String × Collection)}
  {is : List (String × String)}

/-- The data gives each field of a model once, and lists these entries in them. -/
structure Lists (d : Data) (id : Uuid) (es : List (String × Entity)) (cs : List (String × Collection))
    (is : List (String × String)) : Prop where
  once : shape.GivenOnce d
  id : shape.Gets (.top .json) d "id" .uuid id
  entities : GivesEntries d "entity_bindings" Entity.shape.codec es
  collections : GivesEntries d "collection_bindings" Collection.shape.codec cs
  imports : GivesEntries d "imports" .string is

/-- Listed entries are taken for the map that they fill. -/
lemma GivesEntries.gets {c : Codec α} {name : String} {es : List (String × α)} (gi : GivesEntries d name c es) :
    shape.Gets (.top .json) d name (.orderedMap c) (.ofList es) := by
  obtain ⟨part, members, given, found, gives⟩ := gi
  exact ⟨part, given, Codec.orderedMap_of_gives found gives⟩

/-- Each field of a model that is taken is what the data gives for it. -/
lemma gets_of_decode {frame : Frame} {m : Model} (h : shape.decode frame d = .ok m) :
    shape.Gets frame d "id" .uuid m.id ∧
      shape.Gets frame d "entity_bindings" (.orderedMap Entity.shape.codec) m.entities ∧
      shape.Gets frame d "collection_bindings" (.orderedMap Collection.shape.codec) m.collections ∧
      shape.Gets frame d "imports" (.orderedMap .string) m.imports := by
  have nodup : (shape.fields.map Field.name).Nodup := by decide
  refine ⟨Shape.gets_of_decode nodup rfl h (i := 0) rfl (fun _ _ => rfl) ?_,
    Shape.gets_of_decode nodup rfl h (i := 1) rfl (fun _ _ => rfl) ?_,
    Shape.gets_of_decode nodup rfl h (i := 2) rfl (fun _ _ => rfl) ?_,
    Shape.gets_of_decode nodup rfl h (i := 3) rfl (fun _ _ => rfl) ?_⟩
  all_goals
    simp only [shape, List.forall_mem_cons]
    refine ⟨?_, ?_, ?_, ?_, List.forall_mem_nil _⟩ <;>
      first | exact fun ne => absurd rfl ne | exact fun _ => Field.keeps_needed fun _ _ => rfl

/-- A model is taken from data that lists its parts: each map is filled with the entries in order. -/
lemma decode_of_lists (li : Lists d id es cs is) (whole : d.isWhole) :
    shape.decode (.top .json) d = .ok ⟨id, .ofList es, .ofList cs, .ofList is⟩ := by
  have stores : ∀ f ∈ shape.fields, ∀ x, shape.given? f.name d = some x →
      ∀ w, ∃ w', f.store (Frame.top .json).inner x w = .ok w' := by
    simp only [shape, List.forall_mem_cons]
    exact ⟨fun _ => li.id.stores, fun _ => li.entities.gets.stores, fun _ => li.collections.gets.stores,
      fun _ => li.imports.gets.stores, List.forall_mem_nil _⟩
  obtain ⟨m, taken⟩ := Shape.exists_of_givenOnce (by decide) li.once whole stores
  obtain ⟨id', entities, collections, imports⟩ := gets_of_decode taken
  rw [taken, li.id.unique id', li.entities.gets.unique entities, li.collections.gets.unique collections,
    li.imports.gets.unique imports]

/-- The object that lists these entries in order. -/
def listing (id : Uuid) (es : List (String × Entity)) (cs : List (String × Collection)) (is : List (String × String)) :
    Json :=
  .record
    [("id", Codec.uuid.encode id), ("entity_bindings", .record (es.map fun e => (e.1, Entity.shape.codec.encode e.2))),
     ("collection_bindings", .record (cs.map fun c => (c.1, Collection.shape.codec.encode c.2))),
     ("imports", .record (is.map fun i => (i.1, Codec.string.encode i.2)))]

/-- It does so whatever keys the entries have. -/
lemma lists_listing (id : Uuid) (es : List (String × Entity)) (cs : List (String × Collection))
    (is : List (String × String)) : Lists (listing id es cs is).toData id es cs is where
  once := ⟨by simp [Data.Keyed, Json.membersData], by
    simp only [shape, List.forall_mem_cons]
    exact ⟨rfl, rfl, rfl, rfl, List.forall_mem_nil _⟩⟩
  id := ⟨_, rfl, Codec.uuid_faithful _ id⟩
  entities := ⟨_, _, rfl, rfl, Codec.gives_membersData Entity.faithful _ es⟩
  collections := ⟨_, _, rfl, rfl, Codec.gives_membersData Collection.faithful _ cs⟩
  imports := ⟨_, _, rfl, rfl, Codec.gives_membersData Codec.string_faithful _ is⟩

end Model

namespace Registry

variable {d : Data} {id : Uuid} {es : List (String × String)}

/-- The data gives both fields of a registry once, and lists these settings. -/
structure Lists (d : Data) (id : Uuid) (es : List (String × String)) : Prop where
  once : shape.GivenOnce d
  id : shape.Gets (.top .json) d "id" .uuid id
  settings : ∃ part members, shape.given? "settings" d = some part ∧ part.members? = some members ∧
    Codec.string.Gives (Frame.top .json).inner.inner members es

/-- Listed texts are taken for the settings that they fill. -/
lemma Lists.gets (li : Lists d id es) : shape.Gets (.top .json) d "settings" .settings (.ofList es) := by
  obtain ⟨part, members, given, found, gives⟩ := li.settings
  exact ⟨part, given, Codec.settings_of_gives found gives⟩

/-- Both fields of a registry that is taken are what the data gives for them. -/
lemma gets_of_decode {frame : Frame} {r : Registry} (h : shape.decode frame d = .ok r) :
    shape.Gets frame d "id" .uuid r.id ∧ shape.Gets frame d "settings" .settings r.settings := by
  have nodup : (shape.fields.map Field.name).Nodup := by decide
  refine ⟨Shape.gets_of_decode nodup rfl h (i := 0) rfl (fun _ _ => rfl) ?_,
    Shape.gets_of_decode nodup rfl h (i := 1) rfl (fun _ _ => rfl) ?_⟩
  all_goals
    simp only [shape, List.forall_mem_cons]
    refine ⟨?_, ?_, List.forall_mem_nil _⟩ <;>
      first | exact fun ne => absurd rfl ne | exact fun _ => Field.keeps_needed fun _ _ => rfl

/-- A registry is taken from data that lists its settings, with the last text of each name. -/
lemma decode_of_lists (li : Lists d id es) (whole : d.isWhole) :
    shape.decode (.top .json) d = .ok ⟨id, .ofList es⟩ := by
  have stores : ∀ f ∈ shape.fields, ∀ x, shape.given? f.name d = some x →
      ∀ w, ∃ w', f.store (Frame.top .json).inner x w = .ok w' := by
    simp only [shape, List.forall_mem_cons]
    exact ⟨fun _ => li.id.stores, fun _ => li.gets.stores, List.forall_mem_nil _⟩
  obtain ⟨r, taken⟩ := Shape.exists_of_givenOnce (by decide) li.once whole stores
  obtain ⟨id', settings⟩ := gets_of_decode taken
  rw [taken, li.id.unique id', li.gets.unique settings]

/-- The object that lists these settings in order. -/
def listing (id : Uuid) (es : List (String × String)) : Json :=
  .record
    [("id", Codec.uuid.encode id), ("settings", .record (es.map fun e => (e.1, Codec.string.encode e.2)))]

/-- It does so whatever names the settings have. -/
lemma lists_listing (id : Uuid) (es : List (String × String)) : Lists (listing id es).toData id es where
  once := ⟨by simp [Data.Keyed, Json.membersData], by
    simp only [shape, List.forall_mem_cons]
    exact ⟨rfl, rfl, List.forall_mem_nil _⟩⟩
  id := ⟨_, rfl, Codec.uuid_faithful _ id⟩
  settings := ⟨_, _, rfl, rfl, Codec.gives_membersData Codec.string_faithful _ es⟩

end Registry

end ModelScopes
