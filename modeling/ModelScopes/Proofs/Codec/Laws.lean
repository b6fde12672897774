import Mathlib.Data.List.Forall2
import Mathlib.Tactic.Common
import ModelScopes.Codec.Record
import ModelScopes.Proofs.Json.RoundTrip

/-!
# Codecs that take back what they write

A codec is faithful if it takes from the data of what it writes the value that was written. Each way to make a codec
from others keeps this. A record is taken back field by field: `Refills` says what each field puts into the record
that is being filled. The main statements are `Codec.Faithful.restores`, which goes from data to texts, and
`Shape.faithful`.
-/

namespace ModelScopes

/-! ## Maps filled in order -/

namespace OrderedMap

variable {α : Type} {m m' : OrderedMap α} {e : String × α} {rest : List (String × α)}

/-- A map is its entries. -/
lemma eq_of_entries (h : m.entries = m'.entries) : m = m' := by
  cases m
  cases m'
  cases h
  rfl

/-- A new key is put behind the others. -/
lemma put_of_not_mem {key : String} (value : α) {es : List (String × α)} (new : key ∉ es.map Prod.fst) :
    put key value es = es ++ [(key, value)] := by
  induction es with
  | nil => rfl
  | cons e rest ih =>
    rw [List.map_cons, List.mem_cons, not_or] at new
    rw [put, if_neg (Ne.symm new.1), ih new.2, List.cons_append]

/-- An entry that comes next in a map is put behind those before it. -/
lemma entries_insert_next (h : m'.entries = m.entries ++ e :: rest) :
    (m.insert e.1 e.2).entries = m.entries ++ [e] := by
  apply put_of_not_mem
  have nodup := m'.nodup
  rw [h, List.map_append, List.map_cons, List.nodup_append] at nodup
  intro old
  exact nodup.2.2 e.1 old e.1 (List.mem_cons_self ..) rfl

end OrderedMap

namespace Settings

variable {s s' : Settings} {e : String × String} {rest : List (String × String)}

/-- Settings are their entries. -/
lemma eq_of_entries (h : s.entries = s'.entries) : s = s' := by
  cases s
  cases s'
  cases h
  rfl

/-- A name that comes after all others is put behind them. -/
lemma put_of_lt {name : String} (value : String) {es : List (String × String)} (last : ∀ e ∈ es, e.1 < name) :
    put name value es = es ++ [(name, value)] := by
  induction es with
  | nil => rfl
  | cons e rest ih =>
    have ⟨first, others⟩ := List.forall_mem_cons.mp last
    rw [put, if_pos first, ih others, List.cons_append]

/-- A setting that comes next is put behind those before it. -/
lemma entries_insert_next (h : s'.entries = s.entries ++ e :: rest) :
    (s.insert e.1 e.2).entries = s.entries ++ [e] := by
  apply put_of_lt
  have sorted := s'.sorted
  rw [h, List.pairwise_append] at sorted
  intro d old
  exact sorted.2.2 d old e (List.mem_cons_self ..)

end Settings

/-! ## Uuids -/

namespace Uuid

/-- A list of length four has four items. -/
lemma eq_four_of_length {β : Type} : ∀ {l : List β}, l.length = 4 → ∃ a b c d, l = [a, b, c, d]
  | [a, b, c, d], _ => ⟨a, b, c, d, rfl⟩

/-- Hyphens between the groups are taken out. -/
lemma ofGroups?_groups {g₀ g₁ g₂ g₃ g₄ : List Char} (h₀ : g₀.length = 8) (h₁ : g₁.length = 4) (h₂ : g₂.length = 4)
    (h₃ : g₃.length = 4) :
    ofGroups? (g₀ ++ '-' :: g₁ ++ '-' :: g₂ ++ '-' :: g₃ ++ '-' :: g₄) = ofDigits? (g₀ ++ g₁ ++ g₂ ++ g₃ ++ g₄) := by
  obtain ⟨a, b, c, d, start⟩ := eq_four_of_length (l := g₀.take 4) (by rw [List.length_take, h₀]; rfl)
  obtain ⟨a', b', c', d', stop⟩ := eq_four_of_length (l := g₀.drop 4) (by rw [List.length_drop, h₀])
  obtain rfl : g₀ = [a, b, c, d] ++ [a', b', c', d'] := by rw [← start, ← stop, List.take_append_drop]
  obtain ⟨_, _, _, _, rfl⟩ := eq_four_of_length h₁
  obtain ⟨_, _, _, _, rfl⟩ := eq_four_of_length h₂
  obtain ⟨_, _, _, _, rfl⟩ := eq_four_of_length h₃
  rfl

/-- The text of a uuid reads back. -/
lemma ofText?_text (u : Uuid) : ofText? u.text = some u := by
  have length : (u.digits.map Text.Hex.toChar).length = 32 := by rw [List.length_map, u.length_eq]
  have groups : ofGroups? u.chars = some u := by
    rw [chars, ofGroups?_groups (by simp [length]) (by simp [length]) (by simp [length]) (by simp [length])]
    rw [← List.take_add, ← List.take_add, ← List.take_add, List.take_append_drop]
    exact u.ofDigits?_map_toChar
  have count : u.chars.length = 36 := by simp [chars, u.length_eq]
  rw [ofText?, text, String.toList_ofList, ofChars?, count]
  exact groups

end Uuid

/-! ## Codecs -/

namespace Codec

variable {α β : Type} {c : Codec α}

/-- What the codec writes is taken back as it was, wherever it stands. -/
def Faithful (c : Codec α) : Prop :=
  ∀ frame v, c.decode frame (c.encode v).toData = .ok v

/-- The text that the codec writes for a value gives the same value back. -/
def Restores (c : Codec α) : Prop :=
  ∀ v, c.ofJson (c.text v) = .ok v

/-- What a codec takes from a text that was written is what it takes from the data that was written. -/
lemma ofJson_text (c : Codec α) (j : Json) : c.ofJson j.text = finish true (c.decode (.top .json) j.toData) := by
  rw [ofJson, Json.read_text]
  rfl

/-- A faithful codec restores values from their texts. -/
theorem Faithful.restores (fa : c.Faithful) : c.Restores := by
  intro v
  rw [text, ofJson_text, fa]
  rfl

/-- Texts are taken back as they were. -/
lemma string_faithful : string.Faithful := fun _ _ => rfl

/-- Truth values are taken back as they were. -/
lemma bool_faithful : bool.Faithful := fun _ _ => rfl

/-- Identities are taken back as they were. -/
lemma uuid_faithful : uuid.Faithful := by
  intro frame u
  simp [uuid, Json.toData, Uuid.ofText?_text]

/-- A value that may be absent is taken back if no value is written as nothing. -/
lemma Faithful.option (fa : c.Faithful) (some_ne : ∀ v, (c.encode v).toData ≠ .null) : (Codec.option c).Faithful := by
  intro frame v
  cases v with
  | none => rfl
  | some v =>
    show (Codec.option c).decode frame (c.encode v).toData = .ok (some v)
    unfold Codec.option
    simp only
    split
    · rename_i eq
      exact absurd eq (some_ne v)
    · rw [fa]
      rfl

/-- Wrapping a value keeps its codec faithful. -/
lemma Faithful.imap {wrap : α → β} {unwrap : β → α} (fa : c.Faithful) (inverse : ∀ v, wrap (unwrap v) = v) :
    (c.imap wrap unwrap).Faithful := by
  intro frame v
  simp [Codec.imap, fa frame, Except.map, inverse]

/-- An enumeration is faithful if each variant is found by its name. -/
lemma enumeration_faithful {table : List (String × α)} {name : α → String}
    (named : ∀ v, variantNamed table (name v) = .ok v) : (enumeration table name).Faithful :=
  fun _ v => named v

/-- Items that are taken one by one are taken. -/
lemma decodeItems_of_forall₂ {frame : Frame} {vs : List α} {ds : List Data}
    (h : List.Forall₂ (fun v d => c.decode frame d = .ok v) vs ds) : c.decodeItems frame ds = .ok vs := by
  induction h with
  | nil => rfl
  | cons first _ ih =>
    rw [decodeItems, first, ih]
    rfl

/-- What is so of all data that is written is so of items as they are written. -/
lemma forall₂_itemsData {R : α → Data → Prop} (written : ∀ v, R v (c.encode v).toData) (vs : List α) :
    List.Forall₂ R vs (Json.itemsData (vs.map c.encode)) := by
  induction vs with
  | nil => exact .nil
  | cons v vs ih => exact .cons (written v) ih

/-- Lists of what is taken back are taken back. -/
lemma Faithful.list (fa : c.Faithful) : (Codec.list c).Faithful := by
  intro frame vs
  have items := forall₂_itemsData (R := fun v d => c.decode frame.inner d = .ok v) (fa frame.inner) vs
  exact decodeItems_of_forall₂ items

/-- Entries that are taken in order fill the map that they are given for. -/
lemma decodeEntries_of_forall₂ {frame : Frame} {m m' : OrderedMap α} {es : List (String × α)}
    {ms : List (Option String × Data)}
    (h : List.Forall₂ (fun e x => x.1 = some e.1 ∧ c.decode frame x.2 = .ok e.2) es ms)
    (split : m'.entries = m.entries ++ es) : c.decodeEntries frame m ms = .ok m' := by
  induction h generalizing m with
  | nil =>
    rw [List.append_nil] at split
    rw [OrderedMap.eq_of_entries split]
    rfl
  | @cons e member es ms first _ ih =>
    obtain ⟨key, d⟩ := member
    obtain ⟨rfl, taken⟩ := first
    have next : m'.entries = (m.insert e.1 e.2).entries ++ es := by
      rw [OrderedMap.entries_insert_next split, split, List.append_assoc]
      rfl
    rw [decodeEntries, taken]
    exact ih next

/-- What is so of all data that is written is so of entries as they are written. -/
lemma forall₂_membersData {R : α → Data → Prop} (written : ∀ v, R v (c.encode v).toData) (es : List (String × α)) :
    List.Forall₂ (fun e x => x.1 = some e.1 ∧ R e.2 x.2) es
      (Json.membersData (es.map fun e => (e.1, c.encode e.2))) := by
  induction es with
  | nil => exact .nil
  | cons e es ih => exact .cons ⟨rfl, written e.2⟩ ih

/-- Maps of what is taken back are taken back, in their order. -/
lemma Faithful.orderedMap (fa : c.Faithful) : (Codec.orderedMap c).Faithful := by
  intro frame m
  have entries := forall₂_membersData (R := fun v d => c.decode frame.inner d = .ok v) (fa frame.inner) m.entries
  exact decodeEntries_of_forall₂ (m := .empty) entries rfl

/-- Entries that are written are inserted behind those before them. -/
lemma decodeSettings_encode (frame : Frame) {s s' : Settings} {es : List (String × String)}
    (h : s'.entries = s.entries ++ es) :
    decodeSettings frame s (Json.membersData (es.map fun e => (e.1, .string e.2))) = .ok s' := by
  induction es generalizing s with
  | nil =>
    rw [List.append_nil] at h
    rw [Settings.eq_of_entries h]
    rfl
  | cons e rest ih =>
    have next : s'.entries = (s.insert e.1 e.2).entries ++ rest := by
      rw [Settings.entries_insert_next h, h, List.append_assoc]
      rfl
    exact ih next

/-- Settings are taken back as they were. -/
lemma settings_faithful : settings.Faithful :=
  fun frame _ => decodeSettings_encode frame.inner (s := .empty) rfl

end Codec

/-! ## Records -/

namespace Shape

variable {α β : Type} {sh : Shape α} {v w : α} {fs : List (Field α)}

/-- The fields, each taken in turn from what it writes for `v`, complete a record to `v`. -/
inductive Refills (v : α) : List (Field α) → α → Prop where
  | nil : Refills v [] v
  | cons {f : Field α} {fs : List (Field α)} {w w' : α} :
    (∀ frame, f.store frame (f.encode v).toData w = .ok w') →
    Refills v fs w' →
    Refills v (f :: fs) w

/-- A needed field refills its part of the record. -/
lemma Refills.needed {c : Codec β} {name : String} {get : α → β} {put : β → α → α} (fa : c.Faithful)
    (re : Refills v fs (put (get v) w)) : Refills v (.needed name c get put :: fs) w := by
  refine .cons (fun frame => ?_) re
  simp [Field.needed, fa frame, Except.map]

/-- A field that may be left out refills its part of the record. -/
lemma Refills.optional {c : Codec β} {name : String} {get : α → β} {put : β → α → α} (fa : c.Faithful)
    (re : Refills v fs (put (get v) w)) : Refills v (.optional name c get put :: fs) w := by
  refine .cons (fun frame => ?_) re
  simp [Field.optional, Field.needed, fa frame, Except.map]

/-- A record all of whose fields were seen is complete. -/
lemma complete_of_all (sh : Shape α) (v : α) : sh.complete (sh.fields.map Field.name).reverse v = .ok v := by
  have none_missing : sh.fields.find? (fun f => f.required && !(sh.fields.map Field.name).reverse.contains f.name) =
      none := by
    rw [List.find?_eq_none]
    intro f hf
    have given : (sh.fields.map Field.name).reverse.contains f.name = true :=
      List.contains_iff_mem.mpr (List.mem_reverse.mpr (List.mem_map_of_mem hf))
    rw [given, Bool.not_true, Bool.and_false]
    exact Bool.false_ne_true
  rw [complete, none_missing]

/-- A field is found by its name, which no field before it has. -/
lemma field?_of_split {fs gs : List (Field α)} {f : Field α} (split : sh.fields = fs ++ f :: gs)
    (nodup : (sh.fields.map Field.name).Nodup) : sh.field? f.name = some f ∧ f.name ∉ fs.map Field.name := by
  rw [split, List.map_append, List.map_cons, List.nodup_append] at nodup
  have new : f.name ∉ fs.map Field.name := fun old => nodup.2.2 _ old _ (List.mem_cons_self ..) rfl
  refine ⟨?_, new⟩
  have others : fs.find? (fun g => g.name == f.name) = none := by
    rw [List.find?_eq_none]
    intro g hg eq
    exact new (List.mem_map.mpr ⟨g, hg, eq_of_beq eq⟩)
  rw [field?, split, List.find?_append, others, List.find?_cons, beq_self_eq_true]
  rfl

/-- The fields that are left are taken in order, behind those that were given already. -/
lemma decodeMembers_encode (nodup : (sh.fields.map Field.name).Nodup) (frame : Frame) (re : Refills v fs w) :
    ∀ given, sh.fields = given ++ fs →
      sh.decodeMembers frame (given.map Field.name).reverse w
        (Json.membersData (fs.map fun f => (f.name, f.encode v))) = .ok v := by
  induction re with
  | nil =>
    intro given all
    rw [List.append_nil] at all
    subst all
    exact complete_of_all sh v
  | @cons f fs w w' taken _ ih =>
    intro given split
    obtain ⟨found, new⟩ := field?_of_split split nodup
    have next := ih (given ++ [f]) (by rw [split, List.append_assoc]; rfl)
    rw [List.map_append, List.reverse_append] at next
    have unseen : (given.map Field.name).reverse.contains f.name = false := by simpa using new
    rw [List.map_cons, Json.membersData, decodeMembers, found]
    simp only [unseen, taken frame]
    exact next

/-- A record type is faithful if its fields have names of their own and complete the blank record. -/
theorem faithful (nodup : (sh.fields.map Field.name).Nodup) (re : ∀ v, Refills v sh.fields sh.blank) :
    sh.codec.Faithful :=
  fun frame v => decodeMembers_encode nodup frame.inner (re v) [] rfl

end Shape

end ModelScopes
