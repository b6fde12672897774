import Mathlib.Data.List.Forall2
import Mathlib.Data.List.Nodup
import Mathlib.Data.List.Pairwise
import Mathlib.Tactic.Common
import ModelScopes.Proofs.Codec.Laws

/-!
# Layouts of values

The same value can be given by different data: an object may have its members in any order, members that no field knows
besides, and some fields left out. A `Layout` says which data gives a value in full, and which would but for required
fields that are left out of one of its objects. A codec `Fits` a layout if it takes the value from the former and
reports the first missing field of the latter. Each way to make a codec from others keeps this; the main statement
about records is `Shape.fits`.
-/

namespace ModelScopes

/-! ## Layouts -/

namespace Data

mutual

/-- The number of containers inside one another. -/
def nesting : Data → Nat
  | .list items => itemsNesting items + 1
  | .record members => membersNesting members + 1
  | _ => 0

/-- The number of containers inside one another among items. -/
def itemsNesting : List Data → Nat
  | [] => 0
  | d :: rest => max (nesting d) (itemsNesting rest)

/-- The number of containers inside one another among members. -/
def membersNesting : List (Option String × Data) → Nat
  | [] => 0
  | (_, d) :: rest => max (nesting d) (membersNesting rest)

end

/-- Data that can be taken where there is room for it: all strings and keys can be, and no number is beyond every
float. -/
def Takeable (d : Data) : Prop :=
  d.isReadable d.nesting

/-- What the members of a name give. -/
def given (name : String) (ms : List (Option String × Data)) : List Data :=
  (ms.filter fun m => m.1 == some name).map Prod.snd

/-- All members have a key. -/
def Keyed (ms : List (Option String × Data)) : Prop :=
  ∀ m ∈ ms, m.1.isSome

end Data

/-- Two lists correspond item by item, in all places but one, where another relation holds. -/
inductive Forall₂But {α β : Type} (R S : α → β → Prop) : List α → List β → Prop
  | here {a b as bs} : S a b → List.Forall₂ R as bs → Forall₂But R S (a :: as) (b :: bs)
  | there {a b as bs} : R a b → Forall₂But R S as bs → Forall₂But R S (a :: as) (b :: bs)

/-- Which data gives a value in full, and which lacks required fields in one of its objects; the first of them is
named. -/
structure Layout (α : Type) where
  whole : α → Data → Prop
  lacks : String → α → Data → Prop

/-- How a field is laid out, and how it is filled in a second record from a first one. -/
structure FieldLayout (α : Type) where
  name : String
  required : Bool
  whole : α → Data → Prop
  lacks : String → α → Data → Prop
  fill : α → α → α

namespace FieldLayout

variable {α β : Type}

/-- A field whose content has a layout. -/
def of (name : String) (required : Bool) (L : Layout β) (get : α → β) (put : β → α → α) : FieldLayout α where
  name := name
  required := required
  whole v d := L.whole (get v) d
  lacks f v d := L.lacks f (get v) d
  fill v w := put (get v) w

/-- One member gives the field. -/
def Given (fl : FieldLayout α) (v : α) (ms : List (Option String × Data)) : Prop :=
  ∃ d, Data.given fl.name ms = [d] ∧ fl.whole v d

/-- One member gives the field, or it is left out because it need not be given and is as in the blank record. -/
def Laid (fl : FieldLayout α) (blank v : α) (ms : List (Option String × Data)) : Prop :=
  fl.Given v ms ∨ (Data.given fl.name ms = [] ∧ fl.required = false ∧ fl.fill v blank = blank)

end FieldLayout

namespace Layout

variable {α β : Type}

/-- Values that are given by one kind of scalar. -/
def scalar (gives : α → Data → Prop) : Layout α :=
  ⟨gives, fun _ _ _ => False⟩

/-- Texts. -/
def text : Layout String :=
  scalar fun s d => d = .string s

/-- Truth values. -/
def flag : Layout Bool :=
  scalar fun b d => d = .bool b

/-- Uuids, in any of their forms. -/
def uuid : Layout Uuid :=
  scalar fun u d => ∃ s, d = .string s ∧ Uuid.ofText? s = some u

/-- Settings, in any order. -/
def settings : Layout Settings :=
  scalar fun s d =>
    ∃ es : List (String × String), es.Perm s.entries ∧ d = .record (es.map fun e => (some e.1, .string e.2))

/-- Values that may be absent. -/
def option (L : Layout α) : Layout (Option α) where
  whole v d := (v = none ∧ d = .null) ∨ ∃ a, v = some a ∧ L.whole a d
  lacks f v d := ∃ a, v = some a ∧ L.lacks f a d

/-- Lists. -/
def list (L : Layout α) : Layout (List α) where
  whole vs d := ∃ ds, d = .list ds ∧ List.Forall₂ L.whole vs ds
  lacks f vs d := ∃ ds, d = .list ds ∧ Forall₂But L.whole (L.lacks f) vs ds

/-- The member for an entry of a map, with its content in the relation. -/
def entry (R : α → Data → Prop) (e : String × α) (m : Option String × Data) : Prop :=
  m.1 = some e.1 ∧ R e.2 m.2

/-- Maps in the order of their entries. -/
def orderedMap (L : Layout α) : Layout (OrderedMap α) where
  whole m d := ∃ ms, d = .record ms ∧ List.Forall₂ (entry L.whole) m.entries ms
  lacks f m d := ∃ ms, d = .record ms ∧ Forall₂But (entry L.whole) (entry (L.lacks f)) m.entries ms

/-- Values that are laid out as others are. -/
def imap (L : Layout α) (unwrap : β → α) : Layout β :=
  ⟨fun v d => L.whole (unwrap v) d, fun f v d => L.lacks f (unwrap v) d⟩

/-- Records: members in any order, among them one for each field that is given. A record lacks required fields if they
are left out of its own members, or of one object in one of its members. -/
def record (blank : α) (fls : List (FieldLayout α)) : Layout α where
  whole v d := ∃ ms, d = .record ms ∧ Data.Keyed ms ∧ ∀ fl ∈ fls, fl.Laid blank v ms
  lacks f v d := ∃ ms, d = .record ms ∧ Data.Keyed ms ∧
    (((∀ fl ∈ fls, fl.Laid blank v ms ∨ (Data.given fl.name ms = [] ∧ fl.required)) ∧
        (fls.find? fun fl => fl.required && (Data.given fl.name ms).isEmpty).map FieldLayout.name = some f) ∨
      ∃ fl ∈ fls, (∃ d, Data.given fl.name ms = [d] ∧ fl.lacks f v d) ∧
        ∀ other ∈ fls, other.name ≠ fl.name → other.Laid blank v ms)

end Layout

/-! ## Room for data -/

/-- The data is whole, and there is room for it. -/
structure Frame.Holds (frame : Frame) (d : Data) : Prop where
  whole : d.isWhole
  room : frame.depth + d.nesting ≤ maxDepth

namespace Data

mutual

/-- What can be taken can be taken where there is more room. -/
lemma isReadable_mono : ∀ (d : Data) {room room' : Nat}, room ≤ room' → d.isReadable room → d.isReadable room'
  | .list items, room, room', le, h => by
    simp only [isReadable, Bool.and_eq_true, bne_iff_ne] at h ⊢
    exact ⟨by omega, allReadable_mono items (by omega) h.2⟩
  | .record members, room, room', le, h => by
    simp only [isReadable, Bool.and_eq_true, bne_iff_ne] at h ⊢
    exact ⟨by omega, membersReadable_mono members (by omega) h.2⟩
  | .null, _, _, _, _ | .bool _, _, _, _, _ | .integer _, _, _, _, _ | .float _, _, _, _, _ | .string _, _, _, _, _
  | .date _, _, _, _, _ => rfl
  | .unreadable, _, _, _, h | .broken, _, _, _, h => by cases h

/-- Items that can be taken can be taken where there is more room. -/
lemma allReadable_mono : ∀ (ds : List Data) {room room' : Nat}, room ≤ room' → allReadable room ds →
    allReadable room' ds
  | [], _, _, _, _ => rfl
  | d :: ds, _, _, le, h => by
    simp only [allReadable, Bool.and_eq_true] at h ⊢
    exact ⟨isReadable_mono d le h.1, allReadable_mono ds le h.2⟩

/-- Members that can be taken can be taken where there is more room. -/
lemma membersReadable_mono : ∀ (ms : List (Option String × Data)) {room room' : Nat}, room ≤ room' →
    membersReadable room ms → membersReadable room' ms
  | [], _, _, _, _ => rfl
  | (some _, d) :: ms, _, _, le, h => by
    simp only [membersReadable, Bool.and_eq_true] at h ⊢
    exact ⟨isReadable_mono d le h.1, membersReadable_mono ms le h.2⟩
  | (none, _) :: _, _, _, _, h => by cases h

end

/-- Items are whole if each of them is. -/
lemma allWhole_iff {ds : List Data} : allWhole ds ↔ ∀ d ∈ ds, d.isWhole := by
  induction ds with
  | nil => simp [allWhole]
  | cons d ds ih => rw [allWhole, Bool.and_eq_true, ih, List.forall_mem_cons]

/-- Members are whole if what each of them holds is. -/
lemma membersWhole_iff {ms : List (Option String × Data)} : membersWhole ms ↔ ∀ m ∈ ms, m.2.isWhole := by
  induction ms with
  | nil => simp [membersWhole]
  | cons m ms ih => rw [membersWhole, Bool.and_eq_true, ih, List.forall_mem_cons]

/-- Items are nested as deep as the deepest of them. -/
lemma itemsNesting_le_iff {ds : List Data} {n : Nat} : itemsNesting ds ≤ n ↔ ∀ d ∈ ds, d.nesting ≤ n := by
  induction ds with
  | nil => simp [itemsNesting]
  | cons d ds ih => rw [itemsNesting, Nat.max_le, ih, List.forall_mem_cons]

/-- Members are nested as deep as the deepest of them. -/
lemma membersNesting_le_iff {ms : List (Option String × Data)} {n : Nat} :
    membersNesting ms ≤ n ↔ ∀ m ∈ ms, m.2.nesting ≤ n := by
  induction ms with
  | nil => simp [membersNesting]
  | cons m ms ih => rw [membersNesting, Nat.max_le, ih, List.forall_mem_cons]

end Data

namespace Frame

variable {frame : Frame}

/-- A container holds its items. -/
lemma Holds.items {ds : List Data} (ho : frame.Holds (.list ds)) : ∀ d ∈ ds, frame.inner.Holds d := by
  intro d mem
  have fits := Data.itemsNesting_le_iff.mp (Nat.le_refl _) d mem
  have room := ho.room
  simp only [Data.nesting] at room
  refine ⟨Data.allWhole_iff.mp ho.whole d mem, ?_⟩
  simp only [inner]
  omega

/-- A record holds what its members give. -/
lemma Holds.members {ms : List (Option String × Data)} (ho : frame.Holds (.record ms)) :
    ∀ m ∈ ms, frame.inner.Holds m.2 := by
  intro m mem
  have fits := Data.membersNesting_le_iff.mp (Nat.le_refl _) m mem
  have room := ho.room
  simp only [Data.nesting] at room
  refine ⟨Data.membersWhole_iff.mp ho.whole m mem, ?_⟩
  simp only [inner]
  omega

/-- Some of the members of a record that is held make a record that is held. -/
lemma Holds.of_subset {ms ms' : List (Option String × Data)} (ho : frame.Holds (.record ms)) (sub : ms' ⊆ ms) :
    frame.Holds (.record ms') := by
  have fewer : Data.membersNesting ms' ≤ Data.membersNesting ms :=
    Data.membersNesting_le_iff.mpr fun m mem => Data.membersNesting_le_iff.mp (Nat.le_refl _) m (sub mem)
  have room := ho.room
  simp only [Data.nesting] at room
  refine ⟨Data.membersWhole_iff.mpr fun m mem => Data.membersWhole_iff.mp ho.whole m (sub mem), ?_⟩
  simp only [Data.nesting]
  omega

end Frame

/-! ## Settings in any order -/

namespace Settings

/-- No name is set twice. -/
lemma nodup (s : Settings) : (s.entries.map Prod.fst).Nodup :=
  List.pairwise_map.mpr (s.sorted.imp fun {a b} lt (eq : a.1 = b.1) => String.lt_irrefl b.1 (eq ▸ lt))

/-- Up to the order, a new name is added. -/
lemma put_perm {name : String} (value : String) {es : List (String × String)} (new : name ∉ es.map Prod.fst) :
    (put name value es).Perm ((name, value) :: es) := by
  induction es with
  | nil => exact .refl _
  | cons e rest ih =>
    rw [List.map_cons, List.mem_cons, not_or] at new
    rw [put]
    split
    · exact ((ih new.2).cons e).trans (.swap ..)
    · rw [if_neg (Ne.symm new.1)]

/-- Settings are told by their entries in any order. -/
lemma eq_of_perm {s s' : Settings} (h : s.entries.Perm s'.entries) : s = s' := by
  refine eq_of_entries (h.eq_of_pairwise (fun a b _ _ lt gt => ?_) s.sorted s'.sorted)
  exact absurd (String.lt_trans lt gt) (String.lt_irrefl _)

end Settings

/-! ## Codecs that fit a layout -/

namespace Codec

variable {α β : Type} {c : Codec α} {L : Layout α} {frame : Frame}

/-- The codec takes a value from the data that gives it in full, and reports the first field that is missing. -/
structure Fits (c : Codec α) (L : Layout α) : Prop where
  whole : ∀ frame v d, frame.Holds d → L.whole v d → c.decode frame d = .ok v
  lacks : ∀ frame f v d, frame.Holds d → L.lacks f v d → c.decode frame d = .error (.missingField f)

/-- A codec without containers fits its layout if it takes what this gives. -/
lemma fits_scalar {gives : α → Data → Prop} (taken : ∀ frame v d, gives v d → c.decode frame d = .ok v) :
    c.Fits (.scalar gives) :=
  ⟨fun frame v d _ => taken frame v d, fun _ _ _ _ _ => False.elim⟩

/-- Texts are taken in their layout. -/
lemma text_fits : string.Fits .text :=
  fits_scalar fun _ _ _ eq => by rw [eq]; rfl

/-- Truth values are taken in their layout. -/
lemma flag_fits : bool.Fits .flag :=
  fits_scalar fun _ _ _ eq => by rw [eq]; rfl

/-- Identities are taken in all their spellings. -/
lemma uuid_fits : uuid.Fits .uuid := by
  refine fits_scalar fun _ _ _ => ?_
  rintro ⟨s, rfl, read⟩
  simp only [uuid, read]

/-- Wrapping a value keeps its codec fitting. -/
lemma Fits.imap (fi : c.Fits L) {wrap : α → β} {unwrap : β → α} (inverse : ∀ v, wrap (unwrap v) = v) :
    (c.imap wrap unwrap).Fits (L.imap unwrap) where
  whole frame v d ho h := by simp [Codec.imap, fi.whole frame _ d ho h, Except.map, inverse]
  lacks frame f v d ho h := by simp [Codec.imap, fi.lacks frame f _ d ho h, Except.map]

/-- Values that may be absent, if none of them is given by nothing. -/
lemma Fits.option (fi : c.Fits L) (whole_ne : ∀ v, ¬ L.whole v .null) (lacks_ne : ∀ f v, ¬ L.lacks f v .null) :
    (Codec.option c).Fits (.option L) where
  whole frame v d ho h := by
    obtain ⟨rfl, rfl⟩ | ⟨a, rfl, h⟩ := h
    · rfl
    · unfold Codec.option
      simp only
      split
      case h_1 => exact absurd h (whole_ne a)
      case h_2 => rw [fi.whole frame a d ho h]; rfl
  lacks frame f v d ho h := by
    obtain ⟨a, rfl, h⟩ := h
    unfold Codec.option
    simp only
    split
    case h_1 => exact absurd h (lacks_ne f a)
    case h_2 => rw [fi.lacks frame f a d ho h]; rfl

/-- Items in their layouts are taken one by one. -/
lemma Fits.decodeItems (fi : c.Fits L) {vs : List α} {ds : List Data} (ho : ∀ d ∈ ds, frame.Holds d)
    (h : List.Forall₂ L.whole vs ds) : c.decodeItems frame ds = .ok vs := by
  have both := (List.forall₂_and_left ds vs).mpr ⟨ho, h.flip⟩
  exact decodeItems_of_forall₂ (both.flip.imp fun v d here => fi.whole frame v d here.1 here.2)

/-- The first item that lacks a field reports it. -/
lemma Fits.decodeItems_lacks (fi : c.Fits L) {f : String} {vs : List α} {ds : List Data}
    (ho : ∀ d ∈ ds, frame.Holds d) (h : Forall₂But L.whole (L.lacks f) vs ds) :
    c.decodeItems frame ds = .error (.missingField f) := by
  induction h with
  | here first _ =>
    rw [Codec.decodeItems, fi.lacks frame f _ _ (List.forall_mem_cons.mp ho).1 first]
    rfl
  | there first _ ih =>
    obtain ⟨here, later⟩ := List.forall_mem_cons.mp ho
    rw [Codec.decodeItems, fi.whole frame _ _ here first, ih later]
    rfl

/-- Lists are taken in the layouts of their items. -/
lemma Fits.list (fi : c.Fits L) : (Codec.list c).Fits (.list L) where
  whole frame vs d ho h := by
    obtain ⟨ds, rfl, h⟩ := h
    exact fi.decodeItems ho.items h
  lacks frame f vs d ho h := by
    obtain ⟨ds, rfl, h⟩ := h
    exact fi.decodeItems_lacks ho.items h

/-- Entries that are taken in order fill the map that they are laid out for. -/
lemma Fits.decodeEntries (fi : c.Fits L) {m m' : OrderedMap α} {es : List (String × α)}
    {ms : List (Option String × Data)} (ho : ∀ m ∈ ms, frame.Holds m.2)
    (h : List.Forall₂ (Layout.entry L.whole) es ms) (split : m'.entries = m.entries ++ es) :
    c.decodeEntries frame m ms = .ok m' := by
  have both := (List.forall₂_and_left ms es).mpr ⟨ho, h.flip⟩
  refine decodeEntries_of_forall₂ (both.flip.imp fun e x ⟨here, first⟩ => ?_) split
  exact first.imp_right (fi.whole frame e.2 x.2 here)

/-- The first entry that lacks a field reports it. -/
lemma Fits.decodeEntries_lacks (fi : c.Fits L) {f : String} {m : OrderedMap α} {es : List (String × α)}
    {ms : List (Option String × Data)} (ho : ∀ m ∈ ms, frame.Holds m.2)
    (h : Forall₂But (Layout.entry L.whole) (Layout.entry (L.lacks f)) es ms) :
    c.decodeEntries frame m ms = .error (.missingField f) := by
  induction h generalizing m with
  | @here e member _ _ first _ =>
    obtain ⟨key, d⟩ := member
    obtain ⟨rfl, first⟩ := first
    rw [Codec.decodeEntries, fi.lacks frame f _ _ (List.forall_mem_cons.mp ho).1 first]
    rfl
  | @there e member _ _ first _ ih =>
    obtain ⟨key, d⟩ := member
    obtain ⟨rfl, first⟩ := first
    obtain ⟨here, later⟩ := List.forall_mem_cons.mp ho
    rw [Codec.decodeEntries, fi.whole frame _ _ here first]
    exact ih later

/-- Maps are taken in the layouts of their values. -/
lemma Fits.orderedMap (fi : c.Fits L) : (Codec.orderedMap c).Fits (.orderedMap L) where
  whole frame m d ho h := by
    obtain ⟨ms, rfl, h⟩ := h
    exact fi.decodeEntries (m := .empty) ho.members h rfl
  lacks frame f m d ho h := by
    obtain ⟨ms, rfl, h⟩ := h
    exact fi.decodeEntries_lacks ho.members h

/-- Settings that are taken in any order are those that were laid out. -/
lemma decodeSettings_of_perm (frame : Frame) {s s' : Settings} {es : List (String × String)}
    (h : (s.entries ++ es).Perm s'.entries) :
    decodeSettings frame s (es.map fun e => (some e.1, .string e.2)) = .ok s' := by
  induction es generalizing s with
  | nil =>
    rw [List.append_nil] at h
    rw [Settings.eq_of_perm h]
    rfl
  | cons e rest ih =>
    have nodup := (h.map Prod.fst).nodup_iff.mpr s'.nodup
    rw [List.map_append, List.map_cons, List.nodup_append] at nodup
    have new : e.1 ∉ s.entries.map Prod.fst := fun old => nodup.2.2 e.1 old e.1 (List.mem_cons_self ..) rfl
    refine ih (List.Perm.trans ?_ h)
    exact ((Settings.put_perm e.2 new).append_right rest).trans List.perm_middle.symm

/-- Settings are taken with their names in any order. -/
lemma settings_fits : settings.Fits .settings := by
  refine fits_scalar fun frame s d => ?_
  rintro ⟨es, perm, rfl⟩
  exact decodeSettings_of_perm frame.inner (s := .empty) perm

end Codec

/-! ## Records -/

section Records

variable {α β : Type}

/-- A field is taken as it is laid out. -/
structure Field.Lays (f : Field α) (fl : FieldLayout α) : Prop where
  name : f.name = fl.name
  required : f.required = fl.required
  stores : ∀ frame v w d, frame.Holds d → fl.whole v d → f.store frame d w = .ok (fl.fill v w)
  refuses : ∀ frame n v w d, frame.Holds d → fl.lacks n v d → f.store frame d w = .error (.missingField n)

/-- A needed field is laid out as what it holds. -/
lemma Codec.Fits.needed {c : Codec β} {L : Layout β} (fi : c.Fits L) {name : String} {get : α → β} {put : β → α → α} :
    (Field.needed name c get put).Lays (.of name true L get put) where
  name := rfl
  required := rfl
  stores frame v w d ho h := by simp [Field.needed, fi.whole frame _ d ho h, Except.map, FieldLayout.of]
  refuses frame n v w d ho h := by simp [Field.needed, fi.lacks frame n _ d ho h, Except.map]

/-- A field that may be left out is laid out as what it holds. -/
lemma Codec.Fits.optional {c : Codec β} {L : Layout β} (fi : c.Fits L) {name : String} {get : α → β} {put : β → α → α} :
    (Field.optional name c get put).Lays (.of name false L get put) where
  name := rfl
  required := rfl
  stores frame v w d ho h := by
    simp [Field.optional, Field.needed, fi.whole frame _ d ho h, Except.map, FieldLayout.of]
  refuses frame n v w d ho h := by simp [Field.optional, Field.needed, fi.lacks frame n _ d ho h, Except.map]

/-- It does not matter which of two fields is filled first. -/
def FieldLayout.Apart (fl other : FieldLayout α) : Prop :=
  ∀ v w, fl.fill v (other.fill v w) = other.fill v (fl.fill v w)

instance : Std.Symm (@FieldLayout.Apart α) :=
  ⟨fun _ _ apart v w => (apart v w).symm⟩

/-- The fields of a shape are laid out one by one: they have names of their own, filling one does not disturb another,
and filling all makes a record whole. -/
structure Shape.Lays (sh : Shape α) (fls : List (FieldLayout α)) : Prop where
  fields : List.Forall₂ Field.Lays sh.fields fls
  names : (fls.map FieldLayout.name).Nodup
  again : ∀ fl ∈ fls, ∀ v w, fl.fill v (fl.fill v w) = fl.fill v w
  apart : fls.Pairwise FieldLayout.Apart
  all : ∀ v w, fls.foldl (fun w fl => fl.fill v w) w = v

variable {sh : Shape α} {fls : List (FieldLayout α)} {frame : Frame} {v w : α} {fl : FieldLayout α}

namespace Data

variable {name name' : String} {d : Data} {ms ms' : List (Option String × Data)}

/-- A first member of the name gives what it holds. -/
lemma given_cons_self (name : String) (d : Data) (ms : List (Option String × Data)) :
    given name ((some name, d) :: ms) = d :: given name ms := by
  simp [given]

/-- A first member of another name gives nothing. -/
lemma given_cons_of_ne (ne : name' ≠ name) (d : Data) (ms : List (Option String × Data)) :
    given name ((some name', d) :: ms) = given name ms := by
  simp [given, ne]

/-- Members give what they give one part after the other. -/
lemma given_append (name : String) (ms ms' : List (Option String × Data)) :
    given name (ms ++ ms') = given name ms ++ given name ms' := by
  simp [given]

/-- The one member that gives a name stands behind others that do not. -/
lemma split_of_given (h : given name ms = [d]) :
    ∃ before after, ms = before ++ (some name, d) :: after ∧ given name before = [] ∧ given name after = [] := by
  induction ms with
  | nil => cases h
  | cons m rest ih =>
    obtain ⟨key, d'⟩ := m
    by_cases eq : key = some name
    · subst eq
      rw [given_cons_self] at h
      obtain ⟨rfl, no_more⟩ := List.cons.inj h
      exact ⟨[], rest, rfl, rfl, no_more⟩
    · have skip (ms : List (Option String × Data)) : given name ((key, d') :: ms) = given name ms := by
        simp [given, eq]
      rw [skip] at h
      obtain ⟨before, after, rfl, none, no_more⟩ := ih h
      exact ⟨(key, d') :: before, after, rfl, (skip before).trans none, no_more⟩

end Data

/-- Before a place among the members, a field is not given, or it is given there in full and was not seen so far. -/
def FieldLayout.Ready (fl : FieldLayout α) (v : α) (seen : List String) (ms : List (Option String × Data)) : Prop :=
  Data.given fl.name ms = [] ∨ (fl.name ∉ seen ∧ fl.Given v ms)

/-- What lays a field out makes it ready before any member was taken. -/
lemma FieldLayout.Laid.ready {blank : α} {ms : List (Option String × Data)} (h : fl.Laid blank v ms) :
    fl.Ready v [] ms :=
  h.elim (fun g => .inr ⟨List.not_mem_nil, g⟩) fun out => .inl out.1

/-- What is ready among all members is ready among the first of them. -/
lemma FieldLayout.Ready.before {seen : List String} {ms ms' : List (Option String × Data)}
    (h : fl.Ready v seen (ms ++ ms')) : fl.Ready v seen ms := by
  rw [Ready, Given, Data.given_append] at h
  obtain out | ⟨unseen, d, one, whole⟩ := h
  · exact .inl (List.append_eq_nil_iff.mp out).1
  · obtain ⟨none, -⟩ | ⟨here, -⟩ := List.append_eq_singleton_iff.mp one
    · exact .inl none
    · exact .inr ⟨unseen, d, here, whole⟩

namespace Shape.Lays

/-- A name finds a field just if it finds its layout, in any part of the fields. -/
lemma field?_aux {fs : List (Field α)} (h : List.Forall₂ Field.Lays fs fls) (name : String) :
    (fs.find? (fun f => f.name == name) = none ∧ ∀ fl ∈ fls, fl.name ≠ name) ∨
      ∃ f fl, fs.find? (fun f => f.name == name) = some f ∧ fl ∈ fls ∧ fl.name = name ∧ f.Lays fl := by
  induction h with
  | nil => exact .inl ⟨rfl, List.forall_mem_nil _⟩
  | @cons f fl fs fls first _ ih =>
    by_cases eq : f.name = name
    · refine .inr ⟨f, fl, ?_, List.mem_cons_self .., first.name.symm.trans eq, first⟩
      rw [List.find?_cons_of_pos (by simp [eq])]
    · rw [List.find?_cons_of_neg (by simp [eq])]
      obtain ⟨none, others⟩ | ⟨f', fl', found, mem, named, lays⟩ := ih
      · exact .inl ⟨none, List.forall_mem_cons.mpr ⟨first.name ▸ eq, others⟩⟩
      · exact .inr ⟨f', fl', found, List.mem_cons_of_mem _ mem, named, lays⟩

/-- The field of a name is laid out under this name, if there is one. -/
lemma field? (la : sh.Lays fls) (name : String) :
    (sh.field? name = none ∧ ∀ fl ∈ fls, fl.name ≠ name) ∨
      ∃ f fl, sh.field? name = some f ∧ fl ∈ fls ∧ fl.name = name ∧ f.Lays fl :=
  field?_aux la.fields name

/-- Two fields of one name have one layout. -/
lemma eq_of_name (la : sh.Lays fls) {other : FieldLayout α} (h : fl ∈ fls) (h' : other ∈ fls)
    (eq : fl.name = other.name) : fl = other :=
  List.inj_on_of_nodup_map la.names h h' eq

/-- Two fields can be filled in either order. -/
lemma commutes (la : sh.Lays fls) {other : FieldLayout α} (h : fl ∈ fls) (h' : other ∈ fls) (ne : fl ≠ other) :
    fl.fill v (other.fill v w) = other.fill v (fl.fill v w) :=
  la.apart.forall h h' ne v w

/-- Members that give fields in full, each once, are all taken: the fields that they give have been seen and are
filled, and what was filled before still is. -/
lemma decodeMembers (la : sh.Lays fls) (rest : List (Option String × Data)) :
    ∀ (ms : List (Option String × Data)) (seen : List String) (w : α), Data.Keyed ms → (∀ m ∈ ms, frame.Holds m.2) →
      (∀ fl ∈ fls, fl.Ready v seen ms) →
        ∃ seen' w', sh.decodeMembers frame seen w (ms ++ rest) = sh.decodeMembers frame seen' w' rest ∧
          (∀ fl ∈ fls, fl.name ∈ seen' ↔ fl.name ∈ seen ∨ Data.given fl.name ms ≠ []) ∧
          ∀ fl ∈ fls, fl.fill v w = w ∨ Data.given fl.name ms ≠ [] → fl.fill v w' = w'
  | [], seen, w, _, _, _ => ⟨seen, w, rfl, fun _ _ => by simp [Data.given], fun _ _ h => by simpa [Data.given] using h⟩
  | (none, _) :: _, _, _, keyed, _, _ => absurd (keyed _ (List.mem_cons_self ..)) Bool.false_ne_true
  | (some name, d) :: ms, seen, w, keyed, ho, ready => by
    have keyed_later : Data.Keyed ms := (List.forall_mem_cons.mp keyed).2
    obtain ⟨here, ho_later⟩ := List.forall_mem_cons.mp ho
    rw [List.cons_append, Shape.decodeMembers]
    obtain ⟨none, others⟩ | ⟨f, fl, found, mem, rfl, lays⟩ := la.field? name
    · -- no field has this name, so the member is skipped
      have same (fl) (mem : fl ∈ fls) : Data.given fl.name ((some name, d) :: ms) = Data.given fl.name ms :=
        Data.given_cons_of_ne (others fl mem).symm d ms
      have later (fl) (mem : fl ∈ fls) : fl.Ready v seen ms := by
        have now := ready fl mem
        rwa [FieldLayout.Ready, FieldLayout.Given, same fl mem] at now
      obtain ⟨seen', w', run, seen_iff, filled⟩ := la.decodeMembers rest ms seen w keyed_later ho_later later
      refine ⟨seen', w', ?_, fun fl mem => ?_, fun fl mem => ?_⟩
      · simp only [none, here.whole, if_true, run]
      · rw [same fl mem, seen_iff fl mem]
      · rw [same fl mem]
        exact filled fl mem
    · -- the field of this name is filled, and is not given by the members behind
      obtain out | ⟨unseen, d', one, whole⟩ := ready fl mem
      · rw [Data.given_cons_self] at out
        cases out
      rw [Data.given_cons_self] at one
      obtain ⟨rfl, no_more⟩ := List.cons.inj one
      have later (other) (mem' : other ∈ fls) : other.Ready v (fl.name :: seen) ms := by
        by_cases eq : other.name = fl.name
        · exact .inl (eq ▸ no_more)
        · have now := ready other mem'
          rw [FieldLayout.Ready, FieldLayout.Given, Data.given_cons_of_ne (Ne.symm eq)] at now
          exact now.imp_right (And.imp_left (List.not_mem_cons_of_ne_of_not_mem eq))
      obtain ⟨seen', w', run, seen_iff, filled⟩ :=
        la.decodeMembers rest ms (fl.name :: seen) (fl.fill v w) keyed_later ho_later later
      refine ⟨seen', w', ?_, fun other mem' => ?_, fun other mem' h => filled other mem' ?_⟩
      · have new : seen.contains fl.name = false := by simpa using unseen
        simp only [found, new, lays.stores frame v w d here whole, run]
        rfl
      · rw [seen_iff other mem', List.mem_cons]
        by_cases eq : other.name = fl.name
        · simp [eq, Data.given_cons_self]
        · simp [eq, Data.given_cons_of_ne (Ne.symm eq)]
      · by_cases eq : other.name = fl.name
        · obtain rfl := la.eq_of_name mem' mem eq
          exact .inl (la.again other mem v w)
        · rw [Data.given_cons_of_ne (Ne.symm eq)] at h
          refine h.imp_left fun kept => ?_
          rw [la.commutes mem' mem fun same => eq (congrArg _ same), kept]

/-- The first field that has some property and the first layout that has it bear the same name. -/
lemma find_name_aux {fs : List (Field α)} (h : List.Forall₂ Field.Lays fs fls) {p : Field α → Bool}
    {q : FieldLayout α → Bool} (same : ∀ f fl, fl ∈ fls → f.Lays fl → p f = q fl) :
    (fs.find? p).map Field.name = (fls.find? q).map FieldLayout.name := by
  induction h with
  | nil => rfl
  | @cons f fl fs fls first _ ih =>
    have later := ih fun f fl mem => same f fl (List.mem_cons_of_mem _ mem)
    rw [List.find?_cons, List.find?_cons, same f fl (List.mem_cons_self ..) first]
    cases q fl with
    | true => exact congrArg some first.name
    | false => exact later

/-- The first required field that has not been seen is the first that is not given. -/
lemma complete (la : sh.Lays fls) {seen : List String} {ms : List (Option String × Data)} (w : α)
    (seen_iff : ∀ fl ∈ fls, fl.name ∈ seen ↔ Data.given fl.name ms ≠ []) :
    sh.complete seen w =
      match (fls.find? fun fl => fl.required && (Data.given fl.name ms).isEmpty).map FieldLayout.name with
      | some name => .error (.missingField name)
      | none => .ok w := by
  rw [← find_name_aux la.fields (p := fun f => f.required && !seen.contains f.name) ?_, Shape.complete]
  · cases sh.fields.find? _ <;> rfl
  · intro f fl mem lays
    rw [lays.required, lays.name]
    congr 1
    by_cases h : fl.name ∈ seen
    · simp [h, (seen_iff fl mem).mp h]
    · simp [h, not_not.mp (mt (seen_iff fl mem).mpr h)]

/-- A record in which filling any field changes nothing is filled as a whole. -/
lemma eq_of_filled (la : sh.Lays fls) (filled : ∀ fl ∈ fls, fl.fill v w = w) : w = v := by
  have kept : ∀ {gls : List (FieldLayout α)}, (∀ fl ∈ gls, fl.fill v w = w) →
      gls.foldl (fun w fl => fl.fill v w) w = w := by
    intro gls h
    induction gls with
    | nil => rfl
    | cons fl gls ih =>
      obtain ⟨first, later⟩ := List.forall_mem_cons.mp h
      rw [List.foldl_cons, first, ih later]
  rw [← la.all v w, kept filled]

/-- A record type fits the layout of its fields. -/
theorem fits (la : sh.Lays fls) : sh.codec.Fits (.record sh.blank fls) where
  whole frame v d ho h := by
    obtain ⟨ms, rfl, keyed, laid⟩ := h
    obtain ⟨seen, w, run, seen_iff, filled⟩ :=
      la.decodeMembers [] ms [] sh.blank keyed ho.members fun fl mem => (laid fl mem).ready
    have done : w = v := la.eq_of_filled fun fl mem => filled fl mem <| by
      obtain ⟨d, one, -⟩ | ⟨-, -, kept⟩ := laid fl mem
      · exact .inr (by simp [one])
      · exact .inl kept
    -- a field that is not given is one that may be left out
    have none_missing : fls.find? (fun fl => fl.required && (Data.given fl.name ms).isEmpty) = none := by
      rw [List.find?_eq_none]
      intro fl mem
      obtain ⟨d, one, -⟩ | ⟨-, free, -⟩ := laid fl mem
      · simp [one]
      · simp [free]
    show sh.decodeMembers frame.inner [] sh.blank ms = .ok v
    rw [List.append_nil] at run
    rw [run, Shape.decodeMembers, la.complete w (by simpa using seen_iff), none_missing, done]
    rfl
  lacks frame f v d ho h := by
    obtain ⟨ms, rfl, keyed, ⟨laid, missing⟩ | ⟨fl, mem, ⟨d, one, lacks⟩, laid⟩⟩ := h
    · -- required fields are left out of the members themselves
      have ready (fl) (mem : fl ∈ fls) : fl.Ready v [] ms :=
        (laid fl mem).elim FieldLayout.Laid.ready fun out => .inl out.1
      obtain ⟨seen, w, run, seen_iff, -⟩ := la.decodeMembers [] ms [] sh.blank keyed ho.members ready
      show sh.decodeMembers frame.inner [] sh.blank ms = .error (.missingField f)
      rw [List.append_nil] at run
      rw [run, Shape.decodeMembers, la.complete w (by simpa using seen_iff), missing]
    · -- they are left out of the content of one member, and the members before it are taken
      obtain ⟨before, after, rfl, none, -⟩ := Data.split_of_given one
      have ready (other) (mem' : other ∈ fls) : other.Ready v [] before := by
        by_cases eq : other.name = fl.name
        · exact .inl (eq ▸ none)
        · exact (laid other mem' eq).ready.before
      have here := ho.members (some fl.name, d) (by simp)
      obtain ⟨seen, w, run, seen_iff, -⟩ := la.decodeMembers ((some fl.name, d) :: after) before [] sh.blank
        (fun m mem => keyed m (by simp [mem])) (fun m mem => ho.members m (by simp [mem])) ready
      have unseen : seen.contains fl.name = false := by simpa [none] using seen_iff fl mem
      obtain ⟨-, others⟩ | ⟨g, gl, found, mem', named, lays⟩ := la.field? fl.name
      · exact absurd rfl (others fl mem)
      obtain rfl := la.eq_of_name mem' mem named
      show sh.decodeMembers frame.inner [] sh.blank _ = _
      rw [run, Shape.decodeMembers, found]
      simp only [unseen, lays.refuses frame.inner f v w d here lacks]
      rfl

end Shape.Lays

end Records

end ModelScopes
