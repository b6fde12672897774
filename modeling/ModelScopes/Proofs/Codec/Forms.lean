import Mathlib.Data.List.Forall2
import Mathlib.Data.List.Nodup
import Mathlib.Tactic.Common
import ModelScopes.Proofs.Codec.Laws
import ModelScopes.Proofs.Json.Spelling

/-!
# Records as arrays

A record is written as an object of its fields, and may be given as an array of them as well. `Forms` says which data
gives a value if each record in it is in one of these two forms, and which data has an array of a wrong length in the
place of a record. A codec `Takes` forms if it takes the value from the former and refuses the latter. Each way to make
a codec from others keeps this; the main statement about records is `Shape.Regular.takes`.
-/

namespace ModelScopes

variable {α β : Type}

/-! ## Forms -/

/-- Which data gives a value, with each of its records as an object or as an array, and which data has an array of a
wrong length in the place of a record. -/
structure Forms (α : Type) where
  gives : α → Data → Prop
  miscounts : Data → Prop

namespace Forms

/-- The one form in which values are written that hold no records. -/
def written (encode : α → Json) : Forms α :=
  ⟨fun v d => d = (encode v).toData, fun _ => False⟩

/-- The forms of a part of a value. -/
def part (F : Forms β) (get : α → β) : Forms α :=
  ⟨fun v d => F.gives (get v) d, F.miscounts⟩

/-- Lists. -/
def list (F : Forms α) : Forms (List α) where
  gives vs d := ∃ ds, d = .list ds ∧ List.Forall₂ F.gives vs ds
  miscounts d := ∃ ds, d = .list ds ∧ ∃ x ∈ ds, F.miscounts x

/-- The member for an entry of a map. -/
def entry (F : Forms α) (e : String × α) (m : Option String × Data) : Prop :=
  m.1 = some e.1 ∧ F.gives e.2 m.2

/-- Maps in the order of their entries. -/
def orderedMap (F : Forms α) : Forms (OrderedMap α) where
  gives m d := ∃ ms, d = .record ms ∧ List.Forall₂ F.entry m.entries ms
  miscounts d := ∃ ms, d = .record ms ∧ ∃ m ∈ ms, F.miscounts m.2

end Forms

namespace Shape

/-- The forms of a field: those that are special to it, or else what it writes. -/
def part (special : List (String × Forms α)) (f : Field α) : Forms α :=
  (special.lookup f.name).getD (.written f.encode)

/-- Records: an object of all fields in order, or an array of them. An array may end early if the type allows it and the
fields that are left out are as in the blank record. It is miscounted if it goes on after the last field, or ends early
though it may not, and a record is if one of its fields is. -/
def forms (sh : Shape α) (special : List (String × Forms α)) : Forms α where
  gives v d :=
    (∃ ms, d = .record ms ∧
      List.Forall₂ (fun f m => m.1 = some f.name ∧ (part special f).gives v m.2) sh.fields ms) ∨
    ∃ given left ds, d = .list ds ∧ sh.fields = given ++ left ∧
      List.Forall₂ (fun f x => (part special f).gives v x) given ds ∧
      (left ≠ [] → sh.openEnded ∧ ∀ f ∈ left, f.encode v = f.encode sh.blank)
  miscounts d :=
    (∃ ds, d = .list ds ∧ (sh.fields.length < ds.length ∨ (ds.length < sh.fields.length ∧ ¬ sh.openEnded) ∨
      ∃ p ∈ sh.fields.zip ds, (part special p.1).miscounts p.2)) ∨
    ∃ ms, d = .record ms ∧ ∃ f ∈ sh.fields, ∃ x, (some f.name, x) ∈ ms ∧ (part special f).miscounts x

/-- The first fields of a record as an array. -/
def array (sh : Shape α) (count : Nat) (v : α) : Json :=
  .list ((sh.fields.take count).map fun f => f.encode v)

end Shape

/-! ## Codecs that take forms -/

/-- What the codec writes is one of the forms; it takes the value from each of them, and nothing that is miscounted,
unless it comes from TOML. -/
structure Codec.Takes (c : Codec α) (F : Forms α) : Prop where
  writes : ∀ v, F.gives v (c.encode v).toData
  gives : ∀ frame v d, F.gives v d → c.decode frame d = .ok v
  counts : ∀ frame v d, frame.dialect ≠ .toml → c.decode frame d = .ok v → ¬ F.miscounts d

/-- What the field writes is one of the forms; it takes each of them like this one, and nothing that is miscounted,
unless it comes from TOML. -/
structure Field.Takes (f : Field α) (F : Forms α) : Prop where
  writes : ∀ v, F.gives v (f.encode v).toData
  gives : ∀ frame v w d, F.gives v d → f.store frame d w = f.store frame (f.encode v).toData w
  counts : ∀ frame w w' d, frame.dialect ≠ .toml → f.store frame d w = .ok w' → ¬ F.miscounts d

namespace Codec

variable {c : Codec α} {F : Forms α} {frame : Frame}

/-- A codec that takes forms is faithful, as each value is written in one of its forms. -/
lemma Takes.faithful (ta : c.Takes F) : c.Faithful :=
  fun frame v => ta.gives frame v _ (ta.writes v)

/-- Items that are taken are taken one by one. -/
lemma exists_of_decodeItems {vs : List α} {ds : List Data} (h : c.decodeItems frame ds = .ok vs) :
    ∀ x ∈ ds, ∃ v, c.decode frame x = .ok v := by
  induction ds generalizing vs with
  | nil => nofun
  | cons d ds ih =>
    rw [Codec.decodeItems] at h
    cases hd : c.decode frame d with
    | error => rw [hd] at h; cases h
    | ok v =>
      cases hds : c.decodeItems frame ds with
      | error => rw [hd, hds] at h; cases h
      | ok vs => exact List.forall_mem_cons.mpr ⟨⟨v, hd⟩, ih hds⟩

/-- Items in their forms make a list in its form. -/
lemma Takes.list (ta : c.Takes F) : (Codec.list c).Takes (.list F) where
  writes vs := ⟨_, rfl, forall₂_itemsData ta.writes vs⟩
  gives frame vs d h := by
    obtain ⟨ds, rfl, h⟩ := h
    exact decodeItems_of_forall₂ (h.imp (ta.gives frame.inner))
  counts frame vs d format h := by
    rintro ⟨ds, rfl, x, mem, miscounts⟩
    obtain ⟨v, taken⟩ := exists_of_decodeItems h x mem
    exact ta.counts frame.inner v x format taken miscounts

/-- Entries that are taken are taken one by one. -/
lemma exists_of_decodeEntries {m m' : OrderedMap α} {ms : List (Option String × Data)}
    (h : c.decodeEntries frame m ms = .ok m') : ∀ x ∈ ms, ∃ v, c.decode frame x.2 = .ok v := by
  induction ms generalizing m with
  | nil => nofun
  | cons member ms ih =>
    obtain ⟨_ | key, d⟩ := member
    · cases h
    rw [Codec.decodeEntries] at h
    cases hd : c.decode frame d with
    | error => rw [hd] at h; cases h
    | ok v =>
      rw [hd] at h
      exact List.forall_mem_cons.mpr ⟨⟨v, hd⟩, ih h⟩

/-- Values in their forms make a map in its form; maps are never given as arrays. -/
lemma Takes.orderedMap (ta : c.Takes F) : (Codec.orderedMap c).Takes (.orderedMap F) where
  writes m := ⟨_, rfl, forall₂_membersData ta.writes m.entries⟩
  gives frame m d h := by
    obtain ⟨ms, rfl, h⟩ := h
    have taken : List.Forall₂ (fun e x => x.1 = some e.1 ∧ c.decode frame.inner x.2 = .ok e.2) m.entries ms :=
      h.imp fun e x first => first.imp_right (ta.gives frame.inner e.2 x.2)
    exact decodeEntries_of_forall₂ (m := .empty) taken rfl
  counts frame m d format h := by
    rintro ⟨ms, rfl, x, mem, miscounts⟩
    obtain ⟨v, taken⟩ := exists_of_decodeEntries h x mem
    exact ta.counts frame.inner v x.2 format taken miscounts

/-- A needed field takes the forms of what it holds. -/
lemma Takes.needed (ta : c.Takes F) {name : String} {get : β → α} {put : α → β → β} :
    (Field.needed name c get put).Takes (F.part get) where
  writes v := ta.writes (get v)
  gives frame v w d h := by simp [Field.needed, ta.gives frame _ d h, ta.faithful frame]
  counts frame w w' d format h := by
    simp only [Field.needed] at h
    cases taken : c.decode frame d with
    | error => rw [taken] at h; cases h
    | ok v => exact ta.counts frame v d format taken

/-- A field that may be left out takes the forms of what it holds. -/
lemma Takes.optional (ta : c.Takes F) {name : String} {get : β → α} {put : α → β → β} :
    (Field.optional name c get put).Takes (F.part get) := by
  have needed : (Field.needed name c get put).Takes (F.part get) := ta.needed
  exact ⟨needed.writes, needed.gives, needed.counts⟩

end Codec

/-- Every field takes what is written for it. -/
lemma Field.takes_written (f : Field α) : f.Takes (.written f.encode) where
  writes _ := rfl
  gives _ _ _ _ h := by rw [h]
  counts _ _ _ _ _ _ := not_false

/-! ## Fields beside one another -/

/-- Filling the first field leaves the second as it is. -/
def Field.Spares (f g : Field α) : Prop :=
  ∀ frame d w w', f.store frame d w = .ok w' → g.encode w' = g.encode w

/-- Each field that is filled as it is leaves the record as it is, and spares the fields behind it. -/
structure Shape.Separate (sh : Shape α) : Prop where
  own : ∀ f ∈ sh.fields, ∀ frame w, f.store frame (f.encode w).toData w = .ok w
  spares : sh.fields.Pairwise Field.Spares

/-- The fields have names of their own and complete the blank record, and they are separate if arrays of them may end
early. -/
structure Shape.Regular (sh : Shape α) : Prop where
  names : (sh.fields.map Field.name).Nodup
  refills : ∀ v, Shape.Refills v sh.fields sh.blank
  separate : sh.openEnded → sh.Separate

namespace Field

variable {c : Codec β} {name : String} {get : α → β} {put : β → α → α}

/-- A field that may be left out takes its own value back. -/
lemma optional_own (fa : c.Faithful) (same : ∀ w, put (get w) w = w) :
    ∀ frame w, (optional name c get put).store frame ((optional name c get put).encode w).toData w = .ok w := by
  intro frame w
  simp [optional, needed, fa frame, Except.map, same]

/-- A field that may be left out spares a field that its way to put a value leaves alone. -/
lemma optional_spares {g : Field α} (kept : ∀ x w, g.encode (put x w) = g.encode w) :
    (optional name c get put).Spares g := by
  intro frame d w w' h
  simp only [optional, needed] at h
  cases taken : c.decode frame d with
  | error => rw [taken] at h; cases h
  | ok x =>
    rw [taken] at h
    cases h
    exact kept x w

end Field

namespace Shape

variable {sh : Shape α} {special : List (String × Forms α)} {frame : Frame} {v w : α} {f : Field α}

/-- Each special form is that of the field of its name, which takes it. -/
def Admits (sh : Shape α) (special : List (String × Forms α)) : Prop :=
  ∀ e ∈ special, ∃ f, sh.field? e.1 = some f ∧ f.Takes e.2

/-- No field has special forms. -/
lemma admits_nil (sh : Shape α) : sh.Admits [] :=
  List.forall_mem_nil _

/-- Each field is found under its own name. -/
lemma field?_of_mem (nodup : (sh.fields.map Field.name).Nodup) (mem : f ∈ sh.fields) :
    sh.field? f.name = some f := by
  obtain ⟨before, after, split⟩ := List.append_of_mem mem
  exact (field?_of_split split nodup).1

/-- Each field takes its forms. -/
lemma Admits.takes (ad : sh.Admits special) (nodup : (sh.fields.map Field.name).Nodup) (mem : f ∈ sh.fields) :
    f.Takes (part special f) := by
  unfold part
  cases h : special.lookup f.name with
  | none => exact f.takes_written
  | some F =>
    obtain ⟨before, after, rfl, -⟩ := List.lookup_eq_some_iff.mp h
    obtain ⟨g, found, takes⟩ := ad (f.name, F) (by simp)
    rw [field?_of_mem nodup mem] at found
    cases found
    exact takes

/-! ## What is given is taken -/

/-- A record whose fields that are left to be filled are filled already is complete. -/
lemma Refills.eq_of_kept {fs : List (Field α)} (re : Refills v fs w)
    (kept : ∀ f ∈ fs, ∀ frame, f.store frame (f.encode v).toData w = .ok w) : w = v := by
  induction re with
  | nil => rfl
  | @cons f fs w w' stored _ ih =>
    obtain ⟨here, later⟩ := List.forall_mem_cons.mp kept
    have same : w' = w := Except.ok.inj ((stored (.top .json)).symm.trans (here _))
    subst same
    exact ih later

/-- Items that give the first fields are taken, and the fields that they spare stay as they were. -/
lemma decodeItems_of_gives (sh : Shape α) (frame : Frame) {fs left : List (Field α)} {ds : List Data}
    (h : List.Forall₂ (fun f x => (part special f).gives v x) fs ds) (takes : ∀ f ∈ fs, f.Takes (part special f))
    (re : Refills v (fs ++ left) w) (taken : Nat) :
    ∃ w', Refills v left w' ∧
      sh.decodeItems frame taken w (fs ++ left) ds = sh.decodeItems frame (taken + ds.length) w' left [] ∧
      ((fs ++ left).Pairwise Field.Spares → ∀ g ∈ left, g.encode w' = g.encode w) := by
  induction h generalizing w taken with
  | nil => exact ⟨w, re, rfl, fun _ _ _ => rfl⟩
  | @cons f d fs ds first _ ih =>
    obtain ⟨here, later⟩ := List.forall_mem_cons.mp takes
    cases re with
    | @cons _ _ _ w₁ stored re =>
      obtain ⟨w', re', run, spared⟩ := ih later re (taken + 1)
      have filled : f.store frame d w = .ok w₁ := (here.gives frame v w d first).trans (stored frame)
      refine ⟨w', re', ?_, fun apart g mem => ?_⟩
      · rw [List.cons_append, decodeItems, filled, List.length_cons, Nat.add_comm ds.length, ← Nat.add_assoc]
        exact run
      · obtain ⟨spares, apart⟩ := List.pairwise_cons.mp apart
        exact (spared apart g mem).trans (spares g (List.mem_append_right _ mem) frame d w w₁ filled)

/-- Members that give fields are taken like those that are written. -/
lemma decodeMembers_of_gives (frame : Frame) {fs : List (Field α)} {ms : List (Option String × Data)}
    (h : List.Forall₂ (fun f m => m.1 = some f.name ∧ (part special f).gives v m.2) fs ms)
    (ad : sh.Admits special) (nodup : (sh.fields.map Field.name).Nodup) (sub : fs ⊆ sh.fields) (seen : List String)
    (w : α) :
    sh.decodeMembers frame seen w ms =
      sh.decodeMembers frame seen w (Json.membersData (fs.map fun f => (f.name, f.encode v))) := by
  induction h generalizing seen w with
  | nil => rfl
  | @cons f m fs ms first _ ih =>
    obtain ⟨key, d⟩ := m
    obtain ⟨rfl, first⟩ := first
    obtain ⟨mem, sub⟩ := List.cons_subset.mp sub
    have same := (ad.takes nodup mem).gives frame v w d first
    rw [List.map_cons, Json.membersData, decodeMembers, decodeMembers, field?_of_mem nodup mem]
    simp only [same, ih sub]

/-- The first fields are taken from an array of them, if those that are left out are as in the blank record. -/
lemma Regular.decode_list (rg : sh.Regular) (ad : sh.Admits special) (frame : Frame) {given left : List (Field α)}
    {ds : List Data} (split : sh.fields = given ++ left)
    (h : List.Forall₂ (fun f x => (part special f).gives v x) given ds)
    (early : left ≠ [] → sh.openEnded ∧ ∀ f ∈ left, f.encode v = f.encode sh.blank) :
    sh.decode frame (.list ds) = .ok v := by
  have takes (f) (mem : f ∈ given) : f.Takes (part special f) := ad.takes rg.names (by simp [split, mem])
  have re := rg.refills v
  rw [split] at re
  obtain ⟨w', re', run, spared⟩ := decodeItems_of_gives sh frame.inner h takes re 0
  rw [← split] at run
  refine run.trans ?_
  cases left with
  | nil =>
    cases re'
    rfl
  | cons g gs =>
    obtain ⟨ends, blank⟩ := early (List.cons_ne_nil _ _)
    have separate := rg.separate ends
    -- what is left out is as in the blank record, and so it is still
    have kept : w' = v := re'.eq_of_kept fun f mem frame => by
      rw [blank f mem, ← spared (split ▸ separate.spares) f mem]
      exact separate.own f (by simp [split, List.mem_cons.mp mem]) frame w'
    rw [decodeItems, if_pos ends, kept]

/-! ## What is miscounted is refused -/

/-- Items that are taken as fields are as many as there are fields, or fewer if the type allows it, and none of them is
miscounted. -/
lemma counts_of_decodeItems {fs : List (Field α)} {ds : List Data} {taken : Nat} (format : frame.dialect ≠ .toml)
    (takes : ∀ f ∈ fs, f.Takes (part special f)) (h : sh.decodeItems frame taken w fs ds = .ok v) :
    ds.length ≤ fs.length ∧ (ds.length < fs.length → sh.openEnded) ∧
      ∀ p ∈ fs.zip ds, ¬ (part special p.1).miscounts p.2 := by
  induction fs generalizing w ds taken with
  | nil =>
    cases ds with
    | nil => exact ⟨Nat.le_refl _, nofun, nofun⟩
    | cons d ds =>
      cases hd : frame.dialect with
      | toml => exact absurd hd format
      | json => simp [decodeItems, checkEnd, hd] at h
      | setAside => simp [decodeItems, checkEnd, hd] at h
  | cons f fs ih =>
    cases ds with
    | nil =>
      refine ⟨Nat.zero_le _, fun _ => ?_, by simp⟩
      by_contra closed
      rw [decodeItems, if_neg closed] at h
      cases h
    | cons d ds =>
      obtain ⟨here, later⟩ := List.forall_mem_cons.mp takes
      cases stored : f.store frame d w with
      | error => simp [decodeItems, stored] at h
      | ok w' =>
        obtain ⟨le, early, others⟩ := ih later (by simpa [decodeItems, stored] using h)
        refine ⟨Nat.succ_le_succ le, fun lt => early (Nat.lt_of_succ_lt_succ lt), ?_⟩
        rw [List.zip_cons_cons]
        exact List.forall_mem_cons.mpr ⟨here.counts frame w w' d format stored, others⟩

/-- No member that is taken as a field is miscounted. -/
lemma counts_of_decodeMembers {ms : List (Option String × Data)} {seen : List String}
    (format : frame.dialect ≠ .toml) (ad : sh.Admits special) (nodup : (sh.fields.map Field.name).Nodup)
    (h : sh.decodeMembers frame seen w ms = .ok v) :
    ∀ f ∈ sh.fields, ∀ x, (some f.name, x) ∈ ms → ¬ (part special f).miscounts x := by
  induction ms generalizing seen w with
  | nil => nofun
  | cons m ms ih =>
    obtain ⟨_ | name, d⟩ := m
    · cases h
    intro f mem x given
    rw [decodeMembers] at h
    split at h
    case h_1 unknown =>
      -- a member that no field has is skipped, so the field is given by a later one
      have other : name ≠ f.name := fun e => by
        rw [e, field?_of_mem nodup mem] at unknown
        cases unknown
      split at h
      case isFalse => cases h
      case isTrue =>
        refine ih h f mem x ((List.mem_cons.mp given).resolve_left fun e => other ?_)
        cases e
        rfl
    case h_2 g found =>
      split at h
      case isTrue => cases h
      case isFalse =>
        split at h
        case h_2 => cases h
        case h_1 w' stored =>
          rcases List.mem_cons.mp given with here | later
          · cases here
            rw [field?_of_mem nodup mem] at found
            cases found
            exact (ad.takes nodup mem).counts frame w w' d format stored
          · exact ih h f mem x later

/-! ## Records -/

/-- Members as they are written give their fields. -/
lemma gives_written {fs : List (Field α)} (wrote : ∀ f ∈ fs, (part special f).gives v (f.encode v).toData) :
    List.Forall₂ (fun f m => m.1 = some f.name ∧ (part special f).gives v m.2) fs
      (Json.membersData (fs.map fun f => (f.name, f.encode v))) := by
  induction fs with
  | nil => exact .nil
  | cons f fs ih =>
    obtain ⟨here, later⟩ := List.forall_mem_cons.mp wrote
    exact .cons ⟨rfl, here⟩ (ih later)

/-- Items as they are written give their fields. -/
lemma gives_written_items {fs : List (Field α)} :
    List.Forall₂ (fun f x => (part [] f).gives v x) fs (Json.itemsData (fs.map fun f => f.encode v)) := by
  induction fs with
  | nil => exact .nil
  | cons f fs ih => exact .cons rfl ih

/-- A regular record type takes its forms if its fields take theirs. -/
theorem Regular.takes (rg : sh.Regular) (ad : sh.Admits special) : sh.codec.Takes (sh.forms special) where
  writes v := .inl ⟨_, rfl, gives_written fun _ mem => (ad.takes rg.names mem).writes v⟩
  gives frame v d h := by
    obtain ⟨ms, rfl, given⟩ | ⟨given, left, ds, rfl, split, gives, early⟩ := h
    · have same := decodeMembers_of_gives frame.inner given ad rg.names (List.Subset.refl _) [] sh.blank
      exact same.trans (faithful rg.names rg.refills frame v)
    · exact rg.decode_list ad frame split gives early
  counts frame v d format h := by
    have inside : frame.inner.dialect ≠ .toml := format
    rintro (⟨ds, rfl, miscounted⟩ | ⟨ms, rfl, f, mem, x, given, miscounts⟩)
    · have takes (f) (mem : f ∈ sh.fields) : f.Takes (part special f) := ad.takes rg.names mem
      have taken : sh.decodeItems frame.inner 0 sh.blank sh.fields ds = .ok v := h
      obtain ⟨le, early, others⟩ := counts_of_decodeItems inside takes taken
      obtain long | ⟨short, closed⟩ | ⟨p, mem, miscounts⟩ := miscounted
      · exact Nat.not_lt.mpr le long
      · exact closed (early short)
      · exact others p mem miscounts
    · have taken : sh.decodeMembers frame.inner [] sh.blank ms = .ok v := h
      exact counts_of_decodeMembers inside ad rg.names taken f mem x given miscounts

end Shape

/-! ## Texts -/

namespace Codec

variable {c : Codec α} {F : Forms α}

/-- Every text that spells a form of a value gives the value, and every text that spells miscounted data is refused. -/
def TakesEither (c : Codec α) (F : Forms α) : Prop :=
  ∀ d text, Json.Spelling d text →
    (∀ v, F.gives v d → c.ofJson text = .ok v) ∧ (F.miscounts d → ∃ fault, c.ofJson text = .error fault)

/-- What miscounts somewhere is refused, whatever stands behind it. -/
lemma Takes.refuses (ta : c.Takes F) {d : Data} (h : F.miscounts d) (clean : Bool) :
    ∃ fault, finish clean (c.decode (.top .json) d) = .error fault := by
  cases taken : c.decode (.top .json) d with
  | error fault => exact ⟨fault, rfl⟩
  | ok v => exact absurd h (ta.counts (.top .json) v d (by decide) taken)

/-- Texts are taken and refused as the data that they spell. -/
lemma Takes.takesEither (ta : c.Takes F) : c.TakesEither F := by
  intro d text spelling
  obtain ⟨r, read, clean, -⟩ := spelling.read
  have run : c.ofJson text = finish (Json.endsClean (some r)) (c.decode (.top .json) d) := by rw [ofJson, read]
  refine ⟨fun v h => ?_, fun h => ?_⟩
  · rw [run, ta.gives _ v d h, finish, if_pos clean]
  · rw [run]
    exact ta.refuses h _

end Codec

namespace Shape

variable {sh : Shape α} {F : Forms α}

/-- A record type takes every text that spells one of its forms, among them arrays of the fields as they are written.
Such an array may end early if the type allows it and the fields that are left out are as in the blank record. It is
refused if it ends early though it may not, and if it goes on after the last field. -/
structure TakesEither (sh : Shape α) (F : Forms α) : Prop where
  forms : sh.codec.TakesEither F
  arrays : ∀ v n, (∀ f ∈ sh.fields.drop n, sh.openEnded ∧ f.encode v = f.encode sh.blank) →
    sh.codec.ofJson (sh.array n v).text = .ok v
  short : ∀ v n, n < sh.fields.length → ¬ sh.openEnded → ∃ fault, sh.codec.ofJson (sh.array n v).text = .error fault
  long : ∀ v extra more, ∃ fault,
    sh.codec.ofJson (Json.list (sh.fields.map (fun f => f.encode v) ++ extra :: more)).text = .error fault

/-- The reader finds as many items as were written. -/
lemma length_itemsData (xs : List Json) : (Json.itemsData xs).length = xs.length := by
  induction xs with
  | nil => rfl
  | cons x xs ih => exact congrArg Nat.succ ih

/-- A regular record type that takes forms takes them from texts, and its own fields in an array. -/
lemma Regular.takesEither (rg : sh.Regular) (ta : sh.codec.Takes F) : sh.TakesEither F where
  forms := ta.takesEither
  arrays v n filled := by
    have early : sh.fields.drop n ≠ [] → sh.openEnded ∧ ∀ f ∈ sh.fields.drop n, f.encode v = f.encode sh.blank := by
      intro some_left
      obtain ⟨f, mem⟩ := List.exists_mem_of_ne_nil _ some_left
      exact ⟨(filled f mem).1, fun f mem => (filled f mem).2⟩
    have taken : sh.codec.decode (.top .json) (sh.array n v).toData = .ok v :=
      rg.decode_list sh.admits_nil _ (List.take_append_drop n sh.fields).symm gives_written_items early
    rw [Codec.ofJson_text, taken]
    rfl
  short v n lt closed := by
    rw [Codec.ofJson_text]
    refine (rg.takes sh.admits_nil).refuses (.inl ⟨_, rfl, .inr (.inl ⟨?_, closed⟩)⟩) true
    rw [length_itemsData, List.length_map, List.length_take, Nat.min_eq_left (Nat.le_of_lt lt)]
    exact lt
  long v extra more := by
    rw [Codec.ofJson_text]
    refine (rg.takes sh.admits_nil).refuses (.inl ⟨_, rfl, .inl ?_⟩) true
    rw [length_itemsData, List.length_append, List.length_map, List.length_cons]
    omega

end Shape

end ModelScopes
