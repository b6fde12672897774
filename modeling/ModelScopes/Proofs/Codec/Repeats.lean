import Mathlib.Tactic.Common
import ModelScopes.Proofs.Codec.Forms
import ModelScopes.Proofs.Codec.Layouts
import ModelScopes.Proofs.Codec.Parts

/-!
# Members that are given more than once

What the members of an object come to if each of them is taken by itself: the fields that are given, unless one of them
is given more than once; then the object is refused for such a field (`Shape.decodeMembers_of_taken`). An object that
gives a field more than once is refused in any case, and so is all that has it in the place of a record:
`Codec.Refuses` says this of a codec, and each way to make a codec from others keeps it.
-/

namespace ModelScopes

variable {α β : Type}

/-! ## Names among members -/

namespace Data

variable {name : String} {d : Data} {ms : List (Option String × Data)}

/-- Two members or more give the name. -/
def Repeats (name : String) (ms : List (Option String × Data)) : Prop :=
  1 < (given name ms).length

instance (name : String) (ms : List (Option String × Data)) : Decidable (Repeats name ms) :=
  inferInstanceAs (Decidable (_ < _))

/-- What is given under a name is what some member of this name holds. -/
lemma mem_given : d ∈ given name ms ↔ (some name, d) ∈ ms := by
  simp [given]

/-- A first member with another key, or with none, gives nothing. -/
lemma given_eq_of_ne {key : Option String} (ne : key ≠ some name) (d : Data) (ms : List (Option String × Data)) :
    given name ((key, d) :: ms) = given name ms := by
  simp [given, ne]

/-- The first member that gives a name stands behind others that do not. -/
lemma split_of_given_cons {more : List Data} (h : given name ms = d :: more) :
    ∃ before after, ms = before ++ (some name, d) :: after ∧ given name before = [] ∧ given name after = more := by
  induction ms with
  | nil => cases h
  | cons m rest ih =>
    obtain ⟨key, d'⟩ := m
    by_cases here : key = some name
    · subst here
      rw [given_cons_self] at h
      cases h
      exact ⟨[], rest, rfl, rfl, rfl⟩
    · rw [given_eq_of_ne here] at h
      obtain ⟨before, after, rfl, none, others⟩ := ih h
      exact ⟨(key, d') :: before, after, rfl, (given_eq_of_ne here d' before).trans none, others⟩

/-- A name is given more than once just if members in two places give it, wherever these are. -/
lemma repeats_iff : Repeats name ms ↔
    ∃ before d between d' after, ms = before ++ (some name, d) :: (between ++ (some name, d') :: after) := by
  constructor
  · intro more
    unfold Repeats at more
    match h : given name ms with
    | [] | [_] => simp [h] at more
    | d :: d' :: others =>
      obtain ⟨before, rest, rfl, -, second⟩ := split_of_given_cons h
      obtain ⟨between, after, rfl, -, -⟩ := split_of_given_cons second
      exact ⟨before, d, between, d', after, rfl⟩
  · rintro ⟨before, d, between, d', after, rfl⟩
    simp only [Repeats, given_append, given_cons_self, List.length_append, List.length_cons]
    omega

/-- Looking a name up finds the first member that gives it. -/
lemma lookup_eq_head? (name : String) (ms : List (Option String × Data)) :
    ms.lookup (some name) = (given name ms).head? := by
  induction ms with
  | nil => rfl
  | cons m rest ih =>
    obtain ⟨key, d⟩ := m
    by_cases here : key = some name
    · subst here
      rw [given_cons_self, List.lookup_cons, beq_self_eq_true]
      rfl
    · rw [given_eq_of_ne here, List.lookup_cons, beq_false_of_ne (Ne.symm here), ih]

end Data

/-! ## Members that are taken one by one -/

namespace Shape

variable {sh : Shape α} {frame : Frame} {f : Field α} {v w : α} {d : Data} {ms : List (Option String × Data)}

/-- The member can be taken by itself: its field takes what it is given, or no field has its name and it can be
skipped. -/
def TakesMember (sh : Shape α) (frame : Frame) (m : Option String × Data) : Prop :=
  ∃ name, m.1 = some name ∧
    match sh.field? name with
    | some f => ∀ w, ∃ w', f.store frame m.2 w = .ok w'
    | none => m.2.isWhole

/-- What members come to of which each can be taken by itself: they give the fields that they name, unless a field is
given more than once; then one of those is reported. -/
inductive Reads (sh : Shape α) (seen : List String) (ms : List (Option String × Data)) : Except Fault α → Prop where
  | given {seen' : List String} (w : α) :
    (∀ f ∈ sh.fields, f.name ∈ seen' ↔ f.name ∈ seen ∨ Data.given f.name ms ≠ []) →
    (∀ f ∈ sh.fields, ¬ Data.Repeats f.name ms ∧ (f.name ∈ seen → Data.given f.name ms = [])) →
    Reads sh seen ms (sh.complete seen' w)
  | again {f : Field α} : f ∈ sh.fields →
    Data.Repeats f.name ms ∨ (f.name ∈ seen ∧ Data.given f.name ms ≠ []) →
    Reads sh seen ms (.error (.duplicateField f.name))

/-- A name that finds no field is no field's name. -/
lemma name_ne_of_field?_none {name : String} (unknown : sh.field? name = none) (mem : f ∈ sh.fields) :
    f.name ≠ name := by
  simpa using List.find?_eq_none.mp unknown f mem

/-- Only what the members give to fields counts. -/
lemma Reads.of_same {seen : List String} {ms' : List (Option String × Data)} {r : Except Fault α}
    (same : ∀ f ∈ sh.fields, Data.given f.name ms' = Data.given f.name ms) (re : sh.Reads seen ms r) :
    sh.Reads seen ms' r := by
  cases re with
  | given w seen_iff once =>
    refine .given w (fun f mem => ?_) fun f mem => ?_
    · rw [same f mem]
      exact seen_iff f mem
    · rw [Data.Repeats, same f mem]
      exact once f mem
  | again mem more => exact .again mem (by rwa [Data.Repeats, same _ mem])

/-- A field that is given first is one that has been seen for the members behind. -/
lemma Reads.of_seen {seen : List String} {r : Except Fault α} (unseen : f.name ∉ seen) (d : Data)
    (re : sh.Reads (f.name :: seen) ms r) : sh.Reads seen ((some f.name, d) :: ms) r := by
  have self := Data.given_cons_self f.name d ms
  have other (g : Field α) (ne : g.name ≠ f.name) :
      Data.given g.name ((some f.name, d) :: ms) = Data.given g.name ms := Data.given_cons_of_ne ne.symm d ms
  cases re with
  | given w seen_iff once =>
    refine .given w (fun g mem => ?_) fun g mem => ?_
    · rw [seen_iff g mem, List.mem_cons]
      by_cases same : g.name = f.name
      · simp [same, self]
      · simp [same, other g same]
    · obtain ⟨single, none⟩ := once g mem
      by_cases same : g.name = f.name
      · have none := none (same ▸ List.mem_cons_self ..)
        rw [same] at none ⊢
        exact ⟨by simp [Data.Repeats, self, none], fun old => absurd old unseen⟩
      · rw [Data.Repeats, other g same]
        exact ⟨single, fun old => none (List.mem_cons_of_mem _ old)⟩
  | @again g mem more =>
    refine .again mem ?_
    by_cases same : g.name = f.name
    · refine .inl ?_
      rw [same] at more ⊢
      rw [Data.Repeats, self, List.length_cons]
      rcases more with more | ⟨-, some⟩
      · exact Nat.lt_succ_of_lt more
      · exact Nat.succ_lt_succ (List.length_pos_of_ne_nil some)
    · rw [Data.Repeats, other g same]
      exact more.imp_right (And.imp_left fun old => (List.mem_cons.mp old).resolve_left same)

/-- Members each of which can be taken give the fields that they name, unless one of these is given again. -/
lemma decodeMembers_of_taken (taken : ∀ m ∈ ms, sh.TakesMember frame m) (seen : List String) (w : α) :
    sh.Reads seen ms (sh.decodeMembers frame seen w ms) := by
  induction ms generalizing seen w with
  | nil =>
    exact .given w (fun f _ => by simp [Data.given]) fun f _ => ⟨by simp [Data.Repeats, Data.given], fun _ => rfl⟩
  | cons m ms ih =>
    obtain ⟨⟨name, key, here⟩, later⟩ := List.forall_mem_cons.mp taken
    obtain ⟨key', d⟩ := m
    cases key
    rw [decodeMembers]
    cases found : sh.field? name with
    | none =>
      simp only [found] at here
      refine .of_same (fun f mem => Data.given_cons_of_ne (name_ne_of_field?_none found mem).symm d ms) ?_
      simpa only [here, if_true] using ih later seen w
    | some f =>
      simp only [found] at here
      obtain ⟨mem, rfl⟩ := name_of_field? found
      by_cases old : f.name ∈ seen
      · simp only [List.contains_iff_mem.mpr old, if_true]
        exact .again mem (.inr ⟨old, by simp [Data.given_cons_self]⟩)
      · obtain ⟨w', stored⟩ := here w
        have new : seen.contains f.name = false := by simpa using old
        simp only [new, stored]
        exact (ih later (f.name :: seen) w').of_seen old d

/-! ## Records whose fields are given once -/

/-- A record whose fields were all seen is complete. -/
lemma complete_of_seen {seen : List String} (all : ∀ f ∈ sh.fields, f.name ∈ seen) (w : α) :
    sh.complete seen w = .ok w := by
  have none_missing : sh.fields.find? (fun f => f.required && !seen.contains f.name) = none :=
    List.find?_eq_none.mpr fun f mem => by simp [all f mem]
  rw [complete, none_missing]

/-- If a field is given more than once, and each member can be taken by itself, such a field is reported. -/
lemma decode_of_repeats (taken : ∀ m ∈ ms, sh.TakesMember frame.inner m) (mem : f ∈ sh.fields)
    (more : Data.Repeats f.name ms) :
    ∃ g ∈ sh.fields, Data.Repeats g.name ms ∧ sh.decode frame (.record ms) = .error (.duplicateField g.name) := by
  have reads : sh.Reads [] ms (sh.decode frame (.record ms)) := decodeMembers_of_taken taken [] sh.blank
  generalize sh.decode frame (.record ms) = r at reads
  cases reads with
  | given w _ once => exact absurd more (once f mem).1
  | again gmem again => exact ⟨_, gmem, again.resolve_right fun old => List.not_mem_nil old.1, rfl⟩

/-- Every field is given, by one member or item. -/
def GivenOnce (sh : Shape α) : Data → Prop
  | .list ds => ds.length = sh.fields.length
  | .record ms => Data.Keyed ms ∧ ∀ f ∈ sh.fields, (Data.given f.name ms).length = 1
  | _ => False

/-- An object gives a field what the first member of its name holds. -/
lemma given?_record (sh : Shape α) (name : String) (ms : List (Option String × Data)) :
    sh.given? name (.record ms) = (Data.given name ms).head? :=
  Data.lookup_eq_head? name ms

/-- An array each of whose items can be stored is taken. -/
lemma decodeItems_of_stores {fs : List (Field α)} {ds : List Data}
    (stores : List.Forall₂ (fun f x => ∀ w, ∃ w', f.store frame x w = .ok w') fs ds) (taken : Nat) (w : α) :
    ∃ v, sh.decodeItems frame taken w fs ds = .ok v := by
  induction stores generalizing taken w with
  | nil => exact ⟨w, rfl⟩
  | cons here _ ih =>
    obtain ⟨w', stored⟩ := here w
    obtain ⟨v, rest⟩ := ih (taken + 1) w'
    exact ⟨v, by simp only [decodeItems, stored, rest]⟩

/-- A field stands at the first place of its name. -/
lemma findIdx_name (nodup : (sh.fields.map Field.name).Nodup) {i : Nat} (h : sh.fields[i]? = some f) :
    sh.fields.findIdx (fun g => g.name == f.name) = i := by
  obtain ⟨lt, rfl⟩ := List.getElem?_eq_some_iff.mp h
  refine (List.findIdx_eq lt).mpr ⟨beq_self_eq_true _, fun j before => beq_false_of_ne fun same => ?_⟩
  exact List.pairwise_iff_getElem.mp (List.pairwise_map.mp nodup) j i _ lt before same

/-- A record each of whose fields is given once, by what the field takes, is taken. -/
lemma exists_of_givenOnce (nodup : (sh.fields.map Field.name).Nodup) (once : sh.GivenOnce d) (whole : d.isWhole)
    (stores : ∀ f ∈ sh.fields, ∀ x, sh.given? f.name d = some x → ∀ w, ∃ w', f.store frame.inner x w = .ok w') :
    ∃ v, sh.decode frame d = .ok v := by
  cases d with
  | list ds =>
    have fitting : List.Forall₂ (fun f x => ∀ w, ∃ w', f.store frame.inner x w = .ok w') sh.fields ds := by
      refine List.forall₂_iff_get.mpr ⟨once.symm, fun i lt lt' => ?_⟩
      refine stores _ (List.get_mem _ _) _ ?_
      have place := findIdx_name nodup (List.getElem?_eq_getElem lt)
      exact (congrArg (ds[·]?) place).trans (List.getElem?_eq_getElem lt')
    exact decodeItems_of_stores fitting 0 sh.blank
  | record ms =>
    obtain ⟨keyed, once⟩ := once
    -- a member that names a field is the one part that gives it, and the field takes that part
    have taken : ∀ m ∈ ms, sh.TakesMember frame.inner m := by
      rintro ⟨key, x⟩ mem
      obtain ⟨name, rfl⟩ := Option.isSome_iff_exists.mp (keyed _ mem)
      refine ⟨name, rfl, ?_⟩
      cases found : sh.field? name with
      | none => exact Data.membersWhole_iff.mp whole _ mem
      | some f =>
        obtain ⟨fmem, rfl⟩ := name_of_field? found
        obtain ⟨y, only⟩ := List.length_eq_one_iff.mp (once f fmem)
        have here : x ∈ Data.given f.name ms := Data.mem_given.mpr mem
        rw [only, List.mem_singleton] at here
        exact stores f fmem x (by rw [given?_record, only, here]; rfl)
    have reads : sh.Reads [] ms (sh.decode frame (.record ms)) := decodeMembers_of_taken taken [] sh.blank
    generalize sh.decode frame (.record ms) = r at reads
    cases reads with
    | given w seen_iff _ =>
      refine ⟨w, complete_of_seen (fun f mem => (seen_iff f mem).mpr (.inr fun none => ?_)) w⟩
      have one := once f mem
      rw [none] at one
      cases one
    -- a member that is refused as given again would be a second one of its field
    | @again f mem again =>
      have one := once f mem
      rcases again with more | ⟨old, -⟩
      · exact absurd more (Nat.not_lt.mpr (Nat.le_of_eq one))
      · cases old
  | _ => exact once.elim

end Shape

/-! ## Codecs that refuse data -/

/-- The codec takes nothing from such data. -/
def Codec.Refuses (c : Codec α) (bad : Data → Prop) : Prop :=
  ∀ frame v d, c.decode frame d = .ok v → ¬ bad d

/-- The field takes nothing from such data. -/
def Field.Refuses (f : Field α) (bad : Data → Prop) : Prop :=
  ∀ frame d w w', f.store frame d w = .ok w' → ¬ bad d

namespace Data

/-- A list with an item of this kind. -/
def HasItem (bad : Data → Prop) (d : Data) : Prop :=
  ∃ ds, d = .list ds ∧ ∃ x ∈ ds, bad x

/-- An object with a member of this kind. -/
def HasMember (bad : Data → Prop) (d : Data) : Prop :=
  ∃ ms, d = .record ms ∧ ∃ m ∈ ms, bad m.2

end Data

namespace Codec

variable {c : Codec α} {bad : Data → Prop}

/-- A list with an item that is refused is refused. -/
lemma Refuses.list (re : c.Refuses bad) : (Codec.list c).Refuses (Data.HasItem bad) := by
  rintro frame vs d h ⟨ds, rfl, x, mem, bad⟩
  obtain ⟨v, taken⟩ := exists_of_decodeItems h x mem
  exact re frame.inner v x taken bad

/-- A map with a value that is refused is refused. -/
lemma Refuses.orderedMap (re : c.Refuses bad) : (Codec.orderedMap c).Refuses (Data.HasMember bad) := by
  rintro frame m d h ⟨ms, rfl, x, mem, bad⟩
  obtain ⟨v, taken⟩ := exists_of_decodeEntries h x mem
  exact re frame.inner v x.2 taken bad

/-- A needed field refuses what its codec refuses. -/
lemma Refuses.needed (re : c.Refuses bad) {name : String} {get : β → α} {put : α → β → β} :
    (Field.needed name c get put).Refuses bad := by
  intro frame d w w' stored
  obtain ⟨v, taken, -⟩ := Shape.store_needed.mp stored
  exact re frame v d taken

/-- A field that may be left out refuses what its codec refuses. -/
lemma Refuses.optional (re : c.Refuses bad) {name : String} {get : β → α} {put : α → β → β} :
    (Field.optional name c get put).Refuses bad := by
  have needed : (Field.needed name c get put).Refuses bad := re.needed
  exact needed

end Codec

namespace Shape

variable {sh : Shape α} {frame : Frame} {f : Field α} {v w : α} {d x : Data} {ms : List (Option String × Data)}

/-- An object that gives one of the record's fields more than once, or something with such an object in the place of a
record inside one of its fields; `inner` says which data has one inside a field. -/
inductive Repeats (sh : Shape α) (inner : List (String × (Data → Prop))) : Data → Prop where
  | own {f : Field α} {ms : List (Option String × Data)} : f ∈ sh.fields → Data.Repeats f.name ms →
    Repeats sh inner (.record ms)
  | inside {name : String} {bad : Data → Prop} {d x : Data} : (name, bad) ∈ inner → sh.given? name d = some x →
    bad x → Repeats sh inner d

/-- The first of the members that are taken is skipped, or it gives a field that was not seen so far. -/
lemma decodeMembers_cons {seen : List String} {key : Option String}
    (h : sh.decodeMembers frame seen w ((key, d) :: ms) = .ok v) :
    (∃ name, key = some name ∧ sh.field? name = none ∧ sh.decodeMembers frame seen w ms = .ok v) ∨
      ∃ f w', key = some f.name ∧ sh.field? f.name = some f ∧ f.name ∉ seen ∧ f.store frame d w = .ok w' ∧
        sh.decodeMembers frame (f.name :: seen) w' ms = .ok v := by
  cases key with
  | none => cases h
  | some name =>
    rw [decodeMembers] at h
    cases found : sh.field? name with
    | none =>
      simp only [found] at h
      split at h
      · exact .inl ⟨name, rfl, found, h⟩
      · cases h
    | some f =>
      obtain ⟨-, rfl⟩ := name_of_field? found
      simp only [found] at h
      split at h
      · cases h
      rename_i unseen
      split at h
      case h_2 => cases h
      case h_1 w' stored => exact .inr ⟨f, w', rfl, found, by simpa using unseen, stored, h⟩

/-- No field is given again by members that are taken. -/
lemma given_of_decodeMembers {seen : List String} (h : sh.decodeMembers frame seen w ms = .ok v)
    (mem : f ∈ sh.fields) : ¬ Data.Repeats f.name ms ∧ (f.name ∈ seen → Data.given f.name ms = []) := by
  induction ms generalizing seen w with
  | nil => exact ⟨by simp [Data.Repeats, Data.given], fun _ => rfl⟩
  | cons m ms ih =>
    obtain ⟨key, d⟩ := m
    rcases decodeMembers_cons h with ⟨name, rfl, unknown, rest⟩ | ⟨g, w', rfl, -, unseen, -, rest⟩
    · rw [Data.Repeats, Data.given_cons_of_ne (name_ne_of_field?_none unknown mem).symm]
      exact ih rest
    · obtain ⟨once, none⟩ := ih rest
      by_cases same : f.name = g.name
      · have none := none (same ▸ List.mem_cons_self ..)
        rw [same] at none ⊢
        exact ⟨by simp [Data.Repeats, Data.given_cons_self, none], fun old => absurd old unseen⟩
      · rw [Data.Repeats, Data.given_cons_of_ne (Ne.symm same)]
        exact ⟨once, fun old => none (List.mem_cons_of_mem _ old)⟩

/-- A field takes what members that are taken give it. -/
lemma stored_of_decodeMembers (nodup : (sh.fields.map Field.name).Nodup) {seen : List String}
    (h : sh.decodeMembers frame seen w ms = .ok v) (mem : f ∈ sh.fields) (given : (some f.name, x) ∈ ms) :
    ∃ w w', f.store frame x w = .ok w' := by
  induction ms generalizing seen w with
  | nil => cases given
  | cons m ms ih =>
    obtain ⟨key, d⟩ := m
    rcases decodeMembers_cons h with ⟨name, rfl, unknown, rest⟩ | ⟨g, w', rfl, found, -, stored, rest⟩
    · refine ih rest ((List.mem_cons.mp given).resolve_left fun here => ?_)
      cases here
      exact name_ne_of_field?_none unknown mem rfl
    · rcases List.mem_cons.mp given with here | later
      · obtain ⟨same, rfl⟩ := Prod.mk.inj here
        rw [← Option.some.inj same, field?_of_mem nodup mem] at found
        cases found
        exact ⟨w, w', stored⟩
      · exact ih rest later

/-- A field takes the item in its place. -/
lemma stored_of_decodeItems {fs : List (Field α)} {ds : List Data} {taken i : Nat}
    (h : sh.decodeItems frame taken w fs ds = .ok v) (hf : fs[i]? = some f) (hx : ds[i]? = some x) :
    ∃ w w', f.store frame x w = .ok w' := by
  induction fs generalizing ds taken w i with
  | nil => cases hf
  | cons g fs ih =>
    cases ds with
    | nil => cases hx
    | cons d ds =>
      rw [decodeItems] at h
      split at h
      case h_2 => cases h
      case h_1 w' stored =>
        cases i with
        | zero =>
          cases hf
          cases hx
          exact ⟨w, w', stored⟩
        | succ i => exact ih h hf hx

/-- A field of a record that is taken takes what it is given. -/
lemma stored_of_decode (nodup : (sh.fields.map Field.name).Nodup) (h : sh.decode frame d = .ok v) (mem : f ∈ sh.fields)
    (given : sh.given? f.name d = some x) : ∃ w w', f.store frame.inner x w = .ok w' := by
  unfold decode at h
  split at h
  case h_1 ds =>
    obtain ⟨i, hi⟩ := List.mem_iff_getElem?.mp mem
    rw [given?, findIdx_name nodup hi] at given
    exact stored_of_decodeItems h hi given
  case h_2 no_list =>
    split at h
    case h_2 => cases h
    case h_1 members found =>
      have looked_up : sh.given? f.name d = members.lookup (some f.name) := by
        unfold given?
        split
        · exact (no_list _ rfl).elim
        · rw [found]
          rfl
      rw [looked_up, Data.lookup_eq_head?] at given
      exact stored_of_decodeMembers nodup h mem (Data.mem_given.mp (List.mem_of_head? given))

/-- A record type refuses objects that give a field more than once, and whatever its fields refuse. -/
lemma refuses (nodup : (sh.fields.map Field.name).Nodup) {inner : List (String × (Data → Prop))}
    (fields : ∀ e ∈ inner, ∃ f, sh.field? e.1 = some f ∧ f.Refuses e.2) : sh.codec.Refuses (sh.Repeats inner) := by
  intro frame v d h repeats
  cases repeats with
  | own mem more =>
    have taken : sh.decodeMembers frame.inner [] sh.blank _ = .ok v := h
    exact (given_of_decodeMembers taken mem).1 more
  | inside mem given bad =>
    obtain ⟨f, found, refuses⟩ := fields _ mem
    obtain ⟨fmem, rfl⟩ := name_of_field? found
    obtain ⟨w, w', stored⟩ := stored_of_decode nodup h fmem given
    exact refuses frame.inner _ w w' stored bad

end Shape

end ModelScopes
