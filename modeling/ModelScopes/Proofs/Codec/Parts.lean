import Mathlib.Data.List.Nodup
import ModelScopes.Proofs.Codec.RoundTrip

/-!
# Parts of what was taken

What data was taken from, read backwards: a record that was taken from data was given each of its required fields by
one part of the data (`Shape.Puts.decode`), and a map was filled with the entries that the members of a part give, one
after another (`Codec.gives_of_orderedMap`).
-/

namespace ModelScopes

namespace Shape

variable {α : Type} {sh : Shape α} {v w : α} {frame : Frame} {f : Field α} {Q : Data → α → Prop}

/-- What data gives for the field of a name: the member of this name, or the item in the field's place. -/
def given? (sh : Shape α) (name : String) (d : Data) : Option Data :=
  match d with
  | .list items => items[sh.fields.findIdx fun f => f.name == name]?
  | d => (d.members?.getD []).lookup (some name)

/-- A needed field stores what its codec takes. -/
lemma store_needed {β : Type} {name : String} {c : Codec β} {get : α → β} {put : β → α → α} {d : Data} :
    (Field.needed name c get put).store frame d w = .ok v ↔ ∃ x, c.decode frame d = .ok x ∧ v = put x w := by
  show (c.decode frame d).map (put · w) = .ok v ↔ _
  cases c.decode frame d with
  | error e => simp [Except.map]
  | ok x => simp [Except.map, eq_comm]

/-- A field puts into the record what it is given, and the other fields let it be; `Q` says what it is given by. -/
structure Puts (sh : Shape α) (frame : Frame) (f : Field α) (Q : Data → α → Prop) : Prop where
  mem : f ∈ sh.fields
  required : f.required = true
  stored : ∀ d w w', f.store frame d w = .ok w' → Q d w'
  kept : ∀ g ∈ sh.fields, g.name ≠ f.name → ∀ d d' w w', g.store frame d' w = .ok w' → Q d w → Q d w'

/-- A required field puts into the record what it takes from what it is given. -/
lemma Puts.needed {β : Type} {name : String} {c : Codec β} {get : α → β} {put : β → α → α}
    (mem : .needed name c get put ∈ sh.fields) (get_put : ∀ x w, get (put x w) = x)
    (others : ∀ g ∈ sh.fields, g.name ≠ name → ∀ d w w', g.store frame d w = .ok w' → get w' = get w) :
    sh.Puts frame (.needed name c get put) fun d v => c.decode frame d = .ok (get v) := by
  refine ⟨mem, rfl, fun d w w' stored => ?_, fun g gmem ne d d' w w' stored taken => ?_⟩
  · obtain ⟨x, taken, rfl⟩ := store_needed.mp stored
    rw [get_put]
    exact taken
  · rw [others g gmem ne d' w w' stored]
    exact taken

/-- The field that is found by a name is one of the record's, and has this name. -/
lemma name_of_field? {name : String} (found : sh.field? name = some f) : f ∈ sh.fields ∧ f.name = name :=
  ⟨List.mem_of_find?_eq_some found, eq_of_beq (List.find?_some (p := fun f : Field α => f.name == name) found)⟩

/-- Every field is found by its name. -/
lemma field?_isSome (mem : f ∈ sh.fields) : (sh.field? f.name).isSome :=
  List.find?_isSome.mpr ⟨f, mem, beq_self_eq_true _⟩

/-- A field that was given keeps what it was given. -/
lemma Puts.keeps (pu : sh.Puts frame f Q) {seen : List String} {d : Data} {members : List (Option String × Data)}
    (old : f.name ∈ seen) (h : sh.decodeMembers frame seen w members = .ok v) (q : Q d w) : Q d v := by
  induction members generalizing seen w with
  | nil =>
    rw [decodeMembers, complete] at h
    split at h
    · cases h
    · cases h
      exact q
  | cons member rest ih =>
    obtain ⟨_ | name, d'⟩ := member
    · cases h
    rw [decodeMembers] at h
    split at h
    case h_1 =>
      split at h
      · exact ih old h q
      · cases h
    case h_2 g found =>
      split at h
      · cases h
      rename_i unseen
      split at h
      case h_2 => cases h
      case h_1 w' stored =>
        obtain ⟨mem, rfl⟩ := name_of_field? found
        have other : g.name ≠ f.name := fun e => unseen (by simpa [e] using old)
        exact ih (List.mem_cons_of_mem _ old) h (pu.kept g mem other d d' w w' stored q)

/-- A required field of a record that was taken from members was given by one of them. -/
lemma Puts.decodeMembers (pu : sh.Puts frame f Q) (nodup : (sh.fields.map Field.name).Nodup) {seen : List String}
    {members : List (Option String × Data)} (new : f.name ∉ seen)
    (h : sh.decodeMembers frame seen w members = .ok v) : ∃ d, members.lookup (some f.name) = some d ∧ Q d v := by
  induction members generalizing seen w with
  | nil =>
    rw [Shape.decodeMembers, complete] at h
    split at h
    · cases h
    · rename_i complete
      have := List.find?_eq_none.mp complete f pu.mem
      simp [pu.required, new] at this
  | cons member rest ih =>
    obtain ⟨_ | name, d'⟩ := member
    · cases h
    rw [Shape.decodeMembers] at h
    split at h
    case h_1 unknown =>
      have other : name ≠ f.name := fun e => by
        have := field?_isSome pu.mem
        rw [← e, unknown] at this
        cases this
      split at h
      · rw [List.lookup_cons, beq_false_of_ne (by simpa using other.symm)]
        exact ih new h
      · cases h
    case h_2 g found =>
      split at h
      · cases h
      split at h
      case h_2 => cases h
      case h_1 w' stored =>
        obtain ⟨mem, rfl⟩ := name_of_field? found
        by_cases same : g.name = f.name
        -- it is given here, and members that come later do not put anything else in its place
        · have e : g = f := List.inj_on_of_nodup_map nodup mem pu.mem same
          subst e
          refine ⟨d', by simp, pu.keeps (List.mem_cons_self ..) h (pu.stored d' w w' stored)⟩
        · rw [List.lookup_cons, beq_false_of_ne (by simpa using Ne.symm same)]
          refine ih ?_ h
          simp [new, Ne.symm same]

/-- A field of a record that was taken from items was given by the item in its place. -/
lemma Puts.decodeItems (pu : sh.Puts frame f Q) (closed : sh.openEnded = false) {fs : List (Field α)}
    (sub : fs ⊆ sh.fields) (nodup : (fs.map Field.name).Nodup) {taken : Nat} {items : List Data}
    (h : sh.decodeItems frame taken w fs items = .ok v) :
    (f ∈ fs → ∃ d, items[fs.findIdx fun g => g.name == f.name]? = some d ∧ Q d v) ∧
      (f.name ∉ fs.map Field.name → ∀ d, Q d w → Q d v) := by
  -- on the fields still to be given; what one of them took has to survive those that come after it
  induction fs generalizing taken w items with
  | nil =>
    refine ⟨nofun, fun _ d q => ?_⟩
    rw [Shape.decodeItems, checkEnd] at h
    split at h
    · cases h; exact q
    · split at h <;> cases h
      exact q
  | cons g fs ih =>
    obtain ⟨absent, nodup⟩ := List.nodup_cons.mp nodup
    cases items with
    | nil => simp [Shape.decodeItems, closed] at h
    | cons d ds =>
      rw [Shape.decodeItems] at h
      split at h
      case h_2 => cases h
      case h_1 w' stored =>
        obtain ⟨later, kept⟩ := ih (fun _ mem => sub (List.mem_cons_of_mem _ mem)) nodup h
        have gmem : g ∈ sh.fields := sub (List.mem_cons_self ..)
        refine ⟨fun mem => ?_, fun new d' q => ?_⟩
        · by_cases same : g.name = f.name
          · rcases List.mem_cons.mp mem with rfl | mem
            · exact ⟨d, by simp [List.findIdx_cons], kept absent d (pu.stored d w w' stored)⟩
            · exact absurd (same ▸ List.mem_map_of_mem mem) absent
          · rcases List.mem_cons.mp mem with rfl | mem
            · exact absurd rfl same
            · obtain ⟨d', hd', q⟩ := later mem
              exact ⟨d', by rw [List.findIdx_cons, beq_false_of_ne same]; exact hd', q⟩
        · rw [List.map_cons, List.mem_cons, not_or] at new
          exact kept new.2 d' (pu.kept g gmem (Ne.symm new.1) d' d w w' stored q)

/-- What a record was taken from gives all of its required fields. -/
lemma Puts.decode (pu : sh.Puts frame.inner f Q) (nodup : (sh.fields.map Field.name).Nodup)
    (closed : sh.openEnded = false) {d : Data} (h : sh.decode frame d = .ok v) :
    ∃ d', sh.given? f.name d = some d' ∧ Q d' v := by
  unfold Shape.decode at h
  split at h
  case h_1 items => exact (pu.decodeItems closed (List.Subset.refl _) nodup h).1 pu.mem
  case h_2 no_list =>
    split at h
    case h_2 => cases h
    case h_1 members found =>
      have given : sh.given? f.name d = members.lookup (some f.name) := by
        unfold given?
        split
        · exact (no_list _ rfl).elim
        · rw [found]
          rfl
      rw [given]
      exact pu.decodeMembers nodup List.not_mem_nil h

end Shape

namespace Codec

variable {α : Type} {c : Codec α} {frame : Frame}

/-- A value that is taken from a text is taken from what the reader finds in it. -/
lemma decode_of_ofJson {text : String} {v : α} (h : c.ofJson text = .ok v) :
    c.decode (.top .json) (Json.read text.toList).1 = .ok v := by
  change finish (Json.endsClean (Json.read text.toList).2) (c.decode (.top .json) (Json.read text.toList).1) =
    .ok v at h
  generalize c.decode (.top .json) (Json.read text.toList).1 = r at h
  cases r with
  | error => cases h
  | ok u =>
    rw [finish] at h
    split at h
    · exact h
    · cases h

/-- The members give these entries, in order. -/
def Gives (c : Codec α) (frame : Frame) (members : List (Option String × Data)) (es : List (String × α)) : Prop :=
  List.Forall₂ (fun member e => member.1 = some e.1 ∧ c.decode frame member.2 = .ok e.2) members es

/-- A map that is taken is filled in order with what its members give. -/
lemma gives_of_decodeEntries {m m' : OrderedMap α} {members : List (Option String × Data)}
    (h : c.decodeEntries frame m members = .ok m') :
    ∃ es, c.Gives frame members es ∧ m' = es.foldl (fun m e => m.insert e.1 e.2) m := by
  induction members generalizing m with
  | nil =>
    cases h
    exact ⟨[], .nil, rfl⟩
  | cons member rest ih =>
    obtain ⟨_ | key, d⟩ := member
    · cases h
    rw [decodeEntries] at h
    cases hd : c.decode frame d with
    | error => rw [hd] at h; cases h
    | ok a =>
      rw [hd] at h
      obtain ⟨es, gives, eq⟩ := ih h
      exact ⟨(key, a) :: es, .cons ⟨rfl, hd⟩ gives, eq⟩

/-- A map was taken from members that give entries, which were inserted in order. -/
lemma gives_of_orderedMap {m : OrderedMap α} {d : Data} (h : (orderedMap c).decode frame d = .ok m) :
    ∃ members es, d.members? = some members ∧ c.Gives frame.inner members es ∧ m = .ofList es := by
  unfold orderedMap at h
  simp only at h
  split at h
  case h_2 => cases h
  case h_1 members found =>
    obtain ⟨es, gives, eq⟩ := gives_of_decodeEntries h
    exact ⟨members, es, found, gives, eq⟩

end Codec

end ModelScopes
