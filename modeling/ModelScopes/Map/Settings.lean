/-!
# Settings

Texts under names, in the ascending order of the names. Texts are compared by code points, which is also the
order of their UTF-8 bytes. Main statement: what `get?` finds after an insertion.
-/

namespace ModelScopes

/-- Texts under names, in the order of the names. -/
structure Settings where
  entries : List (String × String)
  sorted : entries.Pairwise (fun a b => a.1 < b.1)
  deriving DecidableEq

namespace Settings

/-- No settings. -/
def empty : Settings :=
  ⟨[], List.Pairwise.nil⟩

instance : Inhabited Settings :=
  ⟨empty⟩

/-- The number of settings. -/
def size (s : Settings) : Nat :=
  s.entries.length

/-- The text under a name. -/
def get? (s : Settings) (name : String) : Option String :=
  (s.entries.find? (fun e => e.1 == name)).map Prod.snd

/-- Puts a text under a name, where the order of the names wants it. -/
def put (name value : String) : List (String × String) → List (String × String)
  | [] => [(name, value)]
  | e :: rest =>
    if e.1 < name then e :: put name value rest
    else if e.1 = name then (name, value) :: rest
    else (name, value) :: e :: rest

/-- Entries of the changed list are the new one or old ones. -/
theorem mem_put {name value : String} {es : List (String × String)} {e : String × String}
    (h : e ∈ put name value es) : e = (name, value) ∨ e ∈ es := by
  induction es with
  | nil => simpa [put] using h
  | cons d rest ih =>
    simp only [put] at h
    split at h
    · rcases List.mem_cons.1 h with rfl | h
      · exact Or.inr (List.mem_cons_self ..)
      · exact (ih h).imp_right (List.mem_cons_of_mem _)
    · split at h
      · rcases List.mem_cons.1 h with rfl | h
        · exact Or.inl rfl
        · exact Or.inr (List.mem_cons_of_mem _ h)
      · rcases List.mem_cons.1 h with rfl | h
        · exact Or.inl rfl
        · exact Or.inr h

/-- Of two different texts one comes before the other. -/
theorem lt_of_not_lt_of_ne {a b : String} (h : ¬ a < b) (hne : a ≠ b) : b < a := by
  rcases Std.lt_trichotomy a b with h1 | h1 | h1
  · exact absurd h1 h
  · exact absurd h1 hne
  · exact h1

/-- Names in order stay in order. -/
theorem sorted_put (name value : String) {es : List (String × String)}
    (h : es.Pairwise (fun a b => a.1 < b.1)) : (put name value es).Pairwise (fun a b => a.1 < b.1) := by
  induction es with
  | nil => simp [put]
  | cons d rest ih =>
    have ⟨hd, hrest⟩ := List.pairwise_cons.1 h
    simp only [put]
    split
    · rename_i hlt
      refine List.pairwise_cons.2 ⟨fun e he => ?_, ih hrest⟩
      rcases mem_put he with rfl | he
      · exact hlt
      · exact hd e he
    · split
      · rename_i heq
        refine List.pairwise_cons.2 ⟨fun e he => ?_, hrest⟩
        exact heq ▸ hd e he
      · rename_i hnlt hne
        have hlt : name < d.1 := lt_of_not_lt_of_ne hnlt hne
        refine List.pairwise_cons.2 ⟨fun e he => ?_, h⟩
        rcases List.mem_cons.1 he with rfl | he
        · exact hlt
        · exact String.lt_trans hlt (hd e he)

/-- The settings with a text under a name. -/
def insert (s : Settings) (name value : String) : Settings :=
  ⟨put name value s.entries, sorted_put name value s.sorted⟩

/-- The settings that inserting the pairs one after another builds. -/
def ofList (es : List (String × String)) : Settings :=
  es.foldl (fun s e => s.insert e.1 e.2) empty

/-- Under the name there is the new text, and under every other name what was there. -/
theorem find?_put (name k value : String) (es : List (String × String)) :
    (es.Pairwise (fun a b => a.1 < b.1)) →
    (put name value es).find? (fun e => e.1 == k) =
      if k = name then some (name, value) else es.find? (fun e => e.1 == k) := by
  intro h
  -- on the pairs, which are sorted: a new name goes in front of the first one that is greater
  induction es with
  | nil =>
    by_cases hk : k = name
    · simp [put, hk]
    · have h1 : ¬ name = k := fun e => hk e.symm
      simp [put, hk, h1]
  | cons d rest ih =>
    have ⟨hd, hrest⟩ := List.pairwise_cons.1 h
    simp only [put]
    split
    · rename_i hlt
      by_cases hk : k = name
      · subst hk
        have : ¬ d.1 = k := fun e => String.lt_irrefl _ (e ▸ hlt)
        simp [this, ih hrest]
      · by_cases hdk : d.1 = k
        · subst hdk
          simp [hk]
        · simp [hdk, ih hrest, hk]
    · split
      · rename_i heq
        by_cases hk : k = name
        · subst hk
          simp
        · have h1 : ¬ name = k := fun e => hk e.symm
          simp [hk, h1, heq]
      · by_cases hk : k = name
        · subst hk
          simp
        · have h1 : ¬ name = k := fun e => hk e.symm
          simp [hk, h1]

/-- What a name has after an insertion. -/
theorem get?_insert (s : Settings) (name k value : String) :
    (s.insert name value).get? k = if k = name then some value else s.get? k := by
  simp only [get?, insert, find?_put name k value s.entries s.sorted]
  split <;> simp

end Settings

end ModelScopes
