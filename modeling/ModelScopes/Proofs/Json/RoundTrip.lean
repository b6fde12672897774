import Mathlib.Tactic.Common
import ModelScopes.Json.Basic
import ModelScopes.Json.Reader

/-!
# What was written reads back

The reader finds in the text of a JSON value what was written, and after it whatever follows. Each written value ends
where its text says so, thus nothing is asked of what follows. The main statement is `Json.read_write`.
-/

namespace ModelScopes.Json

mutual

/-- The value as a reader finds it. -/
def toData : Json → Data
  | .null => .null
  | .bool b => .bool b
  | .string s => .string s
  | .list items => .list (itemsData items)
  | .record members => .record (membersData members)

/-- The items as a reader finds them. -/
def itemsData : List Json → List Data
  | [] => []
  | v :: rest => toData v :: itemsData rest

/-- The members as a reader finds them. -/
def membersData : List (String × Json) → List (Option String × Data)
  | [] => []
  | (k, v) :: rest => (some k, toData v) :: membersData rest

end

mutual

/-- The reader does not stop inside what was written. -/
lemma whole_toData : ∀ v : Json, v.toData.isWhole
  | .null | .bool _ | .string _ => rfl
  | .list items => whole_itemsData items
  | .record members => whole_membersData members

/-- The reader does not stop inside items that were written. -/
lemma whole_itemsData : ∀ items : List Json, Data.allWhole (itemsData items)
  | [] => rfl
  | v :: rest => by
    rw [itemsData, Data.allWhole, whole_toData v, whole_itemsData rest]
    rfl

/-- The reader does not stop inside members that were written. -/
lemma whole_membersData : ∀ members : List (String × Json), Data.membersWhole (membersData members)
  | [] => rfl
  | (k, v) :: rest => by
    rw [membersData, Data.membersWhole, whole_toData v, whole_membersData rest]
    rfl

end

/-! ## Strings -/

/-- Two digits behind two zeros are read as the number they stand for. -/
lemma unit?_toChar (a b : Fin 16) :
    unit? '0' '0' (Text.Hex.toChar a) (Text.Hex.toChar b) = some (16 * a.val + b.val) := by
  have zero : Text.Hex.ofChar? '0' = some 0 := rfl
  simp [unit?, zero, Text.Hex.ofChar?_toChar, Text.Hex.value]

/-- A control character is written by its two low digits. -/
lemma ofNat_low_digits {c : Char} (low : c.toNat < 0x20) :
    Char.ofNat (16 * (Fin.ofNat 16 (c.toNat / 16)).val + (Fin.ofNat 16 c.toNat).val) = c := by
  have digits : 16 * (Fin.ofNat 16 (c.toNat / 16)).val + (Fin.ofNat 16 c.toNat).val = c.toNat := by
    simp only [Fin.val_ofNat]
    omega
  rw [digits, Char.ofNat_toNat]

/-- An escape of a small code unit is read as its character. -/
lemma readChars_unit {a b : Char} {u : Nat} (hu : unit? '0' '0' a b = some u) (small : u < 0xd800) (rest : List Char) :
    readChars ('\\' :: 'u' :: '0' :: '0' :: a :: b :: rest) = addChar (Char.ofNat u) (readChars rest) := by
  rw [readChars, hu]
  simp only
  rw [if_neg (by omega), if_neg (by omega)]

/-- A character that needs no escape is read as itself. -/
lemma readChars_plain {c : Char} (quote : c ≠ '"') (backslash : c ≠ '\\') (high : ¬ c.toNat < 0x20) (rest : List Char) :
    readChars (c :: rest) = addChar c (readChars rest) := by
  rw [readChars, if_neg high] <;> simp_all

/-- One character reads back, however it was written. -/
lemma readChars_escape (c : Char) (rest : List Char) :
    readChars (escape c ++ rest) = addChar c (readChars rest) := by
  by_cases quote : c = '"'
  · subst quote
    rfl
  by_cases backslash : c = '\\'
  · subst backslash
    rfl
  by_cases b : c = '\x08'
  · subst b
    rfl
  by_cases f : c = '\x0c'
  · subst f
    rfl
  by_cases n : c = '\n'
  · subst n
    rfl
  by_cases r : c = '\r'
  · subst r
    rfl
  by_cases t : c = '\t'
  · subst t
    rfl
  -- no short escape is left: control characters are written as units, and all others as themselves
  rw [escape, if_neg quote, if_neg backslash, if_neg b, if_neg f, if_neg n, if_neg r, if_neg t]
  split
  case isTrue low =>
    have hu := unit?_toChar (Fin.ofNat 16 (c.toNat / 16)) (Fin.ofNat 16 c.toNat)
    have small : 16 * (Fin.ofNat 16 (c.toNat / 16)).val + (Fin.ofNat 16 c.toNat).val < 0xd800 := by
      simp only [Fin.val_ofNat]
      omega
    have eq := readChars_unit hu small rest
    rw [ofNat_low_digits low] at eq
    exact eq
  case isFalse high => exact readChars_plain quote backslash high rest

/-- Characters that were written are read back. -/
lemma readChars_writeChars (cs rest : List Char) : readChars (writeChars rest cs) = (some cs, some rest) := by
  induction cs with
  | nil => rfl
  | cons c cs ih =>
    rw [writeChars, readChars_escape, ih]
    rfl

/-- A text that was written is read back. -/
lemma readText_writeChars (s : String) (rest : List Char) :
    readText (writeChars rest s.toList) = (some s, some rest) := by
  rw [readText, readChars_writeChars]
  simp

/-- A string that was written is read back as data. -/
lemma readString_writeChars (s : String) (rest : List Char) :
    readString (writeChars rest s.toList) = (.string s, some rest) := by
  rw [readString, readText_writeChars]

/-! ## Heads and lengths of texts -/

/-- What does not begin with a blank is not shortened. -/
lemma skipSpace_of_not_space {c : Char} (h : isSpace c = false) (rest : List Char) :
    skipSpace (c :: rest) = c :: rest := by
  simp [skipSpace, h]

/-- A value starts with a character that is neither a blank nor a closing bracket. -/
lemma write_eq_cons (v : Json) (rest : List Char) :
    ∃ c cs, write v rest = c :: cs ∧ isSpace c = false ∧ c ≠ ']' := by
  cases v with
  | null => exact ⟨'n', _, rfl, rfl, by decide⟩
  | bool b => cases b with
    | true => exact ⟨'t', _, rfl, rfl, by decide⟩
    | false => exact ⟨'f', _, rfl, rfl, by decide⟩
  | string s => exact ⟨'"', _, by rw [write, writeString], rfl, by decide⟩
  | list items => cases items with
    | nil => exact ⟨'[', _, by rw [write], rfl, by decide⟩
    | cons x xs => exact ⟨'[', _, by rw [write], rfl, by decide⟩
  | record members => cases members with
    | nil => exact ⟨'\x7b', _, by rw [write], rfl, by decide⟩
    | cons e ms => exact ⟨'\x7b', _, by rw [write], rfl, by decide⟩

/-- Writing characters adds a quote at least. -/
lemma length_lt_writeChars (rest cs : List Char) : rest.length < (writeChars rest cs).length := by
  induction cs with
  | nil => simp [writeChars]
  | cons c cs ih =>
    rw [writeChars, List.length_append]
    omega

/-- Writing a string adds two quotes at least. -/
lemma length_lt_writeString (s : String) (rest : List Char) : rest.length + 1 < (writeString s rest).length :=
  Nat.succ_lt_succ (length_lt_writeChars rest s.toList)

mutual

/-- Writing a value adds a character at least. -/
lemma length_lt_write : ∀ (v : Json) (rest : List Char), rest.length < (write v rest).length
  | .null, rest => by
    simp only [write, List.length_append]
    exact Nat.lt_add_of_pos_left (by decide)
  | .bool true, rest => by
    simp only [write, List.length_append]
    exact Nat.lt_add_of_pos_left (by decide)
  | .bool false, rest => by
    simp only [write, List.length_append]
    exact Nat.lt_add_of_pos_left (by decide)
  | .string s, rest => by
    have := length_lt_writeString s rest
    rw [write]
    omega
  | .list [], rest => by
    rw [write]
    exact Nat.lt_add_of_pos_right (n := rest.length) (k := 2) (by decide)
  | .list (x :: xs), rest => by
    have head := length_lt_write x (writeItems xs rest)
    have tail := length_lt_writeItems xs rest
    rw [write, List.length_cons]
    omega
  | .record [], rest => by
    rw [write]
    exact Nat.lt_add_of_pos_right (n := rest.length) (k := 2) (by decide)
  | .record ((k, v) :: ms), rest => by
    have key := length_lt_writeString k (':' :: write v (writeMembers ms rest))
    have head := length_lt_write v (writeMembers ms rest)
    have tail := length_lt_writeMembers ms rest
    rw [write, List.length_cons]
    rw [List.length_cons] at key
    omega

/-- Writing items adds a bracket at least. -/
lemma length_lt_writeItems : ∀ (xs : List Json) (rest : List Char), rest.length < (writeItems xs rest).length
  | [], rest => by simp [writeItems]
  | x :: xs, rest => by
    have head := length_lt_write x (writeItems xs rest)
    have tail := length_lt_writeItems xs rest
    rw [writeItems, List.length_cons]
    omega

/-- Writing members adds a brace at least. -/
lemma length_lt_writeMembers : ∀ (ms : List (String × Json)) (rest : List Char),
    rest.length < (writeMembers ms rest).length
  | [], rest => by simp [writeMembers]
  | (k, v) :: ms, rest => by
    have key := length_lt_writeString k (':' :: write v (writeMembers ms rest))
    have head := length_lt_write v (writeMembers ms rest)
    have tail := length_lt_writeMembers ms rest
    rw [writeMembers, List.length_cons]
    rw [List.length_cons] at key
    omega

end

/-! ## Values -/

/-- A quote begins a string. -/
lemma readValue_string (fuel : Nat) (s : String) (rest : List Char) :
    readValue (fuel + 1) (writeString s rest) = (.string s, some rest) := by
  rw [writeString, readValue, skipSpace_of_not_space rfl]
  exact readString_writeChars s rest

/-- A list that holds something is read by its items. -/
lemma readValue_items {fuel : Nat} {c : Char} {cs rest : List Char} {items : List Data} (space : isSpace c = false)
    (bracket : c ≠ ']') (h : readItems fuel (c :: cs) = (items, some rest)) :
    readValue (fuel + 1) ('[' :: c :: cs) = (.list items, some rest) := by
  rw [readValue, skipSpace_of_not_space rfl]
  simp only [skipSpace_of_not_space space]
  split
  · rename_i eq
    cases eq
    exact absurd rfl bracket
  · rw [h]

/-- A record that holds something is read by its members. -/
lemma readValue_members {fuel : Nat} {cs rest : List Char} {members : List (Option String × Data)}
    (h : readMembers fuel ('"' :: cs) = (members, some rest)) :
    readValue (fuel + 1) ('\x7b' :: '"' :: cs) = (.record members, some rest) := by
  rw [readValue, skipSpace_of_not_space rfl]
  simp only [skipSpace_of_not_space (c := '"') rfl]
  show (Data.record (readMembers fuel ('"' :: cs)).1, (readMembers fuel ('"' :: cs)).2) = _
  rw [h]

/-- A bracket behind an item ends the list. -/
lemma readItems_last {fuel : Nat} {cs rest : List Char} {d : Data}
    (h : readValue fuel cs = (d, some (']' :: rest))) : readItems (fuel + 1) cs = ([d], some rest) := by
  rw [readItems, h]
  simp only [skipSpace_of_not_space (c := ']') rfl]

/-- A comma behind an item goes on with the others. -/
lemma readItems_more {fuel : Nat} {cs more rest : List Char} {d : Data} {items : List Data}
    (h : readValue fuel cs = (d, some (',' :: more))) (h' : readItems fuel more = (items, some rest)) :
    readItems (fuel + 1) cs = (d :: items, some rest) := by
  rw [readItems, h]
  simp only [skipSpace_of_not_space (c := ',') rfl]
  rw [h']

/-- A brace behind a member ends the object. -/
lemma readMembers_last {fuel : Nat} {cs rest : List Char} {d : Data} (k : String)
    (h : readValue fuel cs = (d, some ('\x7d' :: rest))) :
    readMembers (fuel + 1) (writeString k (':' :: cs)) = ([(some k, d)], some rest) := by
  rw [writeString, readMembers, skipSpace_of_not_space rfl]
  simp only [readText_writeChars, skipSpace_of_not_space (c := ':') rfl, h,
    skipSpace_of_not_space (c := '\x7d') rfl]

/-- A comma behind a member goes on with the others. -/
lemma readMembers_more {fuel : Nat} {cs more rest : List Char} {d : Data} {members : List (Option String × Data)}
    (k : String) (h : readValue fuel cs = (d, some (',' :: more)))
    (h' : readMembers fuel more = (members, some rest)) :
    readMembers (fuel + 1) (writeString k (':' :: cs)) = ((some k, d) :: members, some rest) := by
  rw [writeString, readMembers, skipSpace_of_not_space rfl]
  simp only [readText_writeChars, skipSpace_of_not_space (c := ':') rfl, h, skipSpace_of_not_space (c := ',') rfl, h']

-- A value costs the reader at most two steps for each of its characters: one for the value itself, and one for the
-- list or record that it stands in.
mutual

/-- With enough fuel a value that was written is read back, and what follows is left. -/
lemma readValue_write : ∀ (v : Json) (rest : List Char) (fuel : Nat), 2 * (write v rest).length ≤ fuel →
    readValue fuel (write v rest) = (toData v, some rest)
  | v, rest, 0, enough => by
    have := length_lt_write v rest
    omega
  | .null, rest, fuel + 1, _ => rfl
  | .bool true, rest, fuel + 1, _ => rfl
  | .bool false, rest, fuel + 1, _ => rfl
  | .string s, rest, fuel + 1, _ => by
    rw [write]
    exact readValue_string fuel s rest
  | .list [], rest, fuel + 1, _ => rfl
  | .list (x :: xs), rest, fuel + 1, enough => by
    rw [write, List.length_cons] at enough
    obtain ⟨fuel, rfl⟩ := Nat.exists_eq_add_of_le' (show 1 ≤ fuel by omega)
    have tail := length_lt_write x (writeItems xs rest)
    have first := readValue_write x (writeItems xs rest) fuel (by omega)
    have items := readItems_write xs rest (write x (writeItems xs rest)) (toData x) fuel (by omega) first
    obtain ⟨c, cs, eq, space, bracket⟩ := write_eq_cons x (writeItems xs rest)
    rw [eq] at items
    rw [write, toData, itemsData, eq]
    exact readValue_items space bracket items
  | .record [], rest, fuel + 1, _ => rfl
  | .record ((k, v) :: ms), rest, fuel + 1, enough => by
    have key := length_lt_writeString k (':' :: write v (writeMembers ms rest))
    have tail := length_lt_write v (writeMembers ms rest)
    rw [write, List.length_cons] at enough
    rw [List.length_cons] at key
    obtain ⟨fuel, rfl⟩ := Nat.exists_eq_add_of_le' (show 1 ≤ fuel by omega)
    have first := readValue_write v (writeMembers ms rest) fuel (by omega)
    have members := readMembers_write ms rest k (write v (writeMembers ms rest)) (toData v) fuel (by omega) first
    rw [write, toData, membersData]
    exact readValue_members members

/-- Items are read to the end of their list once the first of them is. -/
lemma readItems_write : ∀ (xs : List Json) (rest cs : List Char) (d : Data) (fuel : Nat),
    2 * (writeItems xs rest).length ≤ fuel → readValue fuel cs = (d, some (writeItems xs rest)) →
    readItems (fuel + 1) cs = (d :: itemsData xs, some rest)
  | [], rest, cs, d, fuel, _, first => readItems_last first
  | x :: xs, rest, cs, d, fuel, enough, first => by
    rw [writeItems] at enough first
    rw [List.length_cons] at enough
    obtain ⟨fuel, rfl⟩ := Nat.exists_eq_add_of_le' (show 1 ≤ fuel by omega)
    have tail := length_lt_write x (writeItems xs rest)
    have second := readValue_write x (writeItems xs rest) fuel (by omega)
    have items := readItems_write xs rest (write x (writeItems xs rest)) (toData x) fuel (by omega) second
    exact readItems_more first items

/-- Members are read to the end of their record once the value of the first of them is. -/
lemma readMembers_write : ∀ (ms : List (String × Json)) (rest : List Char) (k : String) (cs : List Char) (d : Data)
    (fuel : Nat), 2 * (writeMembers ms rest).length ≤ fuel → readValue fuel cs = (d, some (writeMembers ms rest)) →
    readMembers (fuel + 1) (writeString k (':' :: cs)) = ((some k, d) :: membersData ms, some rest)
  | [], rest, k, cs, d, fuel, _, first => readMembers_last k first
  | (k', v) :: ms, rest, k, cs, d, fuel, enough, first => by
    have key := length_lt_writeString k' (':' :: write v (writeMembers ms rest))
    have tail := length_lt_write v (writeMembers ms rest)
    rw [writeMembers] at enough first
    rw [List.length_cons] at enough key
    obtain ⟨fuel, rfl⟩ := Nat.exists_eq_add_of_le' (show 1 ≤ fuel by omega)
    have second := readValue_write v (writeMembers ms rest) fuel (by omega)
    have members := readMembers_write ms rest k' (write v (writeMembers ms rest)) (toData v) fuel (by omega) second
    exact readMembers_more k first members

end

/-- A written value reads back, and what follows it is left over. -/
theorem read_write (v : Json) (rest : List Char) : read (write v rest) = (toData v, some rest) :=
  readValue_write v rest _ (Nat.le_add_right _ 2)

/-- The text of a value reads back, and nothing is left over. -/
theorem read_text (v : Json) : read v.text.toList = (toData v, some []) := by
  rw [text, String.toList_ofList]
  exact read_write v []

end ModelScopes.Json
