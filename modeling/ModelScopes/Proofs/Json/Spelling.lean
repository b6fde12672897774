import Mathlib.Data.List.DropRight
import Mathlib.Tactic.Common
import ModelScopes.Json.Reader

/-!
# Spellings of data

The same data can be spelled in many ways: with blanks between its parts, with characters as they are or escaped, with
numbers in any notation. `Spells p cs rest` is the grammar of JSON: the text `cs` begins with a spelling of the part
`p`, and `rest` is what follows it. Whatever the spelling, the reader finds the data. The main statement is
`Spelling.read`.
-/

namespace ModelScopes.Json

/-! ## Grammar -/

/-- Blanks, and what follows them. -/
inductive Blanks : List Char → List Char → Prop
  | none {r} : Blanks r r
  | more {c cs r} : isSpace c → Blanks cs r → Blanks (c :: cs) r

/-- A code unit that begins a surrogate pair. -/
def IsHigh (u : Nat) : Prop :=
  0xd800 ≤ u ∧ u < 0xdc00

/-- A code unit that ends a surrogate pair. -/
def IsLow (u : Nat) : Prop :=
  0xdc00 ≤ u ∧ u < 0xe000

/-- Any string behind its opening quote, with or without surrogates that do not pair up. -/
inductive Quoted : List Char → List Char → Prop
  | done {r} : Quoted ('"' :: r) r
  | plain {c cs r} : c ≠ '"' → c ≠ '\\' → 0x20 ≤ c.toNat → Quoted cs r → Quoted (c :: cs) r
  | escaped {e cs r} : (unescape? e).isSome → Quoted cs r → Quoted ('\\' :: e :: cs) r
  | unit {a b c d cs r} : (unit? a b c d).isSome → Quoted cs r → Quoted ('\\' :: 'u' :: a :: b :: c :: d :: cs) r

/-- The characters of a string behind its opening quote: as they are, escaped by a letter, by a code unit or by a
surrogate pair. A surrogate that does not pair up leaves the string without characters. -/
inductive SpellsText : Option (List Char) → List Char → List Char → Prop
  | done {r} : SpellsText (some []) ('"' :: r) r
  | plain {c s cs r} : c ≠ '"' → c ≠ '\\' → 0x20 ≤ c.toNat → SpellsText s cs r →
    SpellsText (s.map (c :: ·)) (c :: cs) r
  | escaped {e c s cs r} : unescape? e = some c → SpellsText s cs r → SpellsText (s.map (c :: ·)) ('\\' :: e :: cs) r
  | unit {a b c d u s cs r} : unit? a b c d = some u → ¬ IsHigh u → ¬ IsLow u → SpellsText s cs r →
    SpellsText (s.map (Char.ofNat u :: ·)) ('\\' :: 'u' :: a :: b :: c :: d :: cs) r
  | pair {a b c d u a' b' c' d' v s cs r} : unit? a b c d = some u → IsHigh u → unit? a' b' c' d' = some v → IsLow v →
    SpellsText s cs r → SpellsText (s.map (Char.ofNat (0x10000 + 0x400 * (u - 0xd800) + (v - 0xdc00)) :: ·))
      ('\\' :: 'u' :: a :: b :: c :: d :: '\\' :: 'u' :: a' :: b' :: c' :: d' :: cs) r
  | high {a b c d u cs r} : unit? a b c d = some u → IsHigh u →
    (∀ a' b' c' d' v cs', cs = '\\' :: 'u' :: a' :: b' :: c' :: d' :: cs' → unit? a' b' c' d' = some v → ¬ IsLow v) →
    Quoted cs r → SpellsText none ('\\' :: 'u' :: a :: b :: c :: d :: cs) r
  | low {a b c d u cs r} : unit? a b c d = some u → IsLow u → Quoted cs r →
    SpellsText none ('\\' :: 'u' :: a :: b :: c :: d :: cs) r

/-- Digits, one or more. -/
inductive SpellsDigits : List Nat → List Char → List Char → Prop
  | last {c r} : c.isDigit → SpellsDigits [c.toNat - 48] (c :: r) r
  | more {c ds cs r} : c.isDigit → SpellsDigits ds cs r → SpellsDigits ((c.toNat - 48) :: ds) (c :: cs) r

/-- The digits after the point, if there is one. -/
inductive SpellsFraction : List Nat → List Char → List Char → Prop
  | absent {r} : SpellsFraction [] r r
  | given {ds cs r} : SpellsDigits ds cs r → SpellsFraction ds ('.' :: cs) r

/-- The sign of an exponent. -/
inductive SpellsSign : Bool → List Char → List Char → Prop
  | absent {r} : SpellsSign false r r
  | plus {r} : SpellsSign false ('+' :: r) r
  | minus {r} : SpellsSign true ('-' :: r) r

/-- The exponent, if there is one. -/
inductive SpellsExponent : Option (Bool × List Nat) → List Char → List Char → Prop
  | absent {r} : SpellsExponent none r r
  | given {c down ds cs cs' r} : c = 'e' ∨ c = 'E' → SpellsSign down cs cs' → SpellsDigits ds cs' r →
    SpellsExponent (some (down, ds)) (c :: cs) r

/-- A number behind its sign: digits of which a zero stands alone, a fraction and an exponent. -/
def SpellsMagnitude (t : NumberText) (cs r : List Char) : Prop :=
  ∃ cs₁ cs₂, SpellsDigits t.whole cs cs₁ ∧ (∀ d ds, t.whole ≠ 0 :: d :: ds) ∧ SpellsFraction t.fraction cs₁ cs₂ ∧
    SpellsExponent t.exponent cs₂ r

/-- What may follow a number: the end, a blank, or what ends an item or a member. -/
def Ended (r : List Char) : Prop :=
  ∀ c ∈ r.head?, isSpace c ∨ c = ',' ∨ c = ']' ∨ c = '\x7d'

/-- The data of a string. -/
def stringData : Option (List Char) → Data
  | some s => .string (String.ofList s)
  | none => .unreadable

/-- Whether the character can stand for itself in a string. -/
def isPlain (c : Char) : Bool :=
  c != '"' && c != '\\' && 0x20 ≤ c.toNat

/-- Characters that can stand for themselves do. -/
lemma SpellsText.of_plain (r : List Char) :
    ∀ s : List Char, s.all isPlain → SpellsText (some s) (s ++ '"' :: r) r
  | [], _ => .done
  | c :: s, h => by
    rw [List.all_cons, Bool.and_eq_true] at h
    simp only [isPlain, Bool.and_eq_true, bne_iff_ne, decide_eq_true_eq] at h
    exact .plain h.1.1.1 h.1.1.2 h.1.2 (of_plain r s h.2)

/-- What stands in a text: a value with the blanks before it, the items of a list up to its closing bracket, a member,
or the members of a record up to its closing brace. -/
inductive Part where
  | value (d : Data)
  | items (ds : List Data)
  | member (key : Option String) (d : Data)
  | members (ms : List (Option String × Data))

/-- The grammar of JSON. -/
inductive Spells : Part → List Char → List Char → Prop
  | blank {d c cs r} : isSpace c → Spells (.value d) cs r → Spells (.value d) (c :: cs) r
  | null {r} : Spells (.value .null) ('n' :: 'u' :: 'l' :: 'l' :: r) r
  | yes {r} : Spells (.value (.bool true)) ('t' :: 'r' :: 'u' :: 'e' :: r) r
  | no {r} : Spells (.value (.bool false)) ('f' :: 'a' :: 'l' :: 's' :: 'e' :: r) r
  | string {s cs r} : SpellsText s cs r → Spells (.value (stringData s)) ('"' :: cs) r
  | number {t cs r} : t.negative = false → SpellsMagnitude t cs r → Ended r → Spells (.value t.toData) cs r
  | negative {t cs r} : t.negative = true → SpellsMagnitude t cs r → Ended r → Spells (.value t.toData) ('-' :: cs) r
  | noItems {cs r} : Blanks cs (']' :: r) → Spells (.value (.list [])) ('[' :: cs) r
  | list {ds cs r} : Spells (.items ds) cs r → Spells (.value (.list ds)) ('[' :: cs) r
  | noMembers {cs r} : Blanks cs ('\x7d' :: r) → Spells (.value (.record [])) ('\x7b' :: cs) r
  | record {ms cs r} : Spells (.members ms) cs r → Spells (.value (.record ms)) ('\x7b' :: cs) r
  | lastItem {d cs cs' r} : Spells (.value d) cs cs' → Blanks cs' (']' :: r) → Spells (.items [d]) cs r
  | item {d ds cs cs' more r} : Spells (.value d) cs cs' → Blanks cs' (',' :: more) → Spells (.items ds) more r →
    Spells (.items (d :: ds)) cs r
  | member {s d cs cs₁ cs₂ cs₃ r} : Blanks cs ('"' :: cs₁) → SpellsText s cs₁ cs₂ → Blanks cs₂ (':' :: cs₃) →
    Spells (.value d) cs₃ r → Spells (.member (s.map String.ofList) d) cs r
  | lastMember {k d cs cs' r} : Spells (.member k d) cs cs' → Blanks cs' ('\x7d' :: r) → Spells (.members [(k, d)]) cs r
  | moreMembers {k d ms cs cs' more r} : Spells (.member k d) cs cs' → Blanks cs' (',' :: more) →
    Spells (.members ms) more r → Spells (.members ((k, d) :: ms)) cs r

/-- The text spells the data, and nothing else. -/
def Spelling (d : Data) (text : String) : Prop :=
  ∃ r, Spells (.value d) text.toList r ∧ Blanks r []

/-! ## Blanks -/

/-- Blanks are skipped. -/
lemma Blanks.skipSpace {cs r : List Char} (bl : Blanks cs r) : skipSpace cs = Json.skipSpace r := by
  induction bl with
  | none => rfl
  | more space _ ih => rw [Json.skipSpace, List.dropWhile_cons_of_pos space]; exact ih

/-- Skipping blanks makes nothing longer. -/
lemma Blanks.length_le {cs r : List Char} (bl : Blanks cs r) : r.length ≤ cs.length := by
  induction bl with
  | none => exact Nat.le_refl _
  | more _ _ ih => exact Nat.le_succ_of_le ih

/-- Nothing is skipped before a character that is no blank. -/
lemma skipSpace_cons {c : Char} (space : isSpace c = false) (cs : List Char) : skipSpace (c :: cs) = c :: cs := by
  simp [skipSpace, space]

/-! ## Strings -/

/-- A character is put before what was read, unless that was unreadable. -/
lemma addChar_eq (c : Char) (s : Option (List Char)) (r : Option (List Char)) :
    addChar c (s, r) = (s.map (c :: ·), r) := by
  cases s <;> rfl

/-- A string is skipped to its end, whatever its surrogates. -/
lemma Quoted.skipString {cs r : List Char} (q : Quoted cs r) : skipString cs = (.unreadable, some r) := by
  induction q with
  | done => rfl
  | plain quote backslash high _ ih => rw [Json.skipString, if_neg (Nat.not_lt.mpr high), ih] <;> simp_all
  | @escaped e cs r h _ ih =>
    have letter : e ≠ 'u' := fun eq => by subst eq; cases h
    rw [Json.skipString, if_pos h, ih]
    exact fun _ _ _ _ _ eq => absurd eq letter
  | unit h _ ih => rw [Json.skipString, if_pos h, ih]

/-- What looks like the escape of a unit in a string that ends is one, and the string goes on behind it. -/
lemma Quoted.unit_inv {a b c d : Char} {cs r : List Char} (q : Quoted ('\\' :: 'u' :: a :: b :: c :: d :: cs) r) :
    (unit? a b c d).isSome ∧ Quoted cs r := by
  cases q with
  | plain _ backslash => exact absurd rfl backslash
  | escaped h => cases h
  | unit h q => exact ⟨h, q⟩

/-- The characters of a string are read as they were spelled. -/
lemma SpellsText.readChars {s : Option (List Char)} {cs r : List Char} (sp : SpellsText s cs r) :
    readChars cs = (s, some r) := by
  induction sp with
  | done => rfl
  | plain quote backslash high _ ih =>
    rw [Json.readChars, if_neg (Nat.not_lt.mpr high), ih, addChar_eq] <;> simp_all
  | @escaped e c s cs r h _ ih =>
    have letter : e ≠ 'u' := fun eq => by subst eq; cases h
    rw [Json.readChars, h]
    · simp only [ih, addChar_eq]
    · exact fun _ _ _ _ _ eq => absurd eq letter
  | unit h high low _ ih =>
    rw [Json.readChars, h]
    simp only [if_neg (show ¬ (_ ∧ _) from high), if_neg (show ¬ (_ ∧ _) from low), ih, addChar_eq]
  | pair h high h' low _ ih =>
    rw [Json.readChars, h]
    simp only [if_pos (show _ ∧ _ from high), h', if_pos (show _ ∧ _ from low), ih, addChar_eq]
  | @high a b c d u cs r h high alone q =>
    rw [Json.readChars, h]
    simp only [if_pos (show _ ∧ _ from high)]
    split
    case h_1 a' b' c' d' r' =>
      obtain ⟨some_unit, behind⟩ := q.unit_inv
      obtain ⟨v, h'⟩ := Option.isSome_iff_exists.mp some_unit
      have single : ¬ IsLow v := alone a' b' c' d' v r' rfl h'
      simp only [h', if_neg (show ¬ (_ ∧ _) from single), skipChars, behind.skipString]
    case h_2 => rw [skipChars, q.skipString]
  | low h low q =>
    have single : ¬ IsHigh _ := fun high => Nat.lt_irrefl _ (Nat.lt_of_lt_of_le high.2 low.1)
    rw [Json.readChars, h]
    simp only [if_neg (show ¬ (_ ∧ _) from single), if_pos (show _ ∧ _ from low), skipChars, q.skipString]

/-- A string takes its closing quote at least. -/
lemma Quoted.length_lt {cs r : List Char} (q : Quoted cs r) : r.length < cs.length := by
  induction q with
  | done => exact Nat.lt_succ_self _
  | _ => simp only [List.length_cons]; omega

/-- The spelling of a text takes its closing quote at least. -/
lemma SpellsText.length_lt {s : Option (List Char)} {cs r : List Char} (sp : SpellsText s cs r) :
    r.length < cs.length := by
  induction sp with
  | done => exact Nat.lt_succ_self _
  | high _ _ _ q | low _ _ q =>
    have := q.length_lt
    simp only [List.length_cons]
    omega
  | _ => simp only [List.length_cons]; omega

/-- The reader finds the text that is spelled. -/
lemma SpellsText.readText {s : Option (List Char)} {cs r : List Char} (sp : SpellsText s cs r) :
    readText cs = (s.map String.ofList, some r) := by
  rw [Json.readText, sp.readChars]

/-- The reader finds the string that is spelled, as data. -/
lemma SpellsText.readString {s : Option (List Char)} {cs r : List Char} (sp : SpellsText s cs r) :
    readString cs = (stringData s, some r) := by
  rw [Json.readString, sp.readText]
  cases s <;> rfl

/-! ## Numbers -/

/-- The text does not go on with a digit. -/
def NoDigit (r : List Char) : Prop :=
  ∀ c ∈ r.head?, c.isDigit = false

/-- Digits are read up to the first character that is none. -/
lemma SpellsDigits.digits {ds : List Nat} {cs r : List Char} (sp : SpellsDigits ds cs r) (stop : NoDigit r) :
    digits cs = (ds, r) := by
  induction sp with
  | @last c r h =>
    cases r with
    | nil => simp [Json.digits, h]
    | cons c' r =>
      have other : c'.isDigit = false := stop c' rfl
      simp [Json.digits, h, other]
  | more h _ ih =>
    have rest := ih stop
    simp only [Json.digits, Prod.mk.injEq] at rest
    simp [Json.digits, h, rest.1, rest.2]

/-- Digits begin with a digit, and there is one at least. -/
lemma SpellsDigits.head {ds : List Nat} {cs r : List Char} (sp : SpellsDigits ds cs r) :
    ∃ c cs', cs = c :: cs' ∧ c.isDigit ∧ r.length < cs.length ∧ ds ≠ [] := by
  induction sp with
  | last h => exact ⟨_, _, rfl, h, Nat.lt_succ_self _, nofun⟩
  | more h _ ih =>
    obtain ⟨_, _, _, _, shorter, _⟩ := ih
    exact ⟨_, _, rfl, h, Nat.lt_succ_of_lt shorter, nofun⟩

/-- A digit is no blank. -/
lemma isSpace_of_isDigit {c : Char} (digit : c.isDigit) : isSpace c = false := by
  by_contra space
  simp only [isSpace, Bool.not_eq_false, Bool.or_eq_true, beq_iff_eq] at space
  rcases space with ((rfl | rfl) | rfl) | rfl <;> cases digit

/-- No digit stands where a number has ended. -/
lemma Ended.noDigit {r : List Char} (en : Ended r) : NoDigit r := by
  intro c hc
  rcases en c hc with space | rfl | rfl | rfl
  · by_contra digit
    rw [isSpace_of_isDigit (by simpa using digit)] at space
    cases space
  · rfl
  · rfl
  · rfl

/-- No number goes on with what ends it. -/
lemma Ended.head_ne {r : List Char} (en : Ended r) {c : Char}
    (other : isSpace c = false ∧ c ≠ ',' ∧ c ≠ ']' ∧ c ≠ '\x7d') (cs : List Char) : r ≠ c :: cs := by
  rintro rfl
  rcases en c rfl with space | rfl | rfl | rfl
  · rw [other.1] at space
    cases space
  · exact other.2.1 rfl
  · exact other.2.2.1 rfl
  · exact other.2.2.2 rfl

/-- An exponent is read with its sign. -/
lemma exponent_of_digits {down : Bool} {ds : List Nat} {cs cs' r : List Char} (sign : SpellsSign down cs cs')
    (sp : SpellsDigits ds cs' r) (stop : NoDigit r) : exponent cs = some ((down, ds), r) := by
  obtain ⟨d, tail, rfl, digit, -, many⟩ := sp.head
  have value := sp.digits stop
  cases sign with
  | plus => simp [exponent, value]
  | minus => simp [exponent, value]
  | absent =>
    have plus : d ≠ '+' := fun eq => by subst eq; cases digit
    have minus : d ≠ '-' := fun eq => by subst eq; cases digit
    simp [exponent, value, plus, minus]

/-- An exponent is read if there is one, and neither a digit nor a point stands before it. -/
lemma SpellsExponent.exponent? {e : Option (Bool × List Nat)} {cs r : List Char} (sp : SpellsExponent e cs r)
    (en : Ended r) : exponent? cs = some (e, r) ∧ NoDigit cs ∧ (∀ cs', cs ≠ '.' :: cs') ∧ r.length ≤ cs.length := by
  cases sp with
  | absent =>
    refine ⟨?_, en.noDigit, en.head_ne (by decide), Nat.le_refl _⟩
    unfold Json.exponent?
    split
    · exact absurd rfl (en.head_ne (by decide) _)
    · exact absurd rfl (en.head_ne (by decide) _)
    · rfl
  | @given c down ds cs cs' r letter sign digits =>
    have read := exponent_of_digits sign digits en.noDigit
    obtain ⟨-, -, -, -, shorter, -⟩ := digits.head
    have length : r.length ≤ (c :: cs).length := by
      cases sign <;> simp only [List.length_cons] at shorter ⊢ <;> omega
    rcases letter with rfl | rfl
    · exact ⟨by rw [Json.exponent?, read]; rfl, by simp [NoDigit], by simp, length⟩
    · exact ⟨by rw [Json.exponent?, read]; rfl, by simp [NoDigit], by simp, length⟩

/-- A fraction is read if there is one, and no digit stands before it. -/
lemma SpellsFraction.fraction? {ds : List Nat} {cs r : List Char} (sp : SpellsFraction ds cs r) (stop : NoDigit r)
    (point : ∀ cs', r ≠ '.' :: cs') : fraction? cs = some (ds, r) ∧ NoDigit cs ∧ r.length ≤ cs.length := by
  cases sp with
  | absent =>
    refine ⟨?_, stop, Nat.le_refl _⟩
    unfold Json.fraction?
    split
    · exact absurd rfl (point _)
    · rfl
  | @given _ cs _ digits =>
    obtain ⟨-, -, -, -, shorter, many⟩ := digits.head
    refine ⟨?_, by simp [NoDigit], Nat.le_succ_of_le (Nat.le_of_lt shorter)⟩
    rw [Json.fraction?, digits.digits stop]
    cases ds with
    | nil => exact absurd rfl many
    | cons => rfl

/-- A number is read as it was spelled, up to what ends it. -/
lemma SpellsMagnitude.readMagnitude {t : NumberText} {cs r : List Char} (sp : SpellsMagnitude t cs r) (en : Ended r) :
    readMagnitude t.negative cs = (t.toData, some r) ∧ r.length < cs.length ∧
      ∃ c cs', cs = c :: cs' ∧ c.isDigit := by
  obtain ⟨cs₁, cs₂, whole, alone, fraction, exponent⟩ := sp
  obtain ⟨read₃, stop₂, point, length₃⟩ := exponent.exponent? en
  obtain ⟨read₂, stop₁, length₂⟩ := fraction.fraction? stop₂ point
  have digits := whole.digits stop₁
  obtain ⟨c, cs', eq, digit, length₁, many⟩ := whole.head
  have read₁ : whole? cs = some (t.whole, cs₁) := by
    rw [whole?, digits]
    cases h : t.whole with
    | nil => exact absurd h many
    | cons d ds =>
      cases ds with
      | nil => cases d <;> rfl
      | cons d' ds =>
        cases d with
        | zero => exact absurd h (alone d' ds)
        | succ => rfl
  refine ⟨?_, by omega, c, cs', eq, digit⟩
  simp only [Json.readMagnitude, read₁, read₂, read₃]

/-! ## Values -/

/-- Blanks before a value do not matter. -/
lemma readValue_skipSpace (fuel : Nat) (cs : List Char) : readValue fuel (skipSpace cs) = readValue fuel cs := by
  cases fuel with
  | zero => rfl
  | succ fuel => simp only [readValue, skipSpace, List.dropWhile_idempotent]

/-- Blanks before items do not matter. -/
lemma readItems_skipSpace (fuel : Nat) (cs : List Char) : readItems fuel (skipSpace cs) = readItems fuel cs := by
  cases fuel with
  | zero => rfl
  | succ fuel => simp only [readItems, readValue_skipSpace]

/-- Blanks before members do not matter. -/
lemma readMembers_skipSpace (fuel : Nat) (cs : List Char) : readMembers fuel (skipSpace cs) = readMembers fuel cs := by
  cases fuel with
  | zero => rfl
  | succ fuel => simp only [readMembers, skipSpace, List.dropWhile_idempotent]

/-- How a part is read off the head of a text, with enough fuel for its length. -/
def Part.Reads : Part → List Char → List Char → Prop
  | .value d, cs, r => ∀ fuel, 2 * cs.length ≤ fuel → readValue fuel cs = (d, some r)
  | .items ds, cs, r => ∀ fuel, 2 * cs.length + 1 ≤ fuel → readItems fuel cs = (ds, some r)
  | .member k d, cs, r => ∀ fuel, 2 * cs.length ≤ fuel → ∃ cs₁ cs₂ cs₃, skipSpace cs = '"' :: cs₁ ∧
      readText cs₁ = (k, some cs₂) ∧ skipSpace cs₂ = ':' :: cs₃ ∧ readValue fuel cs₃ = (d, some r)
  | .members ms, cs, r => ∀ fuel, 2 * cs.length + 1 ≤ fuel → readMembers fuel cs = (ms, some r)

/-- The character with which a part may begin, behind blanks. -/
def Part.Begins : Part → Char → Prop
  | .value _, c | .items _, c => c ≠ ']'
  | .member .., c | .members _, c => c = '"'

/-- A spelling takes characters up, and begins with one that its part may begin with. -/
lemma Spells.head {p : Part} {cs r : List Char} (sp : Spells p cs r) :
    r.length < cs.length ∧ ∃ c cs', skipSpace cs = c :: cs' ∧ p.Begins c := by
  induction sp with
  | blank space _ ih =>
    obtain ⟨shorter, c, cs', eq, begins⟩ := ih
    refine ⟨Nat.lt_succ_of_lt shorter, c, cs', ?_, begins⟩
    rw [skipSpace, List.dropWhile_cons_of_pos space]
    exact eq
  | null | yes | no => exact ⟨by simp only [List.length_cons]; omega, _, _, rfl, by simp [Part.Begins]⟩
  | string sp => exact ⟨Nat.lt_succ_of_lt sp.length_lt, _, _, rfl, by simp [Part.Begins]⟩
  | number positive sp en =>
    obtain ⟨-, shorter, c, cs', rfl, digit⟩ := sp.readMagnitude en
    exact ⟨shorter, c, cs', skipSpace_cons (isSpace_of_isDigit digit) _, fun eq => by subst eq; cases digit⟩
  | negative _ sp en =>
    obtain ⟨-, shorter, -⟩ := sp.readMagnitude en
    exact ⟨Nat.lt_succ_of_lt shorter, _, _, rfl, by simp [Part.Begins]⟩
  | noItems bl | noMembers bl => exact ⟨Nat.lt_succ_of_lt bl.length_le, _, _, rfl, by simp [Part.Begins]⟩
  | list _ ih | record _ ih => exact ⟨Nat.lt_succ_of_lt ih.1, _, _, rfl, by simp [Part.Begins]⟩
  | lastItem _ bl ih | lastMember _ bl ih => exact ⟨Nat.lt_trans bl.length_le ih.1, ih.2⟩
  | item _ bl _ ih ih' | moreMembers _ bl _ ih ih' =>
    exact ⟨Nat.lt_trans (Nat.lt_trans ih'.1 bl.length_le) ih.1, ih.2⟩
  | member bl sp bl' _ ih =>
    have first := bl.length_le
    have second := sp.length_lt
    have third := bl'.length_le
    simp only [List.length_cons] at first third
    exact ⟨by omega, _, _, bl.skipSpace.trans rfl, rfl⟩

/-- A digit or a minus sign begins a number. -/
lemma readValue_number {c : Char} {cs : List Char} (head : c.isDigit ∨ c = '-') (fuel : Nat) :
    readValue (fuel + 1) (c :: cs) = readNumber (c :: cs) := by
  have space : isSpace c = false := by
    rcases head with digit | rfl
    · exact isSpace_of_isDigit digit
    · rfl
  rw [readValue, skipSpace_cons space]
  split
  all_goals first | rfl | (rename_i eq; cases eq; simp at head)

/-- A number that begins with a digit is not negative. -/
lemma readNumber_of_isDigit {c : Char} {cs : List Char} (digit : c.isDigit) :
    readNumber (c :: cs) = readMagnitude false (c :: cs) := by
  unfold readNumber
  split
  case h_1 eq => cases eq; cases digit
  case h_2 => rfl

/-- What was spelled is read, with what follows it left over. -/
lemma Spells.reads {p : Part} {cs r : List Char} (sp : Spells p cs r) : p.Reads cs r := by
  -- on the spelling; in every case one unit of fuel pays for at least one character, so the fuel always lasts
  induction sp with
  | @blank d c cs r space _ ih =>
    intro fuel enough
    have same : skipSpace (c :: cs) = skipSpace cs := List.dropWhile_cons_of_pos space
    rw [← readValue_skipSpace, same, readValue_skipSpace]
    exact ih fuel (by simp only [List.length_cons] at enough; omega)
  | null | yes | no =>
    intro fuel enough
    obtain ⟨fuel, rfl⟩ := Nat.exists_eq_add_of_le' (show 1 ≤ fuel by simp only [List.length_cons] at enough; omega)
    rfl
  | string sp =>
    intro fuel enough
    obtain ⟨fuel, rfl⟩ := Nat.exists_eq_add_of_le' (show 1 ≤ fuel by simp only [List.length_cons] at enough; omega)
    rw [readValue, skipSpace_cons rfl]
    exact sp.readString
  | number positive sp en =>
    intro fuel enough
    obtain ⟨read, shorter, c, cs', rfl, digit⟩ := sp.readMagnitude en
    obtain ⟨fuel, rfl⟩ := Nat.exists_eq_add_of_le' (show 1 ≤ fuel by omega)
    rw [readValue_number (.inl digit), readNumber_of_isDigit digit, ← positive, read]
  | negative negative sp en =>
    intro fuel enough
    obtain ⟨read, -, -⟩ := sp.readMagnitude en
    obtain ⟨fuel, rfl⟩ := Nat.exists_eq_add_of_le' (show 1 ≤ fuel by simp only [List.length_cons] at enough; omega)
    rw [readValue_number (.inr rfl), readNumber, ← negative, read]
  | noItems bl =>
    intro fuel enough
    obtain ⟨fuel, rfl⟩ := Nat.exists_eq_add_of_le' (show 1 ≤ fuel by simp only [List.length_cons] at enough; omega)
    rw [readValue, skipSpace_cons rfl]
    simp only [bl.skipSpace, skipSpace_cons (c := ']') rfl]
  | @list ds cs r sp ih =>
    intro fuel enough
    rw [List.length_cons] at enough
    obtain ⟨fuel, rfl⟩ := Nat.exists_eq_add_of_le' (show 1 ≤ fuel by omega)
    obtain ⟨-, c, cs', eq, begins⟩ := sp.head
    have read : readItems fuel (c :: cs') = (ds, some r) := by rw [← eq, readItems_skipSpace, ih fuel (by omega)]
    rw [readValue, skipSpace_cons rfl]
    simp only [eq]
    split
    case h_1 eq' => cases eq'; exact absurd rfl begins
    case h_2 => rw [read]
  | noMembers bl =>
    intro fuel enough
    obtain ⟨fuel, rfl⟩ := Nat.exists_eq_add_of_le' (show 1 ≤ fuel by simp only [List.length_cons] at enough; omega)
    rw [readValue, skipSpace_cons rfl]
    simp only [bl.skipSpace, skipSpace_cons (c := '\x7d') rfl]
  | @record ms cs r sp ih =>
    intro fuel enough
    rw [List.length_cons] at enough
    obtain ⟨fuel, rfl⟩ := Nat.exists_eq_add_of_le' (show 1 ≤ fuel by omega)
    obtain ⟨-, c, cs', eq, rfl⟩ := sp.head
    have read : readMembers fuel ('"' :: cs') = (ms, some r) := by
      rw [← eq, readMembers_skipSpace, ih fuel (by omega)]
    rw [readValue, skipSpace_cons rfl]
    simp only [eq]
    split
    case h_1 eq' => cases eq'
    case h_2 => rw [read]
  | lastItem _ bl ih =>
    intro fuel enough
    obtain ⟨fuel, rfl⟩ := Nat.exists_eq_add_of_le' (show 1 ≤ fuel by omega)
    rw [readItems, ih fuel (by omega)]
    simp only [bl.skipSpace, skipSpace_cons (c := ']') rfl]
  | item first bl _ ih ih' =>
    intro fuel enough
    obtain ⟨fuel, rfl⟩ := Nat.exists_eq_add_of_le' (show 1 ≤ fuel by omega)
    have shorter := first.head.1
    have behind := bl.length_le
    rw [List.length_cons] at behind
    rw [readItems, ih fuel (by omega)]
    simp only [bl.skipSpace, skipSpace_cons (c := ',') rfl, ih' fuel (by omega)]
  | member bl sp bl' _ ih =>
    intro fuel enough
    have first := bl.length_le
    have second := sp.length_lt
    have third := bl'.length_le
    simp only [List.length_cons] at first third
    exact ⟨_, _, _, bl.skipSpace.trans rfl, sp.readText, bl'.skipSpace.trans rfl, ih fuel (by omega)⟩
  | lastMember _ bl ih =>
    intro fuel enough
    obtain ⟨fuel, rfl⟩ := Nat.exists_eq_add_of_le' (show 1 ≤ fuel by omega)
    obtain ⟨cs₁, cs₂, cs₃, quote, key, colon, value⟩ := ih fuel (by omega)
    rw [readMembers, quote]
    simp only [key, colon, value, bl.skipSpace, skipSpace_cons (c := '\x7d') rfl]
  | moreMembers first bl _ ih ih' =>
    intro fuel enough
    obtain ⟨fuel, rfl⟩ := Nat.exists_eq_add_of_le' (show 1 ≤ fuel by omega)
    have shorter := first.head.1
    have behind := bl.length_le
    rw [List.length_cons] at behind
    obtain ⟨cs₁, cs₂, cs₃, quote, key, colon, value⟩ := ih fuel (by omega)
    rw [readMembers, quote]
    simp only [key, colon, value, bl.skipSpace, skipSpace_cons (c := ',') rfl, ih' fuel (by omega)]

/-- A part in which the reader did not stop. -/
def Part.IsWhole : Part → Prop
  | .value d | .member _ d => d.isWhole
  | .items ds => Data.allWhole ds
  | .members ms => Data.membersWhole ms

/-- A number that is taken for a float is whole. -/
lemma isWhole_toFloatData (t : NumberText) : t.toFloatData.isWhole := by
  unfold NumberText.toFloatData
  split <;> rfl

/-- A number is whole. -/
lemma isWhole_toData (t : NumberText) : t.toData.isWhole := by
  have float := isWhole_toFloatData t
  simp only [NumberText.toData]
  repeat' split
  all_goals first | exact float | rfl

/-- The reader does not stop inside what is spelled. -/
lemma Spells.isWhole {p : Part} {cs r : List Char} (sp : Spells p cs r) : p.IsWhole := by
  induction sp with
  | blank _ _ ih | list _ ih | record _ ih | member _ _ _ _ ih => exact ih
  | null | yes | no | noItems | noMembers => rfl
  | @string s => cases s <;> rfl
  | @number t | @negative t => exact isWhole_toData t
  | lastItem _ _ ih | lastMember _ _ ih =>
    have ih : Data.isWhole _ = true := ih
    simp only [Part.IsWhole, Data.allWhole, Data.membersWhole, ih, Bool.and_true]
  | item _ _ _ ih ih' | moreMembers _ _ _ ih ih' =>
    have ih : Data.isWhole _ = true := ih
    have ih' : _ = true := ih'
    simp only [Part.IsWhole, Data.allWhole, Data.membersWhole, ih, ih', Bool.and_true]

/-- Whatever the spelling of data, the reader finds the data, all of it, and nothing behind it. -/
theorem Spelling.read {d : Data} {text : String} (sp : Spelling d text) :
    ∃ r, read text.toList = (d, some r) ∧ endsClean (some r) ∧ d.isWhole := by
  obtain ⟨r, spells, blanks⟩ := sp
  refine ⟨r, spells.reads _ (Nat.le_add_right _ 2), ?_, spells.isWhole⟩
  rw [endsClean, blanks.skipSpace]
  rfl

end ModelScopes.Json
