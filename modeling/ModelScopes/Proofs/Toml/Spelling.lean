import Mathlib.Data.List.DropRight
import Mathlib.Data.List.TakeWhile
import Mathlib.Tactic.Common
import ModelScopes.Toml.Reader

/-!
# Spellings of documents

What a document of pairs, tables and arrays of tables may look like, with names as keys and with strings, truth values
and arrays of them as values: blanks, comments and line breaks of either kind wherever the grammar of TOML lets them
stand, keys with or without quotes, and any escapes in strings. As for JSON, each part of the grammar relates a text to
what follows the part. Whatever the spelling, the reader finds the sections. The main statement is `Spelling.read?`.
-/

namespace ModelScopes.Toml

/-! ## Grammar -/

/-- Blanks within a line, and what follows them. -/
inductive Blanks : List Char → List Char → Prop
  | none {r} : Blanks r r
  | more {c cs r} : isSpace c → Blanks cs r → Blanks (c :: cs) r

/-- A line break. -/
inductive Break : List Char → List Char → Prop
  | lf {r} : Break ('\n' :: r) r
  | crlf {r} : Break ('\r' :: '\n' :: r) r

/-- The characters of a comment. -/
inductive Comment : List Char → List Char → Prop
  | none {r} : Comment r r
  | more {c cs r} : isPlain c → Comment cs r → Comment (c :: cs) r

/-- What ends a line: blanks, a comment, and a line break or the end of the text. -/
inductive LineEnd : List Char → List Char → Prop
  | text : LineEnd [] []
  | line {cs r} : Break cs r → LineEnd cs r
  | blank {c cs r} : isSpace c → LineEnd cs r → LineEnd (c :: cs) r
  | comment {cs cs' r} : Comment cs cs' → Break cs' r → LineEnd ('#' :: cs) r
  | lastComment {cs} : Comment cs [] → LineEnd ('#' :: cs) []

/-- What may stand between the items of an array: blanks, line breaks and comments. -/
inductive Gap : List Char → List Char → Prop
  | none {r} : Gap r r
  | blank {c cs r} : isSpace c → Gap cs r → Gap (c :: cs) r
  | line {cs cs' r} : Break cs cs' → Gap cs' r → Gap cs r
  | comment {cs cs₁ cs₂ r} : Comment cs cs₁ → Break cs₁ cs₂ → Gap cs₂ r → Gap ('#' :: cs) r

/-- The characters of a basic string behind its opening quote: as they are, escaped by a letter, or by four or eight
digits. -/
inductive SpellsText : List Char → List Char → List Char → Prop
  | done {r} : SpellsText [] ('"' :: r) r
  | plain {c s cs r} : isPlain c → c ≠ '"' → c ≠ '\\' → SpellsText s cs r → SpellsText (c :: s) (c :: cs) r
  | escaped {e c s cs r} : unescape? e = some c → SpellsText s cs r → SpellsText (c :: s) ('\\' :: e :: cs) r
  | short {a b c d x s cs r} : escaped? [a, b, c, d] = some x → SpellsText s cs r →
    SpellsText (x :: s) ('\\' :: 'u' :: a :: b :: c :: d :: cs) r
  | long {a b c d a' b' c' d' x s cs r} : escaped? [a, b, c, d, a', b', c', d'] = some x → SpellsText s cs r →
    SpellsText (x :: s) ('\\' :: 'U' :: a :: b :: c :: d :: a' :: b' :: c' :: d' :: cs) r

/-- A name as a key, as it is or between quotes. -/
inductive SpellsName : String → List Char → List Char → Prop
  | bare {c cs r} : isBare c → (∀ c ∈ cs, isBare c) → SpellsName (String.ofList (c :: cs)) (c :: cs ++ r) r
  | quoted {s cs r} : SpellsText s cs r → SpellsName (String.ofList s) ('"' :: cs) r

/-- A key with blanks around it. -/
inductive SpellsKey (k : String) (cs r : List Char) : Prop
  | mk {cs₁ cs₂} : Blanks cs cs₁ → SpellsName k cs₁ cs₂ → Blanks cs₂ r → SpellsKey k cs r

/-- A string or a truth value. -/
inductive SpellsScalar : Data → List Char → List Char → Prop
  | string {s cs r} : SpellsText s cs r → SpellsScalar (.string (String.ofList s)) ('"' :: cs) r
  | yes {r} : SpellsScalar (.bool true) ('t' :: 'r' :: 'u' :: 'e' :: r) r
  | no {r} : SpellsScalar (.bool false) ('f' :: 'a' :: 'l' :: 's' :: 'e' :: r) r

/-- The items of an array up to its closing bracket; a comma may stand behind the last one. -/
inductive SpellsItems : List Data → List Char → List Char → Prop
  | none {cs r} : Gap cs (']' :: r) → SpellsItems [] cs r
  | last {d cs cs₁ cs₂ r} : Gap cs cs₁ → SpellsScalar d cs₁ cs₂ → Gap cs₂ (']' :: r) → SpellsItems [d] cs r
  | more {d ds cs cs₁ cs₂ cs₃ r} : Gap cs cs₁ → SpellsScalar d cs₁ cs₂ → Gap cs₂ (',' :: cs₃) → SpellsItems ds cs₃ r →
    SpellsItems (d :: ds) cs r

/-- A scalar or an array of scalars. -/
inductive SpellsValue : Data → List Char → List Char → Prop
  | scalar {d cs r} : SpellsScalar d cs r → SpellsValue d cs r
  | list {ds cs r} : SpellsItems ds cs r → SpellsValue (.list ds) ('[' :: cs) r

/-- Pairs as the reader finds them, each key of one part. -/
abbrev Pairs := List (List String × Data)

/-- The lines of a document: the pairs up to the next header, and the sections from there on. -/
inductive Lines : Pairs → List Section → List Char → Prop
  | done : Lines [] [] []
  | blank {ps secs cs r} : cs ≠ [] → LineEnd cs r → Lines ps secs r → Lines ps secs cs
  | pair {k d ps secs cs cs₁ cs₂ cs₃ r} : SpellsKey k cs ('=' :: cs₁) → Blanks cs₁ cs₂ → SpellsValue d cs₂ cs₃ →
    LineEnd cs₃ r → Lines ps secs r → Lines (([k], d) :: ps) secs cs
  | table {k ps secs cs cs₁ cs₂ r} : Blanks cs ('[' :: cs₁) → SpellsKey k cs₁ (']' :: cs₂) → LineEnd cs₂ r →
    Lines ps secs r → Lines [] (⟨.table [k], ps⟩ :: secs) cs
  | item {k ps secs cs cs₁ cs₂ r} : Blanks cs ('[' :: '[' :: cs₁) → SpellsKey k cs₁ (']' :: ']' :: cs₂) →
    LineEnd cs₂ r → Lines ps secs r → Lines [] (⟨.item [k], ps⟩ :: secs) cs

/-- The text spells the sections, with or without a byte order mark. -/
def Spelling (secs : List Section) (text : String) : Prop :=
  ∃ ps more cs, secs = ⟨.document, ps⟩ :: more ∧ Lines ps more cs ∧
    (text.toList = cs ∨ text.toList = '\ufeff' :: cs)

/-! ## Blanks, comments and line breaks -/

/-- A blank is skipped. -/
lemma skipSpace_cons {c : Char} (space : isSpace c) (cs : List Char) : skipSpace (c :: cs) = skipSpace cs :=
  List.dropWhile_cons_of_pos space

/-- Nothing is skipped before what is no blank. -/
lemma skipSpace_of_head {cs : List Char} (h : ∀ c ∈ cs.head?, isSpace c = false) : skipSpace cs = cs := by
  cases cs with
  | nil => rfl
  | cons c cs => exact List.dropWhile_cons_of_neg (by simp [h c rfl])

/-- Blanks are skipped. -/
lemma Blanks.skipSpace {cs r : List Char} (bl : Blanks cs r) : skipSpace cs = Toml.skipSpace r := by
  induction bl with
  | none => rfl
  | more space _ ih => rw [skipSpace_cons space, ih]

/-- Skipping blanks makes nothing longer. -/
lemma Blanks.length_le {cs r : List Char} (bl : Blanks cs r) : r.length ≤ cs.length := by
  induction bl with
  | none => exact Nat.le_refl _
  | more _ _ ih => exact Nat.le_succ_of_le ih

/-- What holds of every blank and of what comes next holds of what blanks begin with. -/
lemma Blanks.head {p : Char → Prop} {cs r : List Char} (bl : Blanks cs r) (blank : ∀ c, isSpace c → p c)
    (next : ∀ c ∈ r.head?, p c) : ∀ c ∈ cs.head?, p c := by
  cases bl with
  | none => exact next
  | more space _ =>
    intro c first
    cases first
    exact blank _ space

/-- A line break takes a character at least. -/
lemma Break.length_lt {cs r : List Char} (br : Break cs r) : r.length < cs.length := by
  cases br <;> simp only [List.length_cons] <;> omega

/-- A line break is recognised. -/
lemma Break.newline? {cs r : List Char} (br : Break cs r) : newline? cs = some r := by
  cases br <;> rfl

/-- Skipping a comment makes nothing longer. -/
lemma Comment.length_le {cs r : List Char} (co : Comment cs r) : r.length ≤ cs.length := by
  induction co with
  | none => exact Nat.le_refl _
  | more _ _ ih => exact Nat.le_succ_of_le ih

/-- A comment goes on to the end of its line. -/
lemma Comment.dropWhile {cs r : List Char} (co : Comment cs r) : cs.dropWhile isPlain = r.dropWhile isPlain := by
  induction co with
  | none => rfl
  | more plain _ ih => rw [List.dropWhile_cons_of_pos plain, ih]

/-- A line break is no part of a comment. -/
lemma Break.dropWhile {cs r : List Char} (br : Break cs r) : cs.dropWhile isPlain = cs := by
  cases br <;> rfl

/-- What follows the end of a line is no longer than what it ends with. -/
lemma LineEnd.length_le {cs r : List Char} (le : LineEnd cs r) : r.length ≤ cs.length := by
  induction le with
  | text => exact Nat.le_refl _
  | line br => exact br.length_lt.le
  | blank _ _ ih => exact Nat.le_succ_of_le ih
  | comment co br => exact Nat.le_succ_of_le (br.length_lt.le.trans co.length_le)
  | lastComment => exact Nat.zero_le _

/-- A line that is not at the end of the document ends with a character at least. -/
lemma LineEnd.length_lt {cs r : List Char} (le : LineEnd cs r) (some : cs ≠ []) : r.length < cs.length := by
  cases le with
  | text => exact absurd rfl some
  | line br => exact br.length_lt
  | blank _ le => exact Nat.lt_succ_of_le le.length_le
  | comment co br => exact Nat.lt_succ_of_le (br.length_lt.le.trans co.length_le)
  | lastComment => exact Nat.succ_pos _

/-- The end of a line is recognised. -/
lemma LineEnd.lineEnd? {cs r : List Char} (le : LineEnd cs r) : lineEnd? cs = some r := by
  induction le with
  | text => rfl
  | line br => cases br <;> rfl
  | blank space _ ih => rw [Toml.lineEnd?, skipSpace_cons space]; exact ih
  | comment co br =>
    rw [Toml.lineEnd?, skipSpace_of_head (by simp [isSpace]), skipComment, co.dropWhile, br.dropWhile]
    cases br <;> rfl
  | lastComment co => rw [Toml.lineEnd?, skipSpace_of_head (by simp [isSpace]), skipComment, co.dropWhile]; rfl

/-- A line that ends at once is blank. -/
lemma LineEnd.line? {cs r : List Char} (le : LineEnd cs r) : line? cs = some (.blank, r) := by
  have whole := le.lineEnd?
  induction le with
  | text => rfl
  | line br => cases br <;> rfl
  | blank space _ ih =>
    rw [Toml.lineEnd?, skipSpace_cons space] at whole
    rw [Toml.line?, skipSpace_cons space]
    exact ih whole
  | comment | lastComment =>
    rw [Toml.line?, skipSpace_of_head (by simp [isSpace])]
    simp only [whole, Option.map_some]

/-- The end of a line begins with a blank, a line break or a comment. -/
lemma LineEnd.head {cs r : List Char} (le : LineEnd cs r) : ∀ c ∈ cs.head?, isSpace c ∨ c ∈ ['\n', '\r', '#'] := by
  intro c first
  cases le with
  | text => cases first
  | line br => cases br <;> · cases first; decide
  | blank space => cases first; exact .inl space
  | comment | lastComment => cases first; decide

/-- Between the items of a list a comment is skipped with its line break. -/
lemma Comment.skipLines {cs cs' r : List Char} (co : Comment cs cs') (br : Break cs' r) :
    skipLines true cs = skipLines false r := by
  induction co with
  | none => cases br <;> rw [Toml.skipLines]
  | @more c cs _ plain _ ih =>
    have visible : c ≠ '\n' ∧ c ≠ '\r' := by
      constructor <;> · rintro rfl; cases plain
    rw [Toml.skipLines, if_pos rfl, if_pos plain, ih br]
    · exact visible.1
    · exact fun _ eq => absurd eq visible.2

/-- Between the items of a list gaps are skipped. -/
lemma Gap.skipLines {cs r : List Char} (gap : Gap cs r) : skipLines false cs = skipLines false r := by
  induction gap with
  | none => rfl
  | @blank c cs _ space _ ih =>
    have visible : c ≠ '\n' ∧ c ≠ '\r' := by
      constructor <;> · rintro rfl; cases space
    rw [Toml.skipLines, if_neg Bool.false_ne_true, if_pos space, ih]
    · exact visible.1
    · exact fun _ eq => absurd eq visible.2
  | line br _ ih =>
    rw [← ih]
    cases br <;> rw [Toml.skipLines]
  | comment co br _ ih => rw [← ih, ← co.skipLines br]; rfl

/-- Skipping a gap makes nothing longer. -/
lemma Gap.length_le {cs r : List Char} (gap : Gap cs r) : r.length ≤ cs.length := by
  induction gap with
  | none => exact Nat.le_refl _
  | blank _ _ ih => exact Nat.le_succ_of_le ih
  | line br _ ih => exact ih.trans br.length_lt.le
  | comment co br _ ih => exact Nat.le_succ_of_le (ih.trans (br.length_lt.le.trans co.length_le))

/-- What stands before the end of an item is not a quote. -/
lemma Gap.head_ne {cs r : List Char} (gap : Gap cs r) (h : r.head? ≠ some '"') : cs.head? ≠ some '"' := by
  cases gap with
  | none => exact h
  | blank space =>
    intro quote
    cases quote
    cases space
  | line br => cases br <;> simp
  | comment => simp

/-! ## Strings and keys -/

/-- A character that needs no escape is read as itself. -/
lemma basicString?_plain {c : Char} (quote : c ≠ '"') (backslash : c ≠ '\\') (plain : isPlain c) (cs : List Char) :
    basicString? (c :: cs) = addChar c (basicString? cs) := by
  rw [basicString?, if_pos plain] <;> simp_all

/-- A short escape is read as its character. -/
lemma basicString?_escaped {e c : Char} (known : unescape? e = some c) (cs : List Char) :
    basicString? ('\\' :: e :: cs) = addChar c (basicString? cs) := by
  have letter : e ≠ 'u' ∧ e ≠ 'U' := by
    constructor <;> · rintro rfl; cases known
  rw [basicString?, known]
  · rfl
  · exact fun _ _ _ _ _ eq => absurd eq letter.1
  · exact fun _ _ _ _ _ _ _ _ _ eq => absurd eq letter.2

/-- The reader finds the text that is spelled. -/
lemma SpellsText.basicString? {s cs r : List Char} (sp : SpellsText s cs r) : basicString? cs = some (s, r) := by
  induction sp with
  | done => rfl
  | plain plain quote backslash _ ih => rw [basicString?_plain quote backslash plain, ih]; rfl
  | escaped known _ ih => rw [basicString?_escaped known, ih]; rfl
  | short known _ ih | long known _ ih => rw [Toml.basicString?, known, ih]; rfl

/-- The spelling of a text takes its closing quote at least. -/
lemma SpellsText.length_lt {s cs r : List Char} (sp : SpellsText s cs r) : r.length < cs.length := by
  induction sp with
  | done => exact Nat.lt_succ_self _
  | _ => simp only [List.length_cons]; omega

/-- A character of a key without quotes does not begin anything else. -/
lemma isBare_ne {c : Char} (bare : isBare c) : isSpace c = false ∧ c ≠ '"' ∧ c ≠ '\'' ∧ c ≠ '[' ∧ c ≠ '#' ∧ c ≠ '\n' ∧
    c ≠ '\r' ∧ c ≠ '\ufeff' := by
  refine ⟨?blank, ?_, ?_, ?_, ?_, ?_, ?_, ?_⟩
  case blank =>
    rw [Bool.eq_false_iff]
    intro space
    simp only [isSpace, Bool.or_eq_true, beq_iff_eq] at space
    obtain rfl | rfl := space <;> cases bare
  all_goals
    rintro rfl
    cases bare

namespace SpellsName

variable {k : String} {cs r : List Char}

/-- A name begins neither with a blank nor as a line without a key does. -/
lemma head (sp : SpellsName k cs r) :
    ∃ c t, cs = c :: t ∧ isSpace c = false ∧ c ≠ '[' ∧ c ≠ '#' ∧ c ≠ '\n' ∧ c ≠ '\r' ∧ c ≠ '\ufeff' := by
  cases sp with
  | bare begins _ => exact ⟨_, _, rfl, (isBare_ne begins).1, (isBare_ne begins).2.2.2⟩
  | quoted => exact ⟨_, _, rfl, by decide⟩

/-- A name takes a character at least. -/
lemma length_lt (sp : SpellsName k cs r) : r.length < cs.length := by
  cases sp with
  | bare => simp only [List.length_append, List.length_cons]; omega
  | quoted sp => exact sp.length_lt.trans (Nat.lt_succ_self _)

/-- The reader finds the name that is spelled. -/
lemma keyPart? (sp : SpellsName k cs r) (stop : ∀ c ∈ r.head?, isBare c = false) : keyPart? cs = some (k, r) := by
  cases sp with
  | @bare c cs _ begins more =>
    have all : ∀ x ∈ c :: cs, isBare x := List.forall_mem_cons.mpr ⟨begins, more⟩
    have ends : r.takeWhile isBare = [] ∧ r.dropWhile isBare = r := by
      cases r with
      | nil => exact ⟨rfl, rfl⟩
      | cons x r =>
        have other : ¬ isBare x := by simp [stop x rfl]
        exact ⟨List.takeWhile_cons_of_neg other, List.dropWhile_cons_of_neg other⟩
    rw [Toml.keyPart?]
    · rw [List.takeWhile_append_of_pos all, List.dropWhile_append_of_pos all, ends.1, ends.2, List.append_nil]
    · exact fun _ eq => (isBare_ne begins).2.1 (List.cons.inj eq).1
    · exact fun _ eq => (isBare_ne begins).2.2.1 (List.cons.inj eq).1
  | quoted sp => rw [Toml.keyPart?, sp.basicString?]; rfl

end SpellsName

/-- Skipping blanks twice is skipping them once. -/
lemma skipSpace_skipSpace (cs : List Char) : skipSpace (skipSpace cs) = skipSpace cs :=
  List.dropWhile_idempotent isSpace cs

/-- Blanks before a key do not matter. -/
lemma key?_skipSpace (cs : List Char) : key? (skipSpace cs) = key? cs := by
  show keyParts? (78 + 1) (skipSpace cs) = keyParts? (78 + 1) cs
  rw [keyParts?, keyParts?, skipSpace_skipSpace]

namespace SpellsKey

variable {k : String} {cs r : List Char} {c : Char}

/-- A key takes a character at least. -/
lemma length_lt (sp : SpellsKey k cs r) : r.length < cs.length := by
  obtain ⟨before, name, after⟩ := sp
  have := before.length_le
  have := name.length_lt
  have := after.length_le
  omega

/-- A key begins with nothing that begins a header, a comment, a line break or the mark of a document. -/
lemma head (sp : SpellsKey k cs r) :
    ∃ c t, skipSpace cs = c :: t ∧ c ≠ '[' ∧ c ≠ '#' ∧ c ≠ '\n' ∧ c ≠ '\r' ∧ c ≠ '\ufeff' := by
  obtain ⟨before, name, -⟩ := sp
  obtain ⟨c, t, rfl, space, others⟩ := name.head
  exact ⟨c, t, before.skipSpace.trans (skipSpace_of_head (by simpa using space)), others⟩

/-- A key is read up to the character behind its blanks. -/
lemma key? (sp : SpellsKey k cs (c :: r)) (space : isSpace c = false) (bare : isBare c = false) (dot : c ≠ '.') :
    key? cs = some ([k], c :: r) := by
  obtain ⟨before, name, after⟩ := sp
  have stop := after.head (p := (isBare · = false))
    (fun x blank => Bool.eq_false_iff.mpr fun bare => by simp [(isBare_ne bare).1] at blank) (by simpa using bare)
  obtain ⟨x, t, rfl, visible, -⟩ := name.head
  show keyParts? (78 + 1) cs = _
  rw [keyParts?, before.skipSpace, skipSpace_of_head (by simpa using visible), name.keyPart? stop]
  simp only [Option.bind_eq_bind, Option.bind_some, after.skipSpace, @skipSpace_of_head (c :: r) (by simpa using space)]
  split
  case h_1 eq => exact absurd (List.cons.inj eq).1 dot
  case h_2 => rfl

end SpellsKey

/-! ## Values -/

/-- A scalar takes a character at least. -/
lemma SpellsScalar.length_lt {d : Data} {cs r : List Char} (sp : SpellsScalar d cs r) : r.length < cs.length := by
  cases sp with
  | string sp => exact sp.length_lt.trans (Nat.lt_succ_self _)
  | _ => simp only [List.length_cons]; omega

/-- Scalars are not blank, and do not close an array. -/
lemma SpellsScalar.head {d : Data} {cs r : List Char} (sp : SpellsScalar d cs r) :
    skipSpace cs = cs ∧ skipLines false cs = some cs ∧ cs.head? ≠ some ']' := by
  cases sp <;> exact ⟨rfl, rfl, by simp⟩

/-- A string that is not followed by another quote is not the beginning of several lines. -/
lemma SpellsText.string? {s cs r : List Char} (sp : SpellsText s cs r) (stop : r.head? ≠ some '"') :
    string? ('"' :: cs) = some (String.ofList s, r) := by
  have one : ∀ t, cs ≠ '"' :: '"' :: t := by
    rintro t rfl
    cases sp with
    | done => exact stop rfl
    | plain _ quote => exact quote rfl
  rw [Toml.string?, sp.basicString?]
  · rfl
  · exact fun t eq => one t eq

/-- The reader finds the scalar that is spelled. -/
lemma SpellsScalar.value? {d : Data} {cs r : List Char} (sp : SpellsScalar d cs r) (stop : r.head? ≠ some '"')
    (fuel depth : Nat) : value? (fuel + 1) depth cs = some (d, r) := by
  cases sp with
  | string sp => rw [Toml.value?, sp.string? stop]; rfl
  | yes | no => rw [Toml.value?]

/-- Items take the closing bracket at least. -/
lemma SpellsItems.length_lt {ds : List Data} {cs r : List Char} (sp : SpellsItems ds cs r) : r.length < cs.length := by
  induction sp with
  | none gap => exact gap.length_le
  | last gap sp gap' => exact (Nat.lt_of_succ_le gap'.length_le).trans (sp.length_lt.trans_le gap.length_le)
  | more gap sp gap' _ ih =>
    exact ih.trans ((Nat.lt_of_succ_le gap'.length_le).trans (sp.length_lt.trans_le gap.length_le))

/-- An item is read up to the character behind its gap. -/
lemma items?_of_item {d : Data} {cs cs₁ cs₂ r : List Char} {c : Char} (gap : Gap cs cs₁) (sp : SpellsScalar d cs₁ cs₂)
    (gap' : Gap cs₂ (c :: r)) (ends : c = ']' ∨ c = ',') (fuel depth : Nat) :
    items? (fuel + 2) depth cs =
      if c = ']' then some ([d], r) else (items? (fuel + 1) depth r).map fun (ds, r) => (d :: ds, r) := by
  have stop : cs₂.head? ≠ some '"' := gap'.head_ne (by obtain rfl | rfl := ends <;> simp)
  have value := sp.value? stop fuel depth
  rw [items?, gap.skipLines, sp.head.2.1]
  split
  case h_1 eq => cases eq
  case h_2 eq => exact absurd (congrArg List.head? (Option.some.inj eq)) sp.head.2.2
  case h_3 eq =>
    cases eq
    simp only [value, gap'.skipLines]
    obtain rfl | rfl := ends <;> rfl

/-- The reader finds the items that are spelled. -/
lemma SpellsItems.items? {ds : List Data} {cs r : List Char} (sp : SpellsItems ds cs r) (depth : Nat) :
    ∀ fuel, cs.length < fuel → items? fuel depth cs = some (ds, r) := by
  induction sp with
  | none gap =>
    intro fuel enough
    obtain ⟨fuel, rfl⟩ := Nat.exists_eq_add_of_le' (show 1 ≤ fuel by omega)
    rw [Toml.items?, gap.skipLines]
    rfl
  | last gap sp gap' =>
    intro fuel enough
    have := sp.length_lt
    have := gap.length_le
    obtain ⟨fuel, rfl⟩ := Nat.exists_eq_add_of_le' (show 2 ≤ fuel by omega)
    rw [items?_of_item gap sp gap' (.inl rfl), if_pos rfl]
  | more gap sp gap' _ ih =>
    intro fuel enough
    have := sp.length_lt
    have := gap.length_le
    have := gap'.length_le
    rw [List.length_cons] at this
    obtain ⟨fuel, rfl⟩ := Nat.exists_eq_add_of_le' (show 2 ≤ fuel by omega)
    rw [items?_of_item gap sp gap' (.inr rfl), if_neg (by decide), ih (fuel + 1) (by omega)]
    rfl

namespace SpellsValue

variable {d : Data} {cs r : List Char}

/-- A value takes a character at least. -/
lemma length_lt (sp : SpellsValue d cs r) : r.length < cs.length := by
  cases sp with
  | scalar sp => exact sp.length_lt
  | list sp => exact sp.length_lt.trans (Nat.lt_succ_self _)

/-- No blank stands at the beginning of a value. -/
lemma skipSpace (sp : SpellsValue d cs r) : skipSpace cs = cs := by
  cases sp with
  | scalar sp => exact sp.head.1
  | list => rfl

/-- The reader finds the value that is spelled. -/
lemma value? (sp : SpellsValue d cs r) (stop : r.head? ≠ some '"') {fuel : Nat} (enough : cs.length < fuel) :
    value? fuel 0 cs = some (d, r) := by
  obtain ⟨fuel, rfl⟩ := Nat.exists_eq_add_of_le' (show 1 ≤ fuel by omega)
  cases sp with
  | scalar sp => exact sp.value? stop fuel 0
  | list sp =>
    rw [List.length_cons] at enough
    rw [Toml.value?, if_neg (by decide), sp.items? _ fuel (by omega)]
    rfl

end SpellsValue

/-! ## Lines -/

variable {k : String} {d : Data} {cs cs₁ cs₂ cs₃ r : List Char}

/-- No quote stands at the end of a line. -/
lemma LineEnd.head_ne (le : LineEnd cs r) : cs.head? ≠ some '"' :=
  fun first => absurd (le.head _ first) (by decide)

/-- The reader finds the pair that a line spells. -/
lemma line?_pair (key : SpellsKey k cs ('=' :: cs₁)) (bl : Blanks cs₁ cs₂) (value : SpellsValue d cs₂ cs₃)
    (le : LineEnd cs₃ r) : line? cs = some (.pair [k] d, r) := by
  obtain ⟨c, t, head, array, comment, lf, cr, -⟩ := key.head
  have found := key.key? rfl rfl (by decide)
  have room : cs₂.length < 2 * cs₁.length + 2 := by
    have := bl.length_le
    omega
  rw [← key?_skipSpace, head] at found
  rw [line?, head]
  split
  case h_7 =>
    simp only [found, bl.skipSpace, value.skipSpace, value.value? le.head_ne room, le.lineEnd?]
    rfl
  all_goals simp_all

/-- The reader finds the header of a table. -/
lemma line?_table (bl : Blanks cs ('[' :: cs₁)) (key : SpellsKey k cs₁ (']' :: cs₂)) (le : LineEnd cs₂ r) :
    line? cs = some (.header (.table [k]), r) := by
  obtain ⟨c, t, head, array, -⟩ := key.head
  have found := key.key? rfl rfl (by decide)
  rw [line?, bl.skipSpace, skipSpace_of_head (by simp [isSpace])]
  split
  case h_5 eq =>
    cases eq
    cases head
    exact absurd rfl array
  case h_6 eq =>
    cases eq
    simp only [found, le.lineEnd?]
    rfl
  all_goals simp_all

/-- The reader finds the header of one more table of an array. -/
lemma line?_item (bl : Blanks cs ('[' :: '[' :: cs₁)) (key : SpellsKey k cs₁ (']' :: ']' :: cs₂)) (le : LineEnd cs₂ r) :
    line? cs = some (.header (.item [k]), r) := by
  have found := key.key? rfl rfl (by decide)
  rw [line?, bl.skipSpace, skipSpace_of_head (by simp [isSpace])]
  simp only [found, le.lineEnd?]
  rfl

/-- Below a line that is read, the rest of the text is read. -/
lemma sections?_of_line {l : Line} (ne : cs ≠ []) (fuel : Nat) (current : Section) : line? cs = some (l, r) →
    sections? (fuel + 1) current cs =
      match l with
      | .blank => sections? fuel current r
      | .pair path d => sections? fuel { current with pairs := (path, d) :: current.pairs } r
      | .header h =>
        (sections? fuel ⟨h, []⟩ r).map fun rest => { current with pairs := current.pairs.reverse } :: rest := by
  intro h
  rw [sections?, h]
  · cases l <;> rfl
  · exact ne

/-- The lines that are spelled go on with the section so far. -/
lemma Lines.sections? {ps : Pairs} {secs : List Section} (li : Lines ps secs cs) :
    ∀ fuel, cs.length < fuel → ∀ current : Section,
      sections? fuel current cs = some ({ current with pairs := current.pairs.reverse ++ ps } :: secs) := by
  -- on the lines; pairs are read in reverse, and a header closes the section so far
  induction li with
  | done =>
    intro fuel enough current
    obtain ⟨fuel, rfl⟩ := Nat.exists_eq_add_of_le' (show 1 ≤ fuel by omega)
    rw [Toml.sections?, List.append_nil]
  | blank ne le _ ih =>
    intro fuel enough current
    have := le.length_lt ne
    obtain ⟨fuel, rfl⟩ := Nat.exists_eq_add_of_le' (show 1 ≤ fuel by omega)
    rw [sections?_of_line ne _ _ le.line?, ih fuel (by omega)]
  | @pair _ _ _ _ cs _ _ _ _ key bl value le _ ih =>
    intro fuel enough current
    have := key.length_lt
    have := bl.length_le
    have := value.length_lt
    have := le.length_le
    rw [List.length_cons] at *
    obtain ⟨fuel, rfl⟩ := Nat.exists_eq_add_of_le' (show 1 ≤ fuel by omega)
    have ne : cs ≠ [] := List.ne_nil_of_length_pos (by omega)
    rw [sections?_of_line ne _ _ (line?_pair key bl value le)]
    simp only [ih fuel (by omega), List.reverse_cons, List.append_assoc, List.singleton_append]
  | @table _ _ _ cs _ _ _ bl key le _ ih =>
    intro fuel enough current
    have := bl.length_le
    have := key.length_lt
    have := le.length_le
    simp only [List.length_cons] at *
    obtain ⟨fuel, rfl⟩ := Nat.exists_eq_add_of_le' (show 1 ≤ fuel by omega)
    have ne : cs ≠ [] := List.ne_nil_of_length_pos (by omega)
    rw [sections?_of_line ne _ _ (line?_table bl key le)]
    simp only [ih fuel (by omega), Option.map_some, List.reverse_nil, List.nil_append, List.append_nil]
  | @item _ _ _ cs _ _ _ bl key le _ ih =>
    intro fuel enough current
    have := bl.length_le
    have := key.length_lt
    have := le.length_le
    simp only [List.length_cons] at *
    obtain ⟨fuel, rfl⟩ := Nat.exists_eq_add_of_le' (show 1 ≤ fuel by omega)
    have ne : cs ≠ [] := List.ne_nil_of_length_pos (by omega)
    rw [sections?_of_line ne _ _ (line?_item bl key le)]
    simp only [ih fuel (by omega), Option.map_some, List.reverse_nil, List.nil_append, List.append_nil]

/-- No line begins with a byte order mark. -/
lemma Lines.skipMark {ps : Pairs} {secs : List Section} (li : Lines ps secs cs) : skipMark cs = cs := by
  have unmarked : ∀ c ∈ cs.head?, c ≠ '\ufeff' := by
    have blank : ∀ c, isSpace c → c ≠ '\ufeff' := by
      rintro c space rfl
      cases space
    cases li with
    | done => exact nofun
    | blank _ le =>
      rintro c first rfl
      exact absurd (le.head _ first) (by decide)
    | pair key =>
      obtain ⟨before, name, -⟩ := key
      obtain ⟨c, t, rfl, -, -, -, -, -, other⟩ := name.head
      exact before.head blank (by simpa using other)
    | table bl | item bl => exact bl.head blank (by simp)
  unfold Toml.skipMark
  split
  case h_1 => exact absurd rfl (unmarked _ rfl)
  case h_2 => rfl

/-- The sections that a text spells are those that the reader builds the document from. -/
theorem Spelling.read? {secs : List Section} {text : String} (sp : Spelling secs text) :
    read? text.toList = (buildTree secs).map fun tree => .record (entriesToData tree) := by
  obtain ⟨ps, more, cs, rfl, lines, spelled⟩ := sp
  have unmarked : Toml.skipMark text.toList = cs := by
    obtain plain | marked := spelled
    · rw [plain, lines.skipMark]
    · rw [marked]
      rfl
  have found := lines.sections? _ (Nat.lt_succ_self _) ⟨.document, []⟩
  rw [List.reverse_nil, List.nil_append] at found
  rw [Toml.read?, unmarked]
  simp only [found, Option.bind_eq_bind, Option.bind_some, Option.map_eq_bind, Option.pure_def, Function.comp_def]

end ModelScopes.Toml
