import ModelScopes.Json.Number
import ModelScopes.Text.Hex

/-!
# Reading JSON texts

Reads the value at the head of a text into `Data`, as far as the text is well formed, and says what follows it.
The reader keeps to the strict grammar: four blanks, no comma before a closing bracket, no leading zeros,
no control characters in strings. A string whose surrogate escapes do not pair up is unreadable, not broken.
-/

namespace ModelScopes.Json

/-- Whether the character may stand between the parts of a value. -/
def isSpace (c : Char) : Bool :=
  c == ' ' || c == '\t' || c == '\n' || c == '\r'

/-- The text without the blanks at its head. -/
def skipSpace (cs : List Char) : List Char :=
  cs.dropWhile isSpace

/-- What was read, and what follows it; nothing follows where reading stopped. -/
abbrev Reading := Data × Option (List Char)

/-- Reading stops here. -/
def stopped : Reading :=
  (.broken, none)

/-- The character that a backslash and a letter stand for. -/
def unescape? (c : Char) : Option Char :=
  if c = '"' then some '"'
  else if c = '\\' then some '\\'
  else if c = '/' then some '/'
  else if c = 'b' then some '\x08'
  else if c = 'f' then some '\x0c'
  else if c = 'n' then some '\n'
  else if c = 'r' then some '\r'
  else if c = 't' then some '\t'
  else none

/-- The code unit that four hexadecimal digits write. -/
def unit? (a b c d : Char) : Option Nat := do
  let a ← Text.Hex.ofChar? a
  let b ← Text.Hex.ofChar? b
  let c ← Text.Hex.ofChar? c
  let d ← Text.Hex.ofChar? d
  return Text.Hex.value [a, b, c, d]

/-- The rest of a string that cannot be taken, up to its closing quote. -/
def skipString : List Char → Reading
  | '\\' :: 'u' :: a :: b :: c :: d :: r => if (unit? a b c d).isSome then skipString r else stopped
  | '\\' :: c :: r => if (unescape? c).isSome then skipString r else stopped
  | '"' :: r => (.unreadable, some r)
  | c :: r => if c.toNat < 0x20 then stopped else skipString r
  | [] => stopped

/-- Puts a character before the string that was read. -/
def addChar (c : Char) : Option (List Char) × Option (List Char) → Option (List Char) × Option (List Char)
  | (some s, r) => (some (c :: s), r)
  | (none, r) => (none, r)

/-- What `skipString` found, in the form of `readChars`. -/
def skipChars (cs : List Char) : Option (List Char) × Option (List Char) :=
  (none, (skipString cs).2)

/-- The characters of a string up to its closing quote, and what follows it; no characters if the string cannot be
taken. -/
def readChars : List Char → Option (List Char) × Option (List Char)
  | '"' :: r => (some [], some r)
  | '\\' :: 'u' :: a :: b :: c :: d :: r =>
    match unit? a b c d with
    | none => (none, none)
    | some u =>
      if 0xd800 ≤ u ∧ u < 0xdc00 then
        match r with
        | '\\' :: 'u' :: a' :: b' :: c' :: d' :: r' =>
          match unit? a' b' c' d' with
          | none => (none, none)
          | some v =>
            if 0xdc00 ≤ v ∧ v < 0xe000 then
              addChar (Char.ofNat (0x10000 + 0x400 * (u - 0xd800) + (v - 0xdc00))) (readChars r')
            else skipChars r'
        | r => skipChars r
      else if 0xdc00 ≤ u ∧ u < 0xe000 then skipChars r
      else addChar (Char.ofNat u) (readChars r)
  | '\\' :: c :: r =>
    match unescape? c with
    | none => (none, none)
    | some c => addChar c (readChars r)
  | c :: r => if c.toNat < 0x20 then (none, none) else addChar c (readChars r)
  | [] => (none, none)

/-- The string after its opening quote, if it can be taken, and what follows it. -/
def readText (cs : List Char) : Option String × Option (List Char) :=
  match readChars cs with
  | (_, none) => (none, none)
  | (s, r) => (s.map String.ofList, r)

/-- The string after its opening quote, as data. -/
def readString (cs : List Char) : Reading :=
  match readText cs with
  | (_, none) => stopped
  | (some s, r) => (.string s, r)
  | (none, r) => (.unreadable, r)

/-- The digits at the head of the text, and what follows them. -/
def digits (cs : List Char) : List Nat × List Char :=
  ((cs.takeWhile Char.isDigit).map (fun c => c.toNat - 48), cs.dropWhile Char.isDigit)

/-- The digits of an exponent, with its sign if it is negative. -/
def exponent (cs : List Char) : Option ((Bool × List Nat) × List Char) :=
  let (down, cs) :=
    match cs with
    | '+' :: r => (false, r)
    | '-' :: r => (true, r)
    | r => (false, r)
  match digits cs with
  | ([], _) => none
  | (ds, r) => some ((down, ds), r)

/-- The exponent of a number, if one follows. -/
def exponent? : List Char → Option (Option (Bool × List Nat) × List Char)
  | 'e' :: r => (exponent r).map fun (e, r) => (some e, r)
  | 'E' :: r => (exponent r).map fun (e, r) => (some e, r)
  | r => some (none, r)

/-- The digits after the point, if a point follows. -/
def fraction? : List Char → Option (List Nat × List Char)
  | '.' :: r =>
    match digits r with
    | ([], _) => none
    | (ds, r) => some (ds, r)
  | r => some ([], r)

/-- The digits before the point: a zero stands alone. -/
def whole? (cs : List Char) : Option (List Nat × List Char) :=
  match digits cs with
  | ([], _) => none
  | (0 :: _ :: _, _) => none
  | (ds, r) => some (ds, r)

/-- The number after its sign. -/
def readMagnitude (negative : Bool) (cs : List Char) : Reading :=
  match whole? cs with
  | none => stopped
  | some (whole, cs) =>
    match fraction? cs with
    | none => stopped
    | some (fraction, cs) =>
      match exponent? cs with
      | none => stopped
      | some (e, cs) => (NumberText.toData ⟨negative, whole, fraction, e⟩, some cs)

/-- The number at the head of the text. -/
def readNumber : List Char → Reading
  | '-' :: r => readMagnitude true r
  | r => readMagnitude false r

mutual

/-- The value at the head of the text; `fuel` is at least the length of the text. -/
def readValue : Nat → List Char → Reading
  | 0, _ => stopped
  | fuel + 1, cs =>
    match skipSpace cs with
    | 'n' :: 'u' :: 'l' :: 'l' :: r => (.null, some r)
    | 't' :: 'r' :: 'u' :: 'e' :: r => (.bool true, some r)
    | 'f' :: 'a' :: 'l' :: 's' :: 'e' :: r => (.bool false, some r)
    | '"' :: r => readString r
    | '[' :: r =>
      match skipSpace r with
      | ']' :: r => (.list [], some r)
      | r =>
        let (items, rest) := readItems fuel r
        (.list items, rest)
    | '\x7b' :: r =>
      match skipSpace r with
      | '\x7d' :: r => (.record [], some r)
      | r =>
        let (members, rest) := readMembers fuel r
        (.record members, rest)
    | r => readNumber r

/-- One item or more, up to the closing bracket. -/
def readItems : Nat → List Char → List Data × Option (List Char)
  | 0, _ => ([.broken], none)
  | fuel + 1, cs =>
    match readValue fuel cs with
    | (d, none) => ([d], none)
    | (d, some r) =>
      match skipSpace r with
      | ',' :: r =>
        let (items, rest) := readItems fuel r
        (d :: items, rest)
      | ']' :: r => ([d], some r)
      | _ => ([d, .broken], none)

/-- One member or more, up to the closing brace. -/
def readMembers : Nat → List Char → List (Option String × Data) × Option (List Char)
  | 0, _ => ([(none, .broken)], none)
  | fuel + 1, cs =>
    match skipSpace cs with
    | '"' :: r =>
      match readText r with
      | (key, none) => ([(key, .broken)], none)
      | (key, some r) =>
        match skipSpace r with
        | ':' :: r =>
          match readValue fuel r with
          | (d, none) => ([(key, d)], none)
          | (d, some r) =>
            match skipSpace r with
            | ',' :: r =>
              let (members, rest) := readMembers fuel r
              ((key, d) :: members, rest)
            | '\x7d' :: r => ([(key, d)], some r)
            | _ => ([(key, d), (none, .broken)], none)
        | _ => ([(key, .broken)], none)
    | _ => ([(none, .broken)], none)

end

/-- The value at the head of the text, and what follows it. -/
def read (cs : List Char) : Reading :=
  readValue (2 * cs.length + 2) cs

/-- Whether a value was read to its end and nothing but blanks follows it. -/
def endsClean : Option (List Char) → Bool
  | some rest => (skipSpace rest).isEmpty
  | none => false

end ModelScopes.Json
