import ModelScopes.Text.Hex

/-!
# Blanks, strings and keys of TOML texts

Each function reads at the head of a text and answers with what it read and what follows, or with nothing if the
text breaks the grammar there.
-/

namespace ModelScopes.Toml

/-- A blank within a line. -/
def isSpace (c : Char) : Bool :=
  c == ' ' || c == '\t'

/-- The text without the blanks at its head. -/
def skipSpace (cs : List Char) : List Char :=
  cs.dropWhile isSpace

/-- Whether the character may stand in a comment, and between the quotes of a string unless it has a meaning
there. -/
def isPlain (c : Char) : Bool :=
  c == '\t' || (0x20 ≤ c.toNat && c.toNat != 0x7f)

/-- The text after a line break. -/
def newline? : List Char → Option (List Char)
  | '\n' :: r => some r
  | '\r' :: '\n' :: r => some r
  | _ => none

/-- The text without the comment at its head, if there is one. -/
def skipComment : List Char → List Char
  | '#' :: r => r.dropWhile isPlain
  | r => r

/-- The text after the blanks, the comment and the line break that end a line; the text's end ends a line, too. -/
def lineEnd? (cs : List Char) : Option (List Char) :=
  match skipComment (skipSpace cs) with
  | [] => some []
  | r => newline? r

/-- The text without blanks, line breaks and comments at its head; a comment has to be ended by a line break. -/
def skipLines (inComment : Bool) : List Char → Option (List Char)
  | '\n' :: r => skipLines false r
  | '\r' :: '\n' :: r => skipLines false r
  | c :: r =>
    if inComment then
      if isPlain c then skipLines true r else none
    else if isSpace c then skipLines false r
    else if c == '#' then skipLines true r
    else some (c :: r)
  | [] => if inComment then none else some []

/-- The character of a code, if it is one. -/
def scalar? (n : Nat) : Option Char :=
  if n < 0xd800 ∨ (0xe000 ≤ n ∧ n < 0x110000) then some (Char.ofNat n) else none

/-- The character that an escape of hexadecimal digits writes. -/
def escaped? (ds : List Char) : Option Char := do
  let ds ← ds.mapM Text.Hex.ofChar?
  scalar? (Text.Hex.value ds)

/-- The character that a backslash and a letter stand for. -/
def unescape? (c : Char) : Option Char :=
  if c = '"' then some '"'
  else if c = '\\' then some '\\'
  else if c = 'b' then some '\x08'
  else if c = 'f' then some '\x0c'
  else if c = 'n' then some '\n'
  else if c = 'r' then some '\r'
  else if c = 't' then some '\t'
  else none

/-- The characters read so far with one more before them. -/
def addChar (c : Char) (r : Option (List Char × List Char)) : Option (List Char × List Char) :=
  r.map fun (s, rest) => (c :: s, rest)

/-- A basic string after its opening quote. -/
def basicString? : List Char → Option (List Char × List Char)
  | '"' :: r => some ([], r)
  | '\\' :: 'u' :: a :: b :: c :: d :: r => do
    let x ← escaped? [a, b, c, d]
    addChar x (basicString? r)
  | '\\' :: 'U' :: a :: b :: c :: d :: e :: f :: g :: h :: r => do
    let x ← escaped? [a, b, c, d, e, f, g, h]
    addChar x (basicString? r)
  | '\\' :: c :: r => do
    let x ← unescape? c
    addChar x (basicString? r)
  | c :: r => if isPlain c then addChar c (basicString? r) else none
  | [] => none

/-- A literal string after its opening quote. -/
def literalString? : List Char → Option (List Char × List Char)
  | '\'' :: r => some ([], r)
  | c :: r => if isPlain c then addChar c (literalString? r) else none
  | [] => none

/-- Whether nothing but blanks stands before the next line break. -/
def restIsBlank (cs : List Char) : Bool :=
  (newline? (skipSpace cs)).isSome

/-- A basic string of several lines after its opening quotes; `trimming` says that blanks and line breaks are
passed over, because a backslash ended the line. Up to two quotes may stand before the closing ones. -/
def basicLines? (trimming : Bool) : List Char → Option (List Char × List Char)
  | '"' :: '"' :: '"' :: '"' :: '"' :: r => some (['"', '"'], r)
  | '"' :: '"' :: '"' :: '"' :: r => some (['"'], r)
  | '"' :: '"' :: '"' :: r => some ([], r)
  | '\n' :: r => if trimming then basicLines? true r else addChar '\n' (basicLines? false r)
  | '\r' :: '\n' :: r => if trimming then basicLines? true r else addChar '\n' (basicLines? false r)
  | '\\' :: 'u' :: a :: b :: c :: d :: r => do
    let x ← escaped? [a, b, c, d]
    addChar x (basicLines? false r)
  | '\\' :: 'U' :: a :: b :: c :: d :: e :: f :: g :: h :: r => do
    let x ← escaped? [a, b, c, d, e, f, g, h]
    addChar x (basicLines? false r)
  | '\\' :: c :: r =>
    if restIsBlank (c :: r) then basicLines? true r
    else
      match unescape? c with
      | some x => addChar x (basicLines? false r)
      | none => none
  | c :: r =>
    if trimming && isSpace c then basicLines? true r
    else if isPlain c && c != '\\' then addChar c (basicLines? false r)
    else none
  | [] => none

/-- A literal string of several lines after its opening quotes. -/
def literalLines? : List Char → Option (List Char × List Char)
  | '\'' :: '\'' :: '\'' :: '\'' :: '\'' :: r => some (['\'', '\''], r)
  | '\'' :: '\'' :: '\'' :: '\'' :: r => some (['\''], r)
  | '\'' :: '\'' :: '\'' :: r => some ([], r)
  | '\n' :: r => addChar '\n' (literalLines? r)
  | '\r' :: '\n' :: r => addChar '\n' (literalLines? r)
  | c :: r => if isPlain c then addChar c (literalLines? r) else none
  | [] => none

/-- The text without the line break at its head, if there is one. -/
def skipNewline (cs : List Char) : List Char :=
  (newline? cs).getD cs

/-- A string that is a value. -/
def string? : List Char → Option (String × List Char)
  | '"' :: '"' :: '"' :: r => (basicLines? false (skipNewline r)).map fun (s, r) => (String.ofList s, r)
  | '"' :: r => (basicString? r).map fun (s, r) => (String.ofList s, r)
  | '\'' :: '\'' :: '\'' :: r => (literalLines? (skipNewline r)).map fun (s, r) => (String.ofList s, r)
  | '\'' :: r => (literalString? r).map fun (s, r) => (String.ofList s, r)
  | _ => none

/-- Whether the character may stand in a key without quotes. -/
def isBare (c : Char) : Bool :=
  c.isAlphanum || c == '_' || c == '-'

/-- One part of a key. -/
def keyPart? : List Char → Option (String × List Char)
  | '"' :: r => (basicString? r).map fun (s, r) => (String.ofList s, r)
  | '\'' :: r => (literalString? r).map fun (s, r) => (String.ofList s, r)
  | cs =>
    match cs.takeWhile isBare with
    | [] => none
    | name => some (String.ofList name, cs.dropWhile isBare)

/-- The parts of a key with points between them; `fuel` bounds their number. -/
def keyParts? : Nat → List Char → Option (List String × List Char)
  | 0, _ => none
  | fuel + 1, cs => do
    let (part, r) ← keyPart? (skipSpace cs)
    match skipSpace r with
    | '.' :: r =>
      let (parts, r) ← keyParts? fuel r
      return (part :: parts, r)
    | r => return ([part], r)

/-- The largest number of parts of a key, and of arrays and tables inside one another, plus one. -/
def nestingLimit : Nat :=
  80

/-- A key, with the blanks around it. -/
def key? (cs : List Char) : Option (List String × List Char) :=
  keyParts? (nestingLimit - 1) cs

end ModelScopes.Toml
