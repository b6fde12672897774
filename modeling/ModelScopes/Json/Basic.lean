import ModelScopes.Text.Hex

/-!
# JSON values and their compact text

A JSON value as this library writes it, and its text without any blank: members stand in their own order, a string
escapes the quote, the backslash and the characters below the space, and every other character stands for itself.
`write v rest` is the text of `v` before `rest`, so that a reader can be run on it with whatever follows.
-/

namespace ModelScopes

/-- A JSON value as this library writes it. -/
inductive Json where
  | null
  | bool (b : Bool)
  | string (s : String)
  | list (items : List Json)
  | record (members : List (String × Json))
  deriving Inhabited

namespace Json

/-- How one character stands inside a string. -/
def escape (c : Char) : List Char :=
  if c = '"' then ['\\', '"']
  else if c = '\\' then ['\\', '\\']
  else if c = '\x08' then ['\\', 'b']
  else if c = '\x0c' then ['\\', 'f']
  else if c = '\n' then ['\\', 'n']
  else if c = '\r' then ['\\', 'r']
  else if c = '\t' then ['\\', 't']
  else if c.toNat < 0x20 then
    ['\\', 'u', '0', '0', Text.Hex.toChar (Fin.ofNat 16 (c.toNat / 16)), Text.Hex.toChar (Fin.ofNat 16 c.toNat)]
  else [c]

/-- The characters of a string and its closing quote, before `rest`. -/
def writeChars (rest : List Char) : List Char → List Char
  | [] => '"' :: rest
  | c :: cs => escape c ++ writeChars rest cs

/-- A string between quotes, before `rest`. -/
def writeString (s : String) (rest : List Char) : List Char :=
  '"' :: writeChars rest s.toList

mutual

/-- The text of the value, before `rest`. -/
def write : Json → List Char → List Char
  | .null, rest => "null".toList ++ rest
  | .bool true, rest => "true".toList ++ rest
  | .bool false, rest => "false".toList ++ rest
  | .string s, rest => writeString s rest
  | .list [], rest => '[' :: ']' :: rest
  | .list (x :: xs), rest => '[' :: write x (writeItems xs rest)
  | .record [], rest => '\x7b' :: '\x7d' :: rest
  | .record ((k, v) :: ms), rest => '\x7b' :: writeString k (':' :: write v (writeMembers ms rest))

/-- The items after the first one and the closing bracket. -/
def writeItems : List Json → List Char → List Char
  | [], rest => ']' :: rest
  | x :: xs, rest => ',' :: write x (writeItems xs rest)

/-- The members after the first one and the closing brace. -/
def writeMembers : List (String × Json) → List Char → List Char
  | [], rest => '\x7d' :: rest
  | (k, v) :: ms, rest => ',' :: writeString k (':' :: write v (writeMembers ms rest))

end

/-- The compact text of the value. -/
def text (v : Json) : String :=
  String.ofList (write v [])

end Json

end ModelScopes
