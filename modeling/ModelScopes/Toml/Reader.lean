import ModelScopes.Toml.Scalar
import ModelScopes.Toml.Table

/-!
# Reading TOML documents

Reads a whole document into `Data`, or nothing if it breaks the grammar anywhere or gives a key twice.
-/

namespace ModelScopes.Toml

mutual

/-- A value; `depth` counts the arrays and tables around it, and `fuel` bounds the steps. -/
def value? : Nat → Nat → List Char → Option (Data × List Char)
  | 0, _, _ => none
  | fuel + 1, depth, cs =>
    match cs with
    | '"' :: _ => (string? cs).map fun (s, r) => (.string s, r)
    | '\'' :: _ => (string? cs).map fun (s, r) => (.string s, r)
    | '[' :: r =>
      if nestingLimit ≤ depth + 1 then none
      else (items? fuel (depth + 1) r).map fun (ds, r) => (.list ds, r)
    | '\x7b' :: r =>
      if nestingLimit ≤ depth + 1 then none
      else
        match skipSpace r with
        | '\x7d' :: r => some (.record [], r)
        | r =>
          match pairs? fuel (depth + 1) r with
          | none => none
          | some (pairs, r) => (Entries.addPairs [] pairs).map fun es => (.record (entriesToData es), r)
    | 't' :: 'r' :: 'u' :: 'e' :: r => some (.bool true, r)
    | 'f' :: 'a' :: 'l' :: 's' :: 'e' :: r => some (.bool false, r)
    | _ => number? cs

/-- The items of an array up to its closing bracket; a comma may stand after the last one. -/
def items? : Nat → Nat → List Char → Option (List Data × List Char)
  | 0, _, _ => none
  | fuel + 1, depth, cs =>
    match skipLines false cs with
    | none => none
    | some (']' :: r) => some ([], r)
    | some r =>
      match value? fuel depth r with
      | none => none
      | some (d, r) =>
        match skipLines false r with
        | some (']' :: r) => some ([d], r)
        | some (',' :: r) => (items? fuel depth r).map fun (ds, r) => (d :: ds, r)
        | _ => none

/-- One pair or more of an inline table up to its closing brace. -/
def pairs? : Nat → Nat → List Char → Option (List (List String × Data) × List Char)
  | 0, _, _ => none
  | fuel + 1, depth, cs =>
    match key? cs with
    | some (path, '=' :: r) =>
      match value? fuel depth (skipSpace r) with
      | none => none
      | some (d, r) =>
        match skipSpace r with
        | '\x7d' :: r => some ([(path, d)], r)
        | ',' :: r => (pairs? fuel depth r).map fun (ps, r) => ((path, d) :: ps, r)
        | _ => none
    | _ => none

end

/-- A line of a document. -/
inductive Line where
  | blank
  | header (h : Header)
  | pair (path : List String) (d : Data)

/-- The line at the head of the text, and the lines after it. -/
def line? (cs : List Char) : Option (Line × List Char) :=
  match skipSpace cs with
  | [] => some (.blank, [])
  | '#' :: r => (lineEnd? ('#' :: r)).map fun r => (.blank, r)
  | '\n' :: r => some (.blank, r)
  | '\r' :: r => (newline? ('\r' :: r)).map fun r => (.blank, r)
  | '[' :: '[' :: r =>
    match key? r with
    | some (path, ']' :: ']' :: r) => (lineEnd? r).map fun r => (.header (.item path), r)
    | _ => none
  | '[' :: r =>
    match key? r with
    | some (path, ']' :: r) => (lineEnd? r).map fun r => (.header (.table path), r)
    | _ => none
  | r =>
    match key? r with
    | some (path, '=' :: r) =>
      match value? (2 * r.length + 2) 0 (skipSpace r) with
      | none => none
      | some (d, r) => (lineEnd? r).map fun r => (.pair path d, r)
    | _ => none

/-- The sections of the lines; `current` is the section so far, its pairs in reverse. -/
def sections? : Nat → Section → List Char → Option (List Section)
  | 0, _, _ => none
  | fuel + 1, current, cs =>
    match cs with
    | [] => some [{ current with pairs := current.pairs.reverse }]
    | cs =>
      match line? cs with
      | none => none
      | some (.blank, r) => sections? fuel current r
      | some (.pair path d, r) => sections? fuel { current with pairs := (path, d) :: current.pairs } r
      | some (.header h, r) =>
        (sections? fuel ⟨h, []⟩ r).map fun rest => { current with pairs := current.pairs.reverse } :: rest

/-- The text without the byte order mark at its head. -/
def skipMark : List Char → List Char
  | '\ufeff' :: r => r
  | r => r

/-- The document as a record. -/
def read? (cs : List Char) : Option Data := do
  let cs := skipMark cs
  let sections ← sections? (cs.length + 1) ⟨.document, []⟩ cs
  let tree ← buildTree sections
  return .record (entriesToData tree)

end ModelScopes.Toml
