import ModelScopes.Data.Basic

/-!
# Tables of TOML documents

A document is a sequence of sections, each with a header and pairs of keys and values, and builds one tree of tables.
A table that is written once may not be written again: a header may only open a table that other headers implied,
a dotted key may only extend tables that dotted keys made, and no key is given twice. A table that a header opens
after it was implied moves behind the entries that its parent has by then.
-/

namespace ModelScopes.Toml

/-- How a table came to be: written by a header or braces, implied by a longer header, or made by a dotted key. -/
inductive Origin where
  | written
  | implied
  | dotted
  deriving DecidableEq, Repr

/-- What stands under a key while a document is read. -/
inductive Node where
  | value (d : Data)
  | table (origin : Origin) (entries : List (String × Node))
  | tables (items : List (List (String × Node)))

/-- The entries of a table while a document is read, in order. -/
abbrev Entries := List (String × Node)

mutual

/-- The finished node. -/
def Node.toData : Node → Data
  | .value d => d
  | .table _ entries => .record (entriesToData entries)
  | .tables items => .list (tablesToData items)

/-- The finished entries. -/
def entriesToData : List (String × Node) → List (Option String × Data)
  | [] => []
  | (k, n) :: rest => (some k, n.toData) :: entriesToData rest

/-- The finished tables of an array. -/
def tablesToData : List (List (String × Node)) → List Data
  | [] => []
  | es :: rest => .record (entriesToData es) :: tablesToData rest

end

namespace Entries

/-- What stands under a key. -/
def get? (key : String) (es : Entries) : Option Node :=
  (es.find? (fun e => e.1 == key)).map Prod.snd

/-- Replaces what stands under a key, in its place. -/
def replace (key : String) (n : Node) (es : Entries) : Entries :=
  es.map fun e => if e.1 == key then (key, n) else e

/-- The entries without a key. -/
def without (key : String) (es : Entries) : Entries :=
  es.filter fun e => e.1 != key

/-- Goes down a path, making the tables that are not there, and changes the entries at its end. In an array
of tables it goes down the last one. Going down a dotted key passes no table that was written. -/
def descend (byDots : Bool) (change : Origin → Entries → Option Entries) :
    List String → Origin → Entries → Option Entries
  | [], origin, es => change origin es
  | key :: path, _, es =>
    match es.get? key with
    | none =>
      let origin := if byDots then Origin.dotted else Origin.implied
      (descend byDots change path origin []).map fun sub => es ++ [(key, .table origin sub)]
    | some (.value _) => none
    | some (.table origin sub) =>
      if byDots && origin == .written then none
      else (descend byDots change path origin sub).map fun sub => es.replace key (.table origin sub)
    | some (.tables items) =>
      match items.getLast? with
      | none => none
      | some last =>
        (descend byDots change path .written last).map fun sub =>
          es.replace key (.tables (items.dropLast ++ [sub]))

/-- Adds a value under a new key. A dotted key ends in a table that dotted keys made. -/
def addValue (isDotted : Bool) (key : String) (d : Data) (origin : Origin) (es : Entries) : Option Entries :=
  if isDotted != (origin == .dotted) then none
  else
    match es.get? key with
    | none => some (es ++ [(key, .value d)])
    | some _ => none

/-- Adds a pair to a table that is being written. -/
def addPair (es : Entries) (pair : List String × Data) : Option Entries :=
  match pair.1.getLast? with
  | none => none
  | some key =>
    let path := pair.1.dropLast
    descend true (addValue (!path.isEmpty) key pair.2) path .written es

/-- Adds pairs in turn to a table that is being written. -/
def addPairs (es : Entries) : List (List String × Data) → Option Entries
  | [] => some es
  | pair :: rest => (es.addPair pair).bind fun es => addPairs es rest

end Entries

/-- What opens a section. -/
inductive Header where
  | document
  | table (path : List String)
  | item (path : List String)
  deriving DecidableEq, Repr

/-- A header with the pairs below it. -/
structure Section where
  header : Header
  pairs : List (List String × Data)

/-- Writes a table under a key of its parent, on top of what other headers implied for it. -/
def writeTable (key : String) (pairs : List (List String × Data)) (parent : Entries) : Option Entries :=
  match parent.get? key with
  | none => (Entries.addPairs [] pairs).map fun es => parent ++ [(key, .table .written es)]
  | some (.table .implied sub) =>
    (Entries.addPairs sub pairs).map fun es => parent.without key ++ [(key, .table .written es)]
  | some _ => none

/-- Adds a table to the array under a key of its parent. -/
def writeItem (key : String) (pairs : List (List String × Data)) (parent : Entries) : Option Entries :=
  match parent.get? key with
  | none => (Entries.addPairs [] pairs).map fun es => parent ++ [(key, .tables [es])]
  | some (.tables items) =>
    (Entries.addPairs [] pairs).map fun es => parent.replace key (.tables (items ++ [es]))
  | some _ => none

/-- Adds a section to the tree of a document. -/
def addSection (root : Entries) (sec : Section) : Option Entries :=
  match sec.header with
  | .document => root.addPairs sec.pairs
  | .table path =>
    match path.getLast? with
    | none => none
    | some key => root.descend false (fun _ => writeTable key sec.pairs) path.dropLast .written
  | .item path =>
    match path.getLast? with
    | none => none
    | some key => root.descend false (fun _ => writeItem key sec.pairs) path.dropLast .written

/-- The tree that the sections build. -/
def buildTree (sections : List Section) : Option Entries :=
  sections.foldlM addSection []

end ModelScopes.Toml
