import ModelScopes.Data.Basic
import ModelScopes.Data.Fault
import ModelScopes.Decimal.Notation
import ModelScopes.Json.Basic
import ModelScopes.Json.Reader
import ModelScopes.Map.Ordered
import ModelScopes.Map.Settings
import ModelScopes.Text.Characters
import ModelScopes.Toml.Reader
import ModelScopes.Uuid

/-!
# Codecs

A codec writes a value as JSON and takes it from data that a reader found in a text. Decoding walks the data in
reading order and reports the first fault it meets. A frame says which format the data comes from and how many
containers stand around it.
-/

namespace ModelScopes

/-- Where data comes from: the two text formats, and content that was set aside until the tag of a union is known. -/
inductive Dialect where
  | json
  | toml
  | setAside
  deriving DecidableEq, Repr

/-- The style in which a format's messages show a float. -/
def Dialect.floatStyle : Dialect → Decimal.Style
  | .toml => .positional
  | .json | .setAside => .compact

/-- The surroundings of data: its format, and the number of containers around it. -/
structure Frame where
  dialect : Dialect
  depth : Nat
  deriving DecidableEq, Repr

namespace Frame

/-- The surroundings of a whole text. -/
def top (dialect : Dialect) : Frame :=
  ⟨dialect, 0⟩

/-- The surroundings of what a container holds. -/
def inner (frame : Frame) : Frame :=
  { frame with depth := frame.depth + 1 }

end Frame

/-- The largest number of containers inside one another in data that is taken. -/
def maxDepth : Nat :=
  127

namespace Data

/-- What kind of data it is, as messages name it; nothing for data that cannot be taken. -/
def kind? (dialect : Dialect) : Data → Option String
  | .null => some "null"
  | .bool b => some ("boolean `" ++ toString b ++ "`")
  | .integer n => some ("integer `" ++ toString n ++ "`")
  | .float x => some ("floating point `" ++ dialect.floatStyle.text x ++ "`")
  | .string s => some ("string " ++ Text.quoted s)
  | .list _ => some "sequence"
  | .record _ => some "map"
  | .date _ => some "map"
  | .unreadable => none
  | .broken => none

/-- The fault of data that is not of the kind wanted. -/
def mismatch (frame : Frame) (d : Data) (wanted : String) : Fault :=
  match d.kind? frame.dialect with
  | some got => .wrongType got wanted
  | none => .malformed

/-- The name under which a record sees the text of a date. -/
def dateKey : String :=
  "$__toml_private_datetime"

/-- The members of a record; a date is a record of one member. -/
def members? : Data → Option (List (Option String × Data))
  | .record members => some members
  | .date text => some [(some dateKey, .string text)]
  | _ => none

end Data

/-- How values are written and taken. -/
structure Codec (α : Type) where
  encode : α → Json
  decode : Frame → Data → Except Fault α

namespace Codec

variable {α : Type}

/-- The compact JSON text of a value. -/
def text (c : Codec α) (v : α) : String :=
  (c.encode v).text

/-- Takes a value from data, and then asks that the text ended with it. -/
def finish (clean : Bool) : Except Fault α → Except Fault α
  | .ok v => if clean then .ok v else .error .malformed
  | .error e => .error e

/-- Takes a value from a JSON text. -/
def ofJson (c : Codec α) (text : String) : Except Fault α :=
  let (d, rest) := Json.read text.toList
  finish (Json.endsClean rest) (c.decode (.top .json) d)

/-- Takes a value from a TOML document, which is read as a whole first: a fault of grammar anywhere comes before every
fault of content. -/
def ofToml (c : Codec α) (text : String) : Except Fault α :=
  match Toml.read? text.toList with
  | none => .error .malformed
  | some d => c.decode (.top .toml) d

/-- Texts. -/
def string : Codec String where
  encode := .string
  decode frame d :=
    match d with
    | .string s => .ok s
    | d => .error (d.mismatch frame "a string")

/-- Truth values. -/
def bool : Codec Bool where
  encode := .bool
  decode frame d :=
    match d with
    | .bool b => .ok b
    | d => .error (d.mismatch frame "a boolean")

/-- Values that may be absent; an absent one is `null`. -/
def option (c : Codec α) : Codec (Option α) where
  encode v := (v.map c.encode).getD .null
  decode frame d :=
    match d with
    | .null => .ok none
    | d => (c.decode frame d).map some

/-- Takes each item in turn. -/
def decodeItems (c : Codec α) (frame : Frame) : List Data → Except Fault (List α)
  | [] => .ok []
  | d :: rest => do
    let v ← c.decode frame d
    let vs ← decodeItems c frame rest
    return v :: vs

/-- Lists. -/
def list (c : Codec α) : Codec (List α) where
  encode vs := .list (vs.map c.encode)
  decode frame d :=
    match d with
    | .list items => decodeItems c frame.inner items
    | d => .error (d.mismatch frame "a sequence")

/-- Takes each entry in turn and inserts it into the map so far. -/
def decodeEntries (c : Codec α) (frame : Frame) (m : OrderedMap α) :
    List (Option String × Data) → Except Fault (OrderedMap α)
  | [] => .ok m
  | (some key, d) :: rest => do
    let v ← c.decode frame d
    decodeEntries c frame (m.insert key v) rest
  | (none, _) :: _ => .error .malformed

/-- Maps in the order of insertion; of entries with one key the last value counts, in the place of the first. -/
def orderedMap (c : Codec α) : Codec (OrderedMap α) where
  encode m := .record (m.entries.map fun e => (e.1, c.encode e.2))
  decode frame d :=
    match d.members? with
    | some members => decodeEntries c frame.inner .empty members
    | none => .error (d.mismatch frame "a map")

/-- Takes each setting in turn and inserts it into the settings so far. -/
def decodeSettings (frame : Frame) (s : Settings) : List (Option String × Data) → Except Fault Settings
  | [] => .ok s
  | (some name, d) :: rest => do
    let v ← string.decode frame d
    decodeSettings frame (s.insert name v) rest
  | (none, _) :: _ => .error .malformed

/-- Settings; of entries with one name the last text counts. -/
def settings : Codec Settings where
  encode s := .record (s.entries.map fun e => (e.1, .string e.2))
  decode frame d :=
    match d.members? with
    | some members => decodeSettings frame.inner .empty members
    | none => .error (d.mismatch frame "a map")

/-- Uuids, written as text. -/
def uuid : Codec Uuid where
  encode u := .string u.text
  decode frame d :=
    match d with
    | .string s =>
      match Uuid.ofText? s with
      | some u => .ok u
      | none => .error .noUuid
    | d => .error (d.mismatch frame "a formatted UUID string")

/-- Values that are written as others are. -/
def imap {β : Type} (c : Codec α) (wrap : α → β) (unwrap : β → α) : Codec β where
  encode v := c.encode (unwrap v)
  decode frame d := (c.decode frame d).map wrap

/-- Which of the known names a text is. -/
def variantNamed (table : List (String × α)) (name : String) : Except Fault α :=
  match table.find? (fun e => e.1 == name) with
  | some e => .ok e.2
  | none => .error (.unknownVariant name (table.map Prod.fst))

/-- What stands beside the name of an enumeration: `null` in JSON, something empty in TOML. -/
def checkUnit (frame : Frame) (d : Data) : Except Fault Unit :=
  match frame.dialect, d with
  | .toml, .list [] => .ok ()
  | .toml, .record [] => .ok ()
  | .toml, _ => .error .noVariant
  | _, .null => .ok ()
  | _, d => .error (d.mismatch frame "unit")

/-- The value of an enumeration given as a record of its name. -/
def variantRecord (table : List (String × α)) (frame : Frame) : List (Option String × Data) → Except Fault α
  | [] => .error .noVariant
  | (none, _) :: _ => .error .malformed
  | (some name, d) :: rest =>
    if frame.dialect = .toml ∧ rest ≠ [] then .error .noVariant
    else do
      let v ← variantNamed table name
      checkUnit frame d
      if rest.isEmpty then return v else .error .malformed

/-- An enumeration, written by its names. -/
def enumeration (table : List (String × α)) (name : α → String) : Codec α where
  encode v := .string (name v)
  decode frame d :=
    match d with
    | .string s => variantNamed table s
    | .record members => variantRecord table frame.inner members
    | .broken | .unreadable => .error .malformed
    | _ => .error .noVariant

end Codec

end ModelScopes
