import ModelScopes.Codec.Basic

/-!
# Records

The shape of a record type is its name, its fields in order, and the value that holds what a field has that is
not given. A record is written as an object of its fields in order. It is taken from an object with its fields in
any order, where unknown fields are skipped and a field given twice is refused, or from an array of its fields in
order. A missing field is refused if it is required, after all fields that are given have been taken.
-/

namespace ModelScopes

/-- One field of a record type: how it is written, and how it is taken and put into a record. -/
structure Field (α : Type) where
  name : String
  required : Bool
  encode : α → Json
  store : Frame → Data → α → Except Fault α

/-- A record type. In an array of its fields the later ones may be left out if `openEnded`. -/
structure Shape (α : Type) where
  title : String
  fields : List (Field α)
  blank : α
  openEnded : Bool

namespace Field

variable {α β : Type}

/-- A field that has to be given. -/
def needed (name : String) (c : Codec β) (get : α → β) (put : β → α → α) : Field α where
  name := name
  required := true
  encode v := c.encode (get v)
  store frame d v := (c.decode frame d).map (put · v)

/-- A field that may be left out. -/
def optional (name : String) (c : Codec β) (get : α → β) (put : β → α → α) : Field α :=
  { needed name c get put with required := false }

end Field

namespace Shape

variable {α : Type}

/-- The record as an object of its fields in order. -/
def encode (sh : Shape α) (v : α) : Json :=
  .record (sh.fields.map fun f => (f.name, f.encode v))

/-- The field of a name. -/
def field? (sh : Shape α) (name : String) : Option (Field α) :=
  sh.fields.find? (fun f => f.name == name)

/-- Refuses a record that lacks a required field, by the first such field. -/
def complete (sh : Shape α) (seen : List String) (v : α) : Except Fault α :=
  match sh.fields.find? (fun f => f.required && !seen.contains f.name) with
  | some f => .error (.missingField f.name)
  | none => .ok v

/-- Takes the members in turn; `seen` are the fields given so far. -/
def decodeMembers (sh : Shape α) (frame : Frame) (seen : List String) (v : α) :
    List (Option String × Data) → Except Fault α
  | [] => sh.complete seen v
  | (some name, d) :: rest =>
    match sh.field? name with
    | none => if d.isWhole then decodeMembers sh frame seen v rest else .error .malformed
    | some f =>
      if seen.contains name then .error (.duplicateField name)
      else
        match f.store frame d v with
        | .ok v => decodeMembers sh frame (name :: seen) v rest
        | .error e => .error e
  | (none, _) :: _ => .error .malformed

/-- A number of elements. -/
def countText (n : Nat) : String :=
  toString n ++ (if n = 1 then " element" else " elements")

/-- What an array has to be for the shape. -/
def arrayTitle (sh : Shape α) : String :=
  sh.title ++ " with " ++ countText sh.fields.length

/-- An array that goes on after the last field: JSON takes it for a fault of grammar, TOML lets it pass, and in
content set aside it is a fault of length. -/
def checkEnd (sh : Shape α) (frame : Frame) (extra : List Data) (v : α) : Except Fault α :=
  if extra.isEmpty then .ok v
  else
    match frame.dialect with
    | .json => .error .malformed
    | .toml => .ok v
    | .setAside =>
      .error (.wrongLength (sh.fields.length + extra.length) (countText sh.fields.length ++ " in sequence"))

/-- Takes the items as the fields in order; `taken` counts the items so far. -/
def decodeItems (sh : Shape α) (frame : Frame) (taken : Nat) (v : α) :
    List (Field α) → List Data → Except Fault α
  | [], extra => sh.checkEnd frame extra v
  | _ :: _, [] => if sh.openEnded then .ok v else .error (.wrongLength taken sh.arrayTitle)
  | f :: fs, d :: ds =>
    match f.store frame d v with
    | .ok v => decodeItems sh frame (taken + 1) v fs ds
    | .error e => .error e

/-- Takes a record from an object or an array. -/
def decode (sh : Shape α) (frame : Frame) (d : Data) : Except Fault α :=
  match d with
  | .list items => sh.decodeItems frame.inner 0 sh.blank sh.fields items
  | d =>
    match d.members? with
    | some members => sh.decodeMembers frame.inner [] sh.blank members
    | none => .error (d.mismatch frame sh.title)

/-- The codec of a record type. -/
def codec (sh : Shape α) : Codec α where
  encode := sh.encode
  decode := sh.decode

end Shape

end ModelScopes
