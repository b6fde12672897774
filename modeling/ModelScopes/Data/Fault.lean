/-!
# Faults of data

Why a text was refused. The first three constructors carry no words of their own: the text breaks its format's
grammar, a uuid is malformed, or a name of an enumeration is given as something that names nothing.
The others say what was wrong with the data.
-/

namespace ModelScopes

/-- Why a text was refused. -/
inductive Fault where
  /-- The text breaks the grammar of its format, or a value is beyond what the format can take. -/
  | malformed
  /-- A string is no uuid. -/
  | noUuid
  /-- An enumeration is given as neither a name nor a record of one name. -/
  | noVariant
  | missingField (field : String)
  | duplicateField (field : String)
  | unknownVariant (variant : String) (known : List String)
  | wrongType (got wanted : String)
  | wrongLength (length : Nat) (wanted : String)
  deriving DecidableEq, Repr, Inhabited

namespace Fault

/-- A name between backquotes. -/
def named (s : String) : String :=
  "`" ++ s ++ "`"

/-- The fault in words, for a fault about data. -/
def message? : Fault → Option String
  | malformed | noUuid | noVariant => none
  | missingField f => some ("missing field " ++ named f)
  | duplicateField f => some ("duplicate field " ++ named f)
  | unknownVariant v known =>
    some ("unknown variant " ++ named v ++ ", expected one of " ++ ", ".intercalate (known.map named))
  | wrongType got wanted => some ("invalid type: " ++ got ++ ", expected " ++ wanted)
  | wrongLength n wanted => some ("invalid length " ++ toString n ++ ", expected " ++ wanted)

end Fault

end ModelScopes
