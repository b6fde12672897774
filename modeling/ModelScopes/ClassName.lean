import ModelScopes.Codec.Basic

/-!
# Class names

The name of a mapped class, with the packages and classes around it. The simple name is what stands behind the last
`.` or `$`, and all of the name if it holds neither.
-/

namespace ModelScopes

/-- The name of a mapped class. -/
structure ClassName where
  name : String
  deriving DecidableEq, Repr, Inhabited

namespace ClassName

/-- Whether the character stands between the parts of a class name. -/
def isSeparator (c : Char) : Bool :=
  c == '.' || c == '$'

/-- The characters behind the last separator. -/
def lastPart (cs : List Char) : List Char :=
  (cs.reverse.takeWhile (fun c => !isSeparator c)).reverse

/-- The name without packages and enclosing classes. -/
def simpleName (c : ClassName) : String :=
  String.ofList (lastPart c.name.toList)

/-- Class names are written as their text. -/
def codec : Codec ClassName :=
  Codec.string.imap mk name

end ClassName

end ModelScopes
