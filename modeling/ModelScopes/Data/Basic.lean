/-!
# Data as read

What a reader found in a text, as far as it could read. A reader stops at the first place where the text breaks
its format's grammar and leaves `broken` there, as an item of a list or as the value of a member; nothing after it
is in the tree. So a decoder that walks the tree in order meets a problem of content that stands
before the break first, and the break where it stands.

`unreadable` is a scalar that can be skipped but not taken: a string whose surrogate escapes do not pair up, or
a number beyond every float. A member has no key if its key is such a string, or if reading stopped at its key.
-/

namespace ModelScopes

/-- What a reader found in a text. -/
inductive Data where
  | null
  | bool (b : Bool)
  | integer (n : Int)
  | float (x : Float)
  | string (s : String)
  | list (items : List Data)
  | record (members : List (Option String × Data))
  | date (text : String)
  | unreadable
  | broken
  deriving Inhabited

namespace Data

mutual

/-- Whether the data can be skipped: the reader did not stop inside it. -/
def isWhole : Data → Bool
  | .broken => false
  | .list items => allWhole items
  | .record members => membersWhole members
  | _ => true

/-- Whether every item can be skipped. -/
def allWhole : List Data → Bool
  | [] => true
  | d :: rest => isWhole d && allWhole rest

/-- Whether every member can be skipped. -/
def membersWhole : List (Option String × Data) → Bool
  | [] => true
  | (_, d) :: rest => isWhole d && membersWhole rest

end

mutual

/-- Whether the data can be taken, with at most `room` containers inside one another. -/
def isReadable (room : Nat) : Data → Bool
  | .broken => false
  | .unreadable => false
  | .list items => room != 0 && allReadable (room - 1) items
  | .record members => room != 0 && membersReadable (room - 1) members
  | _ => true

/-- Whether every item can be taken. -/
def allReadable (room : Nat) : List Data → Bool
  | [] => true
  | d :: rest => isReadable room d && allReadable room rest

/-- Whether every member can be taken with its key. -/
def membersReadable (room : Nat) : List (Option String × Data) → Bool
  | [] => true
  | (some _, d) :: rest => isReadable room d && membersReadable room rest
  | (none, _) :: _ => false

end

end Data

end ModelScopes
