import ModelScopes.Text.Hex

/-!
# Uuids

A uuid is 32 hexadecimal digits. It is written in lower case with hyphens after the digits 8, 12, 16 and 20. It is
read, whatever the case of its letters, from that form, from the bare digits, and from that form between braces or
after `urn:uuid:`.
Main statement: the digits that are written read back (`ofDigits?_map_toChar`).
-/

namespace ModelScopes

/-- An identity of 32 hexadecimal digits. -/
structure Uuid where
  digits : List (Fin 16)
  length_eq : digits.length = 32
  deriving DecidableEq

namespace Uuid

/-- The digits with a hyphen before each of the groups that follow the first. -/
def chars (u : Uuid) : List Char :=
  let cs := u.digits.map Text.Hex.toChar
  cs.take 8 ++ '-' :: (cs.drop 8).take 4 ++ '-' :: (cs.drop 12).take 4 ++ '-' :: (cs.drop 16).take 4 ++
    '-' :: cs.drop 20

/-- The uuid's text. -/
def text (u : Uuid) : String :=
  String.ofList u.chars

/-- The uuid of exactly 32 digits. -/
def ofDigits? (cs : List Char) : Option Uuid :=
  match cs.mapM Text.Hex.ofChar? with
  | none => none
  | some ds => if h : ds.length = 32 then some ⟨ds, h⟩ else none

/-- The uuid of 32 digits with hyphens between the groups. -/
def ofGroups? : List Char → Option Uuid
  | a0 :: a1 :: a2 :: a3 :: a4 :: a5 :: a6 :: a7 :: '-' :: b0 :: b1 :: b2 :: b3 :: '-' :: c0 :: c1 :: c2 :: c3 ::
      '-' :: d0 :: d1 :: d2 :: d3 :: '-' :: rest =>
    ofDigits? ([a0, a1, a2, a3, a4, a5, a6, a7, b0, b1, b2, b3, c0, c1, c2, c3, d0, d1, d2, d3] ++ rest)
  | _ => none

/-- The text without the braces around it. -/
def unbraced? : List Char → Option (List Char)
  | '\x7b' :: rest => if rest.getLast? = some '\x7d' then some rest.dropLast else none
  | _ => none

/-- The text after `urn:uuid:`, whatever the case of these letters. -/
def afterUrn? (cs : List Char) : Option (List Char) :=
  if (cs.take 9).map Char.toLower = "urn:uuid:".toList then some (cs.drop 9) else none

/-- The uuid that the characters write; their number tells the form. -/
def ofChars? (cs : List Char) : Option Uuid :=
  match cs.length with
  | 32 => ofDigits? cs
  | 36 => ofGroups? cs
  | 38 => (unbraced? cs).bind ofGroups?
  | 45 => (afterUrn? cs).bind ofGroups?
  | _ => none

/-- The uuid that the text writes. -/
def ofText? (s : String) : Option Uuid :=
  ofChars? s.toList

/-- A remainder by sixteen is a digit. -/
theorem mod_sixteen_lt (n : Nat) : n % 16 < 16 :=
  Nat.mod_lt n (by decide)

/-- The last `k` digits of a number to the base sixteen, the most significant one first. -/
def lowDigits : Nat → Nat → List (Fin 16)
  | 0, _ => []
  | k + 1, n => lowDigits k (n / 16) ++ [⟨n % 16, mod_sixteen_lt n⟩]

/-- As many digits are kept as were asked for. -/
theorem length_lowDigits (k n : Nat) : (lowDigits k n).length = k := by
  induction k generalizing n with
  | zero => rfl
  | succ k ih => simp [lowDigits, ih]

/-- The `n`th of a supply of uuids, of version four; they differ up to `16 ^ 15`. -/
def ofSerial (n : Nat) : Uuid where
  digits := lowDigits 17 0xb4e90d627c1a43f59 ++ lowDigits 15 n
  length_eq := by simp [length_lowDigits]

/-- Digits that are written read back, all of them. -/
theorem mapM_ofChar?_map_toChar (ds : List (Fin 16)) :
    (ds.map Text.Hex.toChar).mapM Text.Hex.ofChar? = some ds := by
  induction ds with
  | nil => rfl
  | cons d ds ih => simp [List.mapM_cons, Text.Hex.ofChar?_toChar, ih]

/-- The digits that are written read back. -/
theorem ofDigits?_map_toChar (u : Uuid) : ofDigits? (u.digits.map Text.Hex.toChar) = some u := by
  rw [ofDigits?, mapM_ofChar?_map_toChar]
  simp [u.length_eq]

end Uuid

end ModelScopes
