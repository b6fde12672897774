/-!
# Hexadecimal digits

A digit is a number below sixteen. Digits are written in lower case and read in either case.
Main statement: a digit that is written reads back (`ofChar?_toChar`).
-/

namespace ModelScopes.Text.Hex

/-- The digit's character, in lower case. -/
def toChar (d : Fin 16) : Char :=
  if d.val < 10 then Char.ofNat (48 + d.val) else Char.ofNat (87 + d.val)

/-- The digit that a character stands for, in either case. -/
def ofChar? (c : Char) : Option (Fin 16) :=
  let n := c.toNat
  if h : 48 ≤ n ∧ n ≤ 57 then some ⟨n - 48, by omega⟩
  else if h : 97 ≤ n ∧ n ≤ 102 then some ⟨n - 87, by omega⟩
  else if h : 65 ≤ n ∧ n ≤ 70 then some ⟨n - 55, by omega⟩
  else none

/-- A digit that is written reads back. -/
theorem ofChar?_toChar (d : Fin 16) : ofChar? (toChar d) = some d := by
  revert d
  decide

/-- The number that the digits stand for, the first digit being the most significant. -/
def value (ds : List (Fin 16)) : Nat :=
  ds.foldl (fun n d => 16 * n + d.val) 0

/-- The number's digits, at least one of them. -/
def digits (n : Nat) : List Char :=
  Nat.toDigits 16 n

end ModelScopes.Text.Hex
