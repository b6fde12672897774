import ModelScopes.Decimal.Shortest

/-!
# Notations of a number

A number is written with its shortest digits, positionally or with an exponent. A style says which positions of
the point are written positionally, and which digits stand for a number halfway between two decimals.
-/

namespace ModelScopes.Decimal

/-- How numbers are written. The window is where the decimal point may stand, counted from before the first digit, for
a number to be written positionally; without one every number is. -/
structure Style where
  window : Option (Int × Int)
  tie : Tie
  deriving DecidableEq, Repr

/-- Positional from `0.00001` up to sixteen digits before the point. -/
def Style.compact : Style :=
  ⟨some (-4, 16), .toEven⟩

/-- Positional always. -/
def Style.positional : Style :=
  ⟨none, .up⟩

/-- Whether the style writes a number positionally whose point stands at `k`. -/
def Style.isPositional (s : Style) (k : Int) : Bool :=
  match s.window with
  | none => true
  | some (low, high) => low ≤ k && k ≤ high

/-- The digits with the point at `k`; at least one digit stands on either side of it. -/
def placePoint (ds : List Char) (k : Int) : List Char :=
  if k ≤ 0 then ['0', '.'] ++ List.replicate (-k).toNat '0' ++ ds
  else if (ds.length : Int) ≤ k then ds ++ List.replicate (k.toNat - ds.length) '0' ++ ['.', '0']
  else ds.take k.toNat ++ '.' :: ds.drop k.toNat

/-- An exponent with its sign. -/
def exponentText (e : Int) : List Char :=
  'e' :: (if e < 0 then '-' else '+') :: (toString e.natAbs).toList

/-- The digits as one digit, the others after a point, and the exponent. -/
def scientific (ds : List Char) (k : Int) : List Char :=
  let exponent := exponentText (k - 1)
  match ds with
  | [] => exponent
  | [d] => d :: exponent
  | d :: rest => d :: '.' :: rest ++ exponent

/-- The text of a positive decimal. -/
def Style.write (s : Style) (d : Decimal) : List Char :=
  let ds := Nat.toDigits 10 d.digits
  let k := (ds.length : Int) + d.exponent
  if s.isPositional k then placePoint ds k else scientific ds k

/-- The text of a number; a finite one always shows a point or an exponent. -/
def Style.text (s : Style) (x : Float) : String :=
  if x.isNaN then "NaN"
  else
    let sign := if x.toBits.toNat < Nat.pow 2 63 then [] else ['-']
    let body :=
      if x.isInf then ['i', 'n', 'f']
      else if x == 0 then ['0', '.', '0']
      else s.write ((Binary.ofFloat x).shortest s.tie)
    String.ofList (sign ++ body)

end ModelScopes.Decimal
