import ModelScopes.Data.Basic

/-!
# Numbers of JSON texts

A number is an integer if it is written as one and fits into 64 bits, unsigned without a sign and signed with one;
otherwise it is a float. A float keeps as many leading digits as fit into 64 bits and scales them by powers of ten,
each step rounding; its value may therefore differ from the nearest one in the last place. A number beyond
every float is unreadable.
-/

namespace ModelScopes.Json

/-- A number as it is written: digits before the point, digits after it, and the exponent with its sign. -/
structure NumberText where
  negative : Bool
  whole : List Nat
  fraction : List Nat
  exponent : Option (Bool × List Nat)
  deriving DecidableEq, Repr

namespace NumberText

/-- The significand and exponent that a scan of digits has reached. -/
structure Scan where
  significand : Nat
  exponent : Int
  deriving DecidableEq, Repr

/-- The largest unsigned number of 64 bits. -/
def maxSignificand : Nat :=
  Nat.pow 2 64 - 1

/-- Takes digits before the point as long as the significand fits; each later one only raises the exponent. -/
def scanWhole : Nat → List Nat → Scan
  | s, [] => ⟨s, 0⟩
  | s, d :: ds =>
    if 10 * s + d ≤ maxSignificand then scanWhole (10 * s + d) ds else ⟨s, (d :: ds).length⟩

/-- Takes digits after the point as long as the significand fits and drops the rest. -/
def scanFraction : Scan → List Nat → Scan
  | s, [] => s
  | s, d :: ds =>
    if 10 * s.significand + d ≤ maxSignificand then
      scanFraction ⟨10 * s.significand + d, s.exponent - 1⟩ ds
    else s

/-- `x / 10 ^ k`, in steps of at most 308. -/
def scaleDown (x : Float) (k : Nat) : Float :=
  if k ≤ 308 then x / Float.ofScientific 1 false k
  else if x == 0 then x
  else scaleDown (x / Float.ofScientific 1 false 308) (k - 308)
termination_by k

/-- `x * 10 ^ e`, or nothing beyond every float. -/
def scale (x : Float) (e : Int) : Option Float :=
  if e < 0 then some (scaleDown x (-e).toNat)
  else if e ≤ 308 then
    let y := x * Float.ofScientific 1 false e.toNat
    if y.isInf then none else some y
  else if x == 0 then some x
  else none

/-- The number that the digits write. -/
def digitsValue (ds : List Nat) : Nat :=
  ds.foldl (fun n d => 10 * n + d) 0

/-- The magnitude of a number that is written as a float, or does not fit as an integer. -/
def magnitude (t : NumberText) : Option Float :=
  let s := scanFraction (scanWhole 0 t.whole) t.fraction
  let x := s.significand.toUInt64.toFloat
  match t.exponent with
  | none => scale x s.exponent
  | some (down, ds) =>
    let e := digitsValue ds
    if e < Nat.pow 2 31 then scale x (if down then s.exponent - e else s.exponent + e)
    else if s.significand ≠ 0 ∧ !down then none
    else some 0

/-- The number as a float. -/
def toFloatData (t : NumberText) : Data :=
  match t.magnitude with
  | none => .unreadable
  | some x => .float (if t.negative then -x else x)

/-- The number that the text stands for. -/
def toData (t : NumberText) : Data :=
  let n := digitsValue t.whole
  if t.fraction.isEmpty ∧ t.exponent.isNone then
    if t.negative then
      if n = 0 ∨ Nat.pow 2 63 < n then toFloatData t else .integer (-(n : Int))
    else if n < Nat.pow 2 64 then .integer n
    else toFloatData t
  else toFloatData t

end NumberText

end ModelScopes.Json
