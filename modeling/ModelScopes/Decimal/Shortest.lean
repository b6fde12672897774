/-!
# Shortest decimals

The decimal with the fewest digits that reads back as a given binary number; of several with as few digits, the
one nearest to the number, and of two equally near ones the one that a tie rule says. A finite number is taken apart
into `m * 2 ^ q`, and the decimal grids with one, two, … seventeen digits are tried in exact arithmetic. If a point of
a grid reads back as the number, so does one of the two grid points next to the number, so only these two are tested.
-/

namespace ModelScopes

/-- A decimal `digits * 10 ^ exponent`. -/
structure Decimal where
  digits : Nat
  exponent : Int
  deriving DecidableEq, Repr

namespace Decimal

/-- Which of the two grid points next to a number counts as the nearer one when the number is halfway between. -/
inductive Tie where
  | toEven
  | up
  deriving DecidableEq, Repr

/-- Whether the lower grid point `c` counts as the nearer one of a number halfway between `c` and `c + 1`. -/
def Tie.goesDown (t : Tie) (c : Nat) : Bool :=
  match t with
  | .toEven => c % 2 = 0
  | .up => false

/-- A positive binary number `m * 2 ^ q`; `halfGapBelow` says that the gap below it is half the gap above it. -/
structure Binary where
  m : Nat
  q : Int
  halfGapBelow : Bool
  deriving DecidableEq, Repr

/-- The magnitude of a finite number. -/
def Binary.ofFloat (x : Float) : Binary :=
  let bits := x.toBits.toNat
  let fraction : Nat := bits % Nat.pow 2 52
  let exponent : Nat := bits / Nat.pow 2 52 % Nat.pow 2 11
  if exponent = 0 then ⟨fraction, -1074, false⟩
  else ⟨Nat.pow 2 52 + fraction, Int.ofNat exponent - 1075, fraction == 0 && exponent != 1⟩

/-- `n * 2 ^ (q - 2) * 10 ^ (-e)`, times a positive factor that depends on `q` and `e` only. -/
def Binary.scaled (q e : Int) (n : Nat) : Nat :=
  n * Nat.pow 2 (q - 2).toNat * Nat.pow 10 (-e).toNat

/-- `c`, times the factor of `Binary.scaled`. -/
def gridScaled (q e : Int) (c : Nat) : Nat :=
  c * Nat.pow 2 (2 - q).toNat * Nat.pow 10 e.toNat

/-- Whether the grid point `c * 10 ^ e` reads back as the number: it lies between the midpoints to the two
neighbouring numbers, and a midpoint itself counts when `m` is even. -/
def Binary.readsBack (b : Binary) (e : Int) (c : Nat) : Bool :=
  let low := Binary.scaled b.q e (if b.halfGapBelow then 4 * b.m - 1 else 4 * b.m - 2)
  let high := Binary.scaled b.q e (4 * b.m + 2)
  let point := gridScaled b.q e c
  if b.m % 2 = 0 then low ≤ point && point ≤ high else low < point && point < high

/-- The position of the first digit: the largest `k` with `10 ^ k` at most the number. -/
def Binary.magnitude (b : Binary) : Int :=
  let n := b.m * Nat.pow 2 b.q.toNat * Nat.pow 10 400 / Nat.pow 2 (-b.q).toNat
  (Nat.toDigits 10 n).length - 401

/-- The grid point with `n` digits that reads back, the nearer of the two candidates first. -/
def Binary.onGrid? (b : Binary) (tie : Tie) (n : Nat) : Option Decimal :=
  let e := b.magnitude - n + 1
  let v := Binary.scaled b.q e (4 * b.m)
  let unit := gridScaled b.q e 1
  let c := v / unit
  let below := v - gridScaled b.q e c
  let above := gridScaled b.q e (c + 1) - v
  let nearer := below < above || (below = above && tie.goesDown c)
  let candidates := if nearer then [c, c + 1] else [c + 1, c]
  (candidates.find? (b.readsBack e)).map (⟨·, e⟩)

/-- The decimal without its trailing zeros; `fuel` bounds their number. -/
def strip : Nat → Decimal → Decimal
  | 0, d => d
  | fuel + 1, d =>
    if d.digits ≠ 0 ∧ d.digits % 10 = 0 then strip fuel ⟨d.digits / 10, d.exponent + 1⟩ else d

/-- The shortest decimal that reads back as the positive number. -/
def Binary.shortest (b : Binary) (tie : Tie) : Decimal :=
  match (List.range 17).findSome? (fun n => b.onGrid? tie (n + 1)) with
  | some d => d.strip 20
  | none => ⟨0, 0⟩

end Decimal

end ModelScopes
