import ModelScopes.Data.Basic
import ModelScopes.Toml.Text

/-!
# Numbers and dates of TOML texts

Integers have 64 bits and a sign. A float is the nearest one; a positive number beyond every float is refused and a
negative one is negative infinity. A date is kept as its text in one spelling.
-/

namespace ModelScopes.Toml

/-- Digits after the first one, with single underscores between digits. -/
def moreDigits? (isDigit : Char → Bool) : List Char → Option (List Char × List Char)
  | '_' :: c :: r => if isDigit c then addChar c (moreDigits? isDigit r) else none
  | c :: r =>
    if c == '_' then none
    else if isDigit c then addChar c (moreDigits? isDigit r)
    else some ([], c :: r)
  | [] => some ([], [])

/-- Digits with single underscores between them. -/
def digits? (isDigit : Char → Bool) : List Char → Option (List Char × List Char)
  | c :: r => if isDigit c then addChar c (moreDigits? isDigit r) else none
  | [] => none

/-- Decimal digits without a zero at the front, or one zero. -/
def wholeDigits? : List Char → Option (List Char × List Char)
  | '0' :: r => some (['0'], r)
  | r => digits? Char.isDigit r

/-- The number that digits write to a base. -/
def numberOf (base : Nat) (ds : List Char) : Option Nat :=
  (ds.mapM Text.Hex.ofChar?).map fun ds => ds.foldl (fun n d => base * n + d.val) 0

/-- The sign at the head of the text. -/
def sign : List Char → Bool × List Char
  | '+' :: r => (false, r)
  | '-' :: r => (true, r)
  | r => (false, r)

/-- A non-negative integer of 64 bits to a base, after the letter that tells the base. -/
def radixInteger? (base : Nat) (isDigit : Char → Bool) (cs : List Char) : Option (Data × List Char) := do
  let (ds, r) ← digits? isDigit cs
  let n ← numberOf base ds
  if n < Nat.pow 2 63 then some (.integer n, r) else none

/-- An integer. -/
def integer? : List Char → Option (Data × List Char)
  | '0' :: 'x' :: r => radixInteger? 16 (fun c => (Text.Hex.ofChar? c).isSome) r
  | '0' :: 'o' :: r => radixInteger? 8 (fun c => '0' ≤ c && c ≤ '7') r
  | '0' :: 'b' :: r => radixInteger? 2 (fun c => c == '0' || c == '1') r
  | cs => do
    let (negative, r) := sign cs
    let (ds, r) ← wholeDigits? r
    let n ← numberOf 10 ds
    if negative then
      if n ≤ Nat.pow 2 63 then some (.integer (-(n : Int)), r) else none
    else if n < Nat.pow 2 63 then some (.integer n, r)
    else none

/-- The float nearest to `m * 10 ^ e`; far beyond the range of floats it is infinite or zero. -/
def nearest (m : Nat) (e : Int) : Float :=
  let magnitude := ((Nat.toDigits 10 m).length : Int) + e
  if m = 0 ∨ magnitude < -400 then 0
  else if 400 < magnitude then 1 / 0
  else if e < 0 then Float.ofScientific m true (-e).toNat
  else Float.ofScientific m false e.toNat

/-- The exponent of a float after its letter. -/
def exponent? (cs : List Char) : Option (Int × List Char) := do
  let (negative, r) := sign cs
  let (ds, r) ← digits? Char.isDigit r
  let n ← numberOf 10 ds
  return (if negative then -(n : Int) else n, r)

/-- The exponent of a float, if one follows. -/
def optionalExponent? : List Char → Option (Int × List Char)
  | 'e' :: r => exponent? r
  | 'E' :: r => exponent? r
  | r => some (0, r)

/-- The digits after the point and the exponent of a float, at least one of the two. -/
def floatTail? : List Char → Option ((List Char × Int) × List Char)
  | '.' :: r => do
    let (ds, r) ← digits? Char.isDigit r
    let (e, r) ← optionalExponent? r
    return ((ds, e), r)
  | 'e' :: r => (exponent? r).map fun (e, r) => (([], e), r)
  | 'E' :: r => (exponent? r).map fun (e, r) => (([], e), r)
  | _ => none

/-- A float that is written with digits. -/
def digitFloat? (cs : List Char) : Option (Data × List Char) := do
  let (negative, r) := sign cs
  let (whole, r) ← wholeDigits? r
  let ((fraction, e), r) ← floatTail? r
  let m ← numberOf 10 (whole ++ fraction)
  let x := nearest m (e - fraction.length)
  if negative then some (.float (-x), r)
  else if x.isInf then none
  else some (.float x, r)

/-- A float that is no number of digits. -/
def namedFloat? (cs : List Char) : Option (Data × List Char) :=
  let (negative, r) := sign cs
  match r with
  | 'i' :: 'n' :: 'f' :: r => some (.float (if negative then -1 / 0 else 1 / 0), r)
  | 'n' :: 'a' :: 'n' :: r => some (.float (0 / 0), r)
  | _ => none

/-- Two decimal digits with a value up to a bound. -/
def twoDigits? (least most : Nat) : List Char → Option (Nat × List Char)
  | a :: b :: r =>
    if a.isDigit && b.isDigit then
      let n := 10 * (a.toNat - 48) + (b.toNat - 48)
      if least ≤ n && n ≤ most then some (n, r) else none
    else none
  | _ => none

/-- Four decimal digits. -/
def fourDigits? (cs : List Char) : Option (Nat × List Char) := do
  let (a, r) ← twoDigits? 0 99 cs
  let (b, r) ← twoDigits? 0 99 r
  return (100 * a + b, r)

/-- The number of days of a month. -/
def daysIn (year month : Nat) : Nat :=
  if month = 2 then
    if year % 4 = 0 ∧ (year % 100 ≠ 0 ∨ year % 400 = 0) then 29 else 28
  else if month = 4 ∨ month = 6 ∨ month = 9 ∨ month = 11 then 30
  else 31

/-- The text after a given character. -/
def expect? (c : Char) : List Char → Option (List Char)
  | d :: r => if d = c then some r else none
  | [] => none

/-- A number with leading zeros up to a width. -/
def padded (width n : Nat) : List Char :=
  let ds := Nat.toDigits 10 n
  List.replicate (width - ds.length) '0' ++ ds

/-- A date without a time, in one spelling. -/
def fullDate? (cs : List Char) : Option (List Char × List Char) := do
  let (year, r) ← fourDigits? cs
  let r ← expect? '-' r
  let (month, r) ← twoDigits? 1 12 r
  let r ← expect? '-' r
  let (day, r) ← twoDigits? 1 (daysIn year month) r
  return (padded 4 year ++ '-' :: padded 2 month ++ '-' :: padded 2 day, r)

/-- The text without the zeros at its end. -/
def dropZeros (ds : List Char) : List Char :=
  (ds.reverse.dropWhile (· == '0')).reverse

/-- The fraction of a second in one spelling: nine digits at most, without zeros at the end. -/
def secondFraction? : List Char → Option (List Char × List Char)
  | '.' :: r =>
    match r.takeWhile Char.isDigit with
    | [] => none
    | ds =>
      match dropZeros (ds.take 9) with
      | [] => some ([], r.dropWhile Char.isDigit)
      | ds => some ('.' :: ds, r.dropWhile Char.isDigit)
  | r => some ([], r)

/-- A time of day in one spelling. -/
def partialTime? (cs : List Char) : Option (List Char × List Char) := do
  let (hour, r) ← twoDigits? 0 23 cs
  let r ← expect? ':' r
  let (minute, r) ← twoDigits? 0 59 r
  let r ← expect? ':' r
  let (second, r) ← twoDigits? 0 60 r
  let (fraction, r) ← secondFraction? r
  return (padded 2 hour ++ ':' :: padded 2 minute ++ ':' :: padded 2 second ++ fraction, r)

/-- The offset of a time in one spelling; an offset of zero is positive. -/
def timeOffset? : List Char → Option (List Char × List Char)
  | 'Z' :: r => some (['Z'], r)
  | 'z' :: r => some (['Z'], r)
  | '+' :: r => offset false r
  | '-' :: r => offset true r
  | r => some ([], r)
where
  /-- The offset after its sign. -/
  offset (negative : Bool) (cs : List Char) : Option (List Char × List Char) := do
    let (hour, r) ← twoDigits? 0 23 cs
    let r ← expect? ':' r
    let (minute, r) ← twoDigits? 0 59 r
    let mark := if negative && (hour != 0 || minute != 0) then '-' else '+'
    return (mark :: padded 2 hour ++ ':' :: padded 2 minute, r)

/-- Whether the character stands between a date and its time. -/
def isTimeMark (c : Char) : Bool :=
  c == 'T' || c == 't' || c == ' '

/-- The time that follows a date, if one does. -/
def timeOfDate? : List Char → Option (List Char × List Char)
  | c :: r =>
    if isTimeMark c then
      match r with
      | a :: b :: _ =>
        if a.isDigit && b.isDigit then do
          let (time, r) ← partialTime? r
          let (zone, r) ← timeOffset? r
          return ('T' :: time ++ zone, r)
        else some ([], c :: r)
      | _ => some ([], c :: r)
    else some ([], c :: r)
  | [] => some ([], [])

/-- A date, a time, or a date with a time. -/
def dateTime? (cs : List Char) : Option (Data × List Char) :=
  match fullDate? cs with
  | some (date, r) => (timeOfDate? r).map fun (time, r) => (.date (String.ofList (date ++ time)), r)
  | none => (partialTime? cs).map fun (time, r) => (.date (String.ofList time), r)

/-- A number or a date; the longest reading counts. -/
def number? (cs : List Char) : Option (Data × List Char) :=
  (dateTime? cs).or ((digitFloat? cs).or ((namedFloat? cs).or (integer? cs)))

end ModelScopes.Toml
