import Provisioner.Double.Basic

/-!
# Decimal text of floating-point numbers

A number is shown with the fewest digits that read back to it, and of the decimals with that many
digits with the one nearest to its value. Both are decided in exact arithmetic on ulps.

The numbers that read back to a double `u` (in ulps) are those between the midpoints to its two
neighbours; the midpoints themselves count if the significand of `u` is even, because a tie is
read as the even neighbour. On the grid of the multiples of `10 ^ k` the only candidates are the
grid point at or below the value and the one above it, since a grid point in the interval brings
the nearer of these two into it as well. Grids are tried from coarse to fine, so the first one
with a candidate in the interval has the fewest digits.

## Format

Positional notation is used for decimal exponents from -4 to 15 and always has a fraction, if
only `.0`; all other numbers are written with one digit before the point and an exponent of at
least two digits.

## Main definitions

* `Double.Decimal`, `shortest` — a coefficient with a power of ten, and the shortest that reads
  back
* `Double.render` — the text of a number
* `Double.ofText?` — the number of a text
-/

namespace Provisioner

namespace Double

/-! ### The shortest decimal -/

/-- The number `coefficient · 10 ^ exponent`. -/
structure Decimal where
  coefficient : Nat
  exponent : Int
deriving DecidableEq

/-- The interval that reads back to `ulps`, in quarters of an ulp. A power of two above the
smallest spacing has a nearer neighbour below than above. -/
structure Interval where
  low : Nat
  high : Nat
  closed : Bool

/-- The reals that are read as the double of `ulps` units. -/
def interval (ulps : Nat) : Interval :=
  let step := Nat.pow 2 (spacing ulps)
  let significand := ulps / step
  { low := 4 * ulps - (if significand = Nat.pow 2 52 ∧ 1 < step then step else 2 * step)
    high := 4 * ulps + 2 * step
    closed := significand % 2 = 0 }

/-- `x / y` lies in the interval (in quarters of an ulp). -/
def Interval.contains (i : Interval) (x y : Nat) : Bool :=
  if i.closed then decide (i.low * y ≤ x ∧ x ≤ i.high * y)
  else decide (i.low * y < x ∧ x < i.high * y)

/-- The grid of the multiples of `10 ^ exponent`, measured in ulps as the fraction
`step / unit`. -/
structure Grid where
  step : Nat
  unit : Nat

/-- The multiples of `10 ^ exponent`. -/
def grid (exponent : Int) : Grid :=
  { step := Nat.pow 10 exponent.toNat * one
    unit := Nat.pow 10 (-exponent).toNat }

/-- The grid point nearest to `ulps` that reads back to it, of two equally near the even one. -/
def Grid.candidate? (g : Grid) (ulps : Nat) : Option Nat :=
  let below := ulps * g.unit / g.step
  let reads (c : Nat) := (interval ulps).contains (4 * c * g.step) g.unit
  match reads below, reads (below + 1) with
  | true, true => some (roundQuotient (ulps * g.unit) g.step)
  | true, false => some below
  | false, true => some (below + 1)
  | false, false => none

/-- Try `exponent`, then the finer grids, `fuel` of them. -/
def shortestFrom (ulps : Nat) : Nat → Int → Decimal
  | 0, exponent => { coefficient := 0, exponent := exponent }
  | fuel + 1, exponent =>
    match (grid exponent).candidate? ulps with
    | some c => { coefficient := c, exponent := exponent }
    | none => shortestFrom ulps fuel (exponent - 1)

/-- The shortest decimal that reads back to `ulps`. Every double is below `10 ^ 309`, and a grid
finer than a ulp has a point in every interval, so the grids from `309` down to `-324` suffice. -/
def shortest (ulps : Nat) : Decimal := shortestFrom ulps 640 309

/-! ### Writing -/

/-- `n` zeros. -/
def zeros (n : Nat) : String := String.ofList (List.replicate n '0')

/-- At least two digits and a sign. -/
def renderExponent (e : Int) : String :=
  let digits := toString e.natAbs
  (if e < 0 then "e-" else "e+") ++ (if digits.length < 2 then "0" ++ digits else digits)

/-- The text of a positive decimal; `point` is the place of the decimal point, counted from the
first digit. -/
def Decimal.render (d : Decimal) : String :=
  let digits := (toString d.coefficient).toList
  let count := digits.length
  let point : Int := count + d.exponent
  if point < -3 ∨ 16 < point then
    let rest := digits.drop 1
    String.ofList (digits.take 1) ++ (if rest.isEmpty then "" else "." ++ String.ofList rest)
      ++ renderExponent (point - 1)
  else if point ≤ 0 then
    "0." ++ zeros (-point).toNat ++ String.ofList digits
  else if count ≤ point.toNat then
    String.ofList digits ++ zeros (point.toNat - count) ++ ".0"
  else
    String.ofList (digits.take point.toNat) ++ "." ++ String.ofList (digits.drop point.toNat)

/-- The text of a number; zero keeps its sign. -/
def render : Double → String
  | .nan => "nan"
  | .infinite negative => if negative then "-inf" else "inf"
  | .finite negative ulps =>
    (if negative then "-" else "") ++ (if ulps = 0 then "0.0" else (shortest ulps).render)

/-! ### Reading -/

/-- The value of a row of decimal digits; none if there is another character. -/
def digits? (cs : List Char) : Option Nat :=
  cs.foldl (fun n c => match n with
    | some n => if c.isDigit then some (10 * n + (c.toNat - 48)) else none
    | none => none) (some 0)

/-- An optional sign and the rest. -/
def signed : List Char → Bool × List Char
  | '-' :: rest => (true, rest)
  | '+' :: rest => (false, rest)
  | cs => (false, cs)

/-- The exponent, zero if there is none. -/
def exponent? : List Char → Option Int
  | [] => some 0
  | _ :: rest =>
    match signed rest with
    | (_, []) => none
    | (negative, ds) => (digits? ds).map fun n => if negative then -(n : Int) else n

/-- A decimal text: digits, perhaps a point and digits, perhaps an exponent. -/
def decimal? (cs : List Char) : Option Decimal := do
  let isMark (c : Char) : Bool := c == 'e' || c == 'E'
  let body := cs.takeWhile fun c => !isMark c
  let whole := body.takeWhile (· ≠ '.')
  let fraction := (body.dropWhile (· ≠ '.')).drop 1
  if whole.isEmpty && fraction.isEmpty then none
  else
    let coefficient ← digits? (whole ++ fraction)
    let exponent ← exponent? (cs.dropWhile fun c => !isMark c)
    return { coefficient, exponent := exponent - fraction.length }

/-- The double nearest to a decimal. -/
def ofDecimal (negative : Bool) (d : Decimal) : Double :=
  round negative (d.coefficient * Nat.pow 10 d.exponent.toNat) (Nat.pow 10 (-d.exponent).toNat)

/-- The number that a text stands for. -/
def ofText? (text : String) : Option Double :=
  match signed text.toList with
  | (negative, ['i', 'n', 'f']) => some (.infinite negative)
  | (_, ['n', 'a', 'n']) => some .nan
  | (negative, cs) => (decimal? cs).map (ofDecimal negative)

end Double

end Provisioner
