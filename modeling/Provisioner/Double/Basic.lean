/-!
# Binary floating-point numbers as whole ulps

Documents of the store may hold double-precision numbers. They are never computed with here, only
read, compared and shown, so a number is kept as what it is exactly: a sign and a whole number
of units of `2 ^ (-1074)`, the smallest positive double. In these units every finite double is an
integer, and a double equals an integer of any size if it is that many times the ulps of one.

## Total, permissive semantics

Not every number of ulps belongs to a double: at most 53 leading bits of it may be used. The type
does not say so. `Double.round` produces only numbers that do, and every other function is right
for all of them.

## Main definitions

* `Double` — not a number, infinite, or finite with its ulps
* `Number`, `Double.number?` — the exact value, in the one form that decides equality
* `Double.spacing` — the distance to the next double, as a power of two of ulps
* `Double.round` — the double nearest to a fraction, ties to even
-/

namespace Provisioner

/-- A double-precision number; `finite negative ulps` is `± ulps · 2 ^ (-1074)`. -/
inductive Double
  | nan
  | infinite (negative : Bool)
  | finite (negative : Bool) (ulps : Nat)
deriving DecidableEq

/-- What a number is for the purpose of comparison: an integer, a finite number between two
integers (in ulps), or infinite. Each number has exactly one form, so equal numbers have equal
forms. -/
inductive Number
  | whole (n : Int)
  | between (ulps : Int)
  | infinite (negative : Bool)
deriving DecidableEq

namespace Double

/-- One, in ulps. -/
def one : Nat := Nat.pow 2 1074

/-- The exact value. Both zeros have the same one, and `nan` has none. -/
def number? : Double → Option Number
  | .nan => none
  | .infinite negative => some (.infinite negative)
  | .finite negative ulps =>
    let sign (n : Nat) : Int := if negative then -n else n
    some (if ulps % one = 0 then .whole (sign (ulps / one)) else .between (sign ulps))

/-- Both zeros; `nan` is not among them. -/
def isZero : Double → Bool
  | .finite _ ulps => ulps == 0
  | _ => false

/-- Doubles of about `ulps` lie `2 ^ spacing ulps` ulps apart: one ulp while 53 bits suffice,
and so many that 53 bits suffice above. -/
def spacing (ulps : Nat) : Nat := ulps.log2 - 52

/-- The integer nearest to `num / den`, of two equally near the even one. -/
def roundQuotient (num den : Nat) : Nat :=
  let below := num / den
  let rest := 2 * (num % den)
  if rest < den ∨ (rest = den ∧ below % 2 = 0) then below else below + 1

/-- The first number of ulps that is too large for a double. -/
def overflow : Nat := Nat.pow 2 (1024 + 1074)

/-- The double nearest to `± num / den` (in units of one), of two equally near the one with an
even significand. The quotient is rounded on the grid of the doubles around it; should the
rounding reach the next power of two, that is a double as well. -/
def round (negative : Bool) (num den : Nat) : Double :=
  let scaled := num * one
  let step := Nat.pow 2 (spacing (scaled / den))
  let ulps := roundQuotient scaled (den * step) * step
  if overflow ≤ ulps then .infinite negative else .finite negative ulps

@[simp] theorem number?_nan : number? .nan = none := rfl

end Double

end Provisioner
