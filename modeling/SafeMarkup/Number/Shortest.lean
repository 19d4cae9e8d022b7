/-
# The shortest decimal of a floating-point number

A number is written with the fewest decimal digits that read back as the same number, and of those
decimals with the nearest one.  On the grid of decimals with `n` significant digits only the two
neighbours of the number have to be tried; the first `n` from 1 to 17 for which one of them reads
back settles the digits.

The layout is a separate matter.  A decimal exponent from -4 to 15 gives positional notation with
at least one digit on each side of the point; any other exponent gives scientific notation, with a
sign and at least two digits in the exponent.

The two steps are kept apart in `Decimal`: digits and an exponent, without any notation.  So what
is proved of the digits (`Proofs/Decimal.lean`: they read back as the number) does not mention
layouts, and what is proved of the layouts (`Proofs/JsonNumber.lean`: each is scanned as the
decimal it was made from) does not mention floating-point numbers.

If none of the counts of digits from 1 to 17 does, `exact` is taken, the decimal that is equal to
the number.  This never happens, but it need not be known here: whatever is returned reads back,
and that is all that is promised.
-/
import SafeMarkup.Number.Binary64

namespace SafeMarkup

/-! ## Digits -/

/-- The value `digits · 10 ^ exponent`. -/
structure Decimal where
  digits : Nat
  exponent : Int
deriving DecidableEq, Repr

namespace Decimal

/-- The exponent `p` with `10 ^ p ≤ num / den < 10 ^ (p + 1)`, for a positive fraction. -/
def leadingExponent (num den : Nat) : Int :=
  if den ≤ num then Binary64.decimalLength (num / den) - 1
  else -(Binary64.decimalLength ((den - 1) / num) : Int)

/-- The two neighbours of `num / den` on the grid of multiples of `10 ^ exponent`, the nearer one
first, and of two equally near ones the one with even digits. -/
def neighbours (num den : Nat) (exponent : Int) : List Decimal :=
  let (num, den) :=
    if 0 ≤ exponent then (num, den * Nat.pow 10 exponent.toNat)
    else (num * Nat.pow 10 (-exponent).toNat, den)
  let below : Decimal := ⟨num / den, exponent⟩
  let above : Decimal := ⟨num / den + 1, exponent⟩
  let twice := 2 * (num % den)
  if twice < den || (twice == den && below.digits % 2 == 0) then [below, above]
  else [above, below]

/-- The same value without zeros at the end of its digits; `fuel` bounds their count. -/
def trim : Nat → Decimal → Decimal
  | fuel + 1, d =>
    if d.digits ≠ 0 ∧ d.digits % 10 = 0 then trim fuel ⟨d.digits / 10, d.exponent + 1⟩ else d
  | 0, d => d

/-- The magnitude of a finite number written out in full. -/
def exact (significand offset : Nat) : Decimal :=
  if Binary64.leastExponent ≤ offset then
    ⟨significand * Nat.pow 2 (offset - Binary64.leastExponent), 0⟩
  else
    ⟨significand * Nat.pow 5 (Binary64.leastExponent - offset),
      (offset : Int) - Binary64.leastExponent⟩

/-- The shortest decimal that reads back as the magnitude with these parts, and is nearest to it
among those of its length. -/
def shortest (significand offset : Nat) : Decimal :=
  let value := Binary64.ofParts false significand offset
  let (num, den) := Binary64.magnitude significand offset
  let leading := leadingExponent num den
  let candidates := (List.range 17).flatMap fun (n : Nat) => neighbours num den (leading - n)
  let found := candidates.find? fun d => Binary64.ofDecimal false d.digits d.exponent == value
  let chosen := found.getD (exact significand offset)
  trim (Binary64.decimalLength chosen.digits) chosen

/-! ## Layout -/

def zeros (n : Nat) : String :=
  String.ofList (List.replicate n '0')

/-- A positive decimal in the notation that its exponent calls for. -/
def text (d : Decimal) : String :=
  let digits := toString d.digits
  let count := digits.length
  let exponent := d.exponent + count - 1
  if -4 ≤ exponent ∧ exponent < 0 then
    "0." ++ zeros (-exponent - 1).toNat ++ digits
  else if 0 ≤ exponent ∧ exponent < 16 then
    let whole := exponent.toNat + 1
    if count ≤ whole then digits ++ zeros (whole - count) ++ ".0"
    else String.ofList (digits.toList.take whole) ++ "." ++ String.ofList (digits.toList.drop whole)
  else
    let mantissa :=
      if count = 1 then digits
      else String.ofList (digits.toList.take 1) ++ "." ++ String.ofList (digits.toList.drop 1)
    let size := toString exponent.natAbs
    mantissa ++ (if exponent < 0 then "e-" else "e+") ++ zeros (2 - size.length) ++ size

end Decimal

/-- The text of a number.  The names of the values that are not finite differ between formats and
are given by `named`. -/
def Binary64.render (named : Bool → String) (nan : String) : Binary64 → String
  | .nan => nan
  | .infinite negative => named negative
  | .finite negative significand offset _ =>
    (if negative then "-" else "") ++
      (if significand = 0 then "0.0" else (Decimal.shortest significand offset).text)

/-- The text of a number in messages and in text nodes. -/
def Binary64.text (x : Binary64) : String :=
  x.render (fun negative => if negative then "-inf" else "inf") "nan"

end SafeMarkup
