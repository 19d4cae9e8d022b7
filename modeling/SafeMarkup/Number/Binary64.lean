/-
# Binary floating-point numbers of 64 bits

A number is held as what it means and not as a bit pattern: a sign, a significand `m` and an
offset `k`, for the value `± m · 2 ^ (k - 1074)`.  The condition `Normal` leaves one such pair to
each magnitude, so two numbers are equal exactly when their parts are, the two zeros being told
apart by the sign.  There is a single not-a-number.

`ofRatio` is the one way from exact arithmetic into this type: it takes the nearest number, and of
two equally near ones the one with an even significand.  Reading a decimal is an instance of it.
Everything here is arithmetic on natural numbers, so that a statement about what a written number
reads back as can be proved.  Powers are `Nat.pow` by name, since what `^` stands for depends on
what else is imported.

There are no operations here beyond what reading, writing and comparing need.  In particular
nothing is added or multiplied in this type: a tree carries numbers from the one who wrote it to
the one who reads it, and all that matters is that they arrive.  That the shortest decimal of a
number reads back as that number is proved in `Proofs/Decimal.lean`.
-/

namespace SafeMarkup

/-- The exponent of the least positive number, with its sign changed. -/
def Binary64.leastExponent : Nat := 1074

/-- The one significand and offset of a magnitude: at most 53 bits, all 53 in use unless the
offset is the least one, and an offset within the range of the format. -/
def Binary64.Normal (significand offset : Nat) : Prop :=
  significand < Nat.pow 2 53 ∧ (offset = 0 ∨ Nat.pow 2 52 ≤ significand) ∧ offset ≤ 2045

instance (significand offset : Nat) : Decidable (Binary64.Normal significand offset) :=
  inferInstanceAs (Decidable (_ ∧ _ ∧ _))

/-- A 64-bit binary floating-point number. -/
inductive Binary64 where
  | nan
  /-- An infinity; the flag says that it is the negative one. -/
  | infinite (negative : Bool)
  /-- The value `± significand · 2 ^ (offset - 1074)`. -/
  | finite (negative : Bool) (significand offset : Nat)
      (normal : Binary64.Normal significand offset)
deriving DecidableEq

namespace Binary64

/-! ## Rounding -/

/-- The quotient of two natural numbers, rounded to the nearest natural number, half-way cases to
the even one. -/
def roundQuotient (num den : Nat) : Nat :=
  let floor := num / den
  let twice := 2 * (num % den)
  if twice < den || (twice == den && floor % 2 == 0) then floor else floor + 1

/-- The number with these parts; what exceeds the range of the format is infinite. -/
def ofParts (negative : Bool) (significand offset : Nat) : Binary64 :=
  if h : Normal significand offset then finite negative significand offset h
  else infinite negative

/-- The number nearest to `± num / den`.  The offset is chosen so that the quotient has 53 bits,
or is zero when it has fewer; a rounding up to `2 ^ 53` moves on to the next offset. -/
def ofRatio (negative : Bool) (num den : Nat) : Binary64 :=
  let scaled := num * Nat.pow 2 leastExponent
  let offset := (scaled / den).log2 - 52
  let significand := roundQuotient scaled (den * Nat.pow 2 offset)
  if significand < Nat.pow 2 53 then ofParts negative significand offset
  else ofParts negative (significand / 2) (offset + 1)

/-- The count of decimal digits of a natural number. -/
def decimalLength (n : Nat) : Nat :=
  (Nat.toDigits 10 n).length

/-- The number nearest to `± digits · 10 ^ exponent`.  The first two tests only keep the exact
arithmetic small: a value below `10 ^ (-324)` rounds to zero, and one from `10 ^ 309` on exceeds
every finite number. -/
def ofDecimal (negative : Bool) (digits : Nat) (exponent : Int) : Binary64 :=
  if digits = 0 || decimalLength digits + exponent ≤ -324 then ofParts negative 0 0
  else if 309 ≤ exponent then infinite negative
  else if 0 ≤ exponent then ofRatio negative (digits * Nat.pow 10 exponent.toNat) 1
  else ofRatio negative digits (Nat.pow 10 (-exponent).toNat)

/-! ## Exact values -/

/-- The magnitude of a finite number as a fraction. -/
def magnitude (significand offset : Nat) : Nat × Nat :=
  if leastExponent ≤ offset then (significand * Nat.pow 2 (offset - leastExponent), 1)
  else (significand, Nat.pow 2 (leastExponent - offset))

/-- The integer that a number is equal to, if there is one. -/
def toInt? : Binary64 → Option Int
  | finite negative significand offset _ =>
    let (num, den) := magnitude significand offset
    if num % den = 0 then some (if negative then -(num / den : Nat) else (num / den : Nat))
    else none
  | _ => none

def isZero : Binary64 → Bool
  | finite _ significand _ _ => significand == 0
  | _ => false

end Binary64

end SafeMarkup
