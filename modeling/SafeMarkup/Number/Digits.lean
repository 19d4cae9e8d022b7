/-
# Integers as texts, and how long they may be

Integers have any size, but the way between an integer and its decimal text is closed to those with
too many digits: the conversion takes time quadratic in the length, so whoever sends a long number
could stall the reader, and both directions refuse it instead.  A `DigitLimit` is the greatest count
of digits that is let through.  It is a setting of the session and not of the library: `standard` is
the one that holds if nobody changes it, and `lifted` is no limit at all.

Sign and leading zeros aside, an integer is measured by its digits alone, so that `n` and `-n` are
refused together.

The limit shows in four places:

* a JSON text with a long integer is not read, and a tree that holds one is not written
  (`Json.read`, `Json.write`);
* a long integer among children makes no text node (`Value.childNodes`);
* a message that would show one cannot be worded (`Value.worded`);
* and neither can the name of the key that an edit complains about (`Value.said`).

Reading and writing JSON take the limit as an argument, since a session that deals in long integers
lifts it there; the wording of a message goes by the standard one.  Everywhere else an integer stays
a number, and no limit applies.
-/
import SafeMarkup.Fault

namespace SafeMarkup

/-- How many digits an integer may have on its way to a text or from one. -/
structure DigitLimit where
  /-- The greatest count of digits; if absent, any count will do. -/
  most : Option Nat
deriving DecidableEq, Repr

namespace DigitLimit

def standard : DigitLimit := ⟨some 4300⟩

def lifted : DigitLimit := ⟨none⟩

/-- So many digits are let through. -/
def Allows : DigitLimit → Nat → Prop
  | ⟨none⟩, _ => True
  | ⟨some most⟩, count => count ≤ most

instance : ∀ (limit : DigitLimit) (count : Nat), Decidable (limit.Allows count)
  | ⟨none⟩, _ => inferInstanceAs (Decidable True)
  | ⟨some most⟩, count => inferInstanceAs (Decidable (count ≤ most))

/-- The integer has a text. -/
def Admits (limit : DigitLimit) (n : Int) : Prop :=
  limit.Allows (Nat.toDigits 10 n.natAbs).length

instance (limit : DigitLimit) (n : Int) : Decidable (limit.Admits n) :=
  inferInstanceAs (Decidable (limit.Allows _))

/-- The least natural number with more digits than this. -/
def leastRefused (most : Nat) : Int := Nat.pow 10 most

/-- The text of an integer, unless it is too long. -/
def text (limit : DigitLimit) (n : Int) : Except Fault String :=
  if limit.Admits n then .ok (toString n) else .error .tooManyDigits

/-- The text, if these integers, which stand in it, are none of them too long. -/
def guard (limit : DigitLimit) (ints : List Int) (text : String) : Except Fault String :=
  if ∀ n ∈ ints, limit.Admits n then .ok text else .error .tooManyDigits

variable {limit : DigitLimit} {count fewer : Nat} {n : Int}

theorem Allows.mono (h : limit.Allows count) (less : fewer ≤ count) : limit.Allows fewer := by
  obtain ⟨none | most⟩ := limit
  · trivial
  · exact Nat.le_trans less h

/-- The integers up to a limit are those below a power of ten. -/
theorem admits_iff {most : Nat} (pos : 0 < most) :
    (⟨some most⟩ : DigitLimit).Admits n ↔ n.natAbs < Nat.pow 10 most :=
  Nat.length_toDigits_le_iff (by decide) pos

theorem not_admits_leastRefused {most : Nat} (pos : 0 < most) :
    ¬ (⟨some most⟩ : DigitLimit).Admits (leastRefused most) := by
  rw [admits_iff pos, leastRefused, Int.natAbs_natCast]
  exact Nat.lt_irrefl _

theorem text_eq_ok (h : limit.Admits n) : limit.text n = .ok (toString n) :=
  if_pos h

theorem text_eq_error (h : ¬ limit.Admits n) : limit.text n = .error .tooManyDigits :=
  if_neg h

theorem guard_eq_ok {ints : List Int} {s : String} (h : ∀ n ∈ ints, limit.Admits n) :
    limit.guard ints s = .ok s :=
  if_pos h

theorem guard_eq_error {ints : List Int} {s : String} (h : ¬ ∀ n ∈ ints, limit.Admits n) :
    limit.guard ints s = .error .tooManyDigits :=
  if_neg h

end DigitLimit

end SafeMarkup
