/-
# Numbers as keys of an object

The keys of an object may be numbers and truth values.  They are sorted by their exact values and
written as texts.  Where every two keys can be compared there is only one sorted order, and any way
of sorting finds it.  A not-a-number stands neither before nor after anything, so with one among
the keys the order depends on which pairs are compared, and the way of sorting is part of the
format: take the longest run that is in order from the start, turned round if it descends, and
then put each remaining key into its place among those before it, found by halving.

The ranks compare numbers of both types exactly, as fractions.  To compare an integer with a
floating-point number by rounding the one to the other would put some keys in a different order,
and with keys that are close together the order would not even be transitive.

An integer with too many digits has a rank but no text.  So it takes part in the sorting, and only
when its turn comes to be written is there a fault.

Keys of this sort do not occur in trees that were read from JSON, and nothing is proved about them:
the statements about written texts are about mappings whose keys are texts (`Value.IsJson` in
`Proofs/JsonValue.lean`).
-/
import SafeMarkup.Number.Digits
import SafeMarkup.Number.Shortest
import SafeMarkup.Value.Basic

namespace SafeMarkup.Json

/-! ## Numbers -/

def number (x : Binary64) : String :=
  x.render (fun negative => if negative then "-Infinity" else "Infinity") "NaN"

/-- Where a number stands among the others: a fraction, one of the two ends, or nowhere. -/
inductive Rank where
  | lowest
  | fraction (num : Int) (den : Nat)
  | highest
  | nowhere
deriving DecidableEq, Repr

def rankOf : Binary64 → Rank
  | .nan => .nowhere
  | .infinite negative => if negative then .lowest else .highest
  | .finite negative significand offset _ =>
    let (num, den) := Binary64.magnitude significand offset
    .fraction (if negative then -(num : Int) else num) den

/-- The first rank stands before the second. -/
def Rank.before : Rank → Rank → Bool
  | lowest, fraction _ _ | lowest, highest | fraction _ _, highest => true
  | fraction a b, fraction c d => a * d < c * b
  | _, _ => false

/-- A key that is a number or a truth value, as its rank and its text, if it has one.  An integer
that is too long to be written has its rank like any other. -/
def numberKey? (key : Value) (limit : DigitLimit := .standard) :
    Option (Rank × Except Fault String) :=
  match key with
  | .int n => some (.fraction n 1, limit.text n)
  | .bool b => some (if b then (.fraction 1 1, .ok "true") else (.fraction 0 1, .ok "false"))
  | .float x => some (rankOf x, .ok (number x))
  | _ => none

/-! ## Sorting by insertion -/

section Sorting

variable {α : Type}

/-- The longest run from the start in which each item is related to the one ahead of it, `last`
being ahead of the first; and what follows the run. -/
def runFrom (related : α → α → Bool) (last : α) : List α → List α × List α
  | [] => ([], [])
  | item :: rest =>
    if related last item then
      let (run, left) := runFrom related item rest
      (item :: run, left)
    else ([], item :: rest)

/-- The longest run from the start that is in order, turned round if it descends, and what follows
it.  A run is in order if no item stands before the one ahead of it; it descends if each does. -/
def leadingRun (before : α → α → Bool) : List α → List α × List α
  | first :: second :: rest =>
    if before second first then
      let (run, left) := runFrom (fun last item => before item last) second rest
      ((first :: second :: run).reverse, left)
    else
      let (run, left) := runFrom (fun last item => !before item last) second rest
      (first :: second :: run, left)
  | short => (short, [])

/-- The place of an item among others, between two bounds: the item goes before the middle one or
after it, until the bounds meet. -/
def placeBetween (before : α → α → Bool) (item : α) (others : List α) (low high : Nat) : Nat :=
  if _h : low < high then
    let middle := low + (high - low) / 2
    if (others[middle]?.map (before item)).getD false then
      placeBetween before item others low middle
    else placeBetween before item others (middle + 1) high
  else low
termination_by high - low

/-- The others with an item put into its place. -/
def insertItem (before : α → α → Bool) (others : List α) (item : α) : List α :=
  others.insertIdx (placeBetween before item others 0 others.length) item

def sortItems (before : α → α → Bool) (items : List α) : List α :=
  let (run, left) := leadingRun before items
  left.foldl (insertItem before) run

end Sorting

end SafeMarkup.Json
