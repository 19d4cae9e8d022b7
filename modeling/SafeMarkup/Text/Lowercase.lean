/-
# Lower case

`lowercase` is the full lower-casing of a text, as Unicode defines it: every character is replaced
by its lower-case form, and a capital sigma by one of two forms, chosen by where it stands.  At
the end of a word it becomes the final sigma, anywhere else the ordinary one.

URL schemes and the name of a `data` property are compared through this map, so the comparison is
blind to letter case, and it does not depend on a language.

Lower-casing can make a text longer, because one character has a form of two; it never makes one
shorter.  It can also be repeated without effect, and the ASCII case of a text does not show in its
lower-case form.  That is what the theory of policies goes by, and it is proved in
`Proofs/LowerCase.lean` and `Proofs/LetterCase.lean`.

The context of a sigma is looked up in both directions, past the characters that case does not
apply to.  So the map is not one from characters to texts, and the proofs go by the whole text with
what stands before it.
-/
import SafeMarkup.Text.CaseTable

namespace SafeMarkup.Text

/-! ## One character -/

/-- The lower-case form of a character, sigma apart.  Only U+0130 has a form of two characters. -/
def lowerChar (c : Char) : List Char :=
  let code := c.toNat
  if code < 0x80 then
    [if 'A' ≤ c ∧ c ≤ 'Z' then Char.ofNat (code + 0x20) else c]
  else if code == 0x130 then
    ['i', '\u0307']
  else
    match lowerRuns.find? (·.holds code) with
    | some run => [Char.ofNat (run.target + (code - run.first))]
    | none => [c]

/-- Skipped when the end of a word is looked for. -/
def isCaseIgnorable (c : Char) : Bool :=
  inIntervals caseIgnorable c.toNat

/-- A letter that has a case, and so belongs to a word. -/
def isCasedLetter (c : Char) : Bool :=
  inIntervals casedLetters c.toNat

/-! ## Sigma

A capital sigma ends a word when a cased letter stands before it and none after it, the
case-ignorable characters on both sides being passed over. -/

/-- The nearest character to the left that is not case-ignorable is cased, after one more
character has been read. -/
def wordBefore (before : Bool) (c : Char) : Bool :=
  if isCaseIgnorable c then before else isCasedLetter c

/-- The nearest character to the right that is not case-ignorable is cased. -/
def wordAfter : List Char → Bool
  | [] => false
  | c :: rest => if isCaseIgnorable c then wordAfter rest else isCasedLetter c

/-- The lower-case form of a capital sigma in its place. -/
def lowerSigma (before after : Bool) : Char :=
  if before && !after then 'ς' else 'σ'

/-! ## Texts -/

/-- Lower case of the characters that follow a place; `before` says whether a word reaches up to
that place. -/
def lowerFrom (before : Bool) : List Char → List Char
  | [] => []
  | c :: rest =>
    (if c = 'Σ' then [lowerSigma before (wordAfter rest)] else lowerChar c)
      ++ lowerFrom (wordBefore before c) rest

/-- The lower-case form of a text. -/
def lowercase (s : String) : String :=
  String.ofList (lowerFrom false s.toList)

end SafeMarkup.Text
