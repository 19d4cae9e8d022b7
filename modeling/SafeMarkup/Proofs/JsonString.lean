/-
# Texts are read back

A text is written in ASCII: what has no character there is written by its UTF-16 units, one or two
of them, with four hexadecimal digits each.  The reader scans units and joins the halves of a
character afterwards.  Scanning gives back the units of every character (`scanUnits_escaped`), and
joining them gives back the characters (`joinUnits_flatMap`), since the unit of a character that
needs only one is never half of another.

Every text is covered, since a text here is made of characters and a character is never half of
one: the reader may meet an unpaired half in what somebody else wrote, but the writer does not
write any.  The other direction, what the reader makes of such input, is not needed for the round
trip and is not stated.

The induction over the text carries along what comes behind it, so that the closing quotation mark
is found where it was put.
-/
import SafeMarkup.Json.Reader
import SafeMarkup.Json.Writer

namespace SafeMarkup.Json

/-! ## Hexadecimal digits -/

theorem hexDigit?_digitChar : ∀ n < 16, hexDigit? (Nat.digitChar n) = some n := by
  decide

theorem fourDigits_eq {unit : Nat} (h : unit < 65536) : fourDigits unit =
    [Nat.digitChar (unit / 4096), Nat.digitChar (unit / 256 % 16), Nat.digitChar (unit / 16 % 16),
      Nat.digitChar (unit % 16)] := by
  have base : 1 < 16 := by decide
  unfold fourDigits
  rcases Nat.lt_or_ge unit 16 with h1 | h1
  · rw [Nat.toDigits_of_lt_base h1, show unit / 4096 = 0 by omega,
      show unit / 256 % 16 = 0 by omega, show unit / 16 % 16 = 0 by omega, Nat.mod_eq_of_lt h1]
    rfl
  · rw [Nat.toDigits_of_base_le base h1]
    rcases Nat.lt_or_ge unit 256 with h2 | h2
    · rw [Nat.toDigits_of_lt_base (by omega), show unit / 4096 = 0 by omega,
        show unit / 256 % 16 = 0 by omega, show unit / 16 % 16 = unit / 16 by omega]
      rfl
    · rw [Nat.toDigits_of_base_le base (by omega), Nat.div_div_eq_div_mul]
      rcases Nat.lt_or_ge unit 4096 with h3 | h3
      · rw [Nat.toDigits_of_lt_base (by omega), show unit / 4096 = 0 by omega,
          show unit / 256 % 16 = unit / 256 by omega]
        rfl
      · rw [Nat.toDigits_of_base_le base (by omega), Nat.div_div_eq_div_mul,
          Nat.toDigits_of_lt_base (by omega)]
        rfl

theorem unitOf?_digits {unit : Nat} (h : unit < 65536) :
    unitOf? (Nat.digitChar (unit / 4096)) (Nat.digitChar (unit / 256 % 16))
      (Nat.digitChar (unit / 16 % 16)) (Nat.digitChar (unit % 16)) = some unit := by
  have value : ((unit / 4096 * 16 + unit / 256 % 16) * 16 + unit / 16 % 16) * 16 + unit % 16 =
      unit := by omega
  unfold unitOf?
  rw [hexDigit?_digitChar _ (by omega), hexDigit?_digitChar _ (Nat.mod_lt _ (by decide)),
    hexDigit?_digitChar _ (Nat.mod_lt _ (by decide)),
    hexDigit?_digitChar _ (Nat.mod_lt _ (by decide))]
  exact congrArg some value

/-! ## Units -/

/-- The UTF-16 units of a character. -/
def unitsOf (c : Char) : List Nat :=
  if c.toNat < 0x10000 then [c.toNat]
  else [0xD800 + (c.toNat - 0x10000) / 0x400, 0xDC00 + (c.toNat - 0x10000) % 0x400]

/-- What scanning leaves to be done after some units have been read. -/
def withUnits (units : List Nat) (scanned : Except Fault (List Nat × List Char)) :
    Except Fault (List Nat × List Char) :=
  scanned.map fun (others, rest) => (units ++ others, rest)

variable {rest : List Char}

theorem scanUnits_unitEscape {unit : Nat} (h : unit < 65536) :
    scanUnits (unitEscape unit ++ rest) = withUnits [unit] (scanUnits rest) := by
  rw [unitEscape, fourDigits_eq h]
  show scanUnits ('\\' :: 'u' :: Nat.digitChar (unit / 4096) ::
    Nat.digitChar (unit / 256 % 16) :: Nat.digitChar (unit / 16 % 16) ::
    Nat.digitChar (unit % 16) :: rest) = _
  rw [scanUnits]
  simp only [unitOf?_digits h]
  rfl

theorem scanUnits_plain {c : Char} (notQuote : c ≠ '"') (notSlash : c ≠ '\\')
    (visible : 0x20 ≤ c.toNat) :
    scanUnits (c :: rest) = withUnits [c.toNat] (scanUnits rest) := by
  rw [scanUnits, if_neg (Nat.not_lt.2 visible)]
  · rfl
  · exact fun e => notQuote e
  · intro _ _ _ _ _ e
    exact absurd e notSlash
  · intro _ _ e
    exact absurd e notSlash

theorem toNat_lt (c : Char) : c.toNat < 0x110000 := by
  rcases c.valid with h | h
  · exact Nat.lt_trans h (by decide)
  · exact h.2

/-- A character is scanned as its units. -/
theorem scanUnits_escaped (c : Char) :
    scanUnits (escaped c ++ rest) = withUnits (unitsOf c) (scanUnits rest) := by
  have bound := toNat_lt c
  unfold escaped
  split
  · next e => subst e; rfl
  split
  · next e => subst e; rfl
  split
  · next e => subst e; rfl
  split
  · next e => subst e; rfl
  split
  · next e => subst e; rfl
  split
  · next e => subst e; rfl
  split
  · next e => subst e; rfl
  next notQuote notSlash _ _ _ _ _ =>
  dsimp only
  unfold unitsOf
  split
  · next visible =>
    rw [if_pos (by omega)]
    exact scanUnits_plain notQuote notSlash visible.1
  · split
    · next small => exact scanUnits_unitEscape small
    · next large =>
      rw [List.append_assoc, scanUnits_unitEscape (by omega), scanUnits_unitEscape (by omega)]
      cases scanUnits rest <;> rfl

/-! ## Joining -/

/-- The only unit of a character is not half of one. -/
theorem not_half (c : Char) : isHigh c.toNat = false ∧ isLow c.toNat = false := by
  have valid : c.toNat < 0xD800 ∨ 0xDFFF < c.toNat := c.valid.imp id And.left
  simp only [isHigh, isLow, Bool.and_eq_false_iff, decide_eq_false_iff_not]
  omega

theorem ofUnit_toNat (c : Char) : ofUnit c.toNat = c := by
  rw [ofUnit, (not_half c).1, (not_half c).2]
  exact Char.ofNat_toNat c

theorem joinUnits_unitsOf (c : Char) (units : List Nat) :
    joinUnits (unitsOf c ++ units) = c :: joinUnits units := by
  have bound := toNat_lt c
  unfold unitsOf
  split
  · cases units with
    | nil => exact congrArg (· :: []) (ofUnit_toNat c)
    | cons second rest =>
      show joinUnits (c.toNat :: second :: rest) = _
      rw [joinUnits, (not_half c).1, ofUnit_toNat]
      rfl
  · next large =>
    have high : isHigh (0xD800 + (c.toNat - 0x10000) / 0x400) = true := by
      simp only [isHigh, Bool.and_eq_true, decide_eq_true_eq]
      omega
    have low : isLow (0xDC00 + (c.toNat - 0x10000) % 0x400) = true := by
      simp only [isLow, Bool.and_eq_true, decide_eq_true_eq]
      omega
    have value : 0x10000 + (0xD800 + (c.toNat - 0x10000) / 0x400 - 0xD800) * 0x400 +
        (0xDC00 + (c.toNat - 0x10000) % 0x400 - 0xDC00) = c.toNat := by omega
    rw [List.cons_append, List.cons_append, List.nil_append, joinUnits, high, low, value,
      Char.ofNat_toNat]
    rfl

theorem joinUnits_flatMap (chars : List Char) : joinUnits (chars.flatMap unitsOf) = chars := by
  induction chars with
  | nil => rfl
  | cons c rest ih => rw [List.flatMap_cons, joinUnits_unitsOf, ih]

/-! ## Texts -/

theorem scanUnits_flatMap (chars : List Char) :
    scanUnits (chars.flatMap escaped ++ '"' :: rest) = .ok (chars.flatMap unitsOf, rest) := by
  induction chars with
  | nil => rfl
  | cons c chars ih =>
    rw [List.flatMap_cons, List.append_assoc, scanUnits_escaped, ih]
    rfl

theorem toList_quoted (s : String) :
    (quoted s).toList = '"' :: (s.toList.flatMap escaped ++ ['"']) :=
  String.toList_ofList

theorem scanText_quoted (s : String) :
    scanText (s.toList.flatMap escaped ++ '"' :: rest) = .ok (s, rest) := by
  rw [scanText, scanUnits_flatMap]
  show Except.ok (String.ofList (joinUnits (s.toList.flatMap unitsOf)), rest) = _
  rw [joinUnits_flatMap, String.ofList_toList]

end SafeMarkup.Json
