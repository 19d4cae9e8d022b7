/-
# Numbers are read back

An integer is written as its digits, and a floating-point number as the shortest decimal that reads
back as it, in the notation that its exponent calls for.  Whatever the notation, scanning finds a
whole part, a fraction and an exponent, and the decimal they stand for differs from the one that was
written at most by zeros at the end of its digits.

A number is scanned up to where it ends, so it has to be followed by something that cannot go on a
number; in a JSON text that is a comma, a bracket, a blank, or the end of the text.

The proof follows the notations.  A decimal is written in one of four ways, and for each there is a
lemma that says what is scanned of it: `scanNumber_small`, `scanNumber_round`, `scanNumber_split`
and `scanNumber_scientific`.  All four say that it is the decimal, so the choice between them does
not matter to anybody who reads the text (`scanNumber_text`), and `Proofs/Decimal.lean` says that
the decimal is the number.

Integers have to be among those that the limit admits.  Floating-point numbers do not: the limit is
not applied to their digits, in either direction.
-/
import SafeMarkup.Json.NumberKeys
import SafeMarkup.Proofs.Decimal
import SafeMarkup.Proofs.JsonValue

namespace SafeMarkup.Json

/-! ## Digits -/

/-- The text does not go on a number. -/
def EndsNumber (rest : List Char) : Prop :=
  ∀ c, rest.head? = some c → isDigit c = false ∧ c ≠ '.' ∧ c ≠ 'e' ∧ c ≠ 'E'

/-- The text does not begin with a digit. -/
def EndsDigits (rest : List Char) : Prop :=
  ∀ c, rest.head? = some c → isDigit c = false

variable {limit : DigitLimit} {digits rest : List Char}

theorem EndsNumber.endsDigits (h : EndsNumber rest) : EndsDigits rest :=
  fun c hc => (h c hc).1

theorem takeWhile_digits (h : ∀ c ∈ digits, isDigit c = true) (stop : EndsDigits rest) :
    (digits ++ rest).takeWhile isDigit = digits := by
  rw [List.takeWhile_append_of_pos h]
  cases rest with
  | nil => exact List.append_nil _
  | cons c rest =>
    rw [List.takeWhile_cons_of_neg (by simp [stop c rfl])]
    exact List.append_nil _

theorem dropWhile_digits (h : ∀ c ∈ digits, isDigit c = true) (stop : EndsDigits rest) :
    (digits ++ rest).dropWhile isDigit = rest := by
  rw [List.dropWhile_append_of_pos h]
  cases rest with
  | nil => rfl
  | cons c rest => exact List.dropWhile_cons_of_neg (by simp [stop c rfl])

theorem isDigit_of_mem_toDigits {n : Nat} : ∀ c ∈ Nat.toDigits 10 n, isDigit c = true :=
  fun _ hc => Nat.isDigit_of_mem_toDigits (by decide) (by decide) hc

theorem isDigit_of_mem_zeros {k : Nat} : ∀ c ∈ List.replicate k '0', isDigit c = true := by
  intro c hc
  rw [List.eq_of_mem_replicate hc]
  rfl

theorem toDigits_ne_nil (n : Nat) : Nat.toDigits 10 n ≠ [] :=
  List.length_pos_iff.1 Nat.length_toDigits_pos

theorem head_toDigits {n : Nat} (pos : n ≠ 0) : (Nat.toDigits 10 n).head? ≠ some '0' := by
  induction n using Nat.strongRecOn with
  | ind n ih =>
    rcases Nat.lt_or_ge n 10 with small | large
    · have leads : ∀ n < 10, n ≠ 0 → Nat.digitChar n ≠ '0' := by decide
      rw [Nat.toDigits_of_lt_base small]
      exact fun h => leads n small pos (Option.some.inj h)
    · have front := ih (n / 10) (Nat.div_lt_self (by omega) (by decide)) (by omega)
      rw [Nat.toDigits_of_base_le (by decide) large]
      cases e : Nat.toDigits 10 (n / 10) with
      | nil => exact absurd e (toDigits_ne_nil _)
      | cons c _ =>
        rw [e] at front
        exact front

theorem decimalValue_toDigits (n : Nat) : decimalValue (Nat.toDigits 10 n) = n :=
  Nat.ofDigitChars_ten_toDigits

theorem decimalValue_zeros_append (k : Nat) (digits : List Char) :
    decimalValue (List.replicate k '0' ++ digits) = decimalValue digits := by
  show Nat.ofDigitChars 10 (List.replicate k '0' ++ digits) 0 = Nat.ofDigitChars 10 digits 0
  rw [Nat.ofDigitChars_append, Nat.ofDigitChars_replicate_zero, Nat.mul_zero]

theorem decimalValue_append_zeros (digits : List Char) (k : Nat) :
    decimalValue (digits ++ List.replicate k '0') = decimalValue digits * Nat.pow 10 k := by
  show Nat.ofDigitChars 10 (digits ++ List.replicate k '0') 0 = _
  rw [Nat.ofDigitChars_append, Nat.ofDigitChars_replicate_zero, Nat.mul_comm]
  rfl

theorem signed_natAbs (n : Int) :
    (if decide (n < 0) then -(n.natAbs : Int) else n.natAbs) = n := by
  by_cases negative : n < 0
  · rw [decide_eq_true negative, if_pos rfl]
    omega
  · rw [decide_eq_false negative, if_neg Bool.false_ne_true]
    omega

/-! ## Scanning the parts -/

theorem scanNumber_whole {whole tail : List Char} (negative : Bool)
    (leads : whole = ['0'] ∨ whole.head? ≠ some '0') (ne : whole ≠ [])
    (h : ∀ c ∈ whole, isDigit c = true) (stop : EndsDigits tail) :
    scanNumber limit negative (whole ++ tail) =
      (let (fraction, rest) := scanFraction tail
      let (exponent, rest) := scanExponent rest
      if fraction.isEmpty && exponent.isNone then
        if limit.Allows whole.length then
          let size : Int := decimalValue whole
          .ok (.int (if negative then -size else size), rest)
        else .error .tooManyDigits
      else
        .ok (.float (Binary64.ofDecimal negative (decimalValue (whole ++ fraction))
          (exponent.getD 0 - fraction.length)), rest)) := by
  have filled : whole.isEmpty = false := by
    cases whole with
    | nil => exact absurd rfl ne
    | cons => rfl
  unfold scanNumber
  extract_lets found
  have scanned : found = whole := by
    simp only [found]
    rcases leads with rfl | leads
    · rfl
    · split
      · next e =>
        cases whole with
        | nil => exact absurd rfl ne
        | cons c _ =>
          cases e
          exact absurd rfl leads
      · exact takeWhile_digits h stop
  clear_value found
  subst scanned
  rw [if_neg (by simp [filled]), List.drop_left]

theorem scanFraction_none (h : ∀ c, rest.head? = some c → c ≠ '.') :
    scanFraction rest = ([], rest) := by
  cases rest with
  | nil => rfl
  | cons c rest =>
    unfold scanFraction
    split
    · next e =>
      cases e
      exact absurd rfl (h '.' rfl)
    · rfl

theorem scanFraction_some (ne : digits ≠ []) (h : ∀ c ∈ digits, isDigit c = true)
    (stop : EndsDigits rest) : scanFraction ('.' :: (digits ++ rest)) = (digits, rest) := by
  simp only [scanFraction, takeWhile_digits h stop, dropWhile_digits h stop]

theorem scanExponent_none (h : EndsNumber rest) : scanExponent rest = (none, rest) := by
  unfold scanExponent
  extract_lets
  split
  · exact absurd rfl (h 'e' rfl).2.2.1
  · exact absurd rfl (h 'E' rfl).2.2.2
  · exact absurd rfl (h 'e' rfl).2.2.1
  · exact absurd rfl (h 'E' rfl).2.2.2
  · exact absurd rfl (h 'e' rfl).2.2.1
  · exact absurd rfl (h 'E' rfl).2.2.2
  · rfl

theorem scanExponent_digits (negative : Bool) (ne : digits ≠ [])
    (h : ∀ c ∈ digits, isDigit c = true) (stop : EndsDigits rest) :
    scanExponent ('e' :: (if negative then '-' else '+') :: (digits ++ rest)) =
      (some (if negative then -(decimalValue digits : Int) else decimalValue digits), rest) := by
  unfold scanExponent
  extract_lets digitsOf
  have scanned : digitsOf negative (digits ++ rest) =
      (some (if negative then -(decimalValue digits : Int) else decimalValue digits), rest) := by
    simp only [digitsOf, takeWhile_digits h stop, dropWhile_digits h stop]
  cases negative with
  | false => exact scanned
  | true => exact scanned

theorem scanExponent_signed (exponent : Int) (k : Nat) (stop : EndsDigits rest) :
    scanExponent ((if exponent < 0 then "e-" else "e+").toList ++
      (List.replicate k '0' ++ (Nat.toDigits 10 exponent.natAbs ++ rest))) =
        (some exponent, rest) := by
  have filled : List.replicate k '0' ++ Nat.toDigits 10 exponent.natAbs ≠ [] :=
    List.append_ne_nil_of_right_ne_nil _ (toDigits_ne_nil _)
  have digit : ∀ c ∈ List.replicate k '0' ++ Nat.toDigits 10 exponent.natAbs,
      isDigit c = true :=
    List.forall_mem_append.2 ⟨isDigit_of_mem_zeros, isDigit_of_mem_toDigits⟩
  have value : decimalValue (List.replicate k '0' ++ Nat.toDigits 10 exponent.natAbs) =
      exponent.natAbs := by
    rw [decimalValue_zeros_append, decimalValue_toDigits]
  have scanned := scanExponent_digits (decide (exponent < 0)) filled digit stop
  rw [value, signed_natAbs, List.append_assoc] at scanned
  rw [← scanned]
  by_cases below : exponent < 0 <;> simp [below]

theorem head_signed (exponent : Int) {others : List Char} : ∀ c,
    ((if exponent < 0 then "e-" else "e+").toList ++ others).head? = some c → c = 'e' := by
  intro c hc
  split at hc <;> exact (Option.some.inj hc).symm

/-! ## Integers -/

theorem scanNumber_toDigits (negative : Bool) {n : Nat} (few : limit.Admits n)
    (stop : EndsNumber rest) :
    scanNumber limit negative (Nat.toDigits 10 n ++ rest) =
      .ok (.int (if negative then -(n : Int) else n), rest) := by
  have leads : Nat.toDigits 10 n = ['0'] ∨ (Nat.toDigits 10 n).head? ≠ some '0' := by
    by_cases zero : n = 0
    · exact .inl (zero ▸ rfl)
    · exact .inr (head_toDigits zero)
  have short : limit.Allows (Nat.toDigits 10 n).length := few
  rw [scanNumber_whole negative leads (toDigits_ne_nil n) isDigit_of_mem_toDigits stop.endsDigits,
    scanFraction_none fun c hc => (stop c hc).2.1]
  simp only [scanExponent_none stop, if_pos short, decimalValue_toDigits]
  rfl

/-! ## Decimals -/

section Decimals

variable (limit) (negative : Bool) {whole fraction : List Char}
  (leads : whole = ['0'] ∨ whole.head? ≠ some '0') (ne : whole ≠ [])
  (h : ∀ c ∈ whole, isDigit c = true)

include leads ne h

theorem scanNumber_fraction (ne' : fraction ≠ []) (h' : ∀ c ∈ fraction, isDigit c = true)
    (stop : EndsNumber rest) :
    scanNumber limit negative (whole ++ '.' :: (fraction ++ rest)) =
      .ok (.float (Binary64.ofDecimal negative (decimalValue (whole ++ fraction))
        (-fraction.length)), rest) := by
  have filled : fraction.isEmpty = false := by
    cases fraction with
    | nil => exact absurd rfl ne'
    | cons => rfl
  have point : EndsDigits ('.' :: (fraction ++ rest)) := by
    intro c hc
    cases hc
    rfl
  rw [scanNumber_whole negative leads ne h point, scanFraction_some ne' h' stop.endsDigits]
  simp only [scanExponent_none stop, filled, Bool.false_and, Option.getD_none, Int.zero_sub]
  rfl

/-- A whole part, a fraction that may be empty, and an exponent are scanned together. -/
theorem scanNumber_exponent (h' : ∀ c ∈ fraction, isDigit c = true) {tail : List Char}
    {exponent : Int} (scanned : scanExponent tail = (some exponent, rest))
    (stop : ∀ c, tail.head? = some c → c = 'e') :
    scanNumber limit negative
        (whole ++ ((if fraction.isEmpty then [] else '.' :: fraction) ++ tail)) =
      .ok (.float (Binary64.ofDecimal negative (decimalValue (whole ++ fraction))
        (exponent - fraction.length)), rest) := by
  have endsDigits : EndsDigits tail := fun c hc => stop c hc ▸ rfl
  cases fraction with
  | nil =>
    have noPoint : scanFraction tail = ([], tail) := by
      refine scanFraction_none fun c hc => ?_
      rw [stop c hc]
      decide
    rw [List.isEmpty_nil, if_pos rfl, List.nil_append,
      scanNumber_whole negative leads ne h endsDigits, noPoint]
    simp only [scanned, Option.isNone_some, Bool.and_false, Option.getD_some]
    rfl
  | cons first others =>
    have point : EndsDigits ('.' :: ((first :: others) ++ tail)) := by
      intro c hc
      cases hc
      rfl
    rw [List.isEmpty_cons, if_neg Bool.false_ne_true, List.cons_append,
      scanNumber_whole negative leads ne h point,
      scanFraction_some (List.cons_ne_nil _ _) h' endsDigits]
    simp only [scanned, List.isEmpty_cons, Bool.false_and, Option.getD_some]
    rfl

end Decimals

theorem toList_zeros (k : Nat) : (Decimal.zeros k).toList = List.replicate k '0' :=
  String.toList_ofList

theorem toList_toString (n : Nat) : (toString n).toList = Nat.toDigits 10 n :=
  Nat.toList_repr

section Notations

variable (limit) (negative : Bool) {d : Decimal}
  (all : ∀ c ∈ digits, isDigit c = true) (ne : digits ≠ []) (leads : digits.head? ≠ some '0')
  (value : decimalValue digits = d.digits)

include all ne value

theorem scanNumber_small {k : Nat} (exponent : d.exponent = -((k + digits.length : Nat) : Int))
    (stop : EndsNumber rest) :
    scanNumber limit negative ('0' :: '.' :: (List.replicate k '0' ++ digits ++ rest)) =
      .ok (.float (Binary64.ofDecimal negative d.digits d.exponent), rest) := by
  have filled : List.replicate k '0' ++ digits ≠ [] := List.append_ne_nil_of_right_ne_nil _ ne
  have digit : ∀ c ∈ List.replicate k '0' ++ digits, isDigit c = true :=
    List.forall_mem_append.2 ⟨isDigit_of_mem_zeros, all⟩
  have found : decimalValue (['0'] ++ (List.replicate k '0' ++ digits)) = d.digits := by
    rw [show ['0'] = List.replicate 1 '0' from rfl, decimalValue_zeros_append,
      decimalValue_zeros_append, value]
  have scanned := scanNumber_fraction limit negative (.inl rfl) (List.cons_ne_nil '0' [])
    (isDigit_of_mem_zeros (k := 1)) filled digit stop
  rw [found, List.length_append, List.length_replicate, ← exponent] at scanned
  exact scanned

include leads

theorem scanNumber_round {k : Nat} (exponent : d.exponent = k) (stop : EndsNumber rest) :
    scanNumber limit negative (digits ++ List.replicate k '0' ++ '.' :: '0' :: rest) =
      .ok (.float (Binary64.ofDecimal negative d.digits d.exponent), rest) := by
  have filled : digits ++ List.replicate k '0' ≠ [] := List.append_ne_nil_of_left_ne_nil ne _
  have digit : ∀ c ∈ digits ++ List.replicate k '0', isDigit c = true :=
    List.forall_mem_append.2 ⟨all, isDigit_of_mem_zeros⟩
  have first : (digits ++ List.replicate k '0').head? ≠ some '0' := by
    cases digits with
    | nil => exact absurd rfl ne
    | cons => exact leads
  have found : decimalValue (digits ++ List.replicate k '0' ++ ['0']) =
      d.digits * Nat.pow 10 (k + 1) := by
    rw [List.append_assoc, show ['0'] = List.replicate 1 '0' from rfl,
      List.replicate_append_replicate, decimalValue_append_zeros, value]
  have scanned := scanNumber_fraction limit negative (.inr first) filled digit
    (List.cons_ne_nil '0' []) (isDigit_of_mem_zeros (k := 1)) stop
  have shift : -(([('0' : Char)].length : Nat) : Int) + ((k + 1 : Nat) : Int) = d.exponent := by
    rw [exponent, List.length_singleton]
    omega
  rw [found, Binary64.ofDecimal_mul_pow, shift] at scanned
  exact scanned

theorem scanNumber_split {k : Nat} (inside : k + 1 < digits.length)
    (exponent : d.exponent = -((digits.length - (k + 1) : Nat) : Int)) (stop : EndsNumber rest) :
    scanNumber limit negative (digits.take (k + 1) ++ '.' :: (digits.drop (k + 1) ++ rest)) =
      .ok (.float (Binary64.ofDecimal negative d.digits d.exponent), rest) := by
  have first : (digits.take (k + 1)).head? ≠ some '0' ∧ digits.take (k + 1) ≠ [] := by
    cases digits with
    | nil => exact absurd rfl ne
    | cons => exact ⟨leads, List.cons_ne_nil _ _⟩
  have others : digits.drop (k + 1) ≠ [] := by
    intro e
    have none := congrArg List.length e
    rw [List.length_drop, List.length_nil] at none
    omega
  have scanned := scanNumber_fraction limit negative (.inr first.1) first.2
    (fun c hc => all c (List.mem_of_mem_take hc)) others
    (fun c hc => all c (List.mem_of_mem_drop hc)) stop
  rw [List.take_append_drop, value, List.length_drop, ← exponent] at scanned
  exact scanned

theorem scanNumber_scientific {tail : List Char} {exponent : Int}
    (scanned : scanExponent tail = (some exponent, rest))
    (begins : ∀ c, tail.head? = some c → c = 'e')
    (size : d.exponent = exponent - ((digits.length - 1 : Nat) : Int)) :
    scanNumber limit negative (digits.take 1 ++
        ((if digits.length = 1 then [] else '.' :: digits.drop 1) ++ tail)) =
      .ok (.float (Binary64.ofDecimal negative d.digits d.exponent), rest) := by
  cases digits with
  | nil => exact absurd rfl ne
  | cons c others =>
    have single : (others.isEmpty = true) = ((c :: others).length = 1) := by
      rw [List.isEmpty_iff, List.length_cons, Nat.succ.injEq, List.length_eq_zero_iff]
    have first : ∀ x ∈ [c], isDigit x = true :=
      fun x hx => all x (List.mem_singleton.1 hx ▸ .head _)
    have second : ∀ x ∈ others, isDigit x = true := fun x hx => all x (.tail _ hx)
    have leads' : [c].head? ≠ some '0' := leads
    have found :=
      scanNumber_exponent limit negative (.inr leads') (List.cons_ne_nil c []) first second
      scanned begins
    simp only [single] at found
    rw [show [c] ++ others = c :: others from rfl, value] at found
    rw [size]
    exact found

end Notations

/-- The text of a decimal is scanned as the decimal, whatever its notation. -/
theorem scanNumber_text (negative : Bool) {d : Decimal} (pos : d.digits ≠ 0)
    (stop : EndsNumber rest) :
    scanNumber limit negative (d.text.toList ++ rest) =
      .ok (.float (Binary64.ofDecimal negative d.digits d.exponent), rest) := by
  obtain ⟨digits, hdigits⟩ : ∃ digits, Nat.toDigits 10 d.digits = digits := ⟨_, rfl⟩
  have all : ∀ c ∈ digits, isDigit c = true := hdigits ▸ isDigit_of_mem_toDigits
  have ne : digits ≠ [] := hdigits ▸ toDigits_ne_nil _
  have leads : digits.head? ≠ some '0' := hdigits ▸ head_toDigits pos
  have value : decimalValue digits = d.digits := hdigits ▸ decimalValue_toDigits _
  have chars : (toString d.digits).toList = digits := (toList_toString _).trans hdigits
  have count : (toString d.digits).length = digits.length := by
    rw [← String.length_toList, chars]
  have length : 0 < digits.length := List.length_pos_iff.2 ne
  unfold Decimal.text
  simp only [count]
  split
  · have scanned := scanNumber_small limit negative all ne value
      (k := (-(d.exponent + digits.length - 1) - 1).toNat) (by omega) stop
    rw [String.toList_append, String.toList_append, toList_zeros, chars]
    exact scanned
  · split
    · split
      · have scanned := scanNumber_round limit negative all ne leads value
          (k := (d.exponent + digits.length - 1).toNat + 1 - digits.length) (by omega) stop
        rw [String.toList_append, String.toList_append, toList_zeros, chars, List.append_assoc]
        exact scanned
      · have scanned := scanNumber_split limit negative all ne leads value
          (k := (d.exponent + digits.length - 1).toNat) (by omega) (by omega) stop
        simp only [String.toList_append, String.toList_ofList, chars, List.append_assoc]
        exact scanned
    · obtain ⟨exponent, hexponent⟩ : ∃ exponent, d.exponent + digits.length - 1 = exponent :=
        ⟨_, rfl⟩
      have mantissa : (if digits.length = 1 then toString d.digits else
          String.ofList ((toString d.digits).toList.take 1) ++ "." ++
            String.ofList ((toString d.digits).toList.drop 1)).toList =
          digits.take 1 ++ if digits.length = 1 then [] else '.' :: digits.drop 1 := by
        split
        · next single => rw [chars, List.append_nil, List.take_of_length_le (by omega)]
        · simp only [String.toList_append, String.toList_ofList, chars, List.append_assoc]
          rfl
      have scanned := scanNumber_scientific limit negative all ne leads value
        (scanExponent_signed exponent (2 - (toString exponent.natAbs).length) stop.endsDigits)
        (head_signed exponent) (by omega)
      rw [hexponent]
      rw [String.toList_append, String.toList_append, String.toList_append, mantissa, toList_zeros,
        toList_toString]
      simp only [List.append_assoc]
      exact scanned

/-! ## Values -/

theorem exists_digit_of_scanNumber {negative : Bool} {text : List Char}
    {found : Value × List Char} (h : scanNumber limit negative text = .ok found) :
    ∃ c others, text = c :: others ∧ isDigit c = true := by
  cases text with
  | nil => cases h
  | cons c others =>
    refine ⟨c, others, rfl, ?_⟩
    unfold scanNumber at h
    extract_lets whole at h
    by_cases digit : isDigit c = true
    · exact digit
    · have empty : whole = [] := by
        simp only [whole]
        split
        · next e =>
          cases e
          exact absurd rfl digit
        · exact List.takeWhile_cons_of_neg digit
      rw [empty] at h
      cases h

theorem scanValue_digit (fuel : Nat) {c : Char} (h : isDigit c = true) :
    scanValue limit (fuel + 1) (c :: rest) = scanNumber limit false (c :: rest) := by
  rw [scanValue]
  all_goals
    intro _ e
    cases e
    cases h

theorem scanValue_minus (fuel : Nat) {c : Char} (h : isDigit c = true) :
    scanValue limit (fuel + 1) ('-' :: c :: rest) = scanNumber limit true (c :: rest) := by
  rw [scanValue]
  all_goals
    intro _ e
    cases e
    cases h

/-- A number with its sign is scanned as what is scanned of it without the sign. -/
theorem scanValue_signed (fuel : Nat) (negative : Bool) {text : List Char} {found : Value}
    (h : scanNumber limit negative (text ++ rest) = .ok (found, rest)) :
    scanValue limit (fuel + 1) ((if negative then "-" else "").toList ++ (text ++ rest)) =
      .ok (found, rest) := by
  obtain ⟨c, others, e, digit⟩ := exists_digit_of_scanNumber h
  rw [e] at h ⊢
  cases negative with
  | false => exact (scanValue_digit fuel digit).trans h
  | true => exact (scanValue_minus fuel digit).trans h

theorem scanValue_int (fuel : Nat) {n : Int} (few : limit.Admits n) (stop : EndsNumber rest) :
    scanValue limit (fuel + 1) ((toString n).toList ++ rest) = .ok (.int n, rest) := by
  have size : limit.Admits (n.natAbs : Int) := few
  have text : (toString n).toList =
      (if decide (n < 0) then "-" else "").toList ++ Nat.toDigits 10 n.natAbs := by
    show n.repr.toList = _
    rw [Int.repr_eq_if]
    split
    · rw [decide_eq_false (by omega), show n.natAbs = n.toNat by omega]
      exact Nat.toList_repr
    · rw [decide_eq_true (by omega), show n.natAbs = (-n).toNat by omega, String.toList_append,
        Nat.toList_repr]
      rfl
  have scanned := scanNumber_toDigits (decide (n < 0)) size stop
  rw [signed_natAbs] at scanned
  rw [text, List.append_assoc]
  exact scanValue_signed fuel _ scanned

theorem scanValue_float (fuel : Nat) (x : Binary64) (stop : EndsNumber rest) :
    scanValue limit (fuel + 1) ((number x).toList ++ rest) = .ok (.float x, rest) := by
  cases x with
  | nan => rfl
  | infinite negative => cases negative <;> rfl
  | finite negative significand offset normal =>
    have text : (number (.finite negative significand offset normal)).toList =
        (if negative then "-" else "").toList ++
          (if significand = 0 then "0.0" else (Decimal.shortest significand offset).text).toList :=
      String.toList_append
    rw [text, List.append_assoc]
    refine scanValue_signed fuel negative ?_
    by_cases zero : significand = 0
    · subst zero
      have atStart : offset = 0 := normal.2.1.resolve_right (by decide)
      subst atStart
      exact scanNumber_fraction limit negative (.inl rfl) (List.cons_ne_nil '0' [])
        (isDigit_of_mem_zeros (k := 1)) (List.cons_ne_nil '0' []) (isDigit_of_mem_zeros (k := 1))
        stop
    · obtain ⟨back, pos⟩ := Decimal.ofDecimal_shortest normal zero negative
      rw [if_neg zero, scanNumber_text negative pos stop, back]

end SafeMarkup.Json
