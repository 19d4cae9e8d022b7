/-
# The shortest decimal reads back

`Decimal.shortest` looks among the candidates of up to 17 digits for one that reads back as the
number, and takes the exact decimal if there is none.  A candidate that was found has been tested,
so it is the exact decimal that has to be followed through the reader: the reader divides without a
remainder and finds the very significand and offset it was made from (`ofRatio_exact`).  Nothing has
to be known about how well the candidates are chosen.

The decimal that is written differs from the chosen one by zeros at the end of its digits.  Moving a
factor of ten between digits and exponent changes nothing for the reader, not even its two early
tests (`ofDecimal_ten_mul`).

Everything takes place in the natural numbers.  A fraction is a numerator and a denominator that
need not be in lowest terms (`ofRatio_mul_left`), since the reader and the writer arrive at the
same fraction in different terms.  The sign is put on at the end and has no part in the arithmetic
(`ofDecimal_sign`).

What is proved is that nothing is lost on the way out and in again.  It is not proved that the
decimal is the shortest one, although it is; nobody relies on that but the eye.
-/
import SafeMarkup.Number.Shortest

namespace SafeMarkup

namespace Binary64

/-! ## Quotients -/

theorem roundQuotient_mul_left {k : Nat} (pos : 0 < k) (num den : Nat) :
    roundQuotient (k * num) (k * den) = roundQuotient num den := by
  have twice : 2 * (k * num % (k * den)) = k * (2 * (num % den)) := by
    rw [Nat.mul_mod_mul_left, Nat.mul_left_comm]
  have less : (k * (2 * (num % den)) < k * den) = (2 * (num % den) < den) :=
    propext (Nat.mul_lt_mul_left pos)
  have same : (k * (2 * (num % den)) == k * den) = (2 * (num % den) == den) := by
    rw [Bool.eq_iff_iff, beq_iff_eq, beq_iff_eq]
    exact ⟨Nat.eq_of_mul_eq_mul_left pos, congrArg (k * ·)⟩
  simp only [roundQuotient, twice, Nat.mul_div_mul_left _ _ pos, less, same]

theorem roundQuotient_mul_self (significand : Nat) {den : Nat} (pos : 0 < den) :
    roundQuotient (significand * den) den = significand := by
  simp only [roundQuotient, Nat.mul_mod_left, Nat.mul_div_cancel _ pos, Nat.mul_zero, pos,
    decide_true, Bool.true_or, if_true]

theorem ofRatio_mul_left {k : Nat} (pos : 0 < k) (negative : Bool) (num den : Nat) :
    ofRatio negative (k * num) (k * den) = ofRatio negative num den := by
  simp only [ofRatio, Nat.mul_assoc, Nat.mul_div_mul_left _ _ pos, roundQuotient_mul_left pos]

theorem log2_mul_pow {significand offset : Nat} (normal : Normal significand offset)
    (pos : significand ≠ 0) : (significand * Nat.pow 2 offset).log2 - 52 = offset := by
  show (significand * 2 ^ offset).log2 - 52 = offset
  obtain ⟨small, least, -⟩ := normal
  change significand < 2 ^ 53 at small
  change offset = 0 ∨ 2 ^ 52 ≤ significand at least
  have scaled : significand * 2 ^ offset ≠ 0 :=
    Nat.mul_ne_zero pos (Nat.ne_of_gt (Nat.two_pow_pos offset))
  have high : (significand * 2 ^ offset).log2 < 53 + offset := by
    rw [Nat.log2_lt scaled, Nat.pow_add]
    exact (Nat.mul_lt_mul_right (Nat.two_pow_pos offset)).2 small
  rcases least with rfl | least
  · omega
  · have low : 52 + offset ≤ (significand * 2 ^ offset).log2 := by
      rw [Nat.le_log2 scaled, Nat.pow_add]
      exact Nat.mul_le_mul_right _ least
    omega

/-- A fraction that is equal to a number gives that number. -/
theorem ofRatio_exact {significand offset num den : Nat} (normal : Normal significand offset)
    (pos : significand ≠ 0) (denPos : 0 < den)
    (h : num * Nat.pow 2 leastExponent = significand * Nat.pow 2 offset * den) (negative : Bool) :
    ofRatio negative num den = finite negative significand offset normal := by
  have log := log2_mul_pow normal pos
  have factored : significand * Nat.pow 2 offset * den =
      significand * (den * Nat.pow 2 offset) := by
    rw [Nat.mul_assoc, Nat.mul_comm (Nat.pow 2 offset)]
  have rounded : roundQuotient (significand * (den * Nat.pow 2 offset)) (den * Nat.pow 2 offset) =
      significand := roundQuotient_mul_self _ (Nat.mul_pos denPos (Nat.two_pow_pos offset))
  simp only [ofRatio, h, Nat.mul_div_cancel _ denPos]
  rw [log, factored, rounded, if_pos normal.1, ofParts, dif_pos normal]

/-! ## Decimals -/

theorem not_normal {significand offset : Nat} (h : 2045 < offset) :
    ¬ Normal significand offset :=
  fun normal => absurd normal.2.2 (Nat.not_le.2 h)

theorem ofRatio_of_great (negative : Bool) {num k : Nat} (le : 1026 ≤ k)
    (h : Nat.pow 2 k ≤ num) : ofRatio negative num 1 = infinite negative := by
  obtain ⟨m, least⟩ : ∃ m, leastExponent = m := ⟨1074, rfl⟩
  have value : m = 1074 := least.symm
  have scaled : 2 ^ (k + m) ≤ num * Nat.pow 2 m := by
    rw [Nat.pow_add, Nat.pow_eq]
    exact Nat.mul_le_mul_right _ h
  have nonzero : num * Nat.pow 2 m ≠ 0 :=
    Nat.ne_of_gt (Nat.lt_of_lt_of_le (Nat.two_pow_pos _) scaled)
  have log : k + m ≤ (num * Nat.pow 2 m).log2 := (Nat.le_log2 nonzero).2 scaled
  simp only [ofRatio, Nat.div_one, ofParts, least]
  rw [dif_neg (not_normal (by omega)), dif_neg (not_normal (by omega)), ite_self]

theorem decimalLength_ten_mul {n : Nat} (pos : n ≠ 0) :
    decimalLength (10 * n) = decimalLength n + 1 := by
  unfold decimalLength
  rw [Nat.toDigits_of_base_le (by decide) (by omega), Nat.mul_div_cancel_left _ (by decide),
    List.length_append]
  rfl

theorem ofDecimal_ten_mul (negative : Bool) (digits : Nat) (exponent : Int) :
    ofDecimal negative (10 * digits) exponent = ofDecimal negative digits (exponent + 1) := by
  by_cases zero : digits = 0
  · simp [ofDecimal, zero]
  have tiny : decimalLength (10 * digits) + exponent = decimalLength digits + (exponent + 1) := by
    rw [decimalLength_ten_mul zero]
    omega
  have nonzero : 10 * digits ≠ 0 := by omega
  unfold ofDecimal
  simp only [tiny, zero, nonzero, decide_false, Bool.false_or]
  split
  · rfl
  -- What is left are the two sides of the upper bound and of the exponent zero.
  by_cases below : exponent < 308
  · have small : ¬ 309 ≤ exponent := by omega
    have small' : ¬ 309 ≤ exponent + 1 := by omega
    rw [if_neg small, if_neg small']
    rcases Int.lt_trichotomy exponent (-1) with least | rfl | positive
    · have power : Nat.pow 10 (-exponent).toNat = 10 * Nat.pow 10 (-(exponent + 1)).toNat := by
        rw [show (-exponent).toNat = (-(exponent + 1)).toNat + 1 by omega]
        exact Nat.pow_succ'
      have negative' : ¬ 0 ≤ exponent + 1 := by omega
      rw [if_neg (show ¬ 0 ≤ exponent by omega), if_neg negative', power]
      exact ofRatio_mul_left (by decide) negative _ _
    · rw [if_neg (by decide), if_pos (by decide)]
      show ofRatio negative (10 * digits) (10 * 1) = ofRatio negative (digits * 1) 1
      rw [Nat.mul_one digits]
      exact ofRatio_mul_left (by decide) negative _ _
    · have power : 10 * digits * Nat.pow 10 exponent.toNat =
          digits * Nat.pow 10 (exponent + 1).toNat := by
        rw [show (exponent + 1).toNat = exponent.toNat + 1 by omega, Nat.mul_comm 10,
          Nat.mul_assoc]
        exact congrArg (digits * ·) Nat.pow_succ'.symm
      have positive' : 0 ≤ exponent + 1 := by omega
      rw [if_pos (show 0 ≤ exponent by omega), if_pos positive', power]
  · rw [if_pos (by omega : 309 ≤ exponent + 1)]
    split
    · rfl
    · have power : exponent.toNat = 308 := by omega
      obtain ⟨k, least, great⟩ : ∃ k, 1026 ≤ k ∧ Nat.pow 2 k ≤ 10 * Nat.pow 10 exponent.toNat := by
        refine ⟨1026, Nat.le_refl 1026, ?_⟩
        rw [power]
        decide +kernel
      rw [if_pos (by omega)]
      refine ofRatio_of_great negative least (Nat.le_trans great ?_)
      exact Nat.mul_le_mul_right _ (by omega)

theorem ofDecimal_mul_pow (negative : Bool) (digits : Nat) (exponent : Int) (k : Nat) :
    ofDecimal negative (digits * Nat.pow 10 k) exponent =
      ofDecimal negative digits (exponent + k) := by
  induction k generalizing exponent with
  | zero =>
    show ofDecimal negative (digits * 1) exponent = _
    rw [Nat.mul_one, Int.natCast_zero, Int.add_zero]
  | succ k ih =>
    have power : Nat.pow 10 (k + 1) = 10 * Nat.pow 10 k := Nat.pow_succ'
    rw [power, Nat.mul_left_comm, ofDecimal_ten_mul, ih]
    congr 1
    omega

/-! ## Signs -/

theorem ofParts_sign {significand offset s o : Nat} {normal : Normal significand offset}
    (h : ofParts false s o = finite false significand offset normal) (negative : Bool) :
    ofParts negative s o = finite negative significand offset normal := by
  unfold ofParts at h ⊢
  split at h
  · next fits =>
    cases h
    exact dif_pos fits
  · cases h

theorem ofDecimal_sign {digits significand offset : Nat} {exponent : Int}
    {normal : Normal significand offset}
    (h : ofDecimal false digits exponent = finite false significand offset normal)
    (negative : Bool) :
    ofDecimal negative digits exponent = finite negative significand offset normal := by
  have ratio {num den : Nat} (h : ofRatio false num den = finite false significand offset normal) :
      ofRatio negative num den = finite negative significand offset normal := by
    unfold ofRatio at h ⊢
    dsimp only at h ⊢
    split at h
    · next small =>
      rw [if_pos small]
      exact ofParts_sign h negative
    · next large =>
      rw [if_neg large]
      exact ofParts_sign h negative
  unfold ofDecimal at h ⊢
  split at h
  · next tiny =>
    rw [if_pos tiny]
    exact ofParts_sign h negative
  · next notTiny =>
    rw [if_neg notTiny]
    split at h
    · cases h
    · next notGreat =>
      rw [if_neg notGreat]
      split at h
      · next whole =>
        rw [if_pos whole]
        exact ratio h
      · next fraction =>
        rw [if_neg fraction]
        exact ratio h

end Binary64

namespace Decimal

open Binary64

/-! ## The exact decimal -/

theorem decimalLength_exact {significand : Nat} (pos : significand ≠ 0) {k : Nat} (le : k ≤ 1074) :
    ¬ ((decimalLength (significand * Nat.pow 5 k) : Int) + -(k : Int) ≤ -324) := by
  intro tiny
  obtain ⟨n, hn⟩ : ∃ n, n = 54 * 6 := ⟨_, rfl⟩
  have short : decimalLength (significand * Nat.pow 5 k) ≤ k - n := by omega
  have some : 0 < decimalLength (significand * Nat.pow 5 k) := Nat.length_toDigits_pos
  have bound : significand * 5 ^ k < 10 ^ (k - n) :=
    (Nat.length_toDigits_le_iff (by decide) (by omega)).1 short
  -- Were it so short, then `5 ^ k` would be less than `10 ^ (k - n)`, and `10 ^ n` than `2 ^ k`.
  have power : 5 ^ k < 10 ^ (k - n) :=
    Nat.lt_of_le_of_lt (Nat.le_mul_of_pos_left _ (Nat.pos_of_ne_zero pos)) bound
  have parts : (10 : Nat) ^ k = 10 ^ (k - n) * 10 ^ n := by
    rw [← Nat.pow_add, Nat.sub_add_cancel (by omega)]
  have factors : (10 : Nat) ^ k = 5 ^ k * 2 ^ k := Nat.mul_pow 5 2 k
  have most : (2 : Nat) ^ k ≤ 10 ^ n := by
    have sixfold {c d : Nat} (part : 2 ^ c ≤ 10 ^ d) (le : k ≤ c * 6) (hn : n = d * 6) :
        2 ^ k ≤ 10 ^ n :=
      calc
        2 ^ k ≤ 2 ^ (c * 6) := Nat.pow_le_pow_right (by decide) le
        _ = (2 ^ c) ^ 6 := Nat.pow_mul 2 c 6
        _ ≤ (10 ^ d) ^ 6 := Nat.pow_le_pow_left part 6
        _ = 10 ^ n := by rw [hn, Nat.pow_mul]
    exact sixfold (c := 179) (by decide) le hn
  have less : 5 ^ k * 2 ^ k < 10 ^ (k - n) * 10 ^ n :=
    Nat.mul_lt_mul_of_lt_of_le power most (Nat.pow_pos (by decide))
  rw [← factors, ← parts] at less
  exact Nat.lt_irrefl _ less

theorem exact_digits {significand : Nat} (pos : significand ≠ 0) (offset : Nat) :
    (exact significand offset).digits ≠ 0 := by
  unfold exact
  split
  · exact Nat.mul_ne_zero pos (Nat.ne_of_gt (Nat.pow_pos (by decide)))
  · exact Nat.mul_ne_zero pos (Nat.ne_of_gt (Nat.pow_pos (by decide)))

theorem ofDecimal_exact {significand offset : Nat} (normal : Normal significand offset)
    (pos : significand ≠ 0) :
    ofDecimal false (exact significand offset).digits (exact significand offset).exponent =
      finite false significand offset normal := by
  have nonzero := exact_digits pos offset
  unfold ofDecimal
  simp only [nonzero, decide_false, Bool.false_or]
  unfold exact
  split
  · next whole =>
    have large : ¬ ((decimalLength (significand * Nat.pow 2 (offset - leastExponent)) : Int) + 0 ≤
        -324) := by omega
    simp only [large, decide_false]
    rw [if_neg Bool.false_ne_true, if_neg (by decide), if_pos (by decide)]
    refine ofRatio_exact normal pos (by decide) ?_ false
    simp only [Nat.pow_eq, Int.toNat_zero, Nat.pow_zero, Nat.mul_one]
    rw [Nat.mul_assoc, ← Nat.pow_add, Nat.sub_add_cancel whole]
  · next fraction =>
    obtain ⟨k, hk⟩ : ∃ k, leastExponent - offset = k := ⟨_, rfl⟩
    have le : k ≤ 1074 := by
      have most : leastExponent - offset ≤ 1074 := Nat.sub_le _ _
      omega
    have sum : k + offset = leastExponent := by omega
    have exponent : (offset : Int) - leastExponent = -(k : Int) := by omega
    have positive : 0 < k := by omega
    simp only [hk, exponent]
    rw [if_neg (by simpa only [decide_eq_true_eq] using decimalLength_exact pos le),
      if_neg (by omega), if_neg (by omega)]
    refine ofRatio_exact normal pos (Nat.pow_pos (by decide)) ?_ false
    rw [show (- -(k : Int)).toNat = k by omega]
    simp only [Nat.pow_eq]
    have factors : (10 : Nat) ^ k = 5 ^ k * 2 ^ k := Nat.mul_pow 5 2 k
    rw [← sum, Nat.pow_add, Nat.mul_comm (2 ^ k), Nat.mul_mul_mul_comm, factors]

/-! ## The shortest decimal -/

/-- Zeros that are left out at the end of the digits are made up for in the exponent. -/
theorem ofDecimal_trim (negative : Bool) (fuel : Nat) (d : Decimal) (pos : d.digits ≠ 0) :
    ofDecimal negative (trim fuel d).digits (trim fuel d).exponent =
      ofDecimal negative d.digits d.exponent ∧ (trim fuel d).digits ≠ 0 := by
  induction fuel generalizing d with
  | zero => exact ⟨rfl, pos⟩
  | succ fuel ih =>
    unfold trim
    split
    · next ends =>
      have tens : 10 * (d.digits / 10) = d.digits := by omega
      obtain ⟨same, left⟩ := ih ⟨d.digits / 10, d.exponent + 1⟩ (by dsimp only; omega)
      refine ⟨same.trans ?_, left⟩
      rw [← ofDecimal_ten_mul, tens]
    · exact ⟨rfl, pos⟩

/-- The shortest decimal of a number reads back as the number. -/
theorem ofDecimal_shortest {significand offset : Nat} (normal : Normal significand offset)
    (pos : significand ≠ 0) (negative : Bool) :
    ofDecimal negative (shortest significand offset).digits
        (shortest significand offset).exponent = finite negative significand offset normal ∧
      (shortest significand offset).digits ≠ 0 := by
  have value : ofParts false significand offset = finite false significand offset normal :=
    dif_pos normal
  have chosen (found : Option Decimal)
      (h : ∀ d, found = some d → ofDecimal false d.digits d.exponent =
        finite false significand offset normal) :
      ofDecimal false (found.getD (exact significand offset)).digits
        (found.getD (exact significand offset)).exponent =
          finite false significand offset normal := by
    cases found with
    | none => exact ofDecimal_exact normal pos
    | some d => exact h d rfl
  have digits (d : Decimal)
      (h : ofDecimal false d.digits d.exponent = finite false significand offset normal) :
      d.digits ≠ 0 := by
    intro zero
    have vanishes : ofDecimal false d.digits d.exponent = finite false 0 0 (by decide) := by
      simp [ofDecimal, zero, ofParts, show Normal 0 0 by decide]
    cases vanishes.symm.trans h
    exact pos rfl
  unfold shortest
  dsimp only
  generalize hf : List.find? _ _ = found
  have back := chosen found fun d hd => by
    rw [hd] at hf
    rw [← value]
    have tested := List.find?_some hf
    exact beq_iff_eq.1 tested
  obtain ⟨same, left⟩ := ofDecimal_trim negative
    (decimalLength (found.getD (exact significand offset)).digits) _ (digits _ back)
  exact ⟨same.trans (ofDecimal_sign back negative), left⟩

end Decimal

end SafeMarkup
