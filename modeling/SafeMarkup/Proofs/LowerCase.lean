/-
# Lower case is settled

A text in lower case is its own lower-case form (`lowercase_lowercase`), so it does not matter how
often URL schemes are lower-cased on their way into a policy.  The form of a sigma depends on what
stands around it, but there is no capital sigma left to look around for: every character that
`lowerFrom` puts out is its own lower-case form, and none is a capital sigma.

For the characters of the table this is a fact about pairs of runs: the partners that one run names
lie outside every run.  `CaseRun.misses` says so by comparing the ends of the two, or, where runs
interleave, by parity; it is evaluated once for the whole table.

The proof is by evaluation where it is about the table and by induction where it is about texts.
What the table has to satisfy is stated run against run and not character against character, which
keeps the evaluation small.  The capital I with a dot above is in no run, because its form is two
characters; it is treated by name (`dottedI`).
-/
import SafeMarkup.Text.Lowercase

namespace SafeMarkup.Text

/-! ## ASCII -/

theorem forall_ascii {P : Char → Prop} (table : ∀ code : Fin 0x80, P (Char.ofNat code.val))
    (c : Char) (small : c.toNat < 0x80) : P c := by
  have entry := table ⟨c.toNat, small⟩
  rwa [Char.ofNat_toNat] at entry

theorem lowerChar_of_ascii {c : Char} (h : c.toNat < 0x80) : lowerChar c = [c.toLower] :=
  forall_ascii (P := fun c => lowerChar c = [c.toLower]) (by decide) c h

theorem lowerFrom_of_ascii {cs : List Char} (h : ∀ c ∈ cs, c.toNat < 0x80) (before : Bool) :
    lowerFrom before cs = cs.map Char.toLower := by
  induction cs generalizing before with
  | nil => rfl
  | cons c rest ih =>
    have first : c.toNat < 0x80 := h c (.head _)
    have noSigma : c ≠ 'Σ' := by
      rintro rfl
      exact absurd first (by decide)
    rw [lowerFrom, if_neg noSigma, lowerChar_of_ascii first, ih fun d hd => h d (.tail _ hd)]
    rfl

/-! ## The table -/

/-- The partners that a run names lie outside the other run: before it, after it, or between its
characters. -/
def CaseRun.misses (run other : CaseRun) : Bool :=
  Nat.blt (run.target + (run.last - run.first)) other.first || Nat.blt other.last run.target ||
    (other.stride == 2 && (run.first == run.last || run.stride == 2) &&
      (run.target + other.first) % 2 == 1)

/-- The dotted capital I as a run; it is the one character whose lower-case form the table does not
give. -/
def dottedI : CaseRun := ⟨0x130, 0x130, 1, 0x69⟩

theorem lowerRuns_miss : ∀ run ∈ lowerRuns, ∀ other ∈ dottedI :: lowerRuns,
    run.misses other = true := by
  have table : (lowerRuns.all fun run => (dottedI :: lowerRuns).all fun other =>
      run.misses other) = true := by
    decide +kernel
  intro run hrun other ho
  exact List.all_eq_true.1 (List.all_eq_true.1 table run hrun) other ho

theorem lowerRuns_targets : ∀ run ∈ lowerRuns, 0x5A < run.target ∧
    (run.target + (run.last - run.first) < 0xD800 ∨
      0xDFFF < run.target ∧ run.target + (run.last - run.first) < 0x110000) := by
  decide +kernel

theorem CaseRun.bounds {run : CaseRun} {code : Nat} (h : run.holds code = true) :
    run.first ≤ code ∧ code ≤ run.last ∧ (code - run.first) % run.stride = 0 := by
  simpa [CaseRun.holds, and_assoc] using h

theorem CaseRun.not_holds_of_misses {run other : CaseRun} (h : run.misses other = true) {code : Nat}
    (held : run.holds code = true) :
    other.holds (run.target + (code - run.first)) = false := by
  rw [Bool.eq_false_iff]
  intro again
  obtain ⟨low, high, step⟩ := CaseRun.bounds held
  obtain ⟨low', high', step'⟩ := CaseRun.bounds again
  simp only [CaseRun.misses, Bool.or_eq_true, Bool.and_eq_true, Nat.blt_eq, beq_iff_eq] at h
  rcases h with (before | after) | ⟨⟨alternate, sparse⟩, odd⟩
  · omega
  · omega
  · rw [alternate] at step'
    rcases sparse with single | alternate'
    · omega
    · rw [alternate'] at step
      omega

/-! ## Characters in lower case -/

/-- The character is its own lower-case form, wherever it stands. -/
def IsLower (c : Char) : Prop :=
  lowerChar c = [c] ∧ c ≠ 'Σ'

instance (c : Char) : Decidable (IsLower c) :=
  inferInstanceAs (Decidable (_ ∧ _))

theorem isLower_of_ascii {c : Char} (small : c.toNat < 0x80) (notCapital : 0x5A < c.toNat) :
    IsLower c :=
  forall_ascii (P := fun c => 0x5A < c.toNat → IsLower c) (by decide) c small notCapital

theorem isLower_of_not_holds {c : Char} (large : 0x80 ≤ c.toNat)
    (apart : ∀ run ∈ dottedI :: lowerRuns, run.holds c.toNat = false) : IsLower c := by
  have noDot : ¬(c.toNat == 0x130) = true := by
    intro dotted
    have missed := apart dottedI (.head _)
    rw [beq_iff_eq.1 dotted] at missed
    exact absurd missed (by decide)
  have noRun : lowerRuns.find? (·.holds c.toNat) = none :=
    List.find?_eq_none.2 fun run hrun => Bool.eq_false_iff.1 (apart run (.tail _ hrun))
  constructor
  · simp only [lowerChar, if_neg (Nat.not_lt.2 large), if_neg noDot, noRun]
  · rintro rfl
    exact absurd noRun (by decide +kernel)

theorem toNat_ofNat {n : Nat} (h : n.isValidChar) : (Char.ofNat n).toNat = n := by
  rw [Char.ofNat, dif_pos h]
  rfl

/-- The partner of a character of the table is in lower case. -/
theorem isLower_target {run : CaseRun} (hrun : run ∈ lowerRuns) {code : Nat}
    (held : run.holds code = true) : IsLower (Char.ofNat (run.target + (code - run.first))) := by
  obtain ⟨notCapital, range⟩ := lowerRuns_targets run hrun
  obtain ⟨low, high, -⟩ := CaseRun.bounds held
  have valid : (run.target + (code - run.first)).isValidChar := by
    unfold Nat.isValidChar
    omega
  have same := toNat_ofNat valid
  by_cases small : run.target + (code - run.first) < 0x80
  · exact isLower_of_ascii (by omega) (by omega)
  · refine isLower_of_not_holds (by omega) fun other ho => ?_
    rw [same]
    exact CaseRun.not_holds_of_misses (lowerRuns_miss run hrun other ho) held

theorem isLower_of_mem_lowerChar {c d : Char} (noSigma : c ≠ 'Σ') (h : d ∈ lowerChar c) :
    IsLower d := by
  by_cases small : c.toNat < 0x80
  · rw [lowerChar_of_ascii small] at h
    obtain rfl := List.mem_singleton.1 h
    exact forall_ascii (P := fun c => IsLower c.toLower) (by decide) c small
  · simp only [lowerChar, if_neg small] at h
    split at h
    · rcases List.mem_cons.1 h with rfl | h
      · exact isLower_of_ascii (by decide) (by decide)
      · obtain rfl := List.mem_singleton.1 h
        decide +kernel
    · next noDot =>
      split at h
      · next run found =>
        obtain rfl := List.mem_singleton.1 h
        have held : run.holds c.toNat = true :=
          List.find?_some (p := fun run : CaseRun => run.holds c.toNat) found
        exact isLower_target (List.mem_of_find?_eq_some found) held
      · next noRun =>
        obtain rfl := List.mem_singleton.1 h
        refine ⟨?_, noSigma⟩
        simp only [lowerChar, if_neg small, if_neg noDot, noRun]

theorem isLower_lowerSigma (before after : Bool) : IsLower (lowerSigma before after) := by
  unfold lowerSigma
  split <;> decide +kernel

/-! ## Texts in lower case -/

theorem isLower_of_mem_lowerFrom {before : Bool} {cs : List Char} {d : Char}
    (h : d ∈ lowerFrom before cs) : IsLower d := by
  induction cs generalizing before with
  | nil => cases h
  | cons c rest ih =>
    rw [lowerFrom] at h
    rcases List.mem_append.1 h with here | later
    · split at here
      · obtain rfl := List.mem_singleton.1 here
        exact isLower_lowerSigma _ _
      · next noSigma => exact isLower_of_mem_lowerChar noSigma here
    · exact ih later

theorem lowerFrom_of_isLower {cs : List Char} (h : ∀ c ∈ cs, IsLower c) (before : Bool) :
    lowerFrom before cs = cs := by
  induction cs generalizing before with
  | nil => rfl
  | cons c rest ih =>
    obtain ⟨same, noSigma⟩ := h c (.head _)
    rw [lowerFrom, if_neg noSigma, same, ih fun d hd => h d (.tail _ hd)]
    rfl

/-- A text in lower case is its own lower-case form. -/
theorem lowercase_lowercase (s : String) : lowercase (lowercase s) = lowercase s := by
  have settled : ∀ c ∈ lowerFrom false s.toList, IsLower c :=
    fun c hc => isLower_of_mem_lowerFrom hc
  rw [lowercase, lowercase, String.toList_ofList, lowerFrom_of_isLower settled]

end SafeMarkup.Text
