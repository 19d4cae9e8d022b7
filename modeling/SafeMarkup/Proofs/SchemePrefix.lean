/-
# A text before a URL

Whether a URL has a scheme is decided by its first delimiter: it has one if that is a colon, and
then the scheme is what stands before it, less the characters that are passed over
(`scheme?_of_split`).  What happens to the scheme when a text is put before the URL follows.

* A text that is passed over as a whole leaves the scheme as it is.
* A text that holds a delimiter decides by itself; the URL no longer counts.
* Any other text runs into what stands before the first delimiter of the URL.  If there is a scheme
  it becomes part of it.

`IsHarmless` says when an accepted URL stays accepted under each of these, and it is exact: if it
fails there is an accepted URL that is no longer accepted with the text before it
(`exists_refused_append`).  In the last case one is found by putting so many spaces before an
accepted URL that the scheme becomes longer than all that are accepted; lower-casing makes no text
shorter.

The statement is needed because a policy can put a prefix on a property that it also checks for its
scheme, and then the check was made on the text without the prefix.  It is purely about texts:
which texts may stand before any accepted URL.  The exactness matters, since a condition that is
only sufficient would not tell whether a policy with another prefix is to blame or the proof.
-/
import Mathlib.Data.List.TakeWhile
import SafeMarkup.Url.Scheme

namespace SafeMarkup

namespace Text

theorem lowerChar_ne_nil (c : Char) : lowerChar c ≠ [] := by
  unfold lowerChar
  dsimp only
  split
  · exact List.cons_ne_nil _ _
  · split
    · exact List.cons_ne_nil _ _
    · split <;> exact List.cons_ne_nil _ _

theorem length_le_length_lowerFrom (before : Bool) (cs : List Char) :
    cs.length ≤ (lowerFrom before cs).length := by
  induction cs generalizing before with
  | nil => exact Nat.zero_le _
  | cons c rest ih =>
    have tail := ih (wordBefore before c)
    have head : 1 ≤
        (if c = 'Σ' then [lowerSigma before (wordAfter rest)] else lowerChar c).length := by
      split
      · exact Nat.le_refl 1
      · exact List.length_pos_iff.2 (lowerChar_ne_nil c)
    rw [lowerFrom, List.length_append, List.length_cons]
    omega

theorem length_le_length_lowercase (s : String) : s.length ≤ (lowercase s).length := by
  rw [lowercase, String.length_ofList, ← String.length_toList]
  exact length_le_length_lowerFrom false s.toList

end Text

namespace Url

/-! ## The first delimiter -/

theorem not_isDelimiter_of_isIgnorable {c : Char} (h : isIgnorable c = true) :
    isDelimiter c = false := by
  simp only [isIgnorable, Bool.or_eq_true, beq_iff_eq] at h
  rcases h with (((((rfl | rfl) | rfl) | rfl) | rfl) | rfl) | rfl <;> decide

theorem plain_or_split (cs : List Char) :
    (∀ c ∈ cs, isDelimiter c = false) ∨ ∃ word d rest, cs = word ++ d :: rest ∧
      (∀ c ∈ word, isDelimiter c = false) ∧ isDelimiter d = true := by
  induction cs with
  | nil => exact .inl fun _ h => absurd h List.not_mem_nil
  | cons c cs ih =>
    by_cases hc : isDelimiter c = true
    · exact .inr ⟨[], c, cs, rfl, fun _ h => absurd h List.not_mem_nil, hc⟩
    · have plain : isDelimiter c = false := Bool.eq_false_iff.2 hc
      rcases ih with none | ⟨word, d, rest, rfl, before, hd⟩
      · exact .inl (List.forall_mem_cons.2 ⟨plain, none⟩)
      · exact .inr ⟨c :: word, d, rest, rfl, List.forall_mem_cons.2 ⟨plain, before⟩, hd⟩

theorem split_unique {word word' rest rest' : List Char} {d d' : Char}
    (before : ∀ c ∈ word, isDelimiter c = false) (hd : isDelimiter d = true)
    (before' : ∀ c ∈ word', isDelimiter c = false) (hd' : isDelimiter d' = true)
    (same : word ++ d :: rest = word' ++ d' :: rest') : word = word' ∧ d = d' := by
  induction word generalizing word' with
  | nil =>
    cases word' with
    | nil => exact ⟨rfl, (List.cons.inj same).1⟩
    | cons c word' =>
      rw [(List.cons.inj same).1] at hd
      exact absurd hd (Bool.eq_false_iff.1 (before' c (.head _)))
  | cons c word ih =>
    cases word' with
    | nil =>
      rw [← (List.cons.inj same).1] at hd'
      exact absurd hd' (Bool.eq_false_iff.1 (before c (.head _)))
    | cons c' word' =>
      obtain ⟨rfl, tails⟩ := List.cons.inj same
      obtain ⟨rfl, rfl⟩ := ih (fun e he => before e (.tail _ he))
        (fun e he => before' e (.tail _ he)) tails
      exact ⟨rfl, rfl⟩

theorem scheme?_of_plain {url : String} (plain : ∀ c ∈ url.toList, isDelimiter c = false) :
    scheme? url = none := by
  have none : (url.toList.dropWhile isIgnorable).dropWhile (fun c => !isDelimiter c) = [] := by
    have all : ∀ c ∈ url.toList.dropWhile isIgnorable, (!isDelimiter c) = true := by
      intro c hc
      rw [plain c (List.dropWhile_subset _ hc)]
      rfl
    exact List.dropWhile_eq_nil_iff.2 all
  simp only [scheme?, none]

theorem dropWhile_append_stop {p : Char → Bool} {d : Char} (stops : p d = false)
    (word rest : List Char) :
    (word ++ d :: rest).dropWhile p = word.dropWhile p ++ d :: rest := by
  have kept : ¬ p d = true := Bool.eq_false_iff.1 stops
  rw [List.dropWhile_append, List.dropWhile_cons_of_neg kept]
  split
  · next empty => rw [List.isEmpty_iff.1 empty, List.nil_append]
  · rfl

/-- The first delimiter decides whether there is a scheme, and what it is. -/
theorem scheme?_of_split {url : String} {word rest : List Char} {d : Char}
    (split : url.toList = word ++ d :: rest) (before : ∀ c ∈ word, isDelimiter c = false)
    (hd : isDelimiter d = true) :
    scheme? url =
      if d = ':' then some (String.ofList (word.dropWhile isIgnorable)) else none := by
  have kept : isIgnorable d = false := Bool.eq_false_iff.2 fun h =>
    absurd hd (Bool.eq_false_iff.1 (not_isDelimiter_of_isIgnorable h))
  have stripped : url.toList.dropWhile isIgnorable = word.dropWhile isIgnorable ++ d :: rest := by
    rw [split, dropWhile_append_stop kept]
  have all : ∀ c ∈ word.dropWhile isIgnorable, (!isDelimiter c) = true := by
    intro c hc
    rw [before c (List.dropWhile_subset _ hc)]
    rfl
  have dropped : (word.dropWhile isIgnorable ++ d :: rest).dropWhile (fun c => !isDelimiter c) =
      d :: rest := by
    rw [List.dropWhile_append_of_pos all]
    simp [hd]
  have taken : (word.dropWhile isIgnorable ++ d :: rest).takeWhile (fun c => !isDelimiter c) =
      word.dropWhile isIgnorable := by
    rw [List.takeWhile_append_of_pos all]
    simp [hd]
  simp only [scheme?, stripped, dropped, taken]
  by_cases colon : d = ':'
  · subst colon
    rfl
  · rw [if_neg colon]
    split
    · next same => exact absurd (List.cons.inj same).1 colon
    · rfl

theorem hasAllowedScheme_iff {url : String} {allowed : List String} :
    hasAllowedScheme url allowed = true ↔
      ∀ scheme, scheme? url = some scheme → Text.lowercase scheme ∈ allowed := by
  unfold hasAllowedScheme
  cases scheme? url with
  | none => simp
  | some scheme => simp

/-! ## A text put before -/

/-- The text is passed over as a whole. -/
def IsBlank (start : String) : Prop :=
  ∀ c ∈ start.toList, isIgnorable c = true

/-- The text holds a delimiter. -/
def HasDelimiter (start : String) : Prop :=
  ∃ c ∈ start.toList, isDelimiter c = true

/-- An accepted URL stays accepted with the text before it: the text is passed over, or it decides
by itself and is accepted, or no URL with a scheme is accepted and it makes none. -/
def IsHarmless (start : String) (allowed : List String) : Prop :=
  IsBlank start ∨ (HasDelimiter start ∧ hasAllowedScheme start allowed = true) ∨
    (¬ HasDelimiter start ∧ ∀ url, hasAllowedScheme url allowed = true → scheme? url = none)

variable {start text : String} {allowed : List String}

theorem scheme?_append_of_isBlank (blank : IsBlank start) :
    scheme? (start ++ text) = scheme? text := by
  unfold scheme?
  rw [String.toList_append, List.dropWhile_append_of_pos blank]

theorem scheme?_append_of_hasDelimiter (h : HasDelimiter start) :
    scheme? (start ++ text) = scheme? start := by
  rcases plain_or_split start.toList with none | ⟨word, d, rest, split, before, hd⟩
  · obtain ⟨c, hc, delimits⟩ := h
    exact absurd delimits (Bool.eq_false_iff.1 (none c hc))
  · have longer : (start ++ text).toList = word ++ d :: (rest ++ text.toList) := by
      rw [String.toList_append, split, List.append_assoc, List.cons_append]
    rw [scheme?_of_split longer before hd, scheme?_of_split split before hd]

theorem scheme?_append_of_split (plain : ¬ HasDelimiter start) {word rest : List Char} {d : Char}
    (split : text.toList = word ++ d :: rest) (before : ∀ c ∈ word, isDelimiter c = false)
    (hd : isDelimiter d = true) :
    scheme? (start ++ text) = if d = ':' then
      some (String.ofList ((start.toList ++ word).dropWhile isIgnorable)) else none := by
  have longer : (start ++ text).toList = (start.toList ++ word) ++ d :: rest := by
    rw [String.toList_append, split, List.append_assoc]
  refine scheme?_of_split longer (fun c hc => ?_) hd
  rcases List.mem_append.1 hc with hc | hc
  · exact Bool.eq_false_iff.2 fun delimits => plain ⟨c, hc, delimits⟩
  · exact before c hc

theorem scheme?_append_eq_none (plain : ¬ HasDelimiter start) (none : scheme? text = none) :
    scheme? (start ++ text) = .none := by
  rcases plain_or_split text.toList with all | ⟨word, d, rest, split, before, hd⟩
  · refine scheme?_of_plain fun c hc => ?_
    rw [String.toList_append] at hc
    rcases List.mem_append.1 hc with hc | hc
    · exact Bool.eq_false_iff.2 fun delimits => plain ⟨c, hc, delimits⟩
    · exact all c hc
  · rw [scheme?_of_split split before hd] at none
    rw [scheme?_append_of_split plain split before hd]
    by_cases colon : d = ':'
    · rw [if_pos colon] at none
      cases none
    · exact if_neg colon

/-- A harmless text leaves an accepted URL accepted. -/
theorem hasAllowedScheme_append (harmless : IsHarmless start allowed)
    (accepted : hasAllowedScheme text allowed = true) :
    hasAllowedScheme (start ++ text) allowed = true := by
  rcases harmless with blank | ⟨delimits, self⟩ | ⟨plain, relative⟩
  · rw [hasAllowedScheme, scheme?_append_of_isBlank blank]
    exact accepted
  · rw [hasAllowedScheme, scheme?_append_of_hasDelimiter delimits]
    exact self
  · rw [hasAllowedScheme, scheme?_append_eq_none plain (relative text accepted)]

/-! ## Harm -/

theorem exists_longer (names : List String) : ∃ n, ∀ name ∈ names, name.length < n := by
  induction names with
  | nil => exact ⟨0, fun _ h => absurd h List.not_mem_nil⟩
  | cons first rest ih =>
    obtain ⟨n, longer⟩ := ih
    refine ⟨n + first.length + 1, List.forall_mem_cons.2 ⟨by omega, fun name hname => ?_⟩⟩
    have := longer name hname
    omega

theorem length_lt_length_dropWhile (notBlank : ¬ IsBlank start) (cs : List Char) :
    cs.length < ((start.toList ++ cs).dropWhile isIgnorable).length := by
  have left : start.toList.dropWhile isIgnorable ≠ [] :=
    fun empty => notBlank (List.dropWhile_eq_nil_iff.1 empty)
  have pos := List.length_pos_iff.2 left
  rw [List.dropWhile_append, if_neg (by simpa using left), List.length_append]
  omega

theorem isBlank_replicate (n : Nat) : IsBlank (String.ofList (List.replicate n ' ')) := by
  intro c hc
  rw [String.toList_ofList] at hc
  rw [List.eq_of_mem_replicate hc]
  rfl

/-- A text without delimiter that is not passed over makes a scheme too long to be accepted, if
there are enough spaces between it and the URL. -/
theorem refused_append_padded (notBlank : ¬ IsBlank start) (plain : ¬ HasDelimiter start)
    {n : Nat} (longer : ∀ name ∈ allowed, name.length < n) {url : String}
    (hasScheme : scheme? url ≠ none) :
    hasAllowedScheme (start ++ (String.ofList (List.replicate n ' ') ++ url)) allowed = false := by
  rcases plain_or_split url.toList with none | ⟨word, d, rest, split, before, hd⟩
  · exact absurd (scheme?_of_plain none) hasScheme
  · have colon : d = ':' := by
      refine Decidable.byContradiction fun other => hasScheme ?_
      rw [scheme?_of_split split before hd, if_neg other]
    have padded : (String.ofList (List.replicate n ' ') ++ url).toList =
        (List.replicate n ' ' ++ word) ++ d :: rest := by
      rw [String.toList_append, String.toList_ofList, split, List.append_assoc]
    have spaced : ∀ c ∈ List.replicate n ' ' ++ word, isDelimiter c = false := by
      intro c hc
      rcases List.mem_append.1 hc with hc | hc
      · exact List.eq_of_mem_replicate hc ▸ rfl
      · exact before c hc
    have scheme := scheme?_append_of_split plain padded spaced hd
    rw [if_pos colon] at scheme
    refine Bool.eq_false_iff.2 fun accepted => ?_
    have short := longer _ (hasAllowedScheme_iff.1 accepted _ scheme)
    have long := length_lt_length_dropWhile notBlank (List.replicate n ' ' ++ word)
    have grown := Text.length_le_length_lowercase
      (String.ofList ((start.toList ++ (List.replicate n ' ' ++ word)).dropWhile isIgnorable))
    rw [String.length_ofList] at grown
    rw [List.length_append, List.length_replicate] at long
    omega

/-- A text that is not harmless spoils some accepted URL that does not begin with it. -/
theorem exists_refused_append (harmful : ¬ IsHarmless start allowed) :
    ∃ text, hasAllowedScheme text allowed = true ∧
      start.toList.isPrefixOf text.toList = false ∧
      hasAllowedScheme (start ++ text) allowed = false := by
  have notBlank : ¬ IsBlank start := fun blank => harmful (.inl blank)
  by_cases delimits : HasDelimiter start
  · -- The text decides by itself, and the empty URL is as good as any.
    have refused : hasAllowedScheme start allowed = false :=
      Bool.eq_false_iff.2 fun self => harmful (.inr (.inl ⟨delimits, self⟩))
    refine ⟨"", rfl, ?_, by rwa [String.append_empty]⟩
    obtain ⟨c, hc, -⟩ := delimits
    cases e : start.toList with
    | nil => exact absurd (e ▸ hc) List.not_mem_nil
    | cons _ _ => rfl
  · have hasScheme : ∃ url, hasAllowedScheme url allowed = true ∧ scheme? url ≠ none := by
      refine Classical.byContradiction fun none => harmful (.inr (.inr ⟨delimits, ?_⟩))
      exact fun url h => Classical.byContradiction fun found => none ⟨url, h, found⟩
    obtain ⟨url, accepted, hasScheme⟩ := hasScheme
    obtain ⟨n, longer⟩ := exists_longer (start :: allowed)
    have pad := isBlank_replicate n
    refine ⟨String.ofList (List.replicate n ' ') ++ url, ?_, Bool.eq_false_iff.2 fun begins => ?_,
      refused_append_padded notBlank delimits (List.forall_mem_cons.1 longer).2 hasScheme⟩
    · rw [hasAllowedScheme, scheme?_append_of_isBlank pad]
      exact accepted
    · -- The text would be made of spaces.
      refine notBlank fun c hc => pad c ?_
      rw [List.isPrefixOf_iff_prefix, String.toList_append] at begins
      have fits : start.toList.length ≤ (String.ofList (List.replicate n ' ')).toList.length := by
        rw [String.toList_ofList, List.length_replicate, String.length_toList]
        exact Nat.le_of_lt (longer start (.head _))
      exact (List.prefix_of_prefix_length_le begins (List.prefix_append ..) fits).subset hc

end Url

end SafeMarkup
