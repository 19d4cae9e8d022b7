/-
# The grammar of schemes

`scheme?` strips a text at its beginning and looks for the first of four delimiters.  What it finds
can be said without any search: a text has a scheme if it can be read as characters that are passed
over, the scheme, a colon and a rest, where the scheme begins with nothing that is passed over and
holds no delimiter (`SchemeReading`).

Such a reading is found at the first delimiter.  Nothing that is passed over is a delimiter, so
neither of the two parts before the colon holds one, and the colon is the first; and the two parts
come apart in one way only, since what is passed over ends where the scheme begins.  So a text has
at most one reading, and `scheme?` finds the scheme of it (`scheme_follows_grammar`).  The scheme
may be empty, and what is passed over at the beginning may stand inside it.

The grammar shares no function with the definition that it is compared with.  It names the
characters that are passed over and the delimiters by lists, and the parts of a text by their
concatenation, so what it says can be checked against a description of URLs line by line.  A
reading is a structure with the proofs in it; that there is at most one is an equation between
structures, and covers the place of the scheme and not only its letters.
-/
import SafeMarkup.Proofs.SchemePrefix

namespace SafeMarkup.Url

/-! ## Readings -/

/-- A space, the controls that are white space, and the separators of lines and paragraphs. -/
def passedOver : List Char :=
  [' ', '\t', '\n', '\x0c', '\r', '\u2028', '\u2029']

def delimiters : List Char :=
  [':', '/', '?', '#']

/-- A text read as an address with a scheme. -/
@[ext]
structure SchemeReading (url : String) where
  blank : String
  scheme : String
  rest : String
  text : url = blank ++ scheme ++ ":" ++ rest
  blank_only : ∀ c ∈ blank.toList, c ∈ passedOver
  begins : ∀ c, scheme.toList.head? = some c → c ∉ passedOver
  plain : ∀ c ∈ scheme.toList, c ∉ delimiters

theorem isIgnorable_iff {c : Char} : isIgnorable c = true ↔ c ∈ passedOver := by
  simp only [isIgnorable, passedOver, Bool.or_eq_true, beq_iff_eq, List.mem_cons, List.not_mem_nil,
    or_false, or_assoc]

theorem isDelimiter_iff {c : Char} : isDelimiter c = true ↔ c ∈ delimiters := by
  simp only [isDelimiter, delimiters, Bool.or_eq_true, beq_iff_eq, List.mem_cons, List.not_mem_nil,
    or_false, or_assoc]

namespace SchemeReading

variable {url : String}

/-- What stands before the colon. -/
def word (reading : SchemeReading url) : List Char :=
  reading.blank.toList ++ reading.scheme.toList

/-! ## From a reading to the first delimiter -/

theorem toList_eq (reading : SchemeReading url) :
    url.toList = reading.word ++ ':' :: reading.rest.toList := by
  have text := congrArg String.toList reading.text
  rw [String.toList_append, String.toList_append, String.toList_append, List.append_assoc] at text
  exact text

/-- The colon of a reading is the first delimiter. -/
theorem plain_word (reading : SchemeReading url) : ∀ c ∈ reading.word, isDelimiter c = false := by
  intro c hc
  rcases List.mem_append.1 hc with blank | scheme
  · exact not_isDelimiter_of_isIgnorable (isIgnorable_iff.2 (reading.blank_only c blank))
  · exact Bool.eq_false_iff.2 fun delimits => reading.plain c scheme (isDelimiter_iff.1 delimits)

theorem dropWhile_word (reading : SchemeReading url) :
    reading.word.dropWhile isIgnorable = reading.scheme.toList := by
  have blank : ∀ c ∈ reading.blank.toList, isIgnorable c = true :=
    fun c hc => isIgnorable_iff.2 (reading.blank_only c hc)
  rw [word, List.dropWhile_append_of_pos blank]
  have begins := reading.begins
  cases e : reading.scheme.toList with
  | nil => rfl
  | cons c rest =>
    rw [e] at begins
    exact List.dropWhile_cons_of_neg fun passed => begins c rfl (isIgnorable_iff.1 passed)

theorem scheme?_eq (reading : SchemeReading url) : scheme? url = some reading.scheme := by
  rw [scheme?_of_split reading.toList_eq reading.plain_word rfl, if_pos rfl, reading.dropWhile_word,
    String.ofList_toList]

/-- A text has at most one reading. -/
theorem unique (first second : SchemeReading url) : first = second := by
  have texts := first.toList_eq.symm.trans second.toList_eq
  obtain ⟨words, -⟩ := split_unique first.plain_word rfl second.plain_word rfl texts
  have scheme : first.scheme = second.scheme := by
    rw [← String.toList_inj, ← first.dropWhile_word, ← second.dropWhile_word, words]
  have blank : first.blank = second.blank := by
    unfold word at words
    rw [scheme] at words
    exact String.toList_inj.1 (List.append_cancel_right words)
  have rest : first.rest = second.rest := by
    rw [words] at texts
    exact String.toList_inj.1 (List.cons.inj (List.append_cancel_left texts)).2
  exact SchemeReading.ext blank scheme rest

/-! ## From the first delimiter to a reading -/

/-- The reading of a text whose first delimiter is a colon. -/
def ofSplit {word rest : List Char} (split : url.toList = word ++ ':' :: rest)
    (before : ∀ c ∈ word, isDelimiter c = false) : SchemeReading url where
  blank := .ofList (word.takeWhile isIgnorable)
  scheme := .ofList (word.dropWhile isIgnorable)
  rest := .ofList rest
  text := by
    rw [← String.toList_inj, split]
    simp
  blank_only := by
    intro c hc
    rw [String.toList_ofList] at hc
    exact isIgnorable_iff.1 (List.mem_takeWhile_imp hc)
  begins := by
    intro c hc passed
    rw [String.toList_ofList] at hc
    have stops := List.head?_dropWhile_not isIgnorable word
    rw [hc] at stops
    exact absurd (isIgnorable_iff.2 passed) (Bool.eq_false_iff.1 stops)
  plain := by
    intro c hc delimits
    rw [String.toList_ofList] at hc
    have free := before c (List.dropWhile_subset _ hc)
    rw [isDelimiter_iff.2 delimits] at free
    cases free

theorem exists_of_scheme? {scheme : String} (found : scheme? url = some scheme) :
    ∃ reading : SchemeReading url, reading.scheme = scheme := by
  rcases plain_or_split url.toList with none | ⟨word, d, rest, split, before, hd⟩
  · rw [scheme?_of_plain none] at found
    cases found
  · rw [scheme?_of_split split before hd] at found
    by_cases colon : d = ':'
    · subst colon
      rw [if_pos rfl] at found
      exact ⟨ofSplit split before, Option.some.inj found⟩
    · rw [if_neg colon] at found
      cases found

end SchemeReading

/-- The scheme of a text is the one that its reading has, there is at most one reading, and a text
without a reading has no scheme. -/
theorem scheme_follows_grammar (url : String) :
    (∀ scheme, scheme? url = some scheme ↔
      ∃ reading : SchemeReading url, reading.scheme = scheme) ∧
    (∀ first second : SchemeReading url, first = second) ∧
    (scheme? url = none ↔ IsEmpty (SchemeReading url)) := by
  have found (scheme : String) : scheme? url = some scheme ↔
      ∃ reading : SchemeReading url, reading.scheme = scheme := by
    refine ⟨SchemeReading.exists_of_scheme?, ?_⟩
    rintro ⟨reading, rfl⟩
    exact reading.scheme?_eq
  refine ⟨found, SchemeReading.unique, ?_⟩
  constructor
  · intro none
    exact ⟨fun reading => nomatch none.symm.trans reading.scheme?_eq⟩
  · intro empty
    refine Option.eq_none_iff_forall_ne_some.2 fun scheme some => ?_
    obtain ⟨reading, -⟩ := (found scheme).1 some
    exact empty.false reading

/-- An empty scheme, one with a space and a separator of lines inside, and none. -/
example : scheme? "\t\u2028:/a" = some "" ∧
    scheme? "\nJava \u2028Script:?" = some "Java \u2028Script" ∧
    scheme? "a?b:c" = none := by
  decide

end SafeMarkup.Url
