/-
# The scheme that a browser sees

A browser does not look for the scheme of an address the way `Url.scheme?` does.  It drops every
control character and space at the beginning, deletes tabs and line breaks wherever they stand, and
then wants a letter, more scheme characters and a colon (`Url.browserScheme?`).  So `java`, a tab
and `script:` is a script to a browser, while `Url.scheme?` finds a scheme with a tab in it; and a
line separator before the scheme is passed over by `Url.scheme?` only.

The two agree on where the scheme ends, for whatever a browser drops or deletes is no delimiter.
They may differ on the characters before that place.  If a browser sees a scheme, these are scheme
characters and such as it drops or deletes, all of them ASCII; and if the scheme that is found there
is accepted, all of it is made of scheme characters, provided that all accepted schemes are.  Then
nothing was deleted and the two schemes are the same (`mem_of_browserScheme?`).

This is a statement about what a reader of the sanitized tree will do with it, so the definition of
what a browser sees belongs to what is stated and not to the program.  It is written down from
scratch and shares nothing with `Url.scheme?`; neither calls the other.  The two conditions on the
policy are the usual one, that no property is both given the prefix and checked, and one on the
accepted schemes, without which the statement fails: a scheme with a tab in it that somebody accepts
is another scheme to a browser.
-/
import SafeMarkup.Policy.Standard
import SafeMarkup.Proofs.LowerCase
import SafeMarkup.Proofs.SchemeSafety

namespace SafeMarkup

namespace Url

/-! ## Browsers -/

/-- Dropped by a browser at the beginning of an address. -/
def isControl (c : Char) : Bool :=
  decide (c.toNat ≤ 0x20)

/-- Deleted by a browser wherever it stands. -/
def isTabOrBreak (c : Char) : Bool :=
  c == '\t' || c == '\n' || c == '\r'

/-- An ASCII letter or digit, a plus, a minus or a full stop. -/
def isSchemeChar (c : Char) : Bool :=
  c.isAlphanum || c == '+' || c == '-' || c == '.'

/-- An ASCII letter and scheme characters after it. -/
def isSchemeName (name : String) : Bool :=
  match name.toList with
  | [] => false
  | first :: rest => first.isAlpha && rest.all isSchemeChar

/-- What a browser reads of an address. -/
def browserText (url : String) : List Char :=
  (url.toList.dropWhile isControl).filter fun c => !isTabOrBreak c

/-- The scheme that a browser sees: what stands before a colon, if it is a scheme name, in lower
case. -/
def browserScheme? (url : String) : Option String :=
  let name := (browserText url).takeWhile isSchemeChar
  match (browserText url).dropWhile isSchemeChar with
  | ':' :: _ =>
    if isSchemeName (String.ofList name) then some (String.ofList (name.map Char.toLower))
    else none
  | _ => none

/-! ## Characters -/

theorem isControl_iff {c : Char} : isControl c = true ↔ c.toNat ≤ 0x20 :=
  decide_eq_true_iff

theorem isControl_of_isTabOrBreak {c : Char} (h : isTabOrBreak c = true) : isControl c = true := by
  simp only [isTabOrBreak, Bool.or_eq_true, beq_iff_eq] at h
  rcases h with (rfl | rfl) | rfl <;> decide

theorem isControl_of_isDelimiter {c : Char} (h : isDelimiter c = true) : isControl c = false := by
  simp only [isDelimiter, Bool.or_eq_true, beq_iff_eq] at h
  rcases h with ((rfl | rfl) | rfl) | rfl <;> decide

theorem toNat_of_isSchemeChar {c : Char} (h : isSchemeChar c = true) :
    0x20 < c.toNat ∧ c.toNat < 0x80 := by
  delta isSchemeChar Char.isAlphanum Char.isAlpha Char.isUpper Char.isLower Char.isDigit at h
  simp only [Bool.or_eq_true, Bool.and_eq_true, decide_eq_true_eq, beq_iff_eq, ge_iff_le,
    UInt32.le_iff_toNat_le, Char.toNat_val] at h
  rcases h with ((h | rfl) | rfl) | rfl
  · simp at h
    omega
  · decide
  · decide
  · decide

theorem not_isDelimiter_of_isSchemeChar {c : Char} (h : isSchemeChar c = true) :
    isDelimiter c = false := by
  refine Bool.eq_false_iff.2 fun delimits => ?_
  simp only [isDelimiter, Bool.or_eq_true, beq_iff_eq] at delimits
  rcases delimits with ((rfl | rfl) | rfl) | rfl <;> exact absurd h (by decide)

theorem not_isControl_of_toLower {c : Char} (h : isSchemeChar c.toLower = true) :
    isControl c = false := by
  refine Bool.eq_false_iff.2 fun control => ?_
  have table : ∀ code : Fin 0x21, isSchemeChar (Char.ofNat code.val).toLower = false := by decide
  have entry := table ⟨c.toNat, Nat.lt_succ_of_le (isControl_iff.1 control)⟩
  rw [Char.ofNat_toNat] at entry
  exact absurd h (Bool.eq_false_iff.1 entry)

theorem not_isSchemeChar_of_isIgnorable {c : Char} (h : isIgnorable c = true) :
    isSchemeChar c = false := by
  simp only [isIgnorable, Bool.or_eq_true, beq_iff_eq] at h
  rcases h with (((((rfl | rfl) | rfl) | rfl) | rfl) | rfl) | rfl <;> decide

/-! ## Where the scheme ends -/

theorem mem_of_mem_browserText {url : String} {c : Char} (h : c ∈ browserText url) :
    c ∈ url.toList :=
  List.dropWhile_subset _ (List.mem_filter.1 h).1

/-- A browser reads the part before the first delimiter and the delimiter itself. -/
theorem browserText_of_split {url : String} {word rest : List Char} {d : Char}
    (split : url.toList = word ++ d :: rest) (hd : isDelimiter d = true) :
    browserText url = (word.dropWhile isControl).filter (fun c => !isTabOrBreak c) ++
      d :: rest.filter fun c => !isTabOrBreak c := by
  have read : isControl d = false := isControl_of_isDelimiter hd
  have kept : (!isTabOrBreak d) = true := by
    rw [Bool.not_eq_true']
    refine Bool.eq_false_iff.2 fun deleted => ?_
    exact absurd (isControl_of_isTabOrBreak deleted) (Bool.eq_false_iff.1 read)
  rw [browserText, split, dropWhile_append_stop read, List.filter_append, List.filter_cons,
    if_pos kept]

theorem split_of_browserScheme? {url scheme : String} (h : browserScheme? url = some scheme) :
    ∃ name rest, browserText url = name ++ ':' :: rest ∧ (∀ c ∈ name, isSchemeChar c = true) ∧
      scheme = String.ofList (name.map Char.toLower) := by
  simp only [browserScheme?] at h
  split at h
  · next rest colon =>
    split at h
    · refine ⟨(browserText url).takeWhile isSchemeChar, rest, ?_, ?_, (Option.some.inj h).symm⟩
      · rw [← colon, List.takeWhile_append_dropWhile]
      · intro c hc
        exact List.mem_takeWhile_imp hc
    · cases h
  · cases h

/-- A browser that sees a scheme finds it before the first delimiter, which is a colon; it consists
of what stands there, less what a browser drops and deletes. -/
theorem word_of_browserScheme? {url scheme : String} (h : browserScheme? url = some scheme) :
    ∃ word rest, url.toList = word ++ ':' :: rest ∧ (∀ c ∈ word, isDelimiter c = false) ∧
      (∀ c ∈ (word.dropWhile isControl).filter (fun c => !isTabOrBreak c),
        isSchemeChar c = true) ∧
      scheme = String.ofList
        (((word.dropWhile isControl).filter fun c => !isTabOrBreak c).map Char.toLower) := by
  obtain ⟨name, rest, read, chars, rfl⟩ := split_of_browserScheme? h
  rcases plain_or_split url.toList with plain | ⟨word, d, rest', split, before, hd⟩
  · -- The colon stands in the address itself.
    have colon : ':' ∈ url.toList := by
      refine mem_of_mem_browserText ?_
      rw [read]
      exact List.mem_append_right _ (.head _)
    exact absurd (plain ':' colon) (by decide)
  · have unbroken : ∀ c ∈ (word.dropWhile isControl).filter (fun c => !isTabOrBreak c),
        isDelimiter c = false := by
      intro c hc
      exact before c (List.dropWhile_subset _ (List.mem_filter.1 hc).1)
    rw [browserText_of_split split hd] at read
    obtain ⟨rfl, rfl⟩ := split_unique unbroken hd
      (fun c hc => not_isDelimiter_of_isSchemeChar (chars c hc)) rfl read
    exact ⟨word, rest', split, before, chars, rfl⟩

/-! ## Accepted addresses -/

theorem isSchemeChar_of_isSchemeName {name : String} (h : isSchemeName name = true) :
    ∀ c ∈ name.toList, isSchemeChar c = true := by
  intro c hc
  unfold isSchemeName at h
  cases e : name.toList with
  | nil =>
    rw [e] at hc
    cases hc
  | cons first rest =>
    rw [e] at h hc
    obtain ⟨letter, chars⟩ := Bool.and_eq_true_iff.1 h
    rcases List.mem_cons.1 hc with rfl | hc
    · simp [isSchemeChar, Char.isAlphanum, letter]
    · exact List.all_eq_true.1 chars c hc

theorem control_or_schemeChar {word : List Char}
    (chars : ∀ c ∈ (word.dropWhile isControl).filter (fun c => !isTabOrBreak c),
      isSchemeChar c = true) :
    ∀ c ∈ word, isControl c = true ∨ isSchemeChar c = true := by
  intro c hc
  rw [← List.takeWhile_append_dropWhile (p := isControl) (l := word), List.mem_append] at hc
  rcases hc with dropped | left
  · exact .inl (List.mem_takeWhile_imp dropped)
  · by_cases deleted : isTabOrBreak c = true
    · exact .inl (isControl_of_isTabOrBreak deleted)
    · refine .inr (chars c (List.mem_filter.2 ⟨left, ?_⟩))
      rw [Bool.not_eq_true', Bool.eq_false_iff]
      exact deleted

/-- Characters that a browser drops or deletes, and scheme characters, of which only the latter are
left when what is passed over before a scheme has been taken away: a browser reads the same. -/
theorem filter_dropWhile_eq {word : List Char}
    (ascii : ∀ c ∈ word, isControl c = true ∨ isSchemeChar c = true)
    (chars : ∀ c ∈ word.dropWhile isIgnorable, isControl c = false) :
    (word.dropWhile isControl).filter (fun c => !isTabOrBreak c) = word.dropWhile isIgnorable := by
  have passed : ∀ c ∈ word.takeWhile isIgnorable, isControl c = true := by
    intro c hc
    rcases ascii c (List.takeWhile_subset _ hc) with control | schemeChar
    · exact control
    · have ignorable := List.mem_takeWhile_imp hc
      exact absurd schemeChar (Bool.eq_false_iff.1 (not_isSchemeChar_of_isIgnorable ignorable))
  have dropped : word.dropWhile isControl = word.dropWhile isIgnorable := by
    conv => lhs; rw [← List.takeWhile_append_dropWhile (p := isIgnorable) (l := word)]
    rw [List.dropWhile_append_of_pos passed, List.dropWhile_eq_self_iff]
    intro nonempty
    exact Bool.eq_false_iff.1 (chars _ (List.getElem_mem nonempty))
  rw [dropped, List.filter_eq_self]
  intro c hc
  rw [Bool.not_eq_true']
  refine Bool.eq_false_iff.2 fun deleted => ?_
  exact absurd (isControl_of_isTabOrBreak deleted) (Bool.eq_false_iff.1 (chars c hc))

/-- A scheme that a browser sees in an accepted address is an accepted one. -/
theorem mem_of_browserScheme? {url scheme : String} {allowed : List String}
    (names : ∀ name ∈ allowed, isSchemeName name = true)
    (accepted : hasAllowedScheme url allowed = true) (h : browserScheme? url = some scheme) :
    scheme ∈ allowed := by
  obtain ⟨word, rest, split, before, chars, rfl⟩ := word_of_browserScheme? h
  have found : scheme? url = some (String.ofList (word.dropWhile isIgnorable)) := by
    rw [scheme?_of_split split before rfl, if_pos rfl]
  have listed := hasAllowedScheme_iff.1 accepted _ found
  have ascii := control_or_schemeChar chars
  have small : ∀ c ∈ word.dropWhile isIgnorable, c.toNat < 0x80 := by
    intro c hc
    rcases ascii c (List.dropWhile_subset _ hc) with control | schemeChar
    · exact Nat.lt_of_le_of_lt (isControl_iff.1 control) (by decide)
    · exact (toNat_of_isSchemeChar schemeChar).2
  have lower : Text.lowercase (String.ofList (word.dropWhile isIgnorable)) =
      String.ofList ((word.dropWhile isIgnorable).map Char.toLower) := by
    rw [Text.lowercase, String.toList_ofList, Text.lowerFrom_of_ascii small]
  rw [lower] at listed
  have read : ∀ c ∈ word.dropWhile isIgnorable, isControl c = false := by
    intro c hc
    have whole := isSchemeChar_of_isSchemeName (names _ listed)
    rw [String.toList_ofList] at whole
    exact not_isControl_of_toLower (whole _ (List.mem_map_of_mem hc))
  rwa [filter_dropWhile_eq ascii read]

end Url

/-! ## Sanitized trees -/

theorem NameMap.mem_of_lookup {key : String} {set : NameSet} {entries : List (String × NameSet)}
    (h : NameMap.lookup key entries = some set) : (key, set) ∈ entries := by
  induction entries with
  | nil => cases h
  | cons entry rest ih =>
    rw [NameMap.lookup] at h
    split at h
    · next same =>
      cases h
      rw [same]
      exact .head _
    · exact .tail _ (ih h)

namespace Policy

/-- Every URL scheme that some property accepts is a scheme name. -/
def ListsSchemeNames (policy : Policy) : Prop :=
  ∀ entry ∈ policy.protocols.entries, ∀ scheme ∈ entry.2.names, Url.isSchemeName scheme = true

instance (policy : Policy) : Decidable policy.ListsSchemeNames :=
  inferInstanceAs (Decidable (∀ entry ∈ policy.protocols.entries, ∀ scheme ∈ entry.2.names,
    Url.isSchemeName scheme = true))

/-- Where no property is both given the prefix and checked for its URL scheme, and all accepted
schemes are scheme names, a browser sees only accepted schemes in a property that is checked. -/
theorem sanitize_browserScheme (policy : Policy) (apart : policy.IsSeparate)
    (listed : policy.ListsSchemeNames) {name : String} {allowed : NameSet}
    (checked : policy.protocolsFor name = some allowed) {value : Value} {text : String}
    (exposed : (policy.sanitize value).Exposes name text) {scheme : String}
    (seen : Url.browserScheme? text = some scheme) : scheme ∈ allowed := by
  obtain ⟨source, accepted, rfl⟩ := exposes_sanitize exposed
  have emitted := acceptsUrl_guardName apart accepted
  rw [acceptsUrl_of_checked checked] at emitted
  have names : ∀ name ∈ allowed.names, Url.isSchemeName name = true :=
    listed (name, allowed) (NameMap.mem_of_lookup checked)
  exact Url.mem_of_browserScheme? names emitted seen

/-- A link to a secure page, and one that only a browser takes for a script. -/
def linkAndScript : Node :=
  .rootOf [.bearing "a" "href" (.str " HTTPS://example.com"),
    .bearing "a" "href" (.str "java\tscript:alert(1)")]

/-- The standard policy leaves the first of the two links its address, and not the second. -/
theorem sanitize_browserScheme_standard :
    standard.IsSeparate ∧ standard.ListsSchemeNames ∧
      standard.protocolsFor "href" = some (.ofList ["http", "https", "mailto"]) ∧
      standard.sanitize (.node linkAndScript) = .rootOf
        [.bearing "a" "href" (.str " HTTPS://example.com"),
          .element (.str "a") (.map []) (.tuple []) .null .null] ∧
      Url.browserScheme? "java\tscript:alert(1)" = some "javascript" ∧
      Url.browserScheme? " HTTPS://example.com" = some "https" ∧
      "https" ∈ NameSet.ofList ["http", "https", "mailto"] := by
  have apart : standard.IsSeparate := by decide
  have listed : standard.ListsSchemeNames := by decide
  have checked : standard.protocolsFor "href" = some (.ofList ["http", "https", "mailto"]) := by
    decide
  have out : standard.sanitize (.node linkAndScript) = .rootOf
      [.bearing "a" "href" (.str " HTTPS://example.com"),
        .element (.str "a") (.map []) (.tuple []) .null .null] := rfl
  have exposed : (standard.sanitize (.node linkAndScript)).Exposes "href"
      " HTTPS://example.com" := by
    rw [out]
    exact ⟨[0, 0], _, rfl, .str " HTTPS://example.com", .head _, .head _⟩
  have seen : Url.browserScheme? " HTTPS://example.com" = some "https" := by decide
  exact ⟨apart, listed, checked, out, by decide, seen,
    sanitize_browserScheme standard apart listed checked exposed seen⟩

end Policy

end SafeMarkup
