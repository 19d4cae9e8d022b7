/-
# The letter case of URL schemes

Neither the letters of a URL nor those of the schemes that a property accepts are compared as they
are written.  There are three ways to give a property its schemes: in the values that a policy is
configured from, in the mapping that it is read from, and in the edits of a draft
(`SchemesGiven`).  On each way the schemes are taken in lower case, and they come to the same: the
property accepts the lower-case forms of the schemes that were given (`protocolsFor_of_given`).  The
scheme of a URL is looked up in its lower-case form as well, so a URL with an ASCII scheme is
accepted if and only if the scheme was given, in whatever letter case (`sanitizeValue_schemes`).

For URLs that are not ASCII the full lower-casing is not so easily told, since the form of a sigma
depends on the letters around it.  But an ASCII letter counts the same there in either case, and it
is no delimiter in either case.  Whatever a text holds beside, the case of its ASCII letters makes
no difference (`hasAllowedScheme_toLower`).  `Char.toLower` and `String.toLower`, which leave other
characters alone, say what the ASCII case is.

Two kinds of statement are made, and they should not be mixed up.  For ASCII it is said exactly
which URLs are kept, in terms of the schemes as they were given.  For all texts it is said only
that two of them which differ in the case of ASCII letters are treated alike.  A capital letter
outside ASCII is not always matched by its small form, and no statement is made about it.
-/
import SafeMarkup.Proofs.Acceptance
import SafeMarkup.Proofs.EditHistory
import SafeMarkup.Proofs.SchemeSafety

namespace SafeMarkup

/-! ## ASCII letters in either case -/

namespace Text

def IsAscii (s : String) : Prop :=
  ∀ c ∈ s.toList, c.toNat < 0x80

/-- The texts differ in the case of ASCII letters at most. -/
def SameButForCase (s t : String) : Prop :=
  s.toLower = t.toLower

instance (s : String) : Decidable (IsAscii s) :=
  List.decidableBAll (fun c : Char => c.toNat < 0x80) s.toList

theorem toList_toLower (s : String) : s.toLower.toList = s.toList.map Char.toLower :=
  String.toList_map

theorem sameButForCase_iff {s t : String} :
    SameButForCase s t ↔ s.toList.map Char.toLower = t.toList.map Char.toLower := by
  rw [← toList_toLower, ← toList_toLower, String.toList_inj]
  rfl

instance (s t : String) : Decidable (SameButForCase s t) :=
  decidable_of_iff' _ sameButForCase_iff

theorem toLower_of_not_ascii {c : Char} (large : ¬ c.toNat < 0x80) : c.toLower = c := by
  unfold Char.toLower
  split
  · next capital =>
    have high : c.toNat ≤ 0x5A := capital.2
    omega
  · rfl

/-- What is the same for both cases of each ASCII character, does not depend on the ASCII case. -/
theorem apply_toLower {β : Type} {f : Char → β}
    (table : ∀ code : Fin 0x80, f (Char.ofNat code.val).toLower = f (Char.ofNat code.val))
    (c : Char) : f c.toLower = f c := by
  by_cases small : c.toNat < 0x80
  · exact forall_ascii (P := fun c => f c.toLower = f c) table c small
  · rw [toLower_of_not_ascii small]

theorem inIntervals_of_ascii {table ascii : List (Nat × Nat)} {code : Nat} (small : code < 0x80)
    (part : table.filter (fun interval => decide (interval.1 < 0x80)) = ascii) :
    inIntervals table code = inIntervals ascii code := by
  rw [← part, inIntervals, inIntervals, List.any_filter]
  refine List.any_congr rfl fun interval => ?_
  by_cases first : interval.1 < 0x80
  · simp [first]
  · have later : ¬ interval.1 ≤ code := by omega
    simp [first, later]

theorem inIntervals_toLower {table ascii : List (Nat × Nat)}
    (part : table.filter (fun interval => decide (interval.1 < 0x80)) = ascii)
    (same : ∀ code : Fin 0x80, inIntervals ascii (Char.ofNat code.val).toLower.toNat =
      inIntervals ascii (Char.ofNat code.val).toNat) (c : Char) :
    inIntervals table c.toLower.toNat = inIntervals table c.toNat := by
  by_cases small : c.toNat < 0x80
  · have small' : c.toLower.toNat < 0x80 :=
      forall_ascii (P := fun c => c.toLower.toNat < 0x80) (by decide) c small
    rw [inIntervals_of_ascii small part, inIntervals_of_ascii small' part]
    exact forall_ascii (P := fun c => inIntervals ascii c.toLower.toNat =
      inIntervals ascii c.toNat) same c small
  · rw [toLower_of_not_ascii small]

theorem isCaseIgnorable_toLower (c : Char) : isCaseIgnorable c.toLower = isCaseIgnorable c := by
  have part : caseIgnorable.filter (fun interval => decide (interval.1 < 0x80)) =
      [(0x27, 0x27), (0x2E, 0x2E), (0x3A, 0x3A), (0x5E, 0x5E), (0x60, 0x60)] := by
    decide +kernel
  exact inIntervals_toLower part (by decide +kernel) c

theorem isCasedLetter_toLower (c : Char) : isCasedLetter c.toLower = isCasedLetter c := by
  have part : casedLetters.filter (fun interval => decide (interval.1 < 0x80)) =
      [(0x41, 0x5A), (0x61, 0x7A)] := by
    decide +kernel
  exact inIntervals_toLower part (by decide +kernel) c

theorem lowerChar_toLower (c : Char) : lowerChar c.toLower = lowerChar c :=
  apply_toLower (by decide +kernel) c

theorem ofList_map_toLower (cs : List Char) :
    String.ofList (cs.map Char.toLower) = (String.ofList cs).toLower := by
  rw [← String.toList_inj, toList_toLower, String.toList_ofList, String.toList_ofList]

theorem wordBefore_toLower (before : Bool) (c : Char) :
    wordBefore before c.toLower = wordBefore before c := by
  rw [wordBefore, wordBefore, isCaseIgnorable_toLower, isCasedLetter_toLower]

theorem wordAfter_toLower (cs : List Char) : wordAfter (cs.map Char.toLower) = wordAfter cs := by
  induction cs with
  | nil => rfl
  | cons c rest ih =>
    rw [List.map_cons, wordAfter, wordAfter, isCaseIgnorable_toLower, isCasedLetter_toLower, ih]

theorem lowerFrom_toLower (before : Bool) (cs : List Char) :
    lowerFrom before (cs.map Char.toLower) = lowerFrom before cs := by
  induction cs generalizing before with
  | nil => rfl
  | cons c rest ih =>
    have sigma : (c.toLower = 'Σ') = (c = 'Σ') :=
      apply_toLower (f := fun c => c = 'Σ') (by decide) c
    rw [List.map_cons, lowerFrom, lowerFrom, lowerChar_toLower, wordBefore_toLower,
      wordAfter_toLower, ih]
    simp only [sigma]

/-- The lower-case form of a text does not depend on the case of its ASCII letters. -/
theorem lowercase_toLower (s : String) : lowercase s.toLower = lowercase s := by
  rw [lowercase, toList_toLower, lowerFrom_toLower]
  rfl

theorem lowercase_of_ascii {s : String} (ascii : IsAscii s) : lowercase s = s.toLower := by
  rw [lowercase, lowerFrom_of_ascii ascii, ← toList_toLower, String.ofList_toList]

end Text

namespace Url

theorem isIgnorable_toLower (c : Char) : isIgnorable c.toLower = isIgnorable c :=
  Text.apply_toLower (by decide) c

theorem isDelimiter_toLower (c : Char) : isDelimiter c.toLower = isDelimiter c :=
  Text.apply_toLower (by decide) c

theorem scheme?_toLower (url : String) :
    scheme? url.toLower = (scheme? url).map String.toLower := by
  have ignorable : isIgnorable ∘ Char.toLower = isIgnorable := funext isIgnorable_toLower
  have plain : (fun c => !isDelimiter c) ∘ Char.toLower = fun c => !isDelimiter c := by
    funext c
    exact congrArg not (isDelimiter_toLower c)
  simp only [scheme?, Text.toList_toLower, List.dropWhile_map, List.takeWhile_map, ignorable, plain]
  generalize url.toList.dropWhile isIgnorable = rest
  cases rest.dropWhile (fun c => !isDelimiter c) with
  | nil => rfl
  | cons d after =>
    have colon : (d.toLower = ':') = (d = ':') :=
      Text.apply_toLower (f := fun c => c = ':') (by decide) d
    by_cases here : d = ':'
    · subst here
      exact congrArg some (Text.ofList_map_toLower _)
    · rw [List.map_cons]
      split
      · next same => exact absurd (colon ▸ (List.cons.inj same).1) here
      · split
        · next same => exact absurd (List.cons.inj same).1 here
        · rfl

theorem hasAllowedScheme_toLower (url : String) (allowed : List String) :
    hasAllowedScheme url.toLower allowed = hasAllowedScheme url allowed := by
  unfold hasAllowedScheme
  rw [scheme?_toLower]
  cases scheme? url with
  | none => rfl
  | some scheme =>
    show allowed.contains (Text.lowercase scheme.toLower) = _
    rw [Text.lowercase_toLower]

end Url

/-! ## Schemes set and added by edits -/

namespace Edit

variable {name : String}

/-- The schemes that the edit adds to those of the property, as they are written. -/
def schemesFor (property : String) : Edit → List String
  | .allowProtocols key schemes => if key.isText property then texts schemes else []
  | _ => []

theorem moveProtocols_of_silent {change : Edit} (silent : saysOfProtocols name change = none)
    (set : NameSet) : ∃ set', moveProtocols name (some set) change = some set' ∧
      ∀ scheme, scheme ∈ set' ↔
        scheme ∈ set ∨ ∃ source ∈ change.schemesFor name, Text.lowercase source = scheme := by
  rw [moveProtocols, silent]
  cases change with
  | allowProtocols key schemes =>
    simp only [addsProtocols, schemesFor]
    by_cases here : key.isText name = true
    · refine ⟨set.addAll ((texts schemes).map Text.lowercase), by rw [if_pos here]; rfl, ?_⟩
      intro scheme
      rw [if_pos here, NameSet.mem_addAll, List.mem_map]
    · refine ⟨set, by rw [if_neg here], ?_⟩
      intro scheme
      simp [if_neg here]
  | _ => exact ⟨set, rfl, by simp [schemesFor]⟩

/-- After edits that do not set the schemes of the property anew, it accepts those that it accepted
before and those added since. -/
theorem foldl_moveProtocols_of_silent {edits : List Edit}
    (silent : ∀ change ∈ edits, saysOfProtocols name change = none) (set : NameSet) :
    ∃ set', edits.foldl (moveProtocols name) (some set) = some set' ∧
      ∀ scheme, scheme ∈ set' ↔ scheme ∈ set ∨
        ∃ source ∈ edits.flatMap (schemesFor name), Text.lowercase source = scheme := by
  induction edits generalizing set with
  | nil => exact ⟨set, rfl, by simp⟩
  | cons change rest ih =>
    obtain ⟨next, now, first⟩ := moveProtocols_of_silent (silent change (.head _)) set
    obtain ⟨last, after, others⟩ := ih (fun later member => silent later (.tail _ member)) next
    refine ⟨last, by rw [List.foldl_cons, now, after], ?_⟩
    intro scheme
    rw [others, first, List.flatMap_cons]
    simp only [List.mem_append, or_and_right, exists_or, or_assoc]

end Edit

namespace Draft

open Edit

variable {draft : Draft} {name : String}

theorem protocols_finish {policy : Policy} (finished : draft.finish = .ok policy) :
    finishMap "protocols" draft.protocols = .ok policy.protocols := by
  simp only [finish, bind_eq_ok_iff] at finished
  obtain ⟨_, -, protocols, ran, _, -, done⟩ := finished
  cases done
  exact ran

theorem protocolsFor_of_edits {base policy : Policy} {last : Draft} {before rest : List Edit}
    {first : List Value}
    (ran : (ofPolicy base).editAll (before ++ .setProtocols (.str name) first :: rest) = .ok last)
    (silent : ∀ change ∈ rest, saysOfProtocols name change = none)
    (finished : last.finish = .ok policy) :
    ∃ set, policy.protocolsFor name = some set ∧ ∀ scheme, scheme ∈ set ↔
      ∃ source ∈ texts first ++ rest.flatMap (schemesFor name),
        Text.lowercase source = scheme := by
  have keyed := (isKeyed_ofPolicy base).protocols.nodup_textKeys
  obtain ⟨set, held, listed⟩ :=
    foldl_moveProtocols_of_silent silent (.ofList ((texts first).map Text.lowercase))
  refine ⟨set, ?_, ?_⟩
  · have decided (before : Option NameSet) :
        moveProtocols name before (.setProtocols (.str name) first) =
          some (.ofList ((texts first).map Text.lowercase)) := by
      rw [moveProtocols, saysOfProtocols, if_pos (Value.isText_iff.2 rfl)]
    have distinct := nodup_protocols_foldl_applied keyed
      (before ++ .setProtocols (.str name) first :: rest)
    rw [← editAll_eq_applied ran] at distinct
    rw [Policy.protocolsFor, get?_finishMap distinct (protocols_finish finished),
      editAll_eq_applied ran, protocols_foldl_applied keyed, List.foldl_append, List.foldl_cons,
      decided, held]
  · intro scheme
    rw [listed, NameSet.mem_ofList, List.mem_map]
    simp only [List.mem_append, or_and_right, exists_or]

end Draft

/-! ## Schemes that were given -/

open Edit

namespace Policy

/-- Among the values for the properties, these schemes stand for the property. -/
def ListsSchemes (name : String) (schemes : List String) (value : Value) : Prop :=
  ∃ entries listed, value = .map entries ∧
    Value.lastUnder (Value.isText name) entries = some listed ∧
    listed.collection? = some (schemes.map .str)

/-- The property was given these schemes, written in whatever letter case. -/
inductive SchemesGiven (name : String) (schemes : List String) : Policy → Prop
  /-- In the values that the policy was configured from. -/
  | configured {given : Part → Option Value} {value : Value} {policy : Policy} :
      configure given = .ok policy → given .protocols = some value →
      ListsSchemes name schemes value → SchemesGiven name schemes policy
  /-- In the mapping that the policy was read from, under the last key for such schemes. -/
  | read {entries : List (Value × Value)} {value : Value} {policy : Policy} :
      ofValue (.map entries) = .ok policy → Part.given? entries .protocols = some value →
      ListsSchemes name schemes value → SchemesGiven name schemes policy
  /-- In edits of a draft: one sets the first of them, and others add the rest.  Between and after
  them there may be edits that leave the property alone, and before them any edits. -/
  | drafted {start last : Draft} {before rest : List Edit} {first : List Value}
      {policy : Policy} :
      (start = Draft.fresh ∨ ∃ base, start = Draft.ofPolicy base) →
      start.editAll (before ++ .setProtocols (.str name) first :: rest) = .ok last →
      (∀ change ∈ rest, saysOfProtocols name change = none) →
      (∀ scheme, scheme ∈ schemes ↔ scheme ∈ texts first ++ rest.flatMap (schemesFor name)) →
      last.finish = .ok policy → SchemesGiven name schemes policy

variable {policy : Policy} {name : String} {schemes : List String}

theorem protocolsFor_of_configure {given : Part → Option Value} {value : Value}
    (configured : configure given = .ok policy) (held : given .protocols = some value)
    (lists : ListsSchemes name schemes value) :
    ∃ set, policy.protocolsFor name = some set ∧
      ∀ scheme, scheme ∈ set ↔ ∃ source ∈ schemes, Text.lowercase source = scheme := by
  obtain ⟨listed, holds, lowered⟩ := (configure_eq_ok_iff_configured.1 configured).protocols
  rw [Part.Holds, held] at holds
  obtain ⟨_, same, -, each⟩ := holds
  obtain ⟨entries, own, rfl, last, collection⟩ := lists
  cases same
  have stands := each name
  rw [last] at stands
  have here := lowered name
  cases found : listed.get? name with
  | none =>
    rw [found] at stands
    cases stands
  | some set =>
    rw [found] at stands here
    obtain ⟨⟨items, collected, -, members⟩⟩ := stands
    obtain rfl := Option.some.inj (collection.symm.trans collected)
    refine ⟨_, here, ?_⟩
    intro scheme
    simp only [NameSet.mem_map, members, Value.mem_map_str]

/-- However the schemes were given, the property accepts their lower-case forms. -/
theorem protocolsFor_of_given (given : policy.SchemesGiven name schemes) :
    ∃ set, policy.protocolsFor name = some set ∧
      ∀ scheme, scheme ∈ set ↔ ∃ source ∈ schemes, Text.lowercase source = scheme := by
  cases given with
  | configured configured held lists => exact protocolsFor_of_configure configured held lists
  | read read held lists => exact protocolsFor_of_configure read held lists
  | @drafted start _ _ _ _ _ begun ran silent split finished =>
    simp only [split]
    obtain ⟨base, rfl⟩ : ∃ base, start = Draft.ofPolicy base := by
      rcases begun with rfl | opened
      · exact ⟨{}, rfl⟩
      · exact opened
    exact Draft.protocolsFor_of_edits ran silent finished

/-! ## URLs and schemes in any letter case -/

variable {text other scheme : String}

theorem isSome_sanitizeValue_text :
    (policy.sanitizeValue name (.str text)).isSome = policy.acceptsUrl name text := by
  rw [sanitizeValue_of_isPrimitive rfl]
  simp only [sanitizePrimitive]
  cases policy.acceptsUrl name text <;> rfl

theorem acceptsUrl_toLower (policy : Policy) (name text : String) :
    policy.acceptsUrl name text.toLower = policy.acceptsUrl name text := by
  unfold acceptsUrl
  split
  · rfl
  · exact Url.hasAllowedScheme_toLower text _

/-- A text and the same text in other ASCII case are both kept or both refused. -/
theorem isSome_sanitizeValue_of_sameButForCase (same : Text.SameButForCase text other) :
    (policy.sanitizeValue name (.str text)).isSome =
      (policy.sanitizeValue name (.str other)).isSome := by
  rw [isSome_sanitizeValue_text, isSome_sanitizeValue_text, ← acceptsUrl_toLower policy name text,
    same, acceptsUrl_toLower]

/-- A property that was given ASCII schemes keeps relative references, and URLs with an ASCII scheme
if the scheme was given, in whatever letter case either is written.  The letter case of ASCII makes
no difference for URLs of any kind. -/
theorem sanitizeValue_schemes (given : policy.SchemesGiven name schemes)
    (ascii : ∀ scheme ∈ schemes, Text.IsAscii scheme) :
    (∀ text, Url.scheme? text = none → (policy.sanitizeValue name (.str text)).isSome = true) ∧
    (∀ text scheme, Url.scheme? text = some scheme → Text.IsAscii scheme →
      ((policy.sanitizeValue name (.str text)).isSome = true ↔
        ∃ source ∈ schemes, Text.SameButForCase source scheme)) ∧
    ∀ text other, Text.SameButForCase text other →
      (policy.sanitizeValue name (.str text)).isSome =
        (policy.sanitizeValue name (.str other)).isSome := by
  obtain ⟨set, checked, listed⟩ := protocolsFor_of_given given
  have kept (text : String) : (policy.sanitizeValue name (.str text)).isSome = true ↔
      ∀ scheme, Url.scheme? text = some scheme → Text.lowercase scheme ∈ set := by
    rw [isSome_sanitizeValue_text, acceptsUrl_of_checked checked, Url.hasAllowedScheme_iff]
    rfl
  refine ⟨?_, ?_, fun text other same => isSome_sanitizeValue_of_sameButForCase same⟩
  · intro text relative
    rw [kept, relative]
    exact nofun
  · intro text scheme found plain
    rw [kept]
    simp only [found, Option.some.injEq, forall_eq', listed]
    refine exists_congr fun source => and_congr_right fun member => ?_
    rw [Text.lowercase_of_ascii (ascii source member), Text.lowercase_of_ascii plain]
    rfl

/-- Schemes set and added in capitals, and URLs that write them otherwise. -/
theorem sanitizeValue_schemes_drafted :
    ∃ last policy, Draft.fresh.editAll
        [.setProtocols (.str "href") [.str "HTTP"], .allowTags [.str "a"],
          .allowProtocols (.str "href") [.str "MailTo"]] = .ok last ∧
      last.finish = .ok policy ∧
      (policy.sanitizeValue "href" (.str "/start")).isSome = true ∧
      (policy.sanitizeValue "href" (.str "mAILtO:me")).isSome = true ∧
      (policy.sanitizeValue "href" (.str "data:,")).isSome = false ∧
      (policy.sanitizeValue "href" (.str "DATA:,")).isSome = false := by
  obtain ⟨last, ran⟩ : ∃ last, Draft.fresh.editAll
      ([] ++ .setProtocols (.str "href") [.str "HTTP"] :: [.allowTags [.str "a"],
        .allowProtocols (.str "href") [.str "MailTo"]]) = .ok last := ⟨_, rfl⟩
  obtain ⟨policy, finished⟩ : ∃ policy, last.finish = .ok policy := by
    cases ran
    exact ⟨_, rfl⟩
  have given : policy.SchemesGiven "href" ["HTTP", "MailTo"] :=
    .drafted (.inl rfl) ran (by decide) (fun _ => Iff.rfl) finished
  obtain ⟨relative, absolute, anyCase⟩ := sanitizeValue_schemes given (by decide)
  have data : (policy.sanitizeValue "href" (.str "data:,")).isSome = false := by
    rw [Bool.eq_false_iff, Ne, absolute "data:," "data" (by decide) (by decide)]
    decide
  refine ⟨last, policy, ran, finished, relative "/start" (by decide), ?_, data, ?_⟩
  · rw [absolute "mAILtO:me" "mAILtO" (by decide) (by decide)]
    decide
  · rw [anyCase "DATA:," "data:," (by decide), data]

end Policy

end SafeMarkup
