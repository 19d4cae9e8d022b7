/-
# What survives of the properties of an element

`Policy.Retains`, `Policy.Becomes` and `Policy.BecomesEntry` say which primitive, which value and
which entry of a mapping a policy lets stay, and as what, without the steps in which values are
coerced, checked and given the prefix.  The entries that stay are those that `Picks` picks.

That an item becomes nothing is not the same as its becoming something empty: zero, false, the
empty text and the empty tuple are values like any other, and a list of which nothing stays becomes
the empty tuple.

`clean_keeps_properties` puts this together for an element that stays.

Where `Proofs/Conformance.lean` bounds what an element may be left with, this is the other half:
what is not refused does stay, with the value that it becomes and in the place that it had among
the properties.  The prefix is the only thing that is ever added to a text, and it is added to a
text as a whole; every other text is what it was, character by character.
-/
import SafeMarkup.Proofs.Cleaning
import SafeMarkup.Proofs.Pairing
import SafeMarkup.Proofs.PropertyValue

namespace SafeMarkup

/-- The texts in a raw value: itself, or the texts among the items of a list or tuple. -/
def Value.rawTexts (value : Value) : List String :=
  match value.items? with
  | some items => items.filterMap str?
  | none => value.str?.toList

namespace Policy

/-! ## What becomes of a value -/

/-- The primitive stays, as the second one. -/
inductive Retains (policy : Policy) (name : String) : Value → Value → Prop
  /-- What is not a text is left as it is. -/
  | other {value : Value} : value.isPrimitive = true → value.str? = none →
      policy.Retains name value value
  /-- An accepted text is left as it is if the property gets no prefix, or the text has it. -/
  | same {text : String} : policy.acceptsUrl name text = true →
      (policy.isClobbered name = true → policy.clobberPrefix.toList <+: text.toList) →
      policy.Retains name (.str text) (.str text)
  /-- Any other accepted text is given the prefix. -/
  | guarded {text : String} : policy.acceptsUrl name text = true →
      policy.isClobbered name = true → ¬ policy.clobberPrefix.toList <+: text.toList →
      policy.Retains name (.str text) (.str (policy.clobberPrefix ++ text))

/-- The value stays, as the second one: a primitive, or the tuple of what stays of a list. -/
inductive Becomes (policy : Policy) (name : String) : Value → Value → Prop
  | primitive {raw value : Value} : policy.Retains name raw value → policy.Becomes name raw value
  | sequence {raw : Value} {items results : List Value} : raw.items? = some items →
      Picks (policy.Retains name) items results → policy.Becomes name raw (.tuple results)

/-- The entry is that of a property which may stand on the tag, and stays as the second one. -/
def BecomesEntry (policy : Policy) (tag : String) (entry result : Value × Value) : Prop :=
  ∃ name, entry.1 = .str name ∧ result.1 = .str name ∧ policy.allowsAttribute tag name = true ∧
    policy.Becomes name entry.2 result.2

variable {policy : Policy} {name : String} {raw value : Value}

theorem retains_str_iff {text : String} :
    policy.Retains name (.str text) value ↔
      policy.acceptsUrl name text = true ∧ value = .str (policy.guardName name text) := by
  constructor
  · intro h
    cases h with
    | other _ noText => cases noText
    | same accepted begins => exact ⟨accepted, by rw [guardName_of_prefixed begins]⟩
    | guarded accepted clobbered missing =>
      exact ⟨accepted, by rw [guardName_of_not_prefixed clobbered missing]⟩
  · rintro ⟨accepted, rfl⟩
    by_cases begins : policy.isClobbered name = true → policy.clobberPrefix.toList <+: text.toList
    · rw [guardName_of_prefixed begins]
      exact .same accepted begins
    · obtain ⟨clobbered, missing⟩ := Classical.not_imp.1 begins
      rw [guardName_of_not_prefixed clobbered missing]
      exact .guarded accepted clobbered missing

theorem Retains.isPrimitive (h : policy.Retains name raw value) : raw.isPrimitive = true := by
  cases h with
  | other prim _ => exact prim
  | same _ _ => rfl
  | guarded _ _ _ => rfl

theorem sanitizePrimitive_eq_some_iff (prim : raw.isPrimitive = true) :
    policy.sanitizePrimitive name raw = some value ↔ policy.Retains name raw value := by
  cases raw with
  | str text =>
    rw [retains_str_iff, sanitizePrimitive]
    split
    · next accepted => simp only [accepted, true_and, Option.some.injEq, eq_comm]
    · next refused => simp only [refused, Bool.false_eq_true, false_and, reduceCtorEq]
  | int _ | float _ | bool _ =>
    constructor
    · intro h
      cases h
      exact .other rfl rfl
    · intro h
      cases h
      rfl
  | _ => exact absurd prim Bool.false_ne_true

theorem picks_retains (policy : Policy) (name : String) (items : List Value) :
    Picks (policy.Retains name) items
      ((items.filter Value.isPrimitive).filterMap (policy.sanitizePrimitive name)) := by
  refine ⟨fun item => if item.isPrimitive then policy.sanitizePrimitive name item else none, ?_, ?_⟩
  · intro item result
    dsimp only
    by_cases prim : item.isPrimitive = true
    · rw [if_pos prim, sanitizePrimitive_eq_some_iff prim]
    · rw [if_neg prim]
      constructor
      · intro h
        cases h
      · intro h
        exact absurd h.isPrimitive prim
  · rw [List.filterMap_filter]

/-- A value is emitted exactly as what it becomes. -/
theorem sanitizeValue_eq_some_iff :
    policy.sanitizeValue name raw = some value ↔ policy.Becomes name raw value := by
  constructor
  · intro emitted
    rcases sanitizeValue_cases emitted with ⟨prim, h⟩ | ⟨items, hitems, rfl⟩
    · exact .primitive ((sanitizePrimitive_eq_some_iff prim).1 h)
    · exact .sequence hitems (picks_retains policy name items)
  · intro becomes
    cases becomes with
    | primitive retained =>
      rw [sanitizeValue_of_isPrimitive retained.isPrimitive]
      exact (sanitizePrimitive_eq_some_iff retained.isPrimitive).2 retained
    | sequence hitems picked =>
      rw [sanitizeValue_of_items hitems, (picks_retains policy name _).unique picked]

/-! ## Texts in what stays -/

theorem Retains.text {source : Value} {text : String}
    (h : policy.Retains name source (.str text)) :
    ∃ s, source = .str s ∧ (text = s ∨ policy.isClobbered name = true ∧
      ¬ policy.clobberPrefix.toList <+: s.toList ∧ text = policy.clobberPrefix ++ s) := by
  cases h with
  | other _ noText => cases noText
  | same _ _ => exact ⟨text, rfl, .inl rfl⟩
  | @guarded s _ clobbered missing => exact ⟨s, rfl, .inr ⟨clobbered, missing, rfl⟩⟩

theorem Becomes.text (h : policy.Becomes name raw value) {text : String} (ht : text ∈ value.texts) :
    ∃ s ∈ raw.rawTexts, text = s ∨ policy.isClobbered name = true ∧
      ¬ policy.clobberPrefix.toList <+: s.toList ∧ text = policy.clobberPrefix ++ s := by
  cases h with
  | primitive retained =>
    cases value with
    | str t =>
      obtain rfl := List.mem_singleton.1 ht
      obtain ⟨s, rfl, how⟩ := retained.text
      exact ⟨s, List.mem_singleton.2 rfl, how⟩
    | tuple items =>
      cases retained with
      | other prim _ => exact absurd prim Bool.false_ne_true
    | _ => cases ht
  | sequence hitems picked =>
    obtain ⟨result, hresult, isText⟩ := List.mem_filterMap.1 ht
    obtain ⟨item, hitem, retained⟩ := picked.mem hresult
    cases result with
    | str t =>
      obtain rfl := Option.some.inj isText
      obtain ⟨s, rfl, how⟩ := retained.text
      refine ⟨s, ?_, how⟩
      rw [Value.rawTexts, hitems]
      exact List.mem_filterMap.2 ⟨.str s, hitem, rfl⟩
    | _ => cases isText

/-- Every text in what a property with the prefix comes out with has the prefix. -/
theorem Becomes.begins (h : policy.Becomes name raw value) {text : String}
    (ht : text ∈ value.texts) (clobbered : policy.isClobbered name = true) :
    policy.clobberPrefix.toList <+: text.toList := by
  obtain ⟨source, -, rfl⟩ := mem_texts_of_sanitizeValue (sanitizeValue_eq_some_iff.2 h) ht
  exact guardName_begins clobbered source

/-! ## Elements that stay -/

theorem picks_cleanEntries (policy : Policy) (tag : String) (entries : List (Value × Value)) :
    Picks (policy.BecomesEntry tag) entries (policy.cleanEntries tag entries).1 := by
  refine ⟨policy.cleanEntry tag, fun entry result => ?_,
    cleanEntries_eq_filterMap policy tag entries⟩
  rw [cleanEntry_eq_some_iff]
  simp only [BecomesEntry, sanitizeValue_eq_some_iff]

/-- An element that stays keeps, in their order, exactly the properties that may stand on its tag
and have a value that becomes something; what is no mapping leaves it none.  In a property with the
prefix every text comes out with it, and a text that is not given the prefix is not altered. -/
theorem clean_keeps_properties (policy : Policy) (enclosing : List String)
    {tag properties children data position : Value} {name : String}
    (kept : policy.judge (enclosing.map .str) tag = .kept name) :
    ∃ entries inner,
      (policy.clean (enclosing.map .str) (.element tag properties children data position)).nodes =
        [.element (.str name) (.map entries) inner data position] ∧
      (properties.entries? = none → entries = []) ∧
      (∀ raw, properties.entries? = some raw → Picks (policy.BecomesEntry name) raw entries) ∧
      (∀ property value, (.str property, value) ∈ entries → policy.isClobbered property = true →
        ∀ text ∈ value.texts, policy.clobberPrefix.toList <+: text.toList) ∧
      (∀ raw, properties.entries? = some raw → ∀ property value, (.str property, value) ∈ entries →
        ∃ held, (.str property, held) ∈ raw ∧ ∀ text ∈ value.texts, ∃ source ∈ held.rawTexts,
          text = source ∨ policy.isClobbered property = true ∧
            ¬ policy.clobberPrefix.toList <+: source.toList ∧
            text = policy.clobberPrefix ++ source) := by
  have picks : Picks (policy.BecomesEntry name) (properties.entries?.getD [])
      (policy.cleanProperties name properties).1 :=
    picks_cleanEntries policy name (properties.entries?.getD [])
  have became : ∀ {property value},
      (Value.str property, value) ∈ (policy.cleanProperties name properties).1 →
      ∃ held, (.str property, held) ∈ properties.entries?.getD [] ∧
        policy.Becomes property held value := by
    intro property value h
    obtain ⟨⟨key, held⟩, hmem, _, rfl, same, -, becomes⟩ := picks.mem h
    cases same
    exact ⟨held, hmem, becomes⟩
  refine ⟨_, _, nodes_clean_kept kept, ?_, ?_, ?_, ?_⟩
  · intro noMap
    rw [cleanProperties, noMap]
    rfl
  · intro raw isMap
    rw [isMap, Option.getD_some] at picks
    exact picks
  · intro property value h clobbered text ht
    obtain ⟨held, -, becomes⟩ := became h
    exact becomes.begins ht clobbered
  · intro raw isMap property value h
    obtain ⟨held, hmem, becomes⟩ := became h
    rw [isMap, Option.getD_some] at hmem
    exact ⟨held, hmem, fun text ht => becomes.text ht⟩

/-- Links to secure pages, with a name and a title; ids and names get the prefix. -/
def namedLinks : Policy where
  tagNames := .ofList ["a"]
  attributes := .ofEntries [("a", .ofList ["href", "name", "title"])]
  protocols := .ofEntries [("href", .ofList ["https"])]

/-- A link with an accepted name, a list of titles and a refused address. -/
theorem clean_keeps_properties_links :
    let raw : List (Value × Value) := [
      (.str "name", .str "top"), (.str "href", .str "javascript:0"), (.int 1, .str "one"),
      (.str "title", .list [.str "", .null, .int 0, .bool false]), (.str "rel", .str "next")]
    let out : List (Value × Value) := [
      (.str "name", .str "user-content-top"),
      (.str "title", .tuple [.str "", .int 0, .bool false])]
    namedLinks.judge [.str "p"] (.str "a") = .kept "a" ∧
      (namedLinks.clean [.str "p"] (.element (.str "a") (.map raw) (.tuple []) .null .null)).nodes =
        [.element (.str "a") (.map out) (.tuple []) .null .null] ∧
      Picks (namedLinks.BecomesEntry "a") raw out := by
  intro raw out
  have kept : namedLinks.judge [.str "p"] (.str "a") = .kept "a" := by decide
  have computed : (namedLinks.clean [.str "p"]
      (.element (.str "a") (.map raw) (.tuple []) .null .null)).nodes =
        [.element (.str "a") (.map out) (.tuple []) .null .null] := rfl
  obtain ⟨entries, inner, nodes, -, picks, -⟩ := clean_keeps_properties namedLinks ["p"] kept
  rw [show ["p"].map Value.str = [.str "p"] from rfl, computed] at nodes
  cases nodes
  exact ⟨kept, computed, picks raw rfl⟩

end Policy

end SafeMarkup
