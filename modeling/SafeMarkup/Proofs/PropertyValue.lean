/-
# Where the value of a property comes from

A value that sanitizing emits is a primitive or a tuple of primitives, and each of its texts is a
raw text that was accepted, with or without the prefix.  Nothing else can be said about it for
every policy: the URL scheme is looked for in the raw text, and the prefix is put before it
afterwards.

Where no property is both given the prefix and checked for its scheme, the two steps do not meet,
and an emitted value is emitted again as it is.

`IsSeparate` is the name of that condition on a policy, and it returns wherever two runs are
compared.  A policy that violates it is not invalid, and it is not refused when it is configured;
the results about single runs hold of it as well.  What can go wrong under such a policy, and for
which prefixes nothing does, is worked out in `Proofs/SchemeSafety.lean`.
-/
import SafeMarkup.PropertyValue

namespace SafeMarkup

namespace Value

/-- What may stand as the value of a property: a primitive or a tuple of primitives. -/
def IsPropertyValue : Value → Prop
  | tuple items => ∀ item ∈ items, item.isPrimitive = true
  | value => value.isPrimitive = true

/-- The texts in the value of a property: itself, or the texts among its items. -/
def texts : Value → List String
  | str s => [s]
  | tuple items => items.filterMap str?
  | _ => []

theorem isPropertyValue_of_isPrimitive {value : Value} (h : value.isPrimitive = true) :
    value.IsPropertyValue := by
  cases value with
  | tuple items => exact absurd h Bool.false_ne_true
  | _ => exact h

end Value

namespace Policy

variable {policy : Policy} {name : String} {raw value : Value}

/-! ## Raw and emitted -/

theorem isPrimitive_of_sanitizePrimitive (prim : raw.isPrimitive = true)
    (h : policy.sanitizePrimitive name raw = some value) : value.isPrimitive = true := by
  cases raw with
  | str text =>
    simp only [sanitizePrimitive] at h
    split at h
    · exact Option.some.inj h ▸ rfl
    · cases h
  | _ =>
    simp only [sanitizePrimitive] at h
    exact Option.some.inj h ▸ prim

theorem text_of_sanitizePrimitive {text : String}
    (h : policy.sanitizePrimitive name raw = some (.str text)) :
    ∃ source, raw = .str source ∧ policy.acceptsUrl name source = true ∧
      text = policy.guardName name source := by
  cases raw with
  | str source =>
    simp only [sanitizePrimitive] at h
    split at h
    · next accepted => exact ⟨source, rfl, accepted, (Value.str.inj (Option.some.inj h)).symm⟩
    · cases h
  | _ =>
    simp only [sanitizePrimitive] at h
    exact nomatch Option.some.inj h

theorem sanitizeValue_of_isPrimitive (prim : value.isPrimitive = true) :
    policy.sanitizeValue name value = policy.sanitizePrimitive name value := by
  have coerced : value.coerce? = some value := if_pos prim
  unfold sanitizeValue
  rw [coerced]
  cases value with
  | tuple items => exact absurd prim Bool.false_ne_true
  | _ => rfl

theorem sanitizeValue_of_items {items : List Value} (h : value.items? = some items) :
    policy.sanitizeValue name value = some (.tuple
      ((items.filter Value.isPrimitive).filterMap (policy.sanitizePrimitive name))) := by
  have notPrim : ¬ value.isPrimitive = true := by
    intro prim
    cases value with
    | list _ | tuple _ => exact absurd prim Bool.false_ne_true
    | _ => cases h
  have coerced : value.coerce? = some (.tuple (items.filter Value.isPrimitive)) := by
    rw [Value.coerce?, if_neg notPrim, h]
    rfl
  unfold sanitizeValue
  rw [coerced]

/-- An emitted value comes from a primitive or item by item from a list or tuple. -/
theorem sanitizeValue_cases (h : policy.sanitizeValue name raw = some value) :
    (raw.isPrimitive = true ∧ policy.sanitizePrimitive name raw = some value) ∨
    ∃ items, raw.items? = some items ∧ value = .tuple
      ((items.filter Value.isPrimitive).filterMap (policy.sanitizePrimitive name)) := by
  by_cases prim : raw.isPrimitive = true
  · exact .inl ⟨prim, by rwa [sanitizeValue_of_isPrimitive prim] at h⟩
  · cases hi : raw.items? with
    | none =>
      have coerced : raw.coerce? = none := by rw [Value.coerce?, if_neg prim, hi]; rfl
      simp only [sanitizeValue, coerced] at h
      cases h
    | some items =>
      rw [sanitizeValue_of_items hi] at h
      exact .inr ⟨items, rfl, (Option.some.inj h).symm⟩

theorem mem_sanitizedItems {items : List Value}
    (h : value ∈ (items.filter Value.isPrimitive).filterMap (policy.sanitizePrimitive name)) :
    ∃ raw, raw.isPrimitive = true ∧ policy.sanitizePrimitive name raw = some value := by
  obtain ⟨raw, hraw, emitted⟩ := List.mem_filterMap.1 h
  exact ⟨raw, (List.mem_filter.1 hraw).2, emitted⟩

theorem isPropertyValue_of_sanitizeValue (h : policy.sanitizeValue name raw = some value) :
    value.IsPropertyValue := by
  rcases sanitizeValue_cases h with ⟨prim, emitted⟩ | ⟨items, -, rfl⟩
  · exact Value.isPropertyValue_of_isPrimitive (isPrimitive_of_sanitizePrimitive prim emitted)
  · intro item hitem
    obtain ⟨raw, prim, emitted⟩ := mem_sanitizedItems hitem
    exact isPrimitive_of_sanitizePrimitive prim emitted

theorem mem_texts_of_sanitizeValue {text : String}
    (h : policy.sanitizeValue name raw = some value) (ht : text ∈ value.texts) :
    ∃ source, policy.acceptsUrl name source = true ∧ text = policy.guardName name source := by
  rcases sanitizeValue_cases h with ⟨prim, emitted⟩ | ⟨items, -, rfl⟩
  · cases value with
    | str s =>
      obtain rfl := List.mem_singleton.1 ht
      obtain ⟨source, -, accepted, e⟩ := text_of_sanitizePrimitive emitted
      exact ⟨source, accepted, e⟩
    | tuple _ =>
      exact absurd (isPrimitive_of_sanitizePrimitive prim emitted) Bool.false_ne_true
    | _ => cases ht
  · obtain ⟨item, hitem, e⟩ := List.mem_filterMap.1 ht
    obtain ⟨raw, -, emitted⟩ := mem_sanitizedItems hitem
    cases item with
    | str s =>
      obtain rfl := Option.some.inj e
      obtain ⟨source, -, accepted, e⟩ := text_of_sanitizePrimitive emitted
      exact ⟨source, accepted, e⟩
    | _ => cases e

/-! ## Once is enough -/

/-- No property is both given the prefix and checked for its URL scheme. -/
def IsSeparate (policy : Policy) : Prop :=
  ∀ name ∈ policy.clobber.names, policy.protocolsFor name = none

instance (policy : Policy) : Decidable policy.IsSeparate :=
  inferInstanceAs (Decidable (∀ name ∈ policy.clobber.names, policy.protocolsFor name = none))

theorem guardName_of_prefixed {text : String}
    (h : policy.isClobbered name = true → policy.clobberPrefix.toList <+: text.toList) :
    policy.guardName name text = text := by
  refine if_neg fun needs => ?_
  obtain ⟨clobbered, missing⟩ := Bool.and_eq_true_iff.1 needs
  rw [List.isPrefixOf_iff_prefix.2 (h clobbered)] at missing
  exact absurd missing Bool.false_ne_true

theorem guardName_of_not_prefixed {text : String} (clobbered : policy.isClobbered name = true)
    (missing : ¬ policy.clobberPrefix.toList <+: text.toList) :
    policy.guardName name text = policy.clobberPrefix ++ text := by
  refine if_pos (Bool.and_eq_true_iff.2 ⟨clobbered, ?_⟩)
  rw [Bool.not_eq_true', Bool.eq_false_iff]
  exact fun begins => missing (List.isPrefixOf_iff_prefix.1 begins)

theorem guardName_begins (clobbered : policy.isClobbered name = true) (text : String) :
    policy.clobberPrefix.toList <+: (policy.guardName name text).toList := by
  by_cases begins : policy.clobberPrefix.toList <+: text.toList
  · rw [guardName_of_prefixed fun _ => begins]
    exact begins
  · rw [guardName_of_not_prefixed clobbered begins, String.toList_append]
    exact List.prefix_append ..

theorem guardName_guardName (policy : Policy) (name text : String) :
    policy.guardName name (policy.guardName name text) = policy.guardName name text :=
  guardName_of_prefixed fun clobbered => guardName_begins clobbered text

theorem acceptsUrl_guardName (apart : policy.IsSeparate) {text : String}
    (h : policy.acceptsUrl name text = true) :
    policy.acceptsUrl name (policy.guardName name text) = true := by
  by_cases clobbered : policy.isClobbered name = true
  · -- A property with the prefix is not checked at all.
    have unchecked : policy.protocolsFor name = none :=
      apart name (NameSet.contains_iff.1 clobbered)
    simp only [acceptsUrl, unchecked]
  · have same : policy.guardName name text = text := by simp [guardName, clobbered]
    rwa [same]

theorem sanitizePrimitive_emitted (apart : policy.IsSeparate)
    (h : policy.sanitizePrimitive name raw = some value) :
    policy.sanitizePrimitive name value = some value := by
  cases value with
  | str text =>
    obtain ⟨source, -, accepted, rfl⟩ := text_of_sanitizePrimitive h
    simp only [sanitizePrimitive, acceptsUrl_guardName apart accepted, guardName_guardName, if_true]
  | _ => rfl

/-- An emitted value is emitted again as it is. -/
theorem sanitizeValue_emitted (apart : policy.IsSeparate)
    (h : policy.sanitizeValue name raw = some value) :
    policy.sanitizeValue name value = some value := by
  have ok := isPropertyValue_of_sanitizeValue h
  rcases sanitizeValue_cases h with ⟨prim, emitted⟩ | ⟨items, -, rfl⟩
  · rw [sanitizeValue_of_isPrimitive (isPrimitive_of_sanitizePrimitive prim emitted)]
    exact sanitizePrimitive_emitted apart emitted
  · have stable : (fun item => (policy.sanitizePrimitive name item).bind
        (policy.sanitizePrimitive name)) = policy.sanitizePrimitive name := by
      funext item
      cases e : policy.sanitizePrimitive name item with
      | none => rfl
      | some result => exact sanitizePrimitive_emitted apart e
    rw [sanitizeValue_of_items rfl, List.filter_eq_self.2 ok, List.filterMap_filterMap, stable]

end Policy

end SafeMarkup
