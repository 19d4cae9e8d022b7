/-
# What a configuration says

A part of a policy is given as a value, and reading it can fail.  `Value.Lists` and
`Value.ListsMap` say which values stand for which sets and maps of names, without regard to the
order of items and entries and to repetition, and `nameSet_eq_ok_iff` and `nameMap_eq_ok_iff` say
that reading succeeds on these values and gives what they stand for.

URL schemes are taken in lower case.  A text in lower case is its own lower-case form, so the policy
that was configured from whatever values has its schemes in lower case for good
(`isLowered_of_configure`): taking them so once more changes nothing.

The statements are about success only.  Which fault comes of a value that does not list names, and
which part is reported if several are wrong, is another matter, with its own invariant, and stands
in `Proofs/Acceptance.lean`.

`Lists` is a relation and not a function because several values list the same names.  It decides
the set (`Lists.unique`), so a policy is determined by what was listed, and everything that is said
later about order and repetition follows from this one fact.
-/
import Mathlib.Data.List.Nodup
import SafeMarkup.Policy.Draft
import SafeMarkup.Proofs.LowerCase
import SafeMarkup.Proofs.Pairing
import SafeMarkup.Proofs.Steps

namespace SafeMarkup

namespace Value

/-! ## Sets of names -/

/-- The value is a collection of names, and they are those of the set. -/
def Lists (value : Value) (set : NameSet) : Prop :=
  ∃ items, value.collection? = some items ∧ (∀ item ∈ items, ∃ name, item = .str name) ∧
    ∀ name, name ∈ set ↔ .str name ∈ items

theorem nameEntries_eq_ok_iff {key : String} {items : List Value} {names : List String} :
    nameEntries key items = .ok names ↔ items = names.map .str := by
  induction items generalizing names with
  | nil =>
    rw [nameEntries, eq_comm (a := ([] : List Value)), List.map_eq_nil_iff]
    constructor
    · intro h
      exact (Except.ok.inj h).symm
    · rintro rfl
      rfl
  | cons item rest ih =>
    cases item with
    | str text =>
      simp only [nameEntries, str?, map_eq_ok_iff, ih]
      constructor
      · rintro ⟨later, rfl, rfl⟩
        rfl
      · intro h
        cases names with
        | nil => cases h
        | cons first later =>
          cases h
          exact ⟨later, rfl, rfl⟩
    | _ =>
      constructor
      · intro h
        cases h
      · intro h
        cases names <;> cases h

theorem mem_map_str {name : String} {names : List String} :
    Value.str name ∈ names.map .str ↔ name ∈ names := by
  constructor
  · intro h
    obtain ⟨other, ho, same⟩ := List.mem_map.1 h
    exact Value.str.inj same ▸ ho
  · exact List.mem_map_of_mem

theorem exists_names {items : List Value} (texts : ∀ item ∈ items, ∃ name, item = .str name) :
    ∃ names : List String, items = names.map .str := by
  induction items with
  | nil => exact ⟨[], rfl⟩
  | cons item rest ih =>
    obtain ⟨name, rfl⟩ := texts item (.head _)
    obtain ⟨names, rfl⟩ := ih fun other ho => texts other (.tail _ ho)
    exact ⟨name :: names, rfl⟩

theorem nameSet_eq_ok_iff {key : String} {value : Value} {set : NameSet} :
    nameSet key value = .ok set ↔ value.Lists set := by
  unfold nameSet Lists
  cases value.collection? with
  | none =>
    constructor
    · intro h
      cases h
    · rintro ⟨items, h, -⟩
      cases h
  | some items =>
    simp only [map_eq_ok_iff, nameEntries_eq_ok_iff, Option.some.injEq]
    constructor
    · rintro ⟨names, rfl, rfl⟩
      refine ⟨names.map .str, rfl, ?_, ?_⟩
      · intro item ho
        obtain ⟨name, -, rfl⟩ := List.mem_map.1 ho
        exact ⟨name, rfl⟩
      · intro name
        rw [NameSet.mem_ofList, mem_map_str]
    · rintro ⟨_, rfl, texts, same⟩
      obtain ⟨names, rfl⟩ := exists_names texts
      refine ⟨names, rfl, ?_⟩
      rw [NameSet.ext_iff]
      intro name
      rw [NameSet.mem_ofList, same, mem_map_str]

theorem Lists.unique {value : Value} {set set' : NameSet} (h : value.Lists set)
    (h' : value.Lists set') : set = set' := by
  have read : nameSet "" value = .ok set := nameSet_eq_ok_iff.2 h
  rw [nameSet_eq_ok_iff.2 h'] at read
  exact (Except.ok.inj read).symm

/-! ## Maps of names -/

/-- The value is a mapping from names to collections of names, and they stand in the map. -/
def ListsMap (value : Value) (map : NameMap) : Prop :=
  ∃ entries, value = .map entries ∧
    (∀ entry ∈ entries, ∃ name set, entry.1 = .str name ∧ entry.2.Lists set) ∧
    ∀ name set, map.get? name = some set ↔
      ∃ value, (.str name, value) ∈ entries ∧ value.Lists set

/-- A mapping, with each of its keys there once. -/
def HasDistinctKeys (value : Value) : Prop :=
  ∀ entries, value = .map entries → (entries.map Prod.fst).Nodup

/-- The entry of a mapping lists what stands in the entry of a map. -/
def ListsEntry (entry : Value × Value) (own : String × NameSet) : Prop :=
  entry.1 = .str own.1 ∧ entry.2.Lists own.2

theorem nameMapEntries_eq_ok_iff {key : String} {entries : List (Value × Value)}
    {owns : List (String × NameSet)} :
    nameMapEntries key entries = .ok owns ↔ List.Forall₂ ListsEntry entries owns := by
  induction entries generalizing owns with
  | nil =>
    rw [nameMapEntries, List.forall₂_nil_left_iff]
    constructor
    · intro h
      exact (Except.ok.inj h).symm
    · rintro rfl
      rfl
  | cons entry rest ih =>
    obtain ⟨found, value⟩ := entry
    rw [List.forall₂_cons_left_iff]
    cases found with
    | str name =>
      simp only [nameMapEntries, str?, bind_eq_ok_iff, nameSet_eq_ok_iff, ih]
      constructor
      · rintro ⟨set, lists, others, pairs, h⟩
        cases h
        exact ⟨(name, set), others, ⟨rfl, lists⟩, pairs, rfl⟩
      · rintro ⟨⟨other, set⟩, others, ⟨same, lists⟩, pairs, rfl⟩
        cases same
        exact ⟨set, lists, others, pairs, rfl⟩
    | _ =>
      constructor
      · intro h
        cases h
      · rintro ⟨own, others, ⟨same, -⟩, -⟩
        cases same

theorem keys_of_listsEntries {entries : List (Value × Value)} {owns : List (String × NameSet)}
    (h : List.Forall₂ ListsEntry entries owns) :
    entries.map Prod.fst = (owns.map Prod.fst).map .str := by
  induction h with
  | nil => rfl
  | cons first _ ih =>
    rw [List.map_cons, List.map_cons, List.map_cons, first.1, ih]

theorem mem_owns_iff {entries : List (Value × Value)} {owns : List (String × NameSet)}
    (h : List.Forall₂ ListsEntry entries owns) {name : String} {set : NameSet} :
    (name, set) ∈ owns ↔ ∃ value, (.str name, value) ∈ entries ∧ value.Lists set := by
  induction h with
  | nil => simp
  | @cons entry own rest others first _ ih =>
    obtain ⟨key, value⟩ := entry
    obtain ⟨other, listed⟩ := own
    obtain ⟨same, lists⟩ := first
    simp only at same lists
    subst same
    constructor
    · intro member
      rcases List.mem_cons.1 member with e | e
      · cases e
        exact ⟨value, .head _, lists⟩
      · obtain ⟨value, found, listed⟩ := ih.1 e
        exact ⟨value, .tail _ found, listed⟩
    · rintro ⟨value', found, listed'⟩
      rcases List.mem_cons.1 found with e | e
      · cases e
        rw [lists.unique listed']
        exact .head _
      · exact .tail _ (ih.2 ⟨value', e, listed'⟩)

/-- A map of names is read from the values that list its entries. -/
theorem nameMap_eq_ok_iff {key : String} {value : Value} {map : NameMap}
    (distinct : value.HasDistinctKeys) : nameMap key value = .ok map ↔ value.ListsMap map := by
  cases value with
  | map entries =>
    have once := distinct entries rfl
    have held {owns : List (String × NameSet)} (pairs : List.Forall₂ ListsEntry entries owns)
        (name : String) (set : NameSet) : (NameMap.ofEntries owns).get? name = some set ↔
          ∃ value, (.str name, value) ∈ entries ∧ value.Lists set := by
      rw [keys_of_listsEntries pairs] at once
      have apart : owns.Pairwise (·.1 ≠ ·.1) := List.pairwise_map.1 (List.Nodup.of_map _ once)
      rw [NameMap.get?_ofEntries apart, NameMap.lookup_eq_some_iff apart, mem_owns_iff pairs]
    simp only [nameMap, entries?, map_eq_ok_iff, nameMapEntries_eq_ok_iff]
    constructor
    · rintro ⟨owns, pairs, rfl⟩
      refine ⟨entries, rfl, ?_, held pairs⟩
      intro entry he
      obtain ⟨own, -, same, lists⟩ := exists_right_of_forall₂ pairs entry he
      exact ⟨own.1, own.2, same, lists⟩
    · rintro ⟨_, same, listed, holds⟩
      cases same
      have paired : ∀ entry ∈ entries, ∃ own, ListsEntry entry own := by
        intro entry he
        obtain ⟨name, set, key, lists⟩ := listed entry he
        exact ⟨(name, set), key, lists⟩
      obtain ⟨owns, pairs⟩ := exists_forall₂ paired
      refine ⟨owns, pairs, ?_⟩
      rw [NameMap.ext_iff]
      intro name
      refine Option.ext fun set => ?_
      rw [held pairs, holds]
  | _ =>
    constructor
    · intro h
      cases h
    · rintro ⟨entries, h, -⟩
      cases h

end Value

/-! ## Maps whose names are changed -/

namespace NameMap

variable {f : String → String} {map : NameMap}

theorem get?_mapNames (f : String → String) (map : NameMap) (key : String) :
    (map.mapNames f).get? key = (map.get? key).map (NameSet.map f) := by
  have distinct : (map.entries.map fun entry => (entry.1, entry.2.map f)).Pairwise
      (·.1 ≠ ·.1) := List.pairwise_map.2 (distinct_of_ascending map.ascending)
  rw [mapNames, get?_ofEntries distinct, get?]
  induction map.entries with
  | nil => rfl
  | cons entry rest ih =>
    rw [List.map_cons, lookup, lookup]
    split
    · rfl
    · exact ih

theorem mapNames_eq_self
    (h : ∀ key set, map.get? key = some set → ∀ name ∈ set, f name = name) :
    map.mapNames f = map := by
  rw [ext_iff]
  intro key
  rw [get?_mapNames]
  cases held : map.get? key with
  | none => rfl
  | some set =>
    have same := h key set held
    refine congrArg some ?_
    rw [NameSet.ext_iff]
    intro name
    rw [NameSet.mem_map]
    constructor
    · rintro ⟨source, member, rfl⟩
      rwa [same source member]
    · intro member
      exact ⟨name, member, same name member⟩

end NameMap

namespace Policy

/-! ## Policies -/

variable {given : Part → Option Value} {policy : Policy}

theorem readPart_eq_ok_iff {α : Type} {part : Part} {read : String → Value → Except Fault α}
    {default result : α} :
    readPart given part read default = .ok result ↔
      given part = none ∧ result = default ∨
        ∃ value, given part = some value ∧ read part.key value = .ok result := by
  unfold readPart
  cases given part with
  | none => simp [eq_comm]
  | some value => simp

/-- A policy is configured part by part, and its URL schemes are taken in lower case. -/
theorem configure_eq_ok_iff :
    configure given = .ok policy ↔
      readPart given .tagNames Value.nameSet ({} : Policy).tagNames = .ok policy.tagNames ∧
      readPart given .attributes Value.nameMap ∅ = .ok policy.attributes ∧
      (∃ protocols, readPart given .protocols Value.nameMap ∅ = .ok protocols ∧
        protocols.mapNames Text.lowercase = policy.protocols) ∧
      readPart given .ancestors Value.nameMap ∅ = .ok policy.ancestors ∧
      readPart given .clobber Value.nameSet ({} : Policy).clobber = .ok policy.clobber ∧
      readPart given .strip Value.nameSet ({} : Policy).strip = .ok policy.strip ∧
      readPart given .clobberPrefix Value.nameText ({} : Policy).clobberPrefix =
        .ok policy.clobberPrefix := by
  simp only [configure, bind_eq_ok_iff]
  constructor
  · rintro ⟨tagNames, h₁, attributes, h₂, protocols, h₃, ancestors, h₄, clobber, h₅, strip, h₆,
      clobberPrefix, h₇, done⟩
    cases done
    exact ⟨h₁, h₂, ⟨protocols, h₃, rfl⟩, h₄, h₅, h₆, h₇⟩
  · rintro ⟨h₁, h₂, ⟨protocols, h₃, lowered⟩, h₄, h₅, h₆, h₇⟩
    refine ⟨_, h₁, _, h₂, _, h₃, _, h₄, _, h₅, _, h₆, _, h₇, ?_⟩
    rw [lowered]
    rfl

/-- The URL schemes of the policy are in lower case. -/
def IsLowered (policy : Policy) : Prop :=
  ∀ property set, policy.protocols.get? property = some set →
    ∀ scheme ∈ set, Text.lowercase scheme = scheme

theorem IsLowered.mapNames_eq (h : policy.IsLowered) :
    policy.protocols.mapNames Text.lowercase = policy.protocols :=
  NameMap.mapNames_eq_self h

theorem isLowered_of_configure (h : configure given = .ok policy) : policy.IsLowered := by
  obtain ⟨-, -, ⟨protocols, -, lowered⟩, -⟩ := configure_eq_ok_iff.1 h
  intro property set held scheme member
  rw [← lowered, NameMap.get?_mapNames] at held
  obtain ⟨source, -, rfl⟩ := Option.map_eq_some_iff.1 held
  obtain ⟨name, -, rfl⟩ := NameSet.mem_map.1 member
  exact Text.lowercase_lowercase name

end Policy

end SafeMarkup
