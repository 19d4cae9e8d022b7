/-
# Entries under texts

What putting and removing do to entries whose keys are texts.  As long as no key comes twice, one
look-up says all there is to say about a key (`find?_put`, `find?_remove`), and both operations keep
it so (`HasTextKeys.put`, `HasTextKeys.remove`).

Other values may be keys as well.  They do not disturb: a text is the same key as itself only, and
no text comes twice as a key (`nodup_textKeys_put`, `nodup_textKeys_remove`).

The difference between keys and texts is easily overlooked.  Keys are compared by sameness, which
identifies values of different types and fails to be reflexive, while for texts it is equality
(`sameKey_str_iff`).  `HasTextKeys` says that all keys are texts and none comes twice; it is what
drafts satisfy if they are edited with texts, what mappings read from JSON satisfy, and the
condition under which a mapping can be thought of as a finite function.
-/
import Mathlib.Data.List.Nodup
import SafeMarkup.Value.Key

namespace SafeMarkup.Value

variable {α : Type} {name other : String} {value : α} {entries : List (Value × α)}

theorem sameKey_str_iff {key : Value} : sameKey (.str name) key = true ↔ key = .str name := by
  cases key with
  | str text => simp [sameKey, isText]
  | _ => simp [sameKey, isText]

theorem sameKey_str_right_iff {key : Value} :
    sameKey key (.str name) = true ↔ key = .str name := by
  cases key with
  | str text => simp [sameKey, isText, eq_comm (a := text)]
  | float x => cases whole : x.toInt? <;> simp [sameKey, integer?, whole]
  | _ => simp [sameKey, integer?, isNull]

theorem isText_iff {key : Value} : key.isText name = true ↔ key = .str name :=
  sameKey_str_iff

theorem isText_str_iff : (Value.str name).isText other = true ↔ other = name := by
  simp [isText, eq_comm (a := name)]

/-- The keys are texts, and none of them comes twice. -/
structure HasTextKeys (entries : List (Value × α)) : Prop where
  texts : ∀ entry ∈ entries, ∃ name, entry.1 = .str name
  distinct : (entries.map Prod.fst).Nodup

/-- The texts among the keys. -/
def textKeys (entries : List (Value × α)) : List String :=
  entries.filterMap fun entry => entry.1.str?

theorem mem_textKeys_iff : name ∈ textKeys entries ↔ .str name ∈ entries.map Prod.fst := by
  simp only [textKeys, List.mem_filterMap, List.mem_map]
  refine exists_congr fun entry => and_congr_right fun _ => ?_
  cases entry.1 <;> simp [str?]

theorem keys_eq_textKeys (texts : ∀ entry ∈ entries, ∃ name, entry.1 = .str name) :
    entries.map Prod.fst = (textKeys entries).map .str := by
  induction entries with
  | nil => rfl
  | cons entry rest ih =>
    obtain ⟨key, value⟩ := entry
    obtain ⟨name, rfl⟩ := texts _ (.head _)
    rw [List.map_cons, ih fun entry he => texts entry (.tail _ he)]
    rfl

theorem nodup_keys_iff (texts : ∀ entry ∈ entries, ∃ name, entry.1 = .str name) :
    (entries.map Prod.fst).Nodup ↔ (textKeys entries).Nodup := by
  rw [keys_eq_textKeys texts]
  exact List.nodup_map_iff fun _ _ same => Value.str.inj same

theorem HasTextKeys.nodup_textKeys (h : HasTextKeys entries) : (textKeys entries).Nodup :=
  (nodup_keys_iff h.texts).1 h.distinct

/-! ## Putting -/

/-- Under a text stands what was put under it last, whatever is put under other keys. -/
theorem find?_put (key : Value) (other : String) (value : α) (entries : List (Value × α)) :
    find? (.str other) (put key value entries) =
      if key.isText other then some value else find? (.str other) entries := by
  induction entries with
  | nil => rfl
  | cons entry rest ih =>
    obtain ⟨found, held⟩ := entry
    unfold put
    split
    · next here =>
      simp only [find?]
      by_cases named : sameKey (.str other) found = true
      · obtain rfl := sameKey_str_iff.1 named
        obtain rfl := sameKey_str_right_iff.1 here
        rw [if_pos named, if_pos (isText_iff.2 rfl)]
      · have apart : ¬ key.isText other = true := by
          intro same
          obtain rfl := isText_iff.1 same
          exact named here
        rw [if_neg named, if_neg apart, if_neg named]
    · next elsewhere =>
      simp only [find?, ih]
      split
      · next named =>
        have apart : ¬ key.isText other = true := by
          intro same
          obtain rfl := isText_iff.1 same
          exact elsewhere named
        rw [if_neg apart]
      · rfl

theorem mem_keys_put {key found : Value} (h : found ∈ (put key value entries).map Prod.fst) :
    found = key ∨ found ∈ entries.map Prod.fst := by
  induction entries with
  | nil => exact .inl (List.mem_singleton.1 h)
  | cons entry rest ih =>
    unfold put at h
    split at h
    · exact .inr h
    · rcases List.mem_cons.1 h with rfl | h
      · exact .inr (.head _)
      · exact (ih h).imp id (.tail _)

theorem mem_put {entry : Value × α} (h : entry ∈ put (.str name) value entries) :
    entry.2 = value ∨ entry ∈ entries := by
  induction entries with
  | nil =>
    obtain rfl := List.mem_singleton.1 h
    exact .inl rfl
  | cons first rest ih =>
    unfold put at h
    split at h
    · rcases List.mem_cons.1 h with rfl | h
      · exact .inl rfl
      · exact .inr (.tail _ h)
    · rcases List.mem_cons.1 h with rfl | h
      · exact .inr (.head _)
      · exact (ih h).imp id (.tail _)

theorem nodup_textKeys_put (distinct : (textKeys entries).Nodup) (key : Value) (value : α) :
    (textKeys (put key value entries)).Nodup := by
  induction entries with
  | nil => cases key <;> simp [put, textKeys, str?]
  | cons entry rest ih =>
    obtain ⟨found, held⟩ := entry
    unfold put
    split
    · exact distinct
    · next elsewhere =>
      cases found with
      | str name =>
        obtain ⟨apart, later⟩ := List.nodup_cons.1 distinct
        refine List.nodup_cons.2 ⟨?_, ih later⟩
        intro again
        rcases mem_keys_put (mem_textKeys_iff.1 again) with rfl | old
        · exact elsewhere (sameKey_str_iff.2 rfl)
        · exact apart (mem_textKeys_iff.2 old)
      | _ => exact ih distinct

theorem HasTextKeys.put (h : HasTextKeys entries) (name : String) (value : α) :
    HasTextKeys (put (.str name) value entries) := by
  have texts : ∀ entry ∈ Value.put (.str name) value entries, ∃ name, entry.1 = .str name := by
    intro entry he
    rcases mem_keys_put (List.mem_map_of_mem he) with same | old
    · exact ⟨name, same⟩
    · obtain ⟨entry', he', same⟩ := List.mem_map.1 old
      exact same ▸ h.texts entry' he'
  exact ⟨texts, (nodup_keys_iff texts).2 (nodup_textKeys_put h.nodup_textKeys (.str name) value)⟩

/-! ## Removing -/

theorem find?_eq_none (h : Value.str name ∉ entries.map Prod.fst) :
    find? (.str name) entries = none := by
  induction entries with
  | nil => rfl
  | cons entry rest ih =>
    have elsewhere : ¬sameKey (.str name) entry.1 = true := by
      intro here
      exact h (sameKey_str_iff.1 here ▸ .head _)
    rw [find?, if_neg elsewhere]
    exact ih fun later => h (.tail _ later)

theorem remove_sublist (key : Value) (entries : List (Value × α)) :
    (remove key entries).Sublist entries := by
  induction entries with
  | nil => exact .slnil
  | cons entry rest ih =>
    unfold remove
    split
    · exact List.sublist_cons_self ..
    · exact ih.cons_cons entry

theorem nodup_textKeys_remove (distinct : (textKeys entries).Nodup) (key : Value) :
    (textKeys (remove key entries)).Nodup :=
  distinct.sublist ((remove_sublist key entries).filterMap _)

theorem find?_remove_self (distinct : (textKeys entries).Nodup) (name : String) :
    find? (.str name) (remove (.str name) entries) = none := by
  induction entries with
  | nil => rfl
  | cons entry rest ih =>
    obtain ⟨key, held⟩ := entry
    unfold remove
    split
    · next here =>
      obtain rfl := sameKey_str_iff.1 here
      obtain ⟨apart, -⟩ := List.nodup_cons.1 distinct
      exact find?_eq_none fun again => apart (mem_textKeys_iff.2 again)
    · next elsewhere =>
      rw [find?, if_neg elsewhere]
      exact ih (distinct.sublist ((List.sublist_cons_self _ rest).filterMap _))

theorem find?_remove_other {key : Value} (apart : ¬ key.isText other = true) :
    find? (.str other) (remove key entries) = find? (.str other) entries := by
  induction entries with
  | nil => rfl
  | cons entry rest ih =>
    unfold remove
    split
    · next here =>
      have elsewhere : ¬ sameKey (.str other) entry.1 = true := by
        intro named
        rw [sameKey_str_iff.1 named] at here
        exact apart (isText_iff.2 (sameKey_str_right_iff.1 here))
      rw [find?, if_neg elsewhere]
    · rw [find?, find?, ih]

theorem find?_remove (distinct : (textKeys entries).Nodup) (key : Value) (other : String) :
    find? (.str other) (remove key entries) =
      if key.isText other then none else find? (.str other) entries := by
  split
  · next named =>
    obtain rfl := isText_iff.1 named
    exact find?_remove_self distinct other
  · next apart => exact find?_remove_other apart

theorem HasTextKeys.remove (h : HasTextKeys entries) (key : Value) :
    HasTextKeys (remove key entries) := by
  have fewer := remove_sublist key entries
  exact ⟨fun entry he => h.texts entry (fewer.subset he), (fewer.map Prod.fst).nodup h.distinct⟩

end SafeMarkup.Value
