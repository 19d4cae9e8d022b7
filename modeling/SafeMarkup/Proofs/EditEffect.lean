/-
# The effect of an edit

An edit that does not fail has one effect (`edit_eq_applied`), which is written down here without
the checks of the arguments.

The keys of the maps in a draft may be any values.  If all edits come with texts for keys, the keys
are texts and none comes twice (`isKeyed_foldl_applied`), so the draft can be finished, and the
policy holds under each name what the draft holds under the text (`IsKeyed.exists_finish`).

This is the middle one of three steps from edits to policies.  `applied` is the effect of an edit
on the parts of a draft, still as functions on entries; what follows for the answers of the
finished policy, name by name, is in `Proofs/EditHistory.lean`, and edits that fail are in
`Proofs/FailedEdit.lean`.

A draft that holds something under a key which is no text cannot be finished, so the condition on
the keys is not a convenience.  It is asked of the edits and not of the draft, because the edits
are what a caller writes down.
-/
import SafeMarkup.Proofs.Export
import SafeMarkup.Proofs.TextKeys

namespace SafeMarkup

/-- The set without the names of a list. -/
def NameSet.eraseAll (set : NameSet) (names : List String) : NameSet :=
  names.foldl (fun set name => set.erase name) set

theorem NameSet.mem_eraseAll {set : NameSet} {names : List String} {name : String} :
    name ∈ set.eraseAll names ↔ name ∈ set ∧ name ∉ names := by
  unfold eraseAll
  induction names generalizing set with
  | nil => simp
  | cons first rest ih =>
    rw [List.foldl_cons, ih, mem_erase, List.mem_cons, not_or]
    constructor
    · rintro ⟨⟨apart, member⟩, later⟩
      exact ⟨member, apart, later⟩
    · rintro ⟨member, apart, later⟩
      exact ⟨⟨apart, member⟩, later⟩

namespace Edit

/-- The names among unchecked values. -/
def texts (values : List Value) : List String :=
  values.filterMap Value.str?

/-- The tag or property under which the edit changes something. -/
def key? : Edit → Option Value
  | .allowAttributes key _ | .disallowAttributes key _ | .setProtocols key _
  | .allowProtocols key _ | .uncheckProtocols key | .requireAncestors key _
  | .dropAncestorRule key => some key
  | _ => none

/-- The edit changes nothing, or something under a text. -/
def IsKeyed (change : Edit) : Prop :=
  ∀ key, change.key? = some key → ∃ name, key = .str name

theorem texts_map_str (names : List String) : texts (names.map .str) = names := by
  induction names with
  | nil => rfl
  | cons name rest ih =>
    show name :: texts (rest.map .str) = name :: rest
    rw [ih]

end Edit

namespace Draft

open Edit

variable {draft changed : Draft} {change : Edit}

/-! ## One edit -/

/-- The entries with names taken off what stands under a key, if anything does. -/
def eraseUnder (key : Value) (names : List String) (entries : List (Value × NameSet)) :
    List (Value × NameSet) :=
  match Value.find? key entries with
  | none => entries
  | some own => Value.put key (own.eraseAll names) entries

/-- What an edit that does not fail makes of the draft. -/
def applied (draft : Draft) : Edit → Draft
  | .allowTags names => { draft with tagNames := draft.tagNames.addAll (texts names) }
  | .disallowTags names => { draft with tagNames := draft.tagNames.eraseAll (texts names) }
  | .stripTags names => { draft with strip := draft.strip.addAll (texts names) }
  | .unstripTags names => { draft with strip := draft.strip.eraseAll (texts names) }
  | .allowAttributes tag names =>
    { draft with attributes := addUnder tag (texts names) draft.attributes }
  | .disallowAttributes tag names =>
    { draft with attributes := eraseUnder tag (texts names) draft.attributes }
  | .setProtocols name schemes =>
    let set := NameSet.ofList ((texts schemes).map Text.lowercase)
    { draft with protocols := Value.put name set draft.protocols }
  | .allowProtocols name schemes =>
    let names := (texts schemes).map Text.lowercase
    { draft with protocols := addUnder name names draft.protocols }
  | .uncheckProtocols name => { draft with protocols := Value.remove name draft.protocols }
  | .requireAncestors tag enclosing =>
    { draft with ancestors := Value.put tag (.ofList (texts enclosing)) draft.ancestors }
  | .dropAncestorRule tag => { draft with ancestors := Value.remove tag draft.ancestors }
  | .setClobber names => { draft with clobber := .ofList (texts names) }
  | .setClobberPrefix text => { draft with clobberPrefix := text.str?.getD draft.clobberPrefix }

theorem attempt_eq_iff {result : Except Fault Draft} :
    draft.attempt result = (changed, none) ↔ result = .ok changed := by
  cases result with
  | error fault => simp [attempt]
  | ok other => simp [attempt]

theorem takeOut_eq {values : List Value} {set : NameSet} (h : (takeOut values set).2 = none) :
    (takeOut values set).1 = set.eraseAll (texts values) := by
  induction values generalizing set with
  | nil => rfl
  | cons value rest ih =>
    by_cases fit : value.isKey
    · rw [takeOut, if_pos fit] at h ⊢
      have later := ih h
      cases value with
      | str name => exact later
      | _ => exact later
    · rw [takeOut, if_neg fit] at h
      cases h

theorem underKey_eq {field : String} {value key : Value} {values : List Value}
    {names : List String} (h : underKey field value values = .ok (key, names)) :
    key = value ∧ names = texts values := by
  simp only [underKey, bind_eq_ok_iff, Value.nameEntries_eq_ok_iff] at h
  obtain ⟨place, -, names', rfl, key', isKey, done⟩ := h
  cases done
  unfold Draft.key at isKey
  split at isKey
  · cases isKey
    exact ⟨rfl, (texts_map_str names).symm⟩
  · cases isKey

theorem dropKey_eq {value : Value} {entries entries' : List (Value × NameSet)}
    (h : dropKey value entries = .ok entries') : entries' = Value.remove value entries := by
  unfold dropKey at h
  split at h
  · next empty =>
    cases h
    rw [List.isEmpty_iff.1 empty]
    rfl
  · obtain ⟨key, isKey, rfl⟩ := map_eq_ok_iff.1 h
    unfold Draft.key at isKey
    split at isKey
    · cases isKey
      rfl
    · cases isKey

/-- An edit that does not fail has its one effect. -/
theorem edit_eq_applied (h : draft.edit change = (changed, none)) :
    changed = draft.applied change := by
  cases change with
  | allowTags names | stripTags names | setClobber names =>
    simp only [edit, attempt_eq_iff, bind_eq_ok_iff, Value.nameEntries_eq_ok_iff] at h
    obtain ⟨names', rfl, done⟩ := h
    cases done
    rw [applied, texts_map_str]
  | disallowTags names | unstripTags names =>
    simp only [edit, Prod.mk.injEq] at h
    obtain ⟨rfl, ran⟩ := h
    rw [applied, takeOut_eq ran]
  | allowAttributes tag names | setProtocols tag names | allowProtocols tag names
  | requireAncestors tag names =>
    simp only [edit, attempt_eq_iff, bind_eq_ok_iff] at h
    obtain ⟨⟨key, names'⟩, read, done⟩ := h
    obtain ⟨rfl, rfl⟩ := underKey_eq read
    cases done
    rfl
  | disallowAttributes tag names =>
    simp only [edit] at h
    split at h
    · cases h
    · next key isKey =>
      unfold Draft.key at isKey
      split at isKey
      · cases isKey
        -- A tag without an entry of its own gets none.
        cases found : Value.find? tag draft.attributes with
        | none =>
          simp only [found] at h
          cases h
          simp only [applied, eraseUnder, found]
        | some own =>
          simp only [found, Prod.mk.injEq] at h
          obtain ⟨rfl, ran⟩ := h
          simp only [applied, eraseUnder, found, takeOut_eq ran]
      · cases isKey
  | uncheckProtocols name | dropAncestorRule name =>
    simp only [edit, attempt_eq_iff, bind_eq_ok_iff] at h
    obtain ⟨entries, dropped, done⟩ := h
    cases done
    rw [applied, dropKey_eq dropped]
  | setClobberPrefix text =>
    simp only [edit, attempt_eq_iff, bind_eq_ok_iff] at h
    obtain ⟨s, read, done⟩ := h
    cases done
    cases text with
    | str text =>
      cases read
      rfl
    | _ => cases read

/-! ## A sequence of edits -/

theorem editAll_eq_applied {edits : List Edit} {last : Draft}
    (ran : draft.editAll edits = .ok last) : last = edits.foldl applied draft := by
  induction edits generalizing draft with
  | nil =>
    cases ran
    rfl
  | cons change rest ih =>
    unfold editAll at ran
    split at ran
    · next changed step =>
      rw [edit_eq_applied step] at ran
      exact ih ran
    · cases ran

/-- The keys of the maps are texts, and none comes twice. -/
structure IsKeyed (draft : Draft) : Prop where
  attributes : Value.HasTextKeys draft.attributes
  protocols : Value.HasTextKeys draft.protocols
  ancestors : Value.HasTextKeys draft.ancestors

theorem hasTextKeys_eraseUnder {entries : List (Value × NameSet)} (h : Value.HasTextKeys entries)
    (name : String) (names : List String) :
    Value.HasTextKeys (eraseUnder (.str name) names entries) := by
  unfold eraseUnder
  split
  · exact h
  · exact h.put name _

theorem IsKeyed.applied (keyed : draft.IsKeyed) (textual : change.IsKeyed) :
    (draft.applied change).IsKeyed := by
  obtain ⟨attributes, protocols, ancestors⟩ := keyed
  cases change with
  | allowTags | disallowTags | stripTags | unstripTags | setClobber | setClobberPrefix =>
    exact ⟨attributes, protocols, ancestors⟩
  | allowAttributes tag names =>
    obtain ⟨name, rfl⟩ := textual tag rfl
    exact ⟨attributes.put name _, protocols, ancestors⟩
  | disallowAttributes tag names =>
    obtain ⟨name, rfl⟩ := textual tag rfl
    exact ⟨hasTextKeys_eraseUnder attributes name _, protocols, ancestors⟩
  | setProtocols key schemes | allowProtocols key schemes =>
    obtain ⟨name, rfl⟩ := textual key rfl
    exact ⟨attributes, protocols.put name _, ancestors⟩
  | uncheckProtocols key => exact ⟨attributes, protocols.remove key, ancestors⟩
  | requireAncestors tag enclosing =>
    obtain ⟨name, rfl⟩ := textual tag rfl
    exact ⟨attributes, protocols, ancestors.put name _⟩
  | dropAncestorRule tag => exact ⟨attributes, protocols, ancestors.remove tag⟩

theorem isKeyed_foldl_applied {edits : List Edit} (keyed : draft.IsKeyed)
    (textual : ∀ change ∈ edits, change.IsKeyed) : (edits.foldl applied draft).IsKeyed := by
  induction edits generalizing draft with
  | nil => exact keyed
  | cons change rest ih =>
    have first := keyed.applied (textual change (.head _))
    exact ih first fun later member => textual later (.tail _ member)

/-! ## Beginning and end -/

theorem find?_names (name : String) (entries : List (String × NameSet)) :
    Value.find? (.str name) (entries.map fun entry => (.str entry.1, entry.2)) =
      NameMap.lookup name entries := by
  induction entries with
  | nil => rfl
  | cons entry rest ih =>
    rw [List.map_cons, Value.find?, NameMap.lookup, ih]
    simp only [Value.sameKey_str_iff, Value.str.injEq, eq_comm (a := name)]

theorem find?_openMap (name : String) (map : NameMap) :
    Value.find? (.str name) (openMap map) = map.get? name :=
  find?_names name map.entries

theorem hasTextKeys_openMap (map : NameMap) : Value.HasTextKeys (openMap map) := by
  constructor
  · intro entry he
    obtain ⟨own, -, rfl⟩ := List.mem_map.1 he
    exact ⟨own.1, rfl⟩
  · rw [openMap, List.map_map]
    refine List.pairwise_map.2 ((NameMap.distinct_of_ascending map.ascending).imp ?_)
    intro one other apart same
    exact apart (Value.str.inj same)

theorem isKeyed_ofPolicy (policy : Policy) : (ofPolicy policy).IsKeyed :=
  ⟨hasTextKeys_openMap _, hasTextKeys_openMap _, hasTextKeys_openMap _⟩

theorem finishEntries_eq_ok_iff {key : String} {entries : List (Value × NameSet)}
    {named : List (String × NameSet)} :
    finishEntries key entries = .ok named ↔
      entries = named.map fun entry => (.str entry.1, entry.2) := by
  constructor
  · intro done
    induction entries generalizing named with
    | nil =>
      cases done
      rfl
    | cons entry rest ih =>
      obtain ⟨found, set⟩ := entry
      cases found with
      | str name =>
        obtain ⟨later, ran, rfl⟩ := map_eq_ok_iff.1 done
        rw [ih ran]
        rfl
      | _ => cases done
  · rintro rfl
    exact finishEntries_names key named

theorem exists_named {entries : List (Value × NameSet)}
    (texts : ∀ entry ∈ entries, ∃ name, entry.1 = .str name) :
    ∃ named : List (String × NameSet),
      entries = named.map fun entry => (.str entry.1, entry.2) := by
  induction entries with
  | nil => exact ⟨[], rfl⟩
  | cons entry rest ih =>
    obtain ⟨key, set⟩ := entry
    obtain ⟨name, isName⟩ := texts _ (.head _)
    obtain ⟨named, rfl⟩ := ih fun other ho => texts other (.tail _ ho)
    exact ⟨(name, set) :: named, by rw [List.map_cons, ← isName]⟩

theorem get?_finishMap {key : String} {entries : List (Value × NameSet)} {map : NameMap}
    (distinct : (Value.textKeys entries).Nodup) (finished : finishMap key entries = .ok map)
    (name : String) : map.get? name = Value.find? (.str name) entries := by
  obtain ⟨named, done, rfl⟩ := map_eq_ok_iff.1 finished
  obtain rfl := finishEntries_eq_ok_iff.1 done
  have apart : named.Pairwise (·.1 ≠ ·.1) := by
    rw [Value.textKeys, List.filterMap_map] at distinct
    exact List.pairwise_map.1 (List.filterMap_eq_map ▸ distinct)
  rw [NameMap.get?_ofEntries apart, find?_names]

theorem exists_finishMap (key : String) {entries : List (Value × NameSet)}
    (h : Value.HasTextKeys entries) :
    ∃ map, finishMap key entries = .ok map ∧
      ∀ name, map.get? name = Value.find? (.str name) entries := by
  obtain ⟨named, same⟩ := exists_named h.texts
  have finished : finishMap key entries = .ok (.ofEntries named) := by
    rw [same, finishMap, finishEntries_names]
    rfl
  exact ⟨_, finished, get?_finishMap h.nodup_textKeys finished⟩

/-- A draft with texts for keys can be finished, and the policy holds what the draft holds. -/
theorem IsKeyed.exists_finish (keyed : draft.IsKeyed) :
    ∃ attributes protocols ancestors,
      draft.finish = .ok ⟨draft.tagNames, attributes, protocols, ancestors, draft.clobber,
        draft.clobberPrefix, draft.strip⟩ ∧
      (∀ name, attributes.get? name = Value.find? (.str name) draft.attributes) ∧
      (∀ name, protocols.get? name = Value.find? (.str name) draft.protocols) ∧
      ∀ name, ancestors.get? name = Value.find? (.str name) draft.ancestors := by
  obtain ⟨attributes, finished₁, held₁⟩ := exists_finishMap "attributes" keyed.attributes
  obtain ⟨protocols, finished₂, held₂⟩ := exists_finishMap "protocols" keyed.protocols
  obtain ⟨ancestors, finished₃, held₃⟩ := exists_finishMap "ancestors" keyed.ancestors
  refine ⟨attributes, protocols, ancestors, ?_, held₁, held₂, held₃⟩
  rw [finish, finished₁, finished₂, finished₃]
  rfl

end Draft

end SafeMarkup
