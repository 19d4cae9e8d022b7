/-
# Policies that are written down and read back

A policy is exported as a mapping with sorted lists, and edited by way of a draft.  Either way it
comes back as it was, keys with empty sets included (`ofValue_toValue_configured`): reading the
export gives the policy, and so does finishing a draft of it that was not edited.

Finishing a draft takes its parts as they are, while a policy that is configured has its URL schemes
taken in lower case.  `Draft.handedOver` is what a draft amounts to as a configuration, and
`configure_handedOver` says that configuring a policy from it is finishing the draft, with the
schemes in lower case after that.  A policy that was configured at all has them so already.

The export does not show how the policy was supplied.  Two policies have the same export only if
they are the same, and configurations that list the same names, in another order or with
repetitions, give the same policy.

Canonical means here that the export can stand for the policy: it is the same for two policies if
and only if they are the same, so policies can be compared, stored and looked up by their exports.
A key with an empty set is exported as such, because it is not the same as no key (a property that
accepts no scheme is still checked).
-/
import Mathlib.Data.Option.Basic
import SafeMarkup.Proofs.Configuration
import SafeMarkup.Proofs.Tightening

namespace SafeMarkup

namespace Value

/-! ## Reading what was exported -/

theorem lists_nameList (set : NameSet) : (Policy.nameList set).Lists set := by
  refine ⟨set.names.map .str, rfl, ?_, ?_⟩
  · intro item ho
    obtain ⟨name, -, rfl⟩ := List.mem_map.1 ho
    exact ⟨name, rfl⟩
  · intro name
    rw [mem_map_str]
    exact Iff.rfl

theorem nameMap_nameLists (key : String) (map : NameMap) :
    nameMap key (Policy.nameLists map) = .ok map := by
  have pairs : List.Forall₂ ListsEntry
      (map.entries.map fun entry => (.str entry.1, Policy.nameList entry.2)) map.entries := by
    rw [List.forall₂_map_left_iff, List.forall₂_same]
    intro entry _
    exact ⟨rfl, lists_nameList entry.2⟩
  have read : nameMapEntries key (map.entries.map fun entry =>
      (.str entry.1, Policy.nameList entry.2)) = .ok map.entries := nameMapEntries_eq_ok_iff.2 pairs
  rw [nameMap, Policy.nameLists, entries?]
  simp only [read, Except.map, NameMap.ofEntries_entries]

end Value

namespace Draft

/-! ## What a draft amounts to as a configuration -/

/-- The entries of a map in a draft, with the sets as values. -/
def handedEntries (entries : List (Value × NameSet)) : List (Value × Value) :=
  entries.map fun entry => (entry.1, .set (entry.2.names.map .str))

/-- The parts of the draft, as values that a policy can be configured from. -/
def handedOver (draft : Draft) : Part → Option Value
  | .tagNames => some (.set (draft.tagNames.names.map .str))
  | .attributes => some (.map (handedEntries draft.attributes))
  | .protocols => some (.map (handedEntries draft.protocols))
  | .ancestors => some (.map (handedEntries draft.ancestors))
  | .clobber => some (.set (draft.clobber.names.map .str))
  | .strip => some (.set (draft.strip.names.map .str))
  | .clobberPrefix => some (.str draft.clobberPrefix)

theorem nameSet_names (key : String) (set : NameSet) :
    Value.nameSet key (.set (set.names.map .str)) = .ok set :=
  Value.nameSet_eq_ok_iff.2 (Value.lists_nameList set)

theorem nameMapEntries_handedEntries (key : String) (entries : List (Value × NameSet)) :
    Value.nameMapEntries key (handedEntries entries) = finishEntries key entries := by
  induction entries with
  | nil => rfl
  | cons entry rest ih =>
    obtain ⟨found, set⟩ := entry
    cases found with
    | str name =>
      show (do
        let set ← Value.nameSet (key ++ "." ++ name) (.set (set.names.map .str))
        let others ← Value.nameMapEntries key (handedEntries rest)
        return (name, set) :: others) = (finishEntries key rest).map ((name, set) :: ·)
      rw [nameSet_names, ih]
      cases finishEntries key rest <;> rfl
    | _ => rfl

theorem nameMap_handedEntries (key : String) (entries : List (Value × NameSet)) :
    Value.nameMap key (.map (handedEntries entries)) = finishMap key entries := by
  rw [Value.nameMap, Value.entries?, finishMap]
  simp only [nameMapEntries_handedEntries]

/-- Configuring a policy from a draft is finishing the draft and taking the URL schemes in lower
case. -/
theorem configure_handedOver (draft : Draft) :
    Policy.configure draft.handedOver = draft.finish.map fun policy =>
      { policy with protocols := policy.protocols.mapNames Text.lowercase } := by
  simp only [Policy.configure, Policy.readPart, handedOver, nameSet_names, nameMap_handedEntries,
    Value.nameText, Value.str?, Part.key, finish, bind, Except.bind]
  cases finishMap "attributes" draft.attributes with
  | error fault => rfl
  | ok attributes =>
    cases finishMap "protocols" draft.protocols with
    | error fault => rfl
    | ok protocols =>
      cases finishMap "ancestors" draft.ancestors with
      | error fault => rfl
      | ok ancestors => rfl

/-- Where the schemes of the finished policy are in lower case, the two are the same. -/
theorem configure_eq_finish {draft : Draft} {policy : Policy} (finished : draft.finish = .ok policy)
    (lowered : policy.IsLowered) : Policy.configure draft.handedOver = .ok policy := by
  rw [configure_handedOver, finished, Except.map, lowered.mapNames_eq]

theorem finish_ofPolicy (policy : Policy) : (ofPolicy policy).finish = .ok policy := by
  simp only [finish, ofPolicy, finishMap_openMap]
  rfl

end Draft

namespace Policy

variable {policy other : Policy} {given given' : Part → Option Value}

/-! ## The export -/

theorem ofValue_export (policy : Policy) :
    ofValue policy.toValue =
      .ok { policy with protocols := policy.protocols.mapNames Text.lowercase } := by
  have sets (key : String) (set : NameSet) : Value.nameSet key (nameList set) = .ok set :=
    Value.nameSet_eq_ok_iff.2 (Value.lists_nameList set)
  simp [ofValue, toValue, Value.entries?, configure, readPart, Part.given?, Part.isKeyedBy,
    Part.key, Part.plainKey, Value.isText, sets, Value.nameMap_nameLists, Value.nameText,
    Value.str?, bind, Except.bind, pure, Except.pure]

theorem nameList_inj {set set' : NameSet} : nameList set = nameList set' ↔ set = set' := by
  constructor
  · intro same
    have lists := Value.lists_nameList set
    rw [same] at lists
    exact lists.unique (Value.lists_nameList set')
  · rintro rfl
    rfl

theorem nameLists_inj {map map' : NameMap} : nameLists map = nameLists map' ↔ map = map' := by
  constructor
  · intro same
    have read := Value.nameMap_nameLists "" map
    rw [same, Value.nameMap_nameLists] at read
    exact (Except.ok.inj read).symm
  · rintro rfl
    rfl

theorem toValue_inj : policy.toValue = other.toValue ↔ policy = other := by
  constructor
  · intro same
    simp only [toValue, Value.map.injEq, List.cons.injEq, Prod.mk.injEq, true_and, and_true,
      nameList_inj, nameLists_inj, Value.str.injEq] at same
    obtain ⟨tagNames, attributes, protocols, ancestors, clobber, clobberPrefix, strip⟩ := same
    cases policy
    cases other
    simp only at tagNames attributes protocols ancestors clobber clobberPrefix strip
    rw [tagNames, attributes, protocols, ancestors, clobber, clobberPrefix, strip]
  · rintro rfl
    rfl

/-! ## The same configuration in another order -/

/-- Two collections with the same items, in whatever order and however often each. -/
def SameItems (value other : Value) : Prop :=
  ∃ items others, value.collection? = some items ∧ other.collection? = some others ∧
    ∀ item, item ∈ items ↔ item ∈ others

/-- Two mappings with the same keys, in whatever order, and collections with the same items under
each of them. -/
def SameEntries (value other : Value) : Prop :=
  ∃ entries others, value = .map entries ∧ other = .map others ∧
    (entries.map Prod.fst).Nodup ∧ (others.map Prod.fst).Nodup ∧
    (∀ entry ∈ entries, ∃ other ∈ others, entry.1 = other.1 ∧ SameItems entry.2 other.2) ∧
    ∀ other ∈ others, ∃ entry ∈ entries, entry.1 = other.1 ∧ SameItems entry.2 other.2

/-- The two configurations list the same names in each part. -/
structure SuppliedAlike (given given' : Part → Option Value) : Prop where
  tagNames : Option.Rel SameItems (given .tagNames) (given' .tagNames)
  attributes : Option.Rel SameEntries (given .attributes) (given' .attributes)
  protocols : Option.Rel SameEntries (given .protocols) (given' .protocols)
  ancestors : Option.Rel SameEntries (given .ancestors) (given' .ancestors)
  clobber : Option.Rel SameItems (given .clobber) (given' .clobber)
  strip : Option.Rel SameItems (given .strip) (given' .strip)
  clobberPrefix : given .clobberPrefix = given' .clobberPrefix

theorem lists_of_sameItems {value other : Value} {set : NameSet} (same : SameItems value other)
    (lists : value.Lists set) : other.Lists set := by
  obtain ⟨items, others, collected, collected', members⟩ := same
  obtain ⟨items', collected'', texts, listed⟩ := lists
  obtain rfl : items = items' := Option.some.inj (collected.symm.trans collected'')
  refine ⟨others, collected', ?_, ?_⟩
  · intro item ho
    exact texts item ((members item).2 ho)
  · intro name
    rw [listed, members]

theorem SameItems.symm {value other : Value} (same : SameItems value other) :
    SameItems other value := by
  obtain ⟨items, others, collected, collected', members⟩ := same
  exact ⟨others, items, collected', collected, fun item => (members item).symm⟩

theorem listsMap_of_sameEntries {value other : Value} {map : NameMap}
    (same : SameEntries value other) (lists : value.ListsMap map) : other.ListsMap map := by
  obtain ⟨entries, others, rfl, rfl, -, -, there, back⟩ := same
  obtain ⟨_, e, listed, held⟩ := lists
  cases e
  refine ⟨others, rfl, ?_, ?_⟩
  · intro other ho
    obtain ⟨entry, he, key, items⟩ := back other ho
    obtain ⟨name, set, isName, lists⟩ := listed entry he
    exact ⟨name, set, key ▸ isName, lists_of_sameItems items lists⟩
  · intro name set
    rw [held]
    constructor
    · rintro ⟨value, found, lists⟩
      obtain ⟨⟨key, value'⟩, found', same, items⟩ := there _ found
      cases same
      exact ⟨value', found', lists_of_sameItems items lists⟩
    · rintro ⟨value, found, lists⟩
      obtain ⟨⟨key, value'⟩, found', same, items⟩ := back _ found
      cases same
      exact ⟨value', found', lists_of_sameItems items.symm lists⟩

theorem readPart_of_rel {α : Type} {part : Part} {read : String → Value → Except Fault α}
    {default result : α} {R : Value → Value → Prop}
    (alike : ∀ value other, R value other → read part.key value = .ok result →
      read part.key other = .ok result)
    (supplied : Option.Rel R (given part) (given' part))
    (h : readPart given part read default = .ok result) :
    readPart given' part read default = .ok result := by
  rw [readPart_eq_ok_iff] at h ⊢
  rcases h with ⟨absent, rfl⟩ | ⟨value, held, readValue⟩
  · rw [absent] at supplied
    cases given'Part : given' part with
    | none => exact .inl ⟨rfl, rfl⟩
    | some other =>
      rw [given'Part] at supplied
      cases supplied
  · rw [held] at supplied
    cases given'Part : given' part with
    | none =>
      rw [given'Part] at supplied
      cases supplied
    | some other =>
      rw [given'Part] at supplied
      cases supplied with
      | some related => exact .inr ⟨other, rfl, alike value other related readValue⟩

theorem nameSet_of_sameItems {key : String} {value other : Value} {set : NameSet}
    (same : SameItems value other) (read : Value.nameSet key value = .ok set) :
    Value.nameSet key other = .ok set := by
  rw [Value.nameSet_eq_ok_iff] at read ⊢
  exact lists_of_sameItems same read

theorem nameMap_of_sameEntries {key : String} {value other : Value} {map : NameMap}
    (same : SameEntries value other) (read : Value.nameMap key value = .ok map) :
    Value.nameMap key other = .ok map := by
  have lists := same
  obtain ⟨entries, others, rfl, rfl, distinct, distinct', -⟩ := same
  have once : (Value.map entries).HasDistinctKeys := by
    rintro _ ⟨⟩
    exact distinct
  have once' : (Value.map others).HasDistinctKeys := by
    rintro _ ⟨⟩
    exact distinct'
  rw [Value.nameMap_eq_ok_iff once] at read
  rw [Value.nameMap_eq_ok_iff once']
  exact listsMap_of_sameEntries lists read

/-- What is configured does not depend on the order of names and keys, nor on repetitions. -/
theorem configure_of_suppliedAlike (same : SuppliedAlike given given')
    (h : configure given = .ok policy) : configure given' = .ok policy := by
  rw [configure_eq_ok_iff] at h ⊢
  obtain ⟨tagNames, attributes, ⟨protocols, read, lowered⟩, ancestors, clobber, strip, text⟩ := h
  have set {part : Part} {default result : NameSet}
      (alike : Option.Rel SameItems (given part) (given' part))
      (h : readPart given part Value.nameSet default = .ok result) :
      readPart given' part Value.nameSet default = .ok result :=
    readPart_of_rel (fun _ _ => nameSet_of_sameItems) alike h
  have map {part : Part} {result : NameMap}
      (alike : Option.Rel SameEntries (given part) (given' part))
      (h : readPart given part Value.nameMap ∅ = .ok result) :
      readPart given' part Value.nameMap ∅ = .ok result :=
    readPart_of_rel (fun _ _ => nameMap_of_sameEntries) alike h
  refine ⟨set same.tagNames tagNames, map same.attributes attributes,
    ⟨protocols, map same.protocols read, lowered⟩, map same.ancestors ancestors,
    set same.clobber clobber, set same.strip strip, ?_⟩
  rwa [readPart, ← same.clobberPrefix]

/-- A policy that was configured is read back from its export, and comes back from a draft that was
not edited, whether the draft is finished or a policy is configured from it.  The export is
canonical: it is the same for the same policies only, and configurations that differ in order and
repetition give the same policy. -/
theorem ofValue_toValue_configured :
    (∀ given policy, configure given = .ok policy →
      ofValue policy.toValue = .ok policy ∧ (Draft.ofPolicy policy).finish = .ok policy ∧
        configure (Draft.ofPolicy policy).handedOver = .ok policy) ∧
    (∀ policy other : Policy, policy.toValue = other.toValue ↔ policy = other) ∧
    ∀ given given' policy, SuppliedAlike given given' → configure given = .ok policy →
      configure given' = .ok policy := by
  refine ⟨?_, ?_, ?_⟩
  · intro given policy configured
    have lowered := isLowered_of_configure configured
    have finished := Draft.finish_ofPolicy policy
    refine ⟨?_, finished, Draft.configure_eq_finish finished lowered⟩
    rw [ofValue_export, lowered.mapNames_eq]
  · intro policy other
    exact toValue_inj
  · intro given given' policy same
    exact configure_of_suppliedAlike same

/-- Schemes in capital letters, one of which ends in a sigma, and a property that accepts none. -/
def capitalSchemes : Part → Option Value
  | .tagNames => some (.tuple [.str "p", .str "a", .str "p"])
  | .protocols => some (.map [(.str "href", .list [.str "HTTPS", .str "ΟΔΟΣ"]),
      (.str "src", .set [])])
  | _ => none

/-- The same in another order. -/
def capitalSchemesAgain : Part → Option Value
  | .tagNames => some (.list [.str "a", .str "p"])
  | .protocols => some (.map [(.str "src", .list []),
      (.str "href", .tuple [.str "ΟΔΟΣ", .str "HTTPS", .str "ΟΔΟΣ"])])
  | _ => none

theorem ofValue_toValue_configured_sigma :
    SuppliedAlike capitalSchemes capitalSchemesAgain ∧
      ∃ policy, configure capitalSchemes = .ok policy ∧
        policy.protocols.get? "href" = some (.ofList ["https", "οδος"]) ∧
        policy.protocols.get? "src" = some ∅ ∧ policy.protocols.get? "cite" = none ∧
        ofValue policy.toValue = .ok policy ∧ configure capitalSchemesAgain = .ok policy := by
  have schemes : ∀ item, item ∈ [Value.str "HTTPS", .str "ΟΔΟΣ"] ↔
      item ∈ [Value.str "ΟΔΟΣ", .str "HTTPS", .str "ΟΔΟΣ"] := by
    simp [or_comm]
  have alike : SuppliedAlike capitalSchemes capitalSchemesAgain := by
    refine ⟨.some ⟨_, _, rfl, rfl, by simp [or_comm]⟩, .none, ?_, .none, .none, .none, rfl⟩
    refine .some ⟨_, _, rfl, rfl, by simp, by simp, ?_, ?_⟩
    · rintro entry (_ | ⟨_, _ | ⟨_, he⟩⟩)
      · exact ⟨_, .tail _ (.head _), rfl, _, _, rfl, rfl, schemes⟩
      · exact ⟨_, .head _, rfl, _, _, rfl, rfl, fun _ => Iff.rfl⟩
      · cases he
    · rintro entry (_ | ⟨_, _ | ⟨_, he⟩⟩)
      · exact ⟨_, .tail _ (.head _), rfl, _, _, rfl, rfl, fun _ => Iff.rfl⟩
      · exact ⟨_, .head _, rfl, _, _, rfl, rfl, schemes⟩
      · cases he
  obtain ⟨policy, configured⟩ : ∃ policy, configure capitalSchemes = .ok policy := ⟨_, rfl⟩
  have back := (ofValue_toValue_configured.1 capitalSchemes policy configured).1
  have again := ofValue_toValue_configured.2.2 _ _ policy alike configured
  refine ⟨alike, policy, configured, ?_, ?_, ?_, back, again⟩
  all_goals
    cases configured
    decide +kernel

end Policy

end SafeMarkup
