/-
# What a sequence of edits comes to

A draft is edited step by step, and what it finishes as can be told from the edits alone, without
running them (`finish_follows_edits`).  Of most things the last edit that says something about it
decides: whether a tag may stay, whether a property may stand on it, which tags have to enclose it.
`lastWord` is what that edit says.  Of the URL schemes of a property it is the last edit that sets
them or stops the checking, and then whatever was added since.

Each part of a draft after an edit depends on the edit and the same part before it only.  So a part
of the draft after the whole sequence is that of the beginning, carried through the edits one by one
(`reading_foldl_applied`); and where each edit either decides or leaves things as they are, only the
last decision is left (`foldl_lastWord`).

The statement covers every sequence of edits, of any length, that begins with a fresh draft or one
made from a policy.  It is about edits that do not fail and come with texts for keys; without the
first condition the later edits would have to be told together with how far the failed one got, and
without the second there is no policy to speak of.

The same is said of the policy that is configured from what the draft hands over.  There the
schemes are taken in lower case a second time, which changes nothing, since each edit has done so
already (`isLowered_of_followsEdits`).
-/
import SafeMarkup.Proofs.EditEffect
import SafeMarkup.Proofs.LastWord

namespace SafeMarkup

namespace Edit

/-! ## What an edit says -/

/-- Whether the tag is allowed or disallowed. -/
def saysOfTag (tag : String) : Edit → Option Bool
  | .allowTags names => if tag ∈ texts names then some true else none
  | .disallowTags names => if tag ∈ texts names then some false else none
  | _ => none

/-- Whether the tag is made to vanish, or made not to. -/
def saysOfStrip (tag : String) : Edit → Option Bool
  | .stripTags names => if tag ∈ texts names then some true else none
  | .unstripTags names => if tag ∈ texts names then some false else none
  | _ => none

/-- Whether the property is allowed or disallowed on the tag. -/
def saysOfAttribute (tag name : String) : Edit → Option Bool
  | .allowAttributes key names =>
    if key.isText tag ∧ name ∈ texts names then some true else none
  | .disallowAttributes key names =>
    if key.isText tag ∧ name ∈ texts names then some false else none
  | _ => none

/-- Which schemes the property accepts whatever it accepted before; or that it is not checked. -/
def saysOfProtocols (property : String) : Edit → Option (Option NameSet)
  | .setProtocols key schemes =>
    if key.isText property then some (some (.ofList ((texts schemes).map Text.lowercase))) else none
  | .uncheckProtocols key => if key.isText property then some none else none
  | _ => none

/-- The schemes that the property is to accept beside those that it accepts. -/
def addsProtocols (property : String) : Edit → Option (List String)
  | .allowProtocols key schemes =>
    if key.isText property then some ((texts schemes).map Text.lowercase) else none
  | _ => none

/-- The tags of which one has to enclose the tag; or that there is no rule. -/
def saysOfAncestors (tag : String) : Edit → Option (Option NameSet)
  | .requireAncestors key enclosing =>
    if key.isText tag then some (some (.ofList (texts enclosing))) else none
  | .dropAncestorRule key => if key.isText tag then some none else none
  | _ => none

def saysOfClobber : Edit → Option NameSet
  | .setClobber names => some (.ofList (texts names))
  | _ => none

def saysOfClobberPrefix : Edit → Option String
  | .setClobberPrefix text => text.str?
  | _ => none

/-! ## What the last edit says -/

/-- The last edit that says something says yes, or none says anything and it was so before. -/
def HoldsAfter (say : Edit → Option Bool) (edits : List Edit) (before : Prop) : Prop :=
  lastWord say edits = some true ∨ lastWord say edits = none ∧ before

/-- What was said last of the schemes of the property, beginning with `before`. -/
def protocolsSaid (property : String) (edits : List Edit) (before : Option NameSet) :
    Option NameSet :=
  (lastWord (saysOfProtocols property) edits).getD before

/-- The schemes added for the property since then, edit by edit. -/
def protocolsAdded (property : String) (edits : List Edit) : List (List String) :=
  (sinceLastWord (saysOfProtocols property) edits).filterMap (addsProtocols property)

theorem protocolsSaid_concat (property : String) (edits : List Edit) (change : Edit)
    (before : Option NameSet) :
    protocolsSaid property (edits ++ [change]) before =
      (saysOfProtocols property change).getD (protocolsSaid property edits before) := by
  unfold protocolsSaid
  rw [lastWord_concat]
  cases saysOfProtocols property change <;> rfl

theorem protocolsAdded_concat (property : String) (edits : List Edit) (change : Edit) :
    protocolsAdded property (edits ++ [change]) =
      if (saysOfProtocols property change).isNone then
        protocolsAdded property edits ++ (addsProtocols property change).toList
      else [] := by
  unfold protocolsAdded
  rw [sinceLastWord_concat]
  split
  · rw [List.filterMap_append]
    cases adds : addsProtocols property change with
    | none => rw [List.filterMap_cons_none adds]; rfl
    | some schemes => rw [List.filterMap_cons_some adds]; rfl
  · rfl

/-- What the edit makes of the schemes of the property. -/
def moveProtocols (property : String) (held : Option NameSet) (change : Edit) : Option NameSet :=
  match saysOfProtocols property change with
  | some decided => decided
  | none =>
    match addsProtocols property change with
    | some schemes => some ((held.getD ∅).addAll schemes)
    | none => held

/-- The schemes after a sequence of edits: those said last and those added since.  They are
unchecked only if that was said last, and nothing was added since. -/
theorem foldl_moveProtocols (property : String) (before : Option NameSet) (edits : List Edit) :
    (edits.foldl (moveProtocols property) before = none ↔
      protocolsSaid property edits before = none ∧ protocolsAdded property edits = []) ∧
    ∀ scheme, scheme ∈ (edits.foldl (moveProtocols property) before).getD ∅ ↔
      scheme ∈ (protocolsSaid property edits before).getD ∅ ∨
        ∃ schemes ∈ protocolsAdded property edits, scheme ∈ schemes := by
  induction edits using List.reverseRecOn with
  | nil =>
    refine ⟨⟨fun absent => ⟨absent, rfl⟩, And.left⟩, fun scheme => ⟨.inl, ?_⟩⟩
    rintro (member | ⟨schemes, added, -⟩)
    · exact member
    · cases added
  | append_singleton edits change ih =>
    -- The last edit sets anew, adds, or leaves what the edits before it came to.
    obtain ⟨absent, members⟩ := ih
    rw [List.foldl_append, List.foldl_cons, List.foldl_nil]
    generalize edits.foldl (moveProtocols property) before = held at absent members
    rw [protocolsSaid_concat, protocolsAdded_concat, moveProtocols]
    cases saysOfProtocols property change with
    | some decided => simp
    | none =>
      cases addsProtocols property change with
      | none => simp [absent, members]
      | some schemes =>
        refine ⟨by simp, fun scheme => ?_⟩
        simp [members, or_assoc, or_and_right, exists_or]

end Edit

namespace Draft

open Edit

variable {draft : Draft} {change : Edit} {edits : List Edit}

/-! ## Parts of a draft after a sequence of edits -/

/-- A reading that each edit carries on is carried through a sequence of edits. -/
theorem reading_foldl_applied {β : Type} (read : Draft → β) (move : β → Edit → β)
    (step : ∀ {draft : Draft} {change : Edit}, draft.IsKeyed → change.IsKeyed →
      read (draft.applied change) = move (read draft) change)
    (keyed : draft.IsKeyed) (textual : ∀ change ∈ edits, change.IsKeyed) :
    read (edits.foldl applied draft) = edits.foldl move (read draft) := by
  induction edits generalizing draft with
  | nil => rfl
  | cons change rest ih =>
    have first := textual change (.head _)
    rw [List.foldl_cons, List.foldl_cons, ← step keyed first]
    exact ih (keyed.applied first) fun later member => textual later (.tail _ member)

theorem reading_lastWord {β : Type} (read : Draft → β) (say : Edit → Option β)
    (step : ∀ {draft : Draft} {change : Edit}, draft.IsKeyed → change.IsKeyed →
      read (draft.applied change) = (say change).getD (read draft))
    (keyed : draft.IsKeyed) (textual : ∀ change ∈ edits, change.IsKeyed) :
    read (edits.foldl applied draft) = (lastWord say edits).getD (read draft) := by
  rw [← foldl_lastWord]
  exact reading_foldl_applied read _ step keyed textual

theorem mem_reading_iff (read : Draft → NameSet) (name : String) (say : Edit → Option Bool)
    (step : ∀ {draft : Draft} {change : Edit}, draft.IsKeyed → change.IsKeyed →
      (read (draft.applied change)).contains name =
        (say change).getD ((read draft).contains name))
    (keyed : draft.IsKeyed) (textual : ∀ change ∈ edits, change.IsKeyed) :
    name ∈ read (edits.foldl applied draft) ↔ HoldsAfter say edits (name ∈ read draft) := by
  rw [← NameSet.contains_iff, ← NameSet.contains_iff, HoldsAfter,
    reading_lastWord (fun draft => (read draft).contains name) say step keyed textual]
  cases lastWord say edits with
  | none => simp
  | some said => simp

theorem contains_addAll (set : NameSet) (names : List String) (name : String) :
    (set.addAll names).contains name =
      (if name ∈ names then some true else none).getD (set.contains name) := by
  rw [Bool.eq_iff_iff, NameSet.contains_iff, NameSet.mem_addAll]
  split
  · next named => simp [named]
  · next named => simp [named]

theorem contains_eraseAll (set : NameSet) (names : List String) (name : String) :
    (set.eraseAll names).contains name =
      (if name ∈ names then some false else none).getD (set.contains name) := by
  rw [Bool.eq_iff_iff, NameSet.contains_iff, NameSet.mem_eraseAll]
  split
  · next named => simp [named]
  · next named => simp [named]

theorem tagNames_applied (tag : String) :
    (draft.applied change).tagNames.contains tag =
      (saysOfTag tag change).getD (draft.tagNames.contains tag) := by
  cases change with
  | allowTags names => exact contains_addAll ..
  | disallowTags names => exact contains_eraseAll ..
  | _ => rfl

theorem strip_applied (tag : String) :
    (draft.applied change).strip.contains tag =
      (saysOfStrip tag change).getD (draft.strip.contains tag) := by
  cases change with
  | stripTags names => exact contains_addAll ..
  | unstripTags names => exact contains_eraseAll ..
  | _ => rfl

theorem clobber_applied :
    (draft.applied change).clobber = (saysOfClobber change).getD draft.clobber := by
  cases change <;> rfl

theorem clobberPrefix_applied :
    (draft.applied change).clobberPrefix =
      (saysOfClobberPrefix change).getD draft.clobberPrefix := by
  cases change <;> rfl

/-! ### Under the keys of the maps -/

theorem find?_eraseUnder (name other : String) (names : List String)
    (entries : List (Value × NameSet)) :
    Value.find? (.str other) (eraseUnder (.str name) names entries) =
      if other = name then (Value.find? (.str name) entries).map (·.eraseAll names)
      else Value.find? (.str other) entries := by
  unfold eraseUnder
  split
  · next absent =>
    split
    · next same => rw [same, absent]; rfl
    · rfl
  · next own found =>
    simp only [Value.find?_put, Value.isText_str_iff, found]
    rfl

theorem attributes_applied (textual : change.IsKeyed) (tag name : String) :
    ((Value.find? (.str tag) (draft.applied change).attributes).getD ∅).contains name =
      (saysOfAttribute tag name change).getD
        (((Value.find? (.str tag) draft.attributes).getD ∅).contains name) := by
  cases change with
  | allowAttributes key names =>
    obtain ⟨other, rfl⟩ := textual key rfl
    simp only [applied, addUnder, saysOfAttribute, Value.find?_put, Value.isText_str_iff]
    by_cases here : tag = other
    · subst here
      simp only [true_and, if_true, Option.getD_some]
      exact contains_addAll ..
    · simp only [here, false_and, if_false, Option.getD_none]
  | disallowAttributes key names =>
    obtain ⟨other, rfl⟩ := textual key rfl
    simp only [applied, saysOfAttribute, find?_eraseUnder, Value.isText_str_iff]
    by_cases here : tag = other
    · subst here
      simp only [true_and, if_true]
      cases Value.find? (.str tag) draft.attributes with
      | none =>
        show (∅ : NameSet).contains name = _
        split <;> rfl
      | some own => exact contains_eraseAll own ..
    · simp only [here, false_and, if_false, Option.getD_none]
  | _ => rfl

theorem hasAttributes_applied (textual : change.IsKeyed) (tag : String) :
    (Value.find? (.str tag) (draft.applied change).attributes).isSome ↔
      (Value.find? (.str tag) draft.attributes).isSome ∨
        ∃ names, change = .allowAttributes (.str tag) names := by
  cases change with
  | allowAttributes key names =>
    obtain ⟨other, rfl⟩ := textual key rfl
    simp only [applied, addUnder, Value.find?_put, Value.isText_str_iff]
    by_cases here : tag = other
    · simp [here]
    · simp [here, eq_comm (a := other)]
  | disallowAttributes key names =>
    obtain ⟨other, rfl⟩ := textual key rfl
    simp only [applied, find?_eraseUnder]
    by_cases here : tag = other
    · simp [here]
    · simp [here]
  | _ => simp [applied]

theorem hasAttributes_foldl_applied (textual : ∀ change ∈ edits, change.IsKeyed) (tag : String) :
    (Value.find? (.str tag) (edits.foldl applied draft).attributes).isSome ↔
      (Value.find? (.str tag) draft.attributes).isSome ∨
        ∃ names, .allowAttributes (.str tag) names ∈ edits := by
  induction edits generalizing draft with
  | nil => simp
  | cons change rest ih =>
    rw [List.foldl_cons, ih fun later member => textual later (.tail _ member),
      hasAttributes_applied (textual change (.head _)), or_assoc, ← exists_or]
    simp only [List.mem_cons, eq_comm]

theorem protocols_applied (distinct : (Value.textKeys draft.protocols).Nodup) (change : Edit)
    (property : String) :
    Value.find? (.str property) (draft.applied change).protocols =
      moveProtocols property (Value.find? (.str property) draft.protocols) change := by
  cases change with
  | setProtocols key schemes | allowProtocols key schemes =>
    simp only [applied, addUnder, moveProtocols, saysOfProtocols, addsProtocols, Value.find?_put]
    by_cases here : key.isText property = true
    · obtain rfl := Value.isText_iff.1 here
      simp only [if_pos here]
    · simp only [if_neg here]
  | uncheckProtocols key =>
    simp only [applied, moveProtocols, saysOfProtocols, addsProtocols, Value.find?_remove distinct]
    by_cases here : key.isText property = true
    · simp only [if_pos here]
    · simp only [if_neg here]
  | _ => rfl

theorem nodup_protocols_applied (distinct : (Value.textKeys draft.protocols).Nodup)
    (change : Edit) : (Value.textKeys (draft.applied change).protocols).Nodup := by
  cases change with
  | setProtocols key schemes | allowProtocols key schemes =>
    exact Value.nodup_textKeys_put distinct key _
  | uncheckProtocols key => exact Value.nodup_textKeys_remove distinct key
  | _ => exact distinct

theorem nodup_protocols_foldl_applied (distinct : (Value.textKeys draft.protocols).Nodup)
    (edits : List Edit) : (Value.textKeys (edits.foldl applied draft).protocols).Nodup := by
  induction edits generalizing draft with
  | nil => exact distinct
  | cons change rest ih => exact ih (nodup_protocols_applied distinct change)

theorem protocols_foldl_applied (distinct : (Value.textKeys draft.protocols).Nodup)
    (edits : List Edit) (property : String) :
    Value.find? (.str property) (edits.foldl applied draft).protocols =
      edits.foldl (moveProtocols property) (Value.find? (.str property) draft.protocols) := by
  induction edits generalizing draft with
  | nil => rfl
  | cons change rest ih =>
    rw [List.foldl_cons, List.foldl_cons, ← protocols_applied distinct]
    exact ih (nodup_protocols_applied distinct change)

theorem ancestors_applied (keyed : draft.IsKeyed) (textual : change.IsKeyed) (tag : String) :
    Value.find? (.str tag) (draft.applied change).ancestors =
      (saysOfAncestors tag change).getD (Value.find? (.str tag) draft.ancestors) := by
  cases change with
  | requireAncestors key enclosing =>
    obtain ⟨other, rfl⟩ := textual key rfl
    simp only [applied, saysOfAncestors, Value.find?_put, Value.isText_str_iff]
    split <;> rfl
  | dropAncestorRule key =>
    obtain ⟨other, rfl⟩ := textual key rfl
    simp only [applied, saysOfAncestors, Value.find?_remove keyed.ancestors.nodup_textKeys,
      Value.isText_str_iff]
    split <;> rfl
  | _ => rfl

end Draft

/-! ## What the finished policy holds -/

open Edit

/-- The finished policy holds what the first one held, except for what the edits say. -/
structure Policy.FollowsEdits (edits : List Edit) (first finished : Policy) : Prop where
  tagNames : ∀ tag, tag ∈ finished.tagNames ↔
    HoldsAfter (saysOfTag tag) edits (tag ∈ first.tagNames)
  strip : ∀ tag, tag ∈ finished.strip ↔ HoldsAfter (saysOfStrip tag) edits (tag ∈ first.strip)
  attributes : ∀ tag name, name ∈ finished.attributes.get tag ↔
    HoldsAfter (saysOfAttribute tag name) edits (name ∈ first.attributes.get tag)
  /-- A tag has an entry of its own also when no property is left in it. -/
  hasAttributes : ∀ tag, (finished.attributes.get? tag).isSome ↔
    (first.attributes.get? tag).isSome ∨ ∃ names, .allowAttributes (.str tag) names ∈ edits
  /-- Schemes added to those of an unchecked property make it checked. -/
  unchecked : ∀ property, finished.protocols.get? property = none ↔
    protocolsSaid property edits (first.protocols.get? property) = none ∧
      protocolsAdded property edits = []
  protocols : ∀ property scheme, scheme ∈ finished.protocols.get property ↔
    scheme ∈ (protocolsSaid property edits (first.protocols.get? property)).getD ∅ ∨
      ∃ schemes ∈ protocolsAdded property edits, scheme ∈ schemes
  ancestors : ∀ tag, finished.ancestors.get? tag =
    (lastWord (saysOfAncestors tag) edits).getD (first.ancestors.get? tag)
  clobber : finished.clobber = (lastWord saysOfClobber edits).getD first.clobber
  clobberPrefix : finished.clobberPrefix =
    (lastWord saysOfClobberPrefix edits).getD first.clobberPrefix

namespace Draft

variable {policy finished : Policy} {edits : List Edit}

theorem exists_finish_followsEdits (policy : Policy) (textual : ∀ change ∈ edits, change.IsKeyed) :
    ∃ finished, (edits.foldl applied (ofPolicy policy)).finish = .ok finished ∧
      policy.FollowsEdits edits finished := by
  have keyed := isKeyed_ofPolicy policy
  obtain ⟨attributes, protocols, ancestors, done, heldAttributes, heldProtocols, heldAncestors⟩ :=
    (isKeyed_foldl_applied keyed textual).exists_finish
  -- Schemes are not decided by one edit, so they are carried along the whole sequence.
  have movedProtocols (property : String) :
      protocols.get? property =
        edits.foldl (moveProtocols property) (policy.protocols.get? property) := by
    rw [heldProtocols, ← find?_openMap]
    exact protocols_foldl_applied keyed.protocols.nodup_textKeys edits property
  refine ⟨_, done, ?_⟩
  constructor
  case tagNames =>
    intro tag
    exact mem_reading_iff (fun draft => draft.tagNames) tag _ (fun _ _ => tagNames_applied tag)
      keyed textual
  case strip =>
    intro tag
    exact mem_reading_iff (fun draft => draft.strip) tag _ (fun _ _ => strip_applied tag)
      keyed textual
  case attributes =>
    intro tag name
    rw [NameMap.get, NameMap.get, heldAttributes, ← find?_openMap]
    exact mem_reading_iff (fun draft => (Value.find? (.str tag) draft.attributes).getD ∅) name _
      (fun _ textual => attributes_applied textual tag name) keyed textual
  case hasAttributes =>
    intro tag
    rw [heldAttributes, ← find?_openMap]
    exact hasAttributes_foldl_applied textual tag
  case unchecked =>
    intro property
    rw [movedProtocols]
    exact (foldl_moveProtocols ..).1
  case protocols =>
    intro property scheme
    rw [NameMap.get, movedProtocols]
    exact (foldl_moveProtocols ..).2 scheme
  case ancestors =>
    intro tag
    rw [heldAncestors, ← find?_openMap]
    exact reading_lastWord (fun draft => Value.find? (.str tag) draft.ancestors) _
      (fun keyed textual => ancestors_applied keyed textual tag) keyed textual
  case clobber =>
    exact reading_lastWord (fun draft => draft.clobber) _ (fun _ _ => clobber_applied) keyed textual
  case clobberPrefix =>
    exact reading_lastWord (fun draft => draft.clobberPrefix) _ (fun _ _ => clobberPrefix_applied)
      keyed textual

theorem lower_of_mem {values : List Value} {scheme : String}
    (member : scheme ∈ (texts values).map Text.lowercase) : Text.lowercase scheme = scheme := by
  obtain ⟨text, -, rfl⟩ := List.mem_map.1 member
  exact Text.lowercase_lowercase text

theorem lower_of_saysOfProtocols {property scheme : String} {change : Edit} {set : NameSet}
    (decides : saysOfProtocols property change = some (some set)) (member : scheme ∈ set) :
    Text.lowercase scheme = scheme := by
  cases change with
  | setProtocols key values =>
    rw [saysOfProtocols, Option.ite_none_right_eq_some] at decides
    obtain ⟨-, same⟩ := decides
    cases same
    exact lower_of_mem (NameSet.mem_ofList.1 member)
  | uncheckProtocols key =>
    rw [saysOfProtocols, Option.ite_none_right_eq_some] at decides
    obtain ⟨-, same⟩ := decides
    cases same
  | _ => cases decides

theorem lower_of_addsProtocols {property scheme : String} {change : Edit} {schemes : List String}
    (adds : addsProtocols property change = some schemes) (member : scheme ∈ schemes) :
    Text.lowercase scheme = scheme := by
  cases change with
  | allowProtocols key values =>
    rw [addsProtocols, Option.ite_none_right_eq_some] at adds
    obtain ⟨-, same⟩ := adds
    cases same
    exact lower_of_mem member
  | _ => cases adds

theorem isLowered_of_followsEdits (follows : policy.FollowsEdits edits finished)
    (lowered : policy.IsLowered) : finished.IsLowered := by
  intro property set held scheme member
  have listed : scheme ∈ finished.protocols.get property := by
    rwa [NameMap.get, held]
  rcases (follows.protocols property scheme).1 listed with before | ⟨schemes, added, named⟩
  · unfold protocolsSaid at before
    cases decided : lastWord (saysOfProtocols property) edits with
    | none =>
      rw [decided] at before
      cases first : policy.protocols.get? property with
      | none =>
        rw [first] at before
        cases before
      | some own =>
        rw [first] at before
        exact lowered property own first scheme before
    | some said =>
      rw [decided] at before
      obtain ⟨change, -, decides⟩ := exists_of_lastWord decided
      cases said with
      | none => cases before
      | some own => exact lower_of_saysOfProtocols decides before
  · obtain ⟨change, -, adds⟩ := List.mem_filterMap.1 added
    exact lower_of_addsProtocols adds named

/-- A draft of a policy, or a fresh one, after edits that do not fail and come with texts for keys.
It can be finished, or handed over as a configuration, and the policy that comes of it is the one
told by the edits. -/
theorem finish_follows_edits {start last : Draft}
    (begun : start = ofPolicy policy ∨ start = fresh ∧ policy = {})
    (textual : ∀ change ∈ edits, change.IsKeyed) (ran : start.editAll edits = .ok last) :
    ∃ finished, last.finish = .ok finished ∧
      (∀ given, Policy.configure given = .ok policy →
        Policy.configure last.handedOver = .ok finished) ∧
      policy.FollowsEdits edits finished := by
  have opened : start = ofPolicy policy := by
    rcases begun with rfl | ⟨rfl, rfl⟩
    · rfl
    · rfl
  subst opened
  obtain ⟨finished, done, follows⟩ := exists_finish_followsEdits policy textual
  rw [← editAll_eq_applied ran] at done
  refine ⟨finished, done, ?_, follows⟩
  intro given configured
  have lowered := isLowered_of_followsEdits follows (Policy.isLowered_of_configure configured)
  exact configure_eq_finish done lowered

/-- Two tags, one of which is taken back; a tag without properties; and schemes that are set, given
up and set anew. -/
def someEdits : List Edit :=
  [.allowTags [.str "section", .str "p"], .disallowTags [.str "p"],
    .allowAttributes (.str "section") [], .setProtocols (.str "href") [.str "HTTP"],
    .uncheckProtocols (.str "href"), .setProtocols (.str "src") [], .uncheckProtocols (.str "src"),
    .allowProtocols (.str "href") [.str "MAILTO"]]

theorem finish_follows_someEdits :
    ∃ last finished, fresh.editAll someEdits = .ok last ∧ last.finish = .ok finished ∧
      Policy.configure last.handedOver = .ok finished ∧
      "section" ∈ finished.tagNames ∧ "p" ∉ finished.tagNames ∧
      finished.attributes.get? "section" = some ∅ ∧ finished.protocols.get? "src" = none ∧
      finished.protocols.get? "href" = some (.ofList ["mailto"]) := by
  have textual : ∀ change ∈ someEdits, change.IsKeyed := by
    simp [someEdits, Edit.IsKeyed, Edit.key?]
  obtain ⟨last, ran⟩ : ∃ last, fresh.editAll someEdits = .ok last := ⟨_, rfl⟩
  obtain ⟨finished, done, configured, follows⟩ :=
    finish_follows_edits (.inr ⟨rfl, rfl⟩) textual ran
  have handedOver := configured (fun _ => none) rfl
  refine ⟨last, finished, ran, done, handedOver, ?_, ?_, ?_, ?_, ?_⟩
  · exact (follows.tagNames "section").2 (.inl rfl)
  · intro member
    rcases (follows.tagNames "p").1 member with allowed | ⟨silent, -⟩
    · cases allowed
    · cases silent
  · cases ran
    cases done
    rfl
  · exact (follows.unchecked "src").2 ⟨rfl, rfl⟩
  · cases ran
    cases done
    decide +kernel

end Draft

end SafeMarkup
