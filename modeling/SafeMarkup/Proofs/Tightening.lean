/-
# Tightening a policy

A policy is tighter than another if it lets at most the same tags and properties stay and is no
different in anything else.  Sanitizing a tree under the loose policy and then under the tight one
comes to the same as sanitizing it under the tight one at once (`sanitize_tightened`), so that what
was stored under the loose policy need not be read again from where it came.

The two policies unwrap different elements, and the walks carry different tags down.  What relates
them is that the tags around a node under the tight policy are among those around it under the loose
one.  So an element that the tight policy keeps was kept by the loose one: its rule is met already
by the fewer tags.  Conversely an element that only the loose policy keeps is still there for the
second walk, which unwraps it inside the same tags as the direct walk does.  That gives one
induction over the tree, `clean_tightened`, with the inclusion of the two stacks as its invariant.

Drafts made from a policy by taking tags and properties away, whatever the edits and their order,
finish as tighter policies (`finish_of_narrows`).

Nothing of the kind holds for policies that loosen anything: what the first run took away is gone.
Nor may the tighter policy have other rules about enclosing tags, other schemes, or another prefix,
for then the second run would judge what is there by other standards than the first one did, and
the two ways would differ in what was judged only once.
-/
import Mathlib.Data.List.Forall2
import SafeMarkup.Policy.Draft
import SafeMarkup.Sanitizing
import SafeMarkup.Proofs.Cleaning
import SafeMarkup.Proofs.PropertyValue

namespace SafeMarkup

namespace Policy

/-- The policy lets at most those tags and properties stay that the loose one lets stay, and is no
different in anything else. -/
structure Tightens (tight loose : Policy) : Prop where
  tagNames : ∀ tag ∈ tight.tagNames, tag ∈ loose.tagNames
  attributes : ∀ tag name, tight.allowsAttribute tag name = true →
    loose.allowsAttribute tag name = true
  protocols : tight.protocols = loose.protocols
  ancestors : tight.ancestors = loose.ancestors
  clobber : tight.clobber = loose.clobber
  clobberPrefix : tight.clobberPrefix = loose.clobberPrefix
  strip : tight.strip = loose.strip

namespace Tightens

variable {tight loose : Policy} {inner outer : List String} {tag : Value} {name : String}

/-! ## Verdicts of the two policies -/

theorem allowsName (h : tight.Tightens loose) (allowed : tight.allowsName name = true) :
    loose.allowsName name = true := by
  simp only [Policy.allowsName, Bool.and_eq_true, NameSet.contains_iff] at allowed ⊢
  exact ⟨allowed.1, h.tagNames name allowed.2⟩

theorem allowsPlace (h : tight.Tightens loose) (fewer : inner ⊆ outer)
    (placed : tight.allowsPlace name (inner.map .str) = true) :
    loose.allowsPlace name (outer.map .str) = true := by
  have same : tight.requiredAncestors name = loose.requiredAncestors name := by
    rw [requiredAncestors, requiredAncestors, h.ancestors]
  rw [allowsPlace_iff, same] at placed
  rw [allowsPlace_iff]
  intro bound
  obtain ⟨tag, around, met⟩ := placed bound
  exact ⟨tag, fewer around, met⟩

theorem judge_stripped (h : tight.Tightens loose) {around around' : List Value}
    (verdict : loose.judge around tag = .stripped name) :
    tight.judge around' tag = .stripped name := by
  rw [judge_eq_stripped_iff] at verdict ⊢
  rwa [h.strip]

theorem judge_kept (h : tight.Tightens loose) (fewer : inner ⊆ outer)
    (verdict : tight.judge (inner.map .str) tag = .kept name) :
    loose.judge (outer.map .str) tag = .kept name := by
  obtain ⟨isTag, lasts, allowed, placed⟩ := judge_eq_kept_iff.1 verdict
  rw [h.strip] at lasts
  exact judge_eq_kept_iff.2 ⟨isTag, lasts, h.allowsName allowed, h.allowsPlace fewer placed⟩

/-! ## Properties under the two policies -/

theorem sanitizeValue_eq (h : tight.Tightens loose) (value : Value) :
    tight.sanitizeValue name value = loose.sanitizeValue name value := by
  have accepts (text : String) : tight.acceptsUrl name text = loose.acceptsUrl name text := by
    rw [acceptsUrl, acceptsUrl, protocolsFor, protocolsFor, h.protocols]
  have guards (text : String) : tight.guardName name text = loose.guardName name text := by
    rw [guardName, guardName, isClobbered, isClobbered, h.clobber, h.clobberPrefix]
  have primitives : tight.sanitizePrimitive name = loose.sanitizePrimitive name := by
    funext value
    simp only [sanitizePrimitive, accepts, guards]
  simp only [sanitizeValue, primitives]

/-- An entry that both policies are asked about in turn becomes what the tight one makes of it. -/
theorem cleanEntry_cleanEntry (h : tight.Tightens loose) (apart : loose.IsSeparate)
    (entry : Value × Value) :
    (loose.cleanEntry name entry).bind (tight.cleanEntry name) = tight.cleanEntry name entry := by
  refine Option.ext fun result => ?_
  rw [Option.bind_eq_some_iff, cleanEntry_eq_some_iff]
  constructor
  · rintro ⟨between, first, second⟩
    obtain ⟨property, key, key', -, emitted⟩ := cleanEntry_eq_some_iff.1 first
    obtain ⟨property', key'', kept, allowed, again⟩ := cleanEntry_eq_some_iff.1 second
    obtain rfl : property = property' := Value.str.inj (key'.symm.trans key'')
    rw [h.sanitizeValue_eq, sanitizeValue_emitted apart emitted] at again
    rw [← Option.some.inj again]
    exact ⟨property, key, kept, allowed, (h.sanitizeValue_eq entry.2).trans emitted⟩
  · rintro ⟨property, key, kept, allowed, emitted⟩
    rw [h.sanitizeValue_eq] at emitted
    have again := sanitizeValue_emitted apart emitted
    rw [← h.sanitizeValue_eq] at again
    refine ⟨result, ?_, ?_⟩
    · exact cleanEntry_eq_some_iff.2
        ⟨property, key, kept, h.attributes name property allowed, emitted⟩
    · exact cleanEntry_eq_some_iff.2 ⟨property, kept, kept, allowed, again⟩

theorem cleanProperties_cleanProperties (h : tight.Tightens loose) (apart : loose.IsSeparate)
    (properties : Value) :
    (tight.cleanProperties name (.map (loose.cleanProperties name properties).1)).1 =
      (tight.cleanProperties name properties).1 := by
  have pointwise : (fun entry => (loose.cleanEntry name entry).bind (tight.cleanEntry name)) =
      tight.cleanEntry name := funext fun entry => h.cleanEntry_cleanEntry apart entry
  rw [cleanProperties, cleanProperties, cleanProperties, cleanEntries_eq_filterMap,
    cleanEntries_eq_filterMap, cleanEntries_eq_filterMap, Value.entries?, Option.getD_some,
    List.filterMap_filterMap, pointwise]

end Tightens

/-! ## Two walks or one -/

section Walks

variable {tight loose : Policy}

theorem Tightens.nodes_clean_unwrapped (h : tight.Tightens loose) {inner outer : List String}
    (fewer : inner ⊆ outer) {tag properties children data position : Value}
    (notStripped : ∀ name, loose.judge (outer.map .str) tag ≠ .stripped name)
    (notKept : ∀ name, loose.judge (outer.map .str) tag ≠ .kept name) :
    (tight.clean (inner.map .str) (.element tag properties children data position)).nodes =
      (tight.cleanChildren (inner.map .str) children).nodes := by
  refine Policy.nodes_clean_unwrapped (fun name verdict => ?_) fun name verdict => ?_
  · refine notStripped name ?_
    rw [judge_eq_stripped_iff] at verdict ⊢
    rwa [← h.strip]
  · exact notKept name (h.judge_kept fewer verdict)

mutual

/-- Where the tags of the second walk are among those of the first, cleaning under the tight policy
what the loose one has left is cleaning the tree under the tight policy. -/
theorem clean_tightened (h : tight.Tightens loose) (apart : loose.IsSeparate) :
    ∀ (node : Node) (inner outer : List String), inner ⊆ outer →
    (∀ tag ∈ outer, tag ∉ loose.strip) →
    (tight.cleanItems (inner.map .str)
      ((loose.clean (outer.map .str) node).nodes.map .node)).nodes =
        (tight.clean (inner.map .str) node).nodes
  | .root children data position, inner, outer, fewer, lasts => by
    have same := cleanChildren_tightened h apart children inner outer fewer lasts
    rw [nodes_clean_root, List.map_singleton, nodes_cleanItems_singleton, nodes_clean_root,
      nodes_clean_root, cleanChildren, same]
  | .element tag properties children data position, inner, outer, fewer, lasts => by
    cases verdict : loose.judge (outer.map .str) tag with
    | stripped name =>
      have verdict' : tight.judge (inner.map .str) tag = .stripped name := h.judge_stripped verdict
      rw [nodes_clean_stripped verdict, nodes_clean_stripped verdict']
      rfl
    | kept name =>
      obtain ⟨rfl, -⟩ := judge_eq_kept_iff.1 verdict
      have lasts' := lasts_inside_kept lasts verdict
      rw [nodes_clean_kept verdict, List.map_singleton, nodes_cleanItems_singleton]
      -- The element is there for the second walk; what that makes of it is asked of the tight one.
      by_cases stays : tight.judge (inner.map .str) (.str name) = .kept name
      · have within : inner ++ [name] ⊆ outer ++ [name] :=
          List.append_subset.2 ⟨fun _ ho => List.mem_append_left _ (fewer ho),
            List.subset_append_right ..⟩
        have same := cleanChildren_tightened h apart children _ _ within lasts'
        rw [List.map_append, List.map_append, List.map_singleton] at same
        rw [nodes_clean_kept stays, nodes_clean_kept stays, cleanChildren, same,
          h.cleanProperties_cleanProperties apart]
      · have within : inner ⊆ outer ++ [name] := fun _ ho => List.mem_append_left _ (fewer ho)
        have same := cleanChildren_tightened h apart children _ _ within lasts'
        rw [List.map_append, List.map_singleton] at same
        have notStripped (other : String) :
            tight.judge (inner.map .str) (.str name) ≠ .stripped other := by
          intro vanishes
          obtain ⟨e, gone⟩ := judge_eq_stripped_iff.1 vanishes
          cases e
          exact (judge_eq_kept_iff.1 verdict).2.1 (h.strip ▸ gone)
        have notKept (other : String) : tight.judge (inner.map .str) (.str name) ≠ .kept other := by
          intro kept
          obtain rfl : name = other := Value.str.inj (judge_eq_kept_iff.1 kept).1
          exact stays kept
        rw [Policy.nodes_clean_unwrapped notStripped notKept,
          Policy.nodes_clean_unwrapped notStripped notKept, cleanChildren, same]
    | _ =>
      have notStripped : ∀ name, loose.judge (outer.map .str) tag ≠ .stripped name := by
        simp [verdict]
      have notKept : ∀ name, loose.judge (outer.map .str) tag ≠ .kept name := by
        simp [verdict]
      have same := cleanChildren_tightened h apart children inner outer fewer lasts
      rw [Policy.nodes_clean_unwrapped notStripped notKept,
        h.nodes_clean_unwrapped fewer notStripped notKept, same]
  | .text value data position, inner, outer, fewer, lasts => by
    cases value with
    | str s =>
      have lasts' : ∀ tag ∈ inner, tag ∉ tight.strip := by
        intro tag around
        rw [h.strip]
        exact lasts tag (fewer around)
      rw [nodes_clean_text_inside lasts, List.map_singleton, nodes_cleanItems_singleton]
    | _ => rfl
  | .bare .., _, _, _, _ | .comment .., _, _, _, _ | .doctype .., _, _, _, _
  | .raw .., _, _, _, _ | .unknown .., _, _, _, _ => rfl
termination_by structural node => node

theorem cleanChildren_tightened (h : tight.Tightens loose) (apart : loose.IsSeparate) :
    ∀ (children : Value) (inner outer : List String), inner ⊆ outer →
    (∀ tag ∈ outer, tag ∉ loose.strip) →
    (tight.cleanItems (inner.map .str)
      ((loose.cleanChildren (outer.map .str) children).nodes.map .node)).nodes =
        (tight.cleanChildren (inner.map .str) children).nodes
  | .list items, inner, outer, fewer, lasts | .tuple items, inner, outer, fewer, lasts =>
    cleanItems_tightened h apart items inner outer fewer lasts
  | .null, _, _, _, _ | .bool _, _, _, _, _ | .int _, _, _, _, _ | .float _, _, _, _, _
  | .str _, _, _, _, _ | .bytes _, _, _, _, _ | .set _, _, _, _, _ | .map _, _, _, _, _
  | .position _, _, _, _, _ | .node _, _, _, _, _ | .foreign, _, _, _, _ => rfl
termination_by structural children => children

theorem cleanItems_tightened (h : tight.Tightens loose) (apart : loose.IsSeparate) :
    ∀ (items : List Value) (inner outer : List String), inner ⊆ outer →
    (∀ tag ∈ outer, tag ∉ loose.strip) →
    (tight.cleanItems (inner.map .str)
      ((loose.cleanItems (outer.map .str) items).nodes.map .node)).nodes =
        (tight.cleanItems (inner.map .str) items).nodes
  | [], _, _, _, _ => rfl
  | item :: rest, inner, outer, fewer, lasts => by
    have first := cleanItem_tightened h apart item inner outer fewer lasts
    have others := cleanItems_tightened h apart rest inner outer fewer lasts
    rw [cleanItems, Cleaned.nodes_append, List.map_append, nodes_cleanItems_append, first, others,
      cleanItems, Cleaned.nodes_append]
termination_by structural items => items

theorem cleanItem_tightened (h : tight.Tightens loose) (apart : loose.IsSeparate) :
    ∀ (item : Value) (inner outer : List String), inner ⊆ outer →
    (∀ tag ∈ outer, tag ∉ loose.strip) →
    (tight.cleanItems (inner.map .str)
      ((loose.cleanItem (outer.map .str) item).nodes.map .node)).nodes =
        (tight.cleanItem (inner.map .str) item).nodes
  | .node node, inner, outer, fewer, lasts => clean_tightened h apart node inner outer fewer lasts
  | .null, _, _, _, _ | .bool _, _, _, _, _ | .int _, _, _, _, _ | .float _, _, _, _, _
  | .str _, _, _, _, _ | .bytes _, _, _, _, _ | .list _, _, _, _, _ | .tuple _, _, _, _, _
  | .set _, _, _, _, _ | .map _, _, _, _, _ | .position _, _, _, _, _ | .foreign, _, _, _, _ => rfl
termination_by structural item => item

end

end Walks

end Policy

/-! ## Drafts from which something was taken away -/

/-- The edit takes tags or properties away. -/
inductive Edit.IsRemoval : Edit → Prop
  | tags (names : List Value) : IsRemoval (.disallowTags names)
  | attributes (tag : Value) (names : List Value) : IsRemoval (.disallowAttributes tag names)

namespace Draft

variable {draft : Draft} {loose : Policy}

theorem mem_of_mem_takeOut {values : List Value} {set : NameSet} {name : String}
    (h : name ∈ (takeOut values set).1) : name ∈ set := by
  induction values generalizing set with
  | nil => exact h
  | cons value rest ih =>
    unfold takeOut at h
    split at h
    · have kept := ih h
      split at kept
      · exact (NameSet.mem_erase.1 kept).2
      · exact kept
    · exact h

theorem forall₂_put {β : Type} {R : Value × NameSet → β → Prop} {key : Value} {old new : NameSet}
    {entries : List (Value × NameSet)} {bounds : List β} (h : List.Forall₂ R entries bounds)
    (found : Value.find? key entries = some old)
    (shrinks : ∀ key' bound, R (key', old) bound → R (key', new) bound) :
    List.Forall₂ R (Value.put key new entries) bounds := by
  induction h with
  | nil => cases found
  | @cons entry bound rest bounds first others ih =>
    unfold Value.find? at found
    unfold Value.put
    split at found
    · next here =>
      rw [if_pos here]
      obtain rfl := Option.some.inj found
      exact .cons (shrinks entry.1 bound first) others
    · next elsewhere =>
      rw [if_neg elsewhere]
      exact .cons first (ih found)

/-- The entry of a draft stands under the same key as that of the policy and holds no more. -/
def Bounded (entry : Value × NameSet) (own : String × NameSet) : Prop :=
  entry.1 = .str own.1 ∧ ∀ name ∈ entry.2, name ∈ own.2

/-- The draft differs from the policy only in that tags and properties have been taken away. -/
structure Narrows (draft : Draft) (loose : Policy) : Prop where
  tagNames : ∀ tag ∈ draft.tagNames, tag ∈ loose.tagNames
  attributes : List.Forall₂ Bounded draft.attributes loose.attributes.entries
  protocols : draft.protocols = openMap loose.protocols
  ancestors : draft.ancestors = openMap loose.ancestors
  clobber : draft.clobber = loose.clobber
  clobberPrefix : draft.clobberPrefix = loose.clobberPrefix
  strip : draft.strip = loose.strip

theorem narrows_ofPolicy (loose : Policy) : (ofPolicy loose).Narrows loose where
  tagNames := fun _ h => h
  attributes := by
    show List.Forall₂ Bounded (openMap loose.attributes) loose.attributes.entries
    rw [openMap, List.forall₂_map_left_iff, List.forall₂_same]
    exact fun own _ => ⟨rfl, fun _ h => h⟩
  protocols := rfl
  ancestors := rfl
  clobber := rfl
  clobberPrefix := rfl
  strip := rfl

/-- A removal keeps to this, even one that fails half-way. -/
theorem Narrows.edit (h : draft.Narrows loose) {change : Edit} (removal : change.IsRemoval) :
    (draft.edit change).1.Narrows loose := by
  cases removal with
  | tags names =>
    have fewer : ∀ tag ∈ (takeOut names draft.tagNames).1, tag ∈ loose.tagNames :=
      fun tag kept => h.tagNames tag (mem_of_mem_takeOut kept)
    exact { h with tagNames := fewer }
  | attributes tag names =>
    simp only [Draft.edit]
    split
    · exact h
    · next tag _ =>
      split
      · exact h
      · next own found =>
        have fewer : List.Forall₂ Bounded
            (Value.put tag (takeOut names own).1 draft.attributes) loose.attributes.entries := by
          refine forall₂_put h.attributes found fun key' bound bounded => ⟨bounded.1, ?_⟩
          exact fun name kept => bounded.2 name (mem_of_mem_takeOut kept)
        exact { h with attributes := fewer }

theorem Narrows.editAll (h : draft.Narrows loose) {edits : List Edit}
    (removals : ∀ change ∈ edits, change.IsRemoval) {last : Draft}
    (ran : draft.editAll edits = .ok last) : last.Narrows loose := by
  induction edits generalizing draft with
  | nil =>
    cases ran
    exact h
  | cons change rest ih =>
    unfold Draft.editAll at ran
    have step := h.edit (removals change (.head _))
    split at ran
    · next changed e =>
      rw [e] at step
      exact ih step (fun other ho => removals other (.tail _ ho)) ran
    · cases ran

/-! ## Finishing such a draft -/

theorem finishEntries_names (key : String) (entries : List (String × NameSet)) :
    finishEntries key (entries.map fun entry => (.str entry.1, entry.2)) = .ok entries := by
  induction entries with
  | nil => rfl
  | cons entry rest ih =>
    rw [List.map_cons, finishEntries]
    simp only [Value.str?, ih]
    rfl

theorem finishMap_openMap (key : String) (map : NameMap) :
    finishMap key (openMap map) = .ok map := by
  rw [finishMap, openMap, finishEntries_names]
  exact congrArg Except.ok (NameMap.ofEntries_entries map)

/-- The name holds no more than in the policy. -/
def Within (entry own : String × NameSet) : Prop :=
  entry.1 = own.1 ∧ ∀ name ∈ entry.2, name ∈ own.2

theorem exists_finishEntries (key : String) {entries : List (Value × NameSet)}
    {owns : List (String × NameSet)} (h : List.Forall₂ Bounded entries owns) :
    ∃ finished, finishEntries key entries = .ok finished ∧ List.Forall₂ Within finished owns := by
  induction h with
  | nil => exact ⟨[], rfl, .nil⟩
  | @cons entry own rest owns first _ ih =>
    obtain ⟨finished, others, pairs⟩ := ih
    obtain ⟨isName, fewer⟩ := first
    refine ⟨(own.1, entry.2) :: finished, ?_, .cons ⟨rfl, fewer⟩ pairs⟩
    rw [finishEntries, isName]
    simp only [Value.str?, others]
    rfl

theorem ascending_of_within {finished owns : List (String × NameSet)}
    (h : List.Forall₂ Within finished owns) (ascending : owns.Pairwise (·.1 < ·.1)) :
    finished.Pairwise (·.1 < ·.1) := by
  have keys : finished.map Prod.fst = owns.map Prod.fst := by
    rw [← List.forall₂_eq_eq_eq, List.forall₂_map_left_iff, List.forall₂_map_right_iff]
    exact h.imp fun _ _ within => within.1
  have inOrder : (owns.map Prod.fst).Pairwise (· < ·) := List.pairwise_map.2 ascending
  rw [← keys] at inOrder
  exact List.pairwise_map.1 inOrder

theorem mem_lookup_of_within {finished owns : List (String × NameSet)}
    (h : List.Forall₂ Within finished owns) {key name : String}
    (held : name ∈ (NameMap.lookup key finished).getD ∅) :
    name ∈ (NameMap.lookup key owns).getD ∅ := by
  induction h with
  | nil => exact held
  | @cons entry own rest owns first _ ih =>
    unfold NameMap.lookup at held ⊢
    rw [first.1] at held
    split
    · next here =>
      rw [if_pos here] at held
      exact first.2 name held
    · next elsewhere =>
      rw [if_neg elsewhere] at held
      exact ih held

theorem finish_of_narrows (h : draft.Narrows loose) :
    ∃ tight, draft.finish = .ok tight ∧ tight.Tightens loose := by
  obtain ⟨finished, entries, pairs⟩ := exists_finishEntries "attributes" h.attributes
  have ascending := ascending_of_within pairs loose.attributes.ascending
  have fewer (tag name : String) (held : name ∈ (NameMap.ofEntries finished).get tag) :
      name ∈ loose.attributes.get tag := by
    have distinct := NameMap.distinct_of_ascending ascending
    rw [NameMap.get, NameMap.get?_ofEntries distinct] at held
    exact mem_lookup_of_within pairs held
  refine ⟨⟨draft.tagNames, .ofEntries finished, loose.protocols, loose.ancestors, draft.clobber,
    draft.clobberPrefix, draft.strip⟩, ?_, ?_⟩
  · rw [finish, finishMap, entries, h.protocols, h.ancestors, finishMap_openMap, finishMap_openMap]
    rfl
  · refine ⟨h.tagNames, ?_, rfl, rfl, h.clobber, h.clobberPrefix, h.strip⟩
    intro tag name allowed
    simp only [Policy.allowsAttribute, Bool.or_eq_true, Bool.and_eq_true,
      NameSet.contains_iff] at allowed ⊢
    rcases allowed with (own | every) | ⟨isData, own | every⟩
    · exact .inl (.inl (fewer tag name own))
    · exact .inl (.inr (fewer Policy.wildcard name every))
    · exact .inr ⟨isData, .inl (fewer tag _ own)⟩
    · exact .inr ⟨isData, .inr (fewer Policy.wildcard _ every)⟩

end Draft

/-! ## Sanitizing under a tighter policy -/

namespace Policy

/-- A root that was sanitized under a policy by which no property is both given the prefix and
checked for its scheme, and is then sanitized under a tighter one, comes out as if it had been
sanitized under that one at once.  A draft of the policy that only takes tags and properties away
makes such a tighter one. -/
theorem sanitize_tightened (loose : Policy) (apart : loose.IsSeparate) :
    (∀ tight : Policy, tight.Tightens loose → ∀ children data position : Value,
      tight.sanitize (.node (loose.sanitize (.node (.root children data position)))) =
        tight.sanitize (.node (.root children data position))) ∧
    (∀ edits : List Edit, (∀ change ∈ edits, change.IsRemoval) → ∀ draft : Draft,
      (Draft.ofPolicy loose).editAll edits = .ok draft →
        ∃ tight, draft.finish = .ok tight ∧ tight.Tightens loose) := by
  constructor
  · intro tight h children data position
    have twice := clean_tightened h apart (.root children data position) [] []
      (List.Subset.refl []) fun _ around => absurd around List.not_mem_nil
    rw [nodes_clean_root, List.map_singleton, nodes_cleanItems_singleton, List.map_nil] at twice
    rw [sanitize_node loose, nodes_clean_root, sanitize_node, sanitize_node]
    exact congrArg Node.collapse twice
  · intro edits removals draft ran
    exact Draft.finish_of_narrows ((Draft.narrows_ofPolicy loose).editAll removals ran)

/-- Lists, whose items stand in lists of either kind; bold text with a title. -/
def titledLists : Policy where
  tagNames := .ofList ["b", "li", "ol", "ul"]
  attributes := .ofEntries [("b", .ofList ["id", "title"])]
  ancestors := .ofEntries [("li", .ofList ["ol", "ul"])]

/-- Ordered lists and titles are taken away.  An item of an ordered list, kept at first, is
unwrapped together with the list; the id of the bold text is given the prefix once. -/
theorem sanitize_tightened_lists :
    let bold (entries : List (Value × Value)) (children : Value) : Value :=
      .node (.element (.str "b") (.map entries) children .null .null)
    let item : Value := .node (.element (.str "li") (.map []) (.list [
      bold [(.str "id", .str "one"), (.str "title", .str "two")] (.list [])]) .null .null)
    let list : Value := .list [.node (.element (.str "ol") (.map []) (.list [item]) .null .null)]
    let edits : List Edit := [.disallowTags [.str "ol"], .disallowAttributes (.str "b")
      [.str "title", .int 1]]
    titledLists.IsSeparate ∧ (∀ change ∈ edits, change.IsRemoval) ∧
      ∃ draft tight, (Draft.ofPolicy titledLists).editAll edits = .ok draft ∧
        draft.finish = .ok tight ∧ tight.Tightens titledLists ∧
        tight.sanitize (.node (titledLists.sanitize (.node (.root list .null .null)))) =
          tight.sanitize (.node (.root list .null .null)) ∧
        tight.sanitize (.node (.root list .null .null)) = .rootOf [.element (.str "b")
          (.map [(.str "id", .str "user-content-one")]) (.tuple []) .null .null] := by
  intro bold item list edits
  have apart : titledLists.IsSeparate := by decide
  have removals : ∀ change ∈ edits, change.IsRemoval := by
    intro change ho
    rcases List.mem_cons.1 ho with rfl | ho
    · exact .tags _
    · obtain rfl := List.mem_singleton.1 ho
      exact .attributes _ _
  obtain ⟨draft, ran⟩ : ∃ draft, (Draft.ofPolicy titledLists).editAll edits = .ok draft := ⟨_, rfl⟩
  obtain ⟨tight, finished, tightens⟩ :=
    (sanitize_tightened titledLists apart).2 edits removals draft ran
  refine ⟨apart, removals, draft, tight, ran, finished, tightens,
    (sanitize_tightened titledLists apart).1 tight tightens list .null .null, ?_⟩
  cases ran
  cases finished
  rfl

end Policy

end SafeMarkup
