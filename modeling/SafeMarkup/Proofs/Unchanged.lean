/-
# What sanitizing does not change

Sanitizing leaves a tree as it is exactly if the tree conforms to the policy, with values that are
settled: primitives or tuples of primitives, whose texts are accepted and have the prefix where
they need it (`sanitize_same_iff_conforms`).

That conforming trees are left alone is `sanitize_of_conforms`.  For the converse it is not enough
that what comes out conforms: a tree might get back to itself by detours, with an element unwrapped
and another like it, from further inside, in its place.  But a tree that is the same as a conforming
one has its shape and its tags (`Conforms.of_same`), and such a tree is cleaned node by node, none
of them going and none being unwrapped (`Conforms.exists_cleaned`).  What is left are the
properties.  Under each name as many values come out as went in, so that none was refused, and each
is the same as the one it was emitted from (`carries_of_same`).

The comparison is made twice, once by equality and once by what counts as the same, and it is no
accident that both give the same answer: sanitizing changes a value in a way that shows, or not at
all.  So a caller who tests whether a tree was altered by comparing the two gets the right answer,
although the test is blind to the difference between, say, one and true.
-/
import SafeMarkup.Proofs.FixedPoint
import SafeMarkup.Proofs.Sameness

namespace SafeMarkup

/-! ## Settled values -/

namespace Value

/-- The items of a tuple, or the value itself. -/
def parts : Value → List Value
  | tuple items => items
  | value => [value]

theorem isPropertyValue_iff {value : Value} :
    value.IsPropertyValue ↔ ∀ part ∈ value.parts, part.isPrimitive = true := by
  cases value with
  | tuple items => exact Iff.rfl
  | _ => simp only [IsPropertyValue, parts, List.mem_singleton, forall_eq]

theorem mem_texts_iff {value : Value} {text : String} :
    text ∈ value.texts ↔ .str text ∈ value.parts := by
  cases value with
  | tuple items =>
    rw [texts, List.mem_filterMap]
    constructor
    · rintro ⟨item, hitem, found⟩
      exact eq_str_of_str? found ▸ hitem
    · exact fun htext => ⟨.str text, htext, rfl⟩
  | _ => simp [texts, parts]

end Value

namespace Policy

variable {policy : Policy} {name : String} {raw value : Value}

/-- The value may stand under the name, and sanitizing has nothing to do about it. -/
structure Settled (policy : Policy) (name : String) (value : Value) : Prop where
  shape : value.IsPropertyValue
  accepted : ∀ text ∈ value.texts, policy.acceptsUrl name text = true
  guarded : policy.isClobbered name = true →
    ∀ text ∈ value.texts, policy.clobberPrefix.toList <+: text.toList

theorem guardName_eq_self_iff {text : String} :
    policy.guardName name text = text ↔
      (policy.isClobbered name = true → policy.clobberPrefix.toList <+: text.toList) := by
  constructor
  · intro same clobbered
    have begins := guardName_begins clobbered text
    rwa [same] at begins
  · exact guardName_of_prefixed

theorem sanitizePrimitive_eq_self_iff :
    policy.sanitizePrimitive name value = some value ↔
      ∀ text, value = .str text → policy.acceptsUrl name text = true ∧
        (policy.isClobbered name = true → policy.clobberPrefix.toList <+: text.toList) := by
  cases value with
  | str text =>
    simp only [sanitizePrimitive, Value.str.injEq, forall_eq', ← guardName_eq_self_iff]
    by_cases accepted : policy.acceptsUrl name text = true
    · simp [accepted]
    · simp [accepted]
  | _ => simp [sanitizePrimitive]

theorem settled_iff :
    policy.Settled name value ↔ ∀ part ∈ value.parts, part.isPrimitive = true ∧
      policy.sanitizePrimitive name part = some part := by
  constructor
  · intro settled part hpart
    refine ⟨Value.isPropertyValue_iff.1 settled.shape part hpart,
      sanitizePrimitive_eq_self_iff.2 ?_⟩
    rintro text rfl
    have ht : text ∈ value.texts := Value.mem_texts_iff.2 hpart
    exact ⟨settled.accepted text ht, fun clobbered => settled.guarded clobbered text ht⟩
  · intro h
    have stays : ∀ text ∈ value.texts, policy.acceptsUrl name text = true ∧
        (policy.isClobbered name = true → policy.clobberPrefix.toList <+: text.toList) := by
      intro text ht
      exact sanitizePrimitive_eq_self_iff.1 (h _ (Value.mem_texts_iff.1 ht)).2 text rfl
    exact {
      shape := Value.isPropertyValue_iff.2 fun part hpart => (h part hpart).1
      accepted := fun text ht => (stays text ht).1
      guarded := fun clobbered text ht => (stays text ht).2 clobbered }

theorem stands_of_settled (settled : policy.Settled name value) : policy.Stands name value := by
  have stays := settled_iff.1 settled
  unfold Stands
  cases value with
  | tuple items =>
    have prim : items.filter Value.isPrimitive = items :=
      List.filter_eq_self.2 fun item hitem => (stays item hitem).1
    have same : items.filterMap (policy.sanitizePrimitive name) = items := by
      have all := List.filterMap_congr fun item hitem => (stays item hitem).2
      exact all.trans List.filterMap_some
    rw [sanitizeValue_of_items rfl, prim, same]
  | _ =>
    obtain ⟨prim, same⟩ := stays _ (.head _)
    rw [sanitizeValue_of_isPrimitive prim, same]

/-! ## Values that come out the same -/

/-- A primitive that comes out the same comes out as it is. -/
theorem sanitizePrimitive_of_same (h : policy.sanitizePrimitive name raw = some value)
    (same : Value.Same value raw) : policy.sanitizePrimitive name raw = some raw := by
  cases raw with
  | str text =>
    simp only [sanitizePrimitive] at h ⊢
    split at h
    · next accepted =>
      cases h
      rw [if_pos accepted, same.eq_str]
    · cases h
  | _ => rfl

theorem settled_of_same (h : policy.sanitizeValue name raw = some value)
    (same : Value.Same value raw) : policy.Settled name raw := by
  refine settled_iff.2 ?_
  rcases sanitizeValue_cases h with ⟨prim, emitted⟩ | ⟨items, hitems, rfl⟩
  · have stays := sanitizePrimitive_of_same emitted same
    cases raw with
    | tuple items => exact absurd prim Bool.false_ne_true
    | _ =>
      intro part hpart
      obtain rfl := List.mem_singleton.1 hpart
      exact ⟨prim, stays⟩
  · obtain ⟨others, rfl, pairs⟩ := same.exists_tuple
    obtain rfl : others = items := Option.some.inj hitems
    rw [List.filterMap_filter] at pairs
    intro part hpart
    obtain ⟨result, emitted, alike⟩ := exists_of_forall₂_filterMap pairs part hpart
    split at emitted
    · next prim => exact ⟨prim, sanitizePrimitive_of_same emitted alike⟩
    · cases emitted

/-! ## Trees -/

variable {enclosing : List String} {admits : String → Value → Prop}

/-- A tree that is the same as a conforming one conforms, as far as the values of its properties do
not matter. -/
theorem Conforms.of_same {out node : Node} (conforms : policy.Conforms admits enclosing out)
    (same : Value.Same (.node out) (.node node)) :
    policy.Conforms (fun _ _ => True) enclosing node := by
  induction conforms generalizing node with
  | root _ ih =>
    obtain ⟨others, data', position', rfl, pairs⟩ := same.exists_root
    refine .root fun child hchild => ?_
    obtain ⟨source, hsource, alike⟩ := exists_left_of_forall₂ pairs child hchild
    exact ih source hsource alike
  | element allowed lasts placed carried _ ih =>
    obtain ⟨fs, others, data', position', rfl, properties, pairs⟩ := same.exists_element
    refine .element allowed lasts placed (fun entry hentry => ?_) fun child hchild => ?_
    · have named := fun source hsource => (carried source hsource).imp fun _ h => h.1
      obtain ⟨source, hsource, key⟩ := properties.exists_key named entry hentry
      obtain ⟨name, key', permitted, -⟩ := carried source hsource
      exact ⟨name, key.trans key', permitted, trivial⟩
    · obtain ⟨source, hsource, alike⟩ := exists_left_of_forall₂ pairs child hchild
      exact ih source hsource alike
  | text =>
    obtain ⟨data', position', rfl⟩ := same.exists_text
    exact .text

theorem valuesAt_cleanEntries {tag name : String}
    (allowed : policy.allowsAttribute tag name = true) (entries : List (Value × Value)) :
    Value.valuesAt (.str name) (policy.cleanEntries tag entries).1 =
      (Value.valuesAt (.str name) entries).filterMap (policy.sanitizeValue name) := by
  rw [cleanEntries_eq_filterMap, Value.valuesAt, Value.valuesAt, List.filterMap_filterMap,
    List.filterMap_filterMap]
  refine List.filterMap_congr fun entry _ => ?_
  obtain ⟨key, raw⟩ := entry
  by_cases here : Value.sameKey (.str name) key = true
  · cases key with
    | str property =>
      obtain rfl := Value.sameKey_str_str.1 here
      simp only [cleanEntry, allowed, if_true, here, Option.bind_some]
      cases policy.sanitizeValue property raw with
      | none => rfl
      | some value => exact if_pos here
    | _ => cases here
  · rw [if_neg here]
    cases stays : policy.cleanEntry tag (key, raw) with
    | none => rfl
    | some result =>
      -- The entry stays, but it keeps its key, which is another one.
      obtain ⟨property, key', kept, -⟩ := cleanEntry_eq_some_iff.1 stays
      refine if_neg ?_
      rwa [kept, ← key']

theorem carries_of_same {tag : String} {entries : List (Value × Value)}
    (named : ∀ entry ∈ entries, policy.Carries (fun _ _ => True) tag entry)
    (same : Value.Same (.map (policy.cleanEntries tag entries).1) (.map entries)) :
    ∀ entry ∈ entries, policy.Carries policy.Settled tag entry := by
  obtain ⟨_, e, -, values⟩ := same.exists_map
  cases e
  intro entry hentry
  obtain ⟨name, key, allowed, -⟩ := named entry hentry
  have pairs := values (.str name)
  rw [valuesAt_cleanEntries allowed] at pairs
  have here : entry.2 ∈ Value.valuesAt (.str name) entries := by
    refine List.mem_filterMap.2 ⟨entry, hentry, ?_⟩
    rw [key, if_pos (Value.sameKey_str_str.2 rfl)]
  obtain ⟨value, emitted, alike⟩ := exists_of_forall₂_filterMap pairs entry.2 here
  exact ⟨name, key, allowed, settled_of_same emitted alike⟩

/-- A tree that conforms as far as the values of its properties do not matter is cleaned into one
node, and if that is the same as the tree, the values are settled. -/
theorem Conforms.exists_cleaned {node : Node}
    (conforms : policy.Conforms (fun _ _ => True) enclosing node)
    (last : ∀ outer ∈ enclosing, outer ∉ policy.strip) :
    ∃ kept, (policy.clean (enclosing.map .str) node).nodes = [kept] ∧
      (Value.Same (.node kept) (.node node) → policy.Conforms policy.Settled enclosing node) := by
  induction conforms with
  | @root enclosing children data position _ ih =>
    refine ⟨_, nodes_clean_root, fun same => ?_⟩
    have cleaned := forall₂_nodes_cleanItems fun child hchild => ih child hchild last
    obtain ⟨others, _, _, e, pairs⟩ := same.exists_root
    simp only [Node.root.injEq, Value.tuple.injEq] at e
    obtain rfl := List.map_injective_iff.2 (fun _ _ => Value.node.inj) e.1
    exact .root (forall_of_forall₂ cleaned pairs)
  | @element enclosing tag entries children data position allowed lasts placed carried _ ih =>
    have verdict := judge_of_conforming allowed lasts placed
    have inside := lasts_inside_kept last verdict
    refine ⟨_, nodes_clean_kept verdict, fun same => ?_⟩
    have cleaned := forall₂_nodes_cleanItems fun child hchild => ih child hchild inside
    obtain ⟨fs, others, _, _, e, properties, pairs⟩ := same.exists_element
    simp only [Node.element.injEq, Value.map.injEq, Value.tuple.injEq] at e
    obtain ⟨-, rfl, e, -⟩ := e
    obtain rfl := List.map_injective_iff.2 (fun _ _ => Value.node.inj) e
    rw [List.map_append] at cleaned
    exact .element allowed lasts placed (carries_of_same carried properties)
      (forall_of_forall₂ cleaned pairs)
  | text => exact ⟨_, nodes_clean_text_inside last, fun _ => .text⟩

/-- Sanitizing leaves a tree as it is exactly if the tree conforms with settled values.  It makes no
difference whether the two trees are compared by what they are or by what counts as the same. -/
theorem sanitize_same_iff_conforms (policy : Policy) (node : Node) :
    (Value.Same (.node (policy.sanitize (.node node))) (.node node) ↔
      policy.Conforms policy.Settled [] node) ∧
    (policy.sanitize (.node node) = node ↔ policy.Conforms policy.Settled [] node) := by
  have back (conforms : policy.Conforms policy.Settled [] node) :
      policy.sanitize (.node node) = node :=
    sanitize_of_conforms (conforms.mono fun _ _ => stands_of_settled)
  have forth (same : Value.Same (.node (policy.sanitize (.node node))) (.node node)) :
      policy.Conforms policy.Settled [] node := by
    have shape := (sanitize_conforms_emits policy (.node node)).of_same same
    obtain ⟨kept, cleaned, settled⟩ := shape.exists_cleaned fun _ h => absurd h List.not_mem_nil
    have sole : policy.sanitize (.node node) = kept := sanitize_of_nodes_clean cleaned
    exact settled (sole ▸ same)
  refine ⟨⟨forth, fun conforms => ?_⟩, fun same => forth ?_, back⟩
  · rw [back conforms]
    exact .refl _
  · rw [same]
    exact .refl _

end Policy

end SafeMarkup
