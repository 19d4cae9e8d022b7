/-
# Cleaning, case by case

What the verdict on an element says about its tag, and what takes the place of a node and is put on
record about it under each verdict.  Everything that is proved about cleaning goes through these
equations, by one induction over node, children, items and item; no later proof opens the
definitions of the walk.

The tags around a node are handed on as values, but those that the walk adds are texts.  The lemmas
about places are therefore stated for lists of texts, `enclosing.map .str`.

There are three groups of lemmas.  The first is about the verdict: under which conditions an
element vanishes, stays, or is unwrapped for which of two reasons.  The second gives the nodes and
the records for each kind of node, as equations of lists.  The third is about the properties of an
element that stays, where `cleanEntry` says what becomes of one entry, so that the properties are
what a filter of the entries leaves and the order plays no part in the proofs.

Nothing here says that cleaning is right in any way.  These are the equations of the walk, in the
form in which they can be rewritten with.
-/
import SafeMarkup.Cleaning

namespace SafeMarkup

/-! ## Places -/

theorem NameSet.isEmpty_iff {set : NameSet} : set.isEmpty = true ↔ set = ∅ := by
  constructor
  · intro h
    refine NameSet.ext_iff.2 fun name => ?_
    have none : set.names = [] := List.isEmpty_iff.1 h
    change name ∈ set.names ↔ name ∈ []
    rw [none]
  · rintro rfl
    rfl

namespace Policy

variable {policy : Policy} {enclosing : List String} {tag : Value} {name : String}

theorem encloses_map_str {required : NameSet} :
    encloses required (enclosing.map .str) = true ↔ ∃ outer ∈ enclosing, outer ∈ required := by
  simp [encloses]

theorem allowsPlace_iff :
    policy.allowsPlace name (enclosing.map .str) = true ↔
      (policy.requiredAncestors name ≠ ∅ →
        ∃ outer ∈ enclosing, outer ∈ policy.requiredAncestors name) := by
  rw [allowsPlace, Bool.or_eq_true, NameSet.isEmpty_iff, encloses_map_str]
  exact Decidable.or_iff_not_imp_left

/-! ## Verdicts -/

theorem isStripped_eq_false_iff : policy.isStripped (.str name) = false ↔ name ∉ policy.strip :=
  Bool.eq_false_iff.trans (not_congr NameSet.contains_iff)

theorem judge_eq_stripped_iff {around : List Value} :
    policy.judge around tag = .stripped name ↔ tag = .str name ∧ name ∈ policy.strip := by
  cases tag with
  | str t =>
    simp only [judge, Value.str.injEq]
    split
    · next h =>
      rw [Verdict.stripped.injEq]
      exact ⟨fun e => ⟨e, e ▸ NameSet.contains_iff.1 h⟩, And.left⟩
    · next h =>
      constructor
      · intro verdict
        split at verdict
        · split at verdict <;> cases verdict
        · cases verdict
      · rintro ⟨rfl, stripped⟩
        exact absurd (NameSet.contains_iff.2 stripped) h
  | _ => simp [judge]

theorem judge_eq_kept_iff {around : List Value} :
    policy.judge around tag = .kept name ↔ tag = .str name ∧ name ∉ policy.strip ∧
      policy.allowsName name = true ∧ policy.allowsPlace name around = true := by
  cases tag with
  | str t =>
    simp only [judge, Value.str.injEq]
    constructor
    · intro verdict
      split at verdict
      · cases verdict
      · next lasts =>
        split at verdict
        · next allowed =>
          split at verdict
          · next placed =>
            cases verdict
            exact ⟨rfl, fun h => lasts (NameSet.contains_iff.2 h), allowed, placed⟩
          · cases verdict
        · cases verdict
    · rintro ⟨rfl, lasts, allowed, placed⟩
      rw [if_neg fun h => lasts (NameSet.contains_iff.1 h), if_pos allowed, if_pos placed]
  | _ => simp [judge]

theorem judge_eq_disallowed {around : List Value} (h : policy.judge around tag = .disallowed) :
    policy.isStripped tag = false ∧ policy.allowsTag tag = false := by
  cases tag with
  | str t =>
    simp only [judge] at h
    split at h
    · cases h
    · next lasts =>
      split at h
      · split at h <;> cases h
      · next refused => exact ⟨Bool.eq_false_iff.2 lasts, Bool.eq_false_iff.2 refused⟩
  | _ => exact ⟨rfl, rfl⟩

theorem judge_eq_misplaced {around : List Value} (h : policy.judge around tag = .misplaced name) :
    tag = .str name ∧ name ∉ policy.strip ∧ policy.allowsName name = true ∧
      policy.allowsPlace name around = false := by
  cases tag with
  | str t =>
    simp only [judge] at h
    split at h
    · cases h
    · next lasts =>
      split at h
      · next allowed =>
        split at h
        · cases h
        · next misplaced =>
          cases h
          exact ⟨rfl, fun hs => lasts (NameSet.contains_iff.2 hs), allowed,
            Bool.eq_false_iff.2 misplaced⟩
      · cases h
  | _ => cases h

/-! ## Nodes

What takes the place of a node. -/

variable {around : List Value} {properties children data position : Value}

theorem nodes_clean_root :
    (policy.clean around (.root children data position)).nodes =
      [.root (.tuple ((policy.cleanChildren around children).nodes.map .node)) data position] :=
  rfl

theorem nodes_clean_stripped (h : policy.judge around tag = .stripped name) :
    (policy.clean around (.element tag properties children data position)).nodes = [] := by
  simp only [clean, h]

theorem nodes_clean_kept (h : policy.judge around tag = .kept name) :
    (policy.clean around (.element tag properties children data position)).nodes =
      [.element (.str name) (.map (policy.cleanProperties name properties).1)
        (.tuple ((policy.cleanChildren (around ++ [.str name]) children).nodes.map .node))
        data position] := by
  simp only [clean, h]
  rfl

theorem nodes_clean_unwrapped (notStripped : ∀ name, policy.judge around tag ≠ .stripped name)
    (notKept : ∀ name, policy.judge around tag ≠ .kept name) :
    (policy.clean around (.element tag properties children data position)).nodes =
      (policy.cleanChildren around children).nodes := by
  cases verdict : policy.judge around tag with
  | stripped name => exact absurd verdict (notStripped name)
  | kept name => exact absurd verdict (notKept name)
  | _ =>
    simp only [clean, verdict]
    rfl

theorem nodes_clean_text {s : String} (h : ∀ outer ∈ around, policy.isStripped outer = false) :
    (policy.clean around (.text (.str s) data position)).nodes =
      [.text (.str s) data position] := by
  have lasts : (around.getLast?.map policy.isStripped).getD false = false := by
    cases last : around.getLast? with
    | none => rfl
    | some outer => exact h outer (List.mem_of_getLast? last)
  simp only [clean, cleanText, lasts]
  rfl

/-! Items are replaced one after the other. -/

theorem nodes_cleanItems_append (policy : Policy) (around : List Value) (xs ys : List Value) :
    (policy.cleanItems around (xs ++ ys)).nodes =
      (policy.cleanItems around xs).nodes ++ (policy.cleanItems around ys).nodes := by
  induction xs with
  | nil => rfl
  | cons x xs ih =>
    rw [List.cons_append, cleanItems, cleanItems, Cleaned.nodes_append, Cleaned.nodes_append, ih,
      List.append_assoc]

theorem nodes_cleanItems_singleton (policy : Policy) (around : List Value) (node : Node) :
    (policy.cleanItems around [.node node]).nodes = (policy.clean around node).nodes :=
  List.append_nil _

/-- What takes the place of a node that need not be there. -/
def cleanLeft (policy : Policy) (around : List Value) (node : Option Node) : List Node :=
  match node with
  | some node => (policy.clean around node).nodes
  | none => []

theorem nodes_cleanItems_left (policy : Policy) (around : List Value) (node : Option Node) :
    (policy.cleanItems around (node.toList.map .node)).nodes = policy.cleanLeft around node := by
  cases node with
  | none => rfl
  | some node => exact List.append_nil _

theorem cleanChildren_of_items? {items : List Value} (h : children.items? = some items) :
    policy.cleanChildren around children = policy.cleanItems around items := by
  cases children with
  | list _ | tuple _ =>
    cases h
    rfl
  | _ => cases h

/-! The tags that the walk carries down never vanish: it begins with none, and adds that of an
element only if the element is kept. -/

theorem lasts_inside_kept (lasts : ∀ outer ∈ enclosing, outer ∉ policy.strip)
    (h : policy.judge around tag = .kept name) :
    ∀ outer ∈ enclosing ++ [name], outer ∉ policy.strip := by
  intro outer ho
  rcases List.mem_append.1 ho with ho | ho
  · exact lasts outer ho
  · exact List.mem_singleton.1 ho ▸ (judge_eq_kept_iff.1 h).2.1

theorem nodes_clean_text_inside {s : String} (lasts : ∀ outer ∈ enclosing, outer ∉ policy.strip) :
    (policy.clean (enclosing.map .str) (.text (.str s) data position)).nodes =
      [.text (.str s) data position] := by
  refine nodes_clean_text fun outer ho => ?_
  obtain ⟨tag, htag, rfl⟩ := List.mem_map.1 ho
  exact isStripped_eq_false_iff.2 (lasts tag htag)

theorem mem_nodes_cleanText {value : Value} {node : Node}
    (h : node ∈ (policy.cleanText around value data position).nodes) :
    ∃ s, value = .str s ∧ node = .text (.str s) data position := by
  cases value with
  | str s =>
    simp only [cleanText] at h
    split at h
    · cases h
    · exact ⟨s, rfl, List.mem_singleton.1 h⟩
  | _ => cases h

/-! ## Records

What was put on record about a node and all below it. -/

theorem records_clean_stripped (h : policy.judge around tag = .stripped name) :
    (policy.clean around (.element tag properties children data position)).records =
      [.stripped name] := by
  simp only [clean, h]

theorem records_clean_disallowed (h : policy.judge around tag = .disallowed) :
    (policy.clean around (.element tag properties children data position)).records =
      [.disallowed tag] ++ (policy.cleanChildren around children).records := by
  simp only [clean, h]
  rfl

theorem records_clean_misplaced (h : policy.judge around tag = .misplaced name) :
    (policy.clean around (.element tag properties children data position)).records =
      [.misplaced name (policy.requiredAncestors name)] ++
        (policy.cleanChildren around children).records := by
  simp only [clean, h]
  rfl

theorem records_clean_kept (h : policy.judge around tag = .kept name) :
    (policy.clean around (.element tag properties children data position)).records =
      (policy.cleanProperties name properties).2 ++
        (policy.cleanChildren (around ++ [.str name]) children).records := by
  simp only [clean, h]
  rfl

theorem records_clean_text {value : Value} :
    (policy.clean around (.text value data position)).records = [] := by
  cases value with
  | str s =>
    simp only [clean, cleanText]
    split <;> rfl
  | _ => rfl

/-! ## Properties

Entries are judged one by one, and those that stay keep their order. -/

/-- What stays of an entry. -/
def cleanEntry (policy : Policy) (tag : String) (entry : Value × Value) : Option (Value × Value) :=
  match entry.1 with
  | .str property =>
    if policy.allowsAttribute tag property then
      (policy.sanitizeValue property entry.2).map fun value => (.str property, value)
    else none
  | _ => none

theorem cleanEntries_eq_filterMap (policy : Policy) (tag : String)
    (entries : List (Value × Value)) :
    (policy.cleanEntries tag entries).1 = entries.filterMap (policy.cleanEntry tag) := by
  induction entries with
  | nil => rfl
  | cons first rest ih =>
    obtain ⟨key, raw⟩ := first
    rw [List.filterMap_cons, ← ih]
    cases key with
    | str property =>
      simp only [cleanEntries, cleanEntry]
      split
      · cases policy.sanitizeValue property raw with
        | none => rfl
        | some value => rfl
      · rfl
    | _ => rfl

/-- An entry stays if it is that of a property which may stand on the tag and its value is
emitted. -/
theorem cleanEntry_eq_some_iff {entry result : Value × Value} :
    policy.cleanEntry name entry = some result ↔
      ∃ property, entry.1 = .str property ∧ result.1 = .str property ∧
        policy.allowsAttribute name property = true ∧
        policy.sanitizeValue property entry.2 = some result.2 := by
  obtain ⟨key, raw⟩ := entry
  obtain ⟨key', value⟩ := result
  constructor
  · intro stays
    cases key with
    | str property =>
      simp only [cleanEntry] at stays
      split at stays
      · next allowed =>
        obtain ⟨value, emitted, same⟩ := Option.map_eq_some_iff.1 stays
        cases same
        exact ⟨property, rfl, rfl, allowed, emitted⟩
      · cases stays
    | _ => cases stays
  · rintro ⟨property, rfl, rfl, allowed, emitted⟩
    simp only [cleanEntry, allowed, if_true, emitted, Option.map_some]

/-- The record of an entry, if its value is refused. -/
def refusal (policy : Policy) (tag : String) (entry : Value × Value) : Option Audit.Record :=
  match entry.1 with
  | .str property =>
    if policy.allowsAttribute tag property then
      match policy.sanitizeValue property entry.2 with
      | some _ => none
      | none => some (.refused tag property)
    else none
  | _ => none

theorem refused_eq_filterMap (policy : Policy) (tag : String) (entries : List (Value × Value)) :
    (policy.cleanEntries tag entries).2 = entries.filterMap (policy.refusal tag) := by
  induction entries with
  | nil => rfl
  | cons first rest ih =>
    obtain ⟨key, raw⟩ := first
    rw [List.filterMap_cons, ← ih]
    cases key with
    | str property =>
      simp only [cleanEntries, refusal]
      split
      · cases policy.sanitizeValue property raw with
        | none => rfl
        | some value => rfl
      · rfl
    | _ => rfl

/-- An entry is put on record if it is that of a property which may stand on the tag and its value
is not emitted. -/
theorem refusal_eq_some_iff {entry : Value × Value} {record : Audit.Record} :
    policy.refusal name entry = some record ↔
      ∃ property, entry.1 = .str property ∧ policy.allowsAttribute name property = true ∧
        policy.sanitizeValue property entry.2 = none ∧ record = .refused name property := by
  obtain ⟨key, raw⟩ := entry
  constructor
  · intro h
    cases key with
    | str property =>
      simp only [refusal] at h
      split at h
      · next allowed =>
        split at h
        · cases h
        · next refused =>
          cases h
          exact ⟨property, rfl, allowed, refused, rfl⟩
      · cases h
    | _ => cases h
  · rintro ⟨property, rfl, allowed, refused, rfl⟩
    simp only at refused
    simp only [refusal, allowed, if_true, refused]

theorem mem_cleanEntries {entry : Value × Value} {entries : List (Value × Value)}
    (h : entry ∈ (policy.cleanEntries name entries).1) :
    ∃ property raw, entry.1 = .str property ∧ policy.allowsAttribute name property = true ∧
      policy.sanitizeValue property raw = some entry.2 := by
  rw [cleanEntries_eq_filterMap] at h
  obtain ⟨source, -, stays⟩ := List.mem_filterMap.1 h
  obtain ⟨property, -, key, allowed, emitted⟩ := cleanEntry_eq_some_iff.1 stays
  exact ⟨property, source.2, key, allowed, emitted⟩

theorem keys_cleanEntries (entries : List (Value × Value)) :
    ((policy.cleanEntries name entries).1.map Prod.fst).Sublist (entries.map Prod.fst) := by
  rw [cleanEntries_eq_filterMap]
  induction entries with
  | nil => exact .slnil
  | cons entry rest ih =>
    rw [List.filterMap_cons, List.map_cons]
    cases stays : policy.cleanEntry name entry with
    | none => exact ih.cons _
    | some result =>
      obtain ⟨property, key, key', -, -⟩ := cleanEntry_eq_some_iff.1 stays
      rw [List.map_cons, key', ← key]
      exact ih.cons_cons _

end Policy

end SafeMarkup
