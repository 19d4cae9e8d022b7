/-
# Sanitized trees conform to their policy

`Policy.Conforms` says of a tree, from the top down, that it holds nothing but roots, elements and
texts, that every element may stay where it stands, and that it carries only properties that it may
carry.  What is asked of the value of a property is a parameter, `admits`, so that one induction
over the walk serves every statement about the values in sanitized trees: whatever is emitted is
admitted (`clean_conforms`), and a weaker demand follows by `Conforms.mono`.

The rule about enclosing tags is asked of the tree itself, as it came out.  The walk asks it of the
tags that it has gathered on the way down, and the two agree because those are the tags of elements
that stay: an element that is unwrapped hands on the tags it was given.  The invariant of the
induction is therefore that what takes the place of a node conforms inside the very tags that the
walk carries.

Conformance says what a sanitized tree does not hold.  It does not say that anything is left: the
empty root conforms to every policy, and so would a sanitizer that returns nothing else.  That
nothing is lost without cause is the content of `Proofs/Transfer.lean`, and for properties of
`Proofs/PropertySurvival.lean`.
-/
import SafeMarkup.Sanitizing
import SafeMarkup.Proofs.Cleaning
import SafeMarkup.Proofs.Occurrence
import SafeMarkup.Proofs.PropertyValue

namespace SafeMarkup

/-! ## Conforming trees -/

/-- The entry is that of a property which may stand on the tag, with a value that is admitted. -/
def Policy.Carries (policy : Policy) (admits : String → Value → Prop) (tag : String)
    (entry : Value × Value) : Prop :=
  ∃ name, entry.1 = .str name ∧ policy.allowsAttribute tag name = true ∧ admits name entry.2

/-- The tree conforms to the policy inside elements with these tags, nearest last. -/
inductive Policy.Conforms (policy : Policy) (admits : String → Value → Prop) :
    List String → Node → Prop
  | root {enclosing : List String} {children : List Node} {data position : Value} :
      (∀ child ∈ children, policy.Conforms admits enclosing child) →
      policy.Conforms admits enclosing (.root (.tuple (children.map .node)) data position)
  | element {enclosing : List String} {tag : String} {entries : List (Value × Value)}
      {children : List Node} {data position : Value} :
      policy.allowsTag (.str tag) = true →
      policy.isStripped (.str tag) = false →
      (policy.requiredAncestors tag ≠ ∅ →
        ∃ outer ∈ enclosing, outer ∈ policy.requiredAncestors tag) →
      (∀ entry ∈ entries, policy.Carries admits tag entry) →
      (∀ child ∈ children, policy.Conforms admits (enclosing ++ [tag]) child) →
      policy.Conforms admits enclosing
        (.element (.str tag) (.map entries) (.tuple (children.map .node)) data position)
  | text {enclosing : List String} {s : String} {data position : Value} :
      policy.Conforms admits enclosing (.text (.str s) data position)

namespace Policy

variable {policy : Policy} {admits admits' : String → Value → Prop} {enclosing : List String}

theorem Carries.mono (weaker : ∀ name value, admits name value → admits' name value)
    {tag : String} {entry : Value × Value} (h : policy.Carries admits tag entry) :
    policy.Carries admits' tag entry := by
  obtain ⟨name, key, allowed, admitted⟩ := h
  exact ⟨name, key, allowed, weaker name entry.2 admitted⟩

theorem Conforms.mono (weaker : ∀ name value, admits name value → admits' name value)
    {node : Node} (h : policy.Conforms admits enclosing node) :
    policy.Conforms admits' enclosing node := by
  induction h with
  | root _ ih => exact .root ih
  | element allowed lasts placed carried _ ih =>
    exact .element allowed lasts placed (fun entry he => (carried entry he).mono weaker) ih
  | text => exact .text

theorem Conforms.items {node : Node} (h : policy.Conforms admits enclosing node) :
    ∃ (children : List Node) (inner : List String), node.items = children.map .node ∧
      ∀ child ∈ children, policy.Conforms admits inner child := by
  cases h with
  | @root _ children _ _ inside => exact ⟨children, enclosing, rfl, inside⟩
  | @element _ tag _ children _ _ _ _ _ _ inside =>
    exact ⟨children, enclosing ++ [tag], rfl, inside⟩
  | text => exact ⟨[], enclosing, rfl, fun _ h => absurd h List.not_mem_nil⟩

/-- Whatever occurs in a conforming tree, at any depth, conforms in its place. -/
theorem Conforms.occurrence {top node : Node} (h : policy.Conforms admits enclosing top)
    {path : Path} (occurs : occurrence? [.node top] path = some node) :
    ∃ inner, policy.Conforms admits inner node := by
  obtain ⟨rest, rfl⟩ := (isLocal_occurs node).exists_cons occurs
  induction rest generalizing top enclosing with
  | nil =>
    obtain rfl : top = node := Option.some.inj (occurrence?_top.symm.trans occurs)
    exact ⟨enclosing, h⟩
  | cons j rest ih =>
    obtain ⟨children, inner, items, inside⟩ := h.items
    rw [occurrence?_below rfl (List.cons_ne_nil _ _), items] at occurs
    have lt : j < children.length := by simpa using lt_length_of_occurrence? occurs
    -- The rest of the path leads below that child, as if it stood alone.
    have child : (children.map Value.node)[j]? = [Value.node children[j]][0]? := by simp [lt]
    rw [occurrence?_congr child] at occurs
    exact ih (inside _ (List.getElem_mem lt)) occurs

/-! ## What cleaning leaves conforms -/

/-- The value is one that the property can come out with. -/
def Emits (policy : Policy) (name : String) (value : Value) : Prop :=
  ∃ raw, policy.sanitizeValue name raw = some value

theorem conforms_kept {tag : Value} {name : String} {properties data position : Value}
    {children : List Node} (h : policy.judge (enclosing.map .str) tag = .kept name)
    (inside : ∀ child ∈ children, policy.Conforms policy.Emits (enclosing ++ [name]) child) :
    policy.Conforms policy.Emits enclosing
      (.element (.str name) (.map (policy.cleanProperties name properties).1)
        (.tuple (children.map .node)) data position) := by
  obtain ⟨-, lasts, allowed, placed⟩ := judge_eq_kept_iff.1 h
  refine .element allowed (isStripped_eq_false_iff.2 lasts) (allowsPlace_iff.1 placed) ?_ inside
  intro entry he
  obtain ⟨property, raw, key, permitted, emitted⟩ := mem_cleanEntries he
  exact ⟨property, key, permitted, raw, emitted⟩

mutual

/-- Whatever takes the place of a node conforms inside the tags around it. -/
theorem clean_conforms (policy : Policy) : ∀ (node : Node) (enclosing : List String),
    ∀ kept ∈ (policy.clean (enclosing.map .str) node).nodes,
      policy.Conforms policy.Emits enclosing kept
  | .root children data position, enclosing => by
    intro kept hkept
    rw [nodes_clean_root] at hkept
    obtain rfl := List.mem_singleton.1 hkept
    exact .root (cleanChildren_conforms policy children enclosing)
  | .element tag properties children data position, enclosing => by
    intro kept hkept
    cases verdict : policy.judge (enclosing.map .str) tag with
    | stripped name =>
      rw [nodes_clean_stripped verdict] at hkept
      exact absurd hkept List.not_mem_nil
    | kept name =>
      have inner := cleanChildren_conforms policy children (enclosing ++ [name])
      rw [nodes_clean_kept verdict] at hkept
      rw [List.map_append] at inner
      obtain rfl := List.mem_singleton.1 hkept
      exact conforms_kept verdict inner
    | _ =>
      -- The element is unwrapped: what it enclosed has been cleaned inside the same tags.
      rw [nodes_clean_unwrapped (by simp [verdict]) (by simp [verdict])] at hkept
      exact cleanChildren_conforms policy children enclosing kept hkept
  | .text value data position, enclosing => by
    intro kept hkept
    obtain ⟨s, -, rfl⟩ := mem_nodes_cleanText hkept
    exact .text
  | .bare .., _ | .comment .., _ | .doctype .., _ | .raw .., _ | .unknown .., _ =>
    fun _ hkept => absurd hkept List.not_mem_nil
termination_by structural node => node

theorem cleanChildren_conforms (policy : Policy) : ∀ (children : Value) (enclosing : List String),
    ∀ kept ∈ (policy.cleanChildren (enclosing.map .str) children).nodes,
      policy.Conforms policy.Emits enclosing kept
  | .list items, enclosing | .tuple items, enclosing => cleanItems_conforms policy items enclosing
  | .null, _ | .bool _, _ | .int _, _ | .float _, _ | .str _, _ | .bytes _, _ | .set _, _
  | .map _, _ | .position _, _ | .node _, _ | .foreign, _ =>
    fun _ hkept => absurd hkept List.not_mem_nil
termination_by structural children => children

theorem cleanItems_conforms (policy : Policy) : ∀ (items : List Value) (enclosing : List String),
    ∀ kept ∈ (policy.cleanItems (enclosing.map .str) items).nodes,
      policy.Conforms policy.Emits enclosing kept
  | [], _ => fun _ hkept => absurd hkept List.not_mem_nil
  | item :: rest, enclosing => by
    intro kept hkept
    rw [cleanItems, Cleaned.nodes_append, List.mem_append] at hkept
    rcases hkept with h | h
    · exact cleanItem_conforms policy item enclosing kept h
    · exact cleanItems_conforms policy rest enclosing kept h
termination_by structural items => items

theorem cleanItem_conforms (policy : Policy) : ∀ (item : Value) (enclosing : List String),
    ∀ kept ∈ (policy.cleanItem (enclosing.map .str) item).nodes,
      policy.Conforms policy.Emits enclosing kept
  | .node node, enclosing => clean_conforms policy node enclosing
  | .null, _ | .bool _, _ | .int _, _ | .float _, _ | .str _, _ | .bytes _, _ | .list _, _
  | .tuple _, _ | .set _, _ | .map _, _ | .position _, _ | .foreign, _ =>
    fun _ hkept => absurd hkept List.not_mem_nil
termination_by structural item => item

end

/-! ## Sanitized trees -/

theorem collapse_conforms {nodes : List Node}
    (h : ∀ node ∈ nodes, policy.Conforms admits enclosing node) :
    policy.Conforms admits enclosing (Node.collapse nodes) := by
  match nodes with
  | [] => exact .root h
  | [sole] => exact h sole (.head _)
  | _ :: _ :: _ => exact .root h

/-- A sanitized tree conforms, with values that its properties can come out with. -/
theorem sanitize_conforms_emits (policy : Policy) (value : Value) :
    policy.Conforms policy.Emits [] (policy.sanitize value) := by
  unfold sanitize sanitizeWithRecords
  cases treeIn? value with
  | none => exact collapse_conforms fun _ h => absurd h List.not_mem_nil
  | some node => exact collapse_conforms (clean_conforms policy node [])

/-- A sanitized tree holds nothing but what the policy lets stay: roots, texts that are texts, and
elements whose tags may stay, in places where they may stand, with properties that they may carry
and values that are primitives or tuples of primitives. -/
theorem sanitize_conforms (policy : Policy) (value : Value) :
    policy.Conforms (fun _ => Value.IsPropertyValue) [] (policy.sanitize value) := by
  refine (sanitize_conforms_emits policy value).mono ?_
  rintro name emitted ⟨raw, h⟩
  exact isPropertyValue_of_sanitizeValue h

end Policy

end SafeMarkup
