/-
# Deleting first

A tag that is to vanish takes along all that it encloses, whatever else a policy says about it.
Cleaning decides this on the way down, next to everything else.  `Policy.erase` decides nothing
else: it deletes such elements from a tree, and all that is no node a tree may be made of.  Cleaning
under a policy is cleaning what `erase` leaves under the same policy without tags that vanish
(`clean_erase`).

The two walks meet the same elements inside the same tags, because an element that is deleted hands
no tag on.  They treat a text alike only if the nearest tag around it does not vanish, so it has to
be known that the tags which the walk carries never vanish.  It is an invariant of the walk, and
holds at its beginning, where there are no tags around.

It follows that nothing inside an element that vanishes has any influence (`erase_congr`).

`Policy.sparing` is the policy without tags that vanish.  It is not a policy that anybody would
use: under it an element with such a tag would be judged like any other.  But after `erase` there
is none of them left, so nothing is judged differently, and the statement says that the two things
a policy does, deleting and judging, can be done one after the other.
-/
import Mathlib.Data.List.Forall2
import SafeMarkup.Sanitizing
import SafeMarkup.Proofs.Cleaning

namespace SafeMarkup.Policy

/-! ## Erasing -/

mutual

/-- The tree without elements that vanish, without nodes that are no root, element or text, and
without children that are no nodes; nothing, if the node itself has to go. -/
def erase (policy : Policy) : Node → Option Node
  | .root children data position =>
    some (.root (policy.eraseChildren children) data position)
  | .element tag properties children data position =>
    if policy.isStripped tag then none
    else some (.element tag properties (policy.eraseChildren children) data position)
  | .text value data position => some (.text value data position)
  | .bare .. | .comment .. | .doctype .. | .raw .. | .unknown .. => none
termination_by structural node => node

/-- The same for the children in a field; what is no list or tuple holds none. -/
def eraseChildren (policy : Policy) : Value → Value
  | .list items => .list (policy.eraseItems items)
  | .tuple items => .tuple (policy.eraseItems items)
  | _ => .tuple []
termination_by structural value => value

def eraseItems (policy : Policy) : List Value → List Value
  | [] => []
  | item :: rest => policy.eraseItem item ++ policy.eraseItems rest
termination_by structural items => items

def eraseItem (policy : Policy) : Value → List Value
  | .node node => (policy.erase node).toList.map .node
  | _ => []
termination_by structural value => value

end

/-- The same policy, under which no tag vanishes. -/
def sparing (policy : Policy) : Policy :=
  { policy with strip := ∅ }

/-! ## The policy that spares -/

variable {policy : Policy}

theorem judge_sparing {around : List Value} {tag : Value}
    (h : ∀ name, policy.judge around tag ≠ .stripped name) :
    policy.sparing.judge around tag = policy.judge around tag := by
  cases tag with
  | str name =>
    have lasts : ¬ policy.strip.contains name = true := fun vanishes =>
      h name (judge_eq_stripped_iff.2 ⟨rfl, NameSet.contains_iff.1 vanishes⟩)
    have spared : ¬ policy.sparing.strip.contains name = true := fun vanishes =>
      List.not_mem_nil (NameSet.contains_iff.1 vanishes)
    rw [judge, judge, if_neg lasts, if_neg spared]
    rfl
  | _ => rfl

theorem cleanProperties_sparing (policy : Policy) (tag : String) (properties : Value) :
    (policy.sparing.cleanProperties tag properties).1 =
      (policy.cleanProperties tag properties).1 := by
  rw [cleanProperties, cleanProperties, cleanEntries_eq_filterMap, cleanEntries_eq_filterMap]
  rfl

/-! ## One walk or two -/

section Element

variable {around : List Value} {tag properties children data position : Value} {name : String}

theorem erase_stripped (h : policy.judge around tag = .stripped name) :
    policy.erase (.element tag properties children data position) = none := by
  obtain ⟨rfl, vanishes⟩ := judge_eq_stripped_iff.1 h
  exact if_pos (NameSet.contains_iff.2 vanishes)

theorem erase_not_stripped (h : ∀ name, policy.judge around tag ≠ .stripped name) :
    policy.erase (.element tag properties children data position) =
      some (.element tag properties (policy.eraseChildren children) data position) := by
  refine if_neg fun vanishes => ?_
  cases tag with
  | str name => exact h name (judge_eq_stripped_iff.2 ⟨rfl, NameSet.contains_iff.1 vanishes⟩)
  | _ => exact Bool.false_ne_true vanishes

end Element

mutual

/-- Inside tags that do not vanish, cleaning is erasing and then cleaning what is left. -/
theorem clean_erase (policy : Policy) : ∀ (node : Node) (enclosing : List String),
    (∀ outer ∈ enclosing, outer ∉ policy.strip) →
    (policy.clean (enclosing.map .str) node).nodes =
      policy.sparing.cleanLeft (enclosing.map .str) (policy.erase node)
  | .root children data position, enclosing, lasts => by
    have same := cleanChildren_erase policy children enclosing lasts
    rw [nodes_clean_root, same]
    rfl
  | .element tag properties children data position, enclosing, lasts => by
    cases verdict : policy.judge (enclosing.map .str) tag with
    | stripped name =>
      rw [nodes_clean_stripped verdict, erase_stripped verdict]
      rfl
    | kept name =>
      have same := cleanChildren_erase policy children (enclosing ++ [name])
        (lasts_inside_kept lasts verdict)
      have spared : ∀ other, policy.judge (enclosing.map .str) tag ≠ .stripped other := by
        simp [verdict]
      have verdict' := (judge_sparing spared).trans verdict
      rw [List.map_append, List.map_singleton] at same
      rw [nodes_clean_kept verdict, erase_not_stripped spared, cleanLeft,
        nodes_clean_kept verdict', cleanProperties_sparing, same]
    | _ =>
      -- The element is unwrapped by both walks, inside the same tags.
      have same := cleanChildren_erase policy children enclosing lasts
      have spared : ∀ other, policy.judge (enclosing.map .str) tag ≠ .stripped other := by
        simp [verdict]
      have verdict' := (judge_sparing spared).trans verdict
      rw [nodes_clean_unwrapped spared (by simp [verdict]), erase_not_stripped spared, cleanLeft,
        nodes_clean_unwrapped (by simp [verdict']) (by simp [verdict']), same]
  | .text value data position, enclosing, lasts => by
    cases value with
    | str s =>
      have lasts' : ∀ outer ∈ enclosing, outer ∉ policy.sparing.strip :=
        fun _ _ vanishes => absurd vanishes List.not_mem_nil
      rw [nodes_clean_text_inside lasts, erase, cleanLeft, nodes_clean_text_inside lasts']
    | _ => rfl
  | .bare .., _, _ | .comment .., _, _ | .doctype .., _, _ | .raw .., _, _ | .unknown .., _, _ =>
    rfl
termination_by structural node => node

theorem cleanChildren_erase (policy : Policy) : ∀ (children : Value) (enclosing : List String),
    (∀ outer ∈ enclosing, outer ∉ policy.strip) →
    (policy.cleanChildren (enclosing.map .str) children).nodes =
      (policy.sparing.cleanChildren (enclosing.map .str) (policy.eraseChildren children)).nodes
  | .list items, enclosing, lasts | .tuple items, enclosing, lasts =>
    cleanItems_erase policy items enclosing lasts
  | .null, _, _ | .bool _, _, _ | .int _, _, _ | .float _, _, _ | .str _, _, _ | .bytes _, _, _
  | .set _, _, _ | .map _, _, _ | .position _, _, _ | .node _, _, _ | .foreign, _, _ => rfl
termination_by structural children => children

theorem cleanItems_erase (policy : Policy) : ∀ (items : List Value) (enclosing : List String),
    (∀ outer ∈ enclosing, outer ∉ policy.strip) →
    (policy.cleanItems (enclosing.map .str) items).nodes =
      (policy.sparing.cleanItems (enclosing.map .str) (policy.eraseItems items)).nodes
  | [], _, _ => rfl
  | item :: rest, enclosing, lasts => by
    have first := cleanItem_erase policy item enclosing lasts
    have others := cleanItems_erase policy rest enclosing lasts
    rw [cleanItems, Cleaned.nodes_append, first, others, eraseItems, nodes_cleanItems_append]
termination_by structural items => items

theorem cleanItem_erase (policy : Policy) : ∀ (item : Value) (enclosing : List String),
    (∀ outer ∈ enclosing, outer ∉ policy.strip) →
    (policy.cleanItem (enclosing.map .str) item).nodes =
      (policy.sparing.cleanItems (enclosing.map .str) (policy.eraseItem item)).nodes
  | .node node, enclosing, lasts => by
    have same := clean_erase policy node enclosing lasts
    rw [cleanItem, eraseItem, nodes_cleanItems_left, same]
  | .null, _, _ | .bool _, _, _ | .int _, _, _ | .float _, _, _ | .str _, _, _ | .bytes _, _, _
  | .list _, _, _ | .tuple _, _, _ | .set _, _, _ | .map _, _, _ | .position _, _, _
  | .foreign, _, _ => rfl
termination_by structural item => item

end

/-! ## What vanishes has no influence -/

/-- The two values are alike but for what they have inside elements that vanish. -/
inductive AlikeOutside (policy : Policy) : Value → Value → Prop
  | refl (value : Value) : policy.AlikeOutside value value
  | vanishing {tag properties children data position : Value}
      {tag' properties' children' data' position' : Value} :
      policy.isStripped tag = true → policy.isStripped tag' = true →
      policy.AlikeOutside (.node (.element tag properties children data position))
        (.node (.element tag' properties' children' data' position'))
  | root {children children' data position : Value} : policy.AlikeOutside children children' →
      policy.AlikeOutside (.node (.root children data position))
        (.node (.root children' data position))
  | element {tag properties children children' data position : Value} :
      policy.AlikeOutside children children' →
      policy.AlikeOutside (.node (.element tag properties children data position))
        (.node (.element tag properties children' data position))
  | list {items items' : List Value} : List.Forall₂ policy.AlikeOutside items items' →
      policy.AlikeOutside (.list items) (.list items')
  | tuple {items items' : List Value} : List.Forall₂ policy.AlikeOutside items items' →
      policy.AlikeOutside (.tuple items) (.tuple items')

mutual

/-- Trees that are alike but for what they have inside elements that vanish are erased alike. -/
theorem erase_congr (policy : Policy) : ∀ (node node' : Node),
    policy.AlikeOutside (.node node) (.node node') → policy.erase node = policy.erase node'
  | .root children data position, _, alike => by
    cases alike with
    | refl => rfl
    | root inside => rw [erase, erase, eraseChildren_congr policy children _ inside]
  | .element tag properties children data position, _, alike => by
    cases alike with
    | refl => rfl
    | vanishing h h' => rw [erase, erase, if_pos h, if_pos h']
    | element inside => rw [erase, erase, eraseChildren_congr policy children _ inside]
  | .text .., _, alike | .bare .., _, alike | .comment .., _, alike | .doctype .., _, alike
  | .raw .., _, alike | .unknown .., _, alike => by
    cases alike
    rfl
termination_by structural node => node

theorem eraseChildren_congr (policy : Policy) : ∀ (children children' : Value),
    policy.AlikeOutside children children' →
    policy.eraseChildren children = policy.eraseChildren children'
  | .list items, _, alike => by
    cases alike with
    | refl => rfl
    | list inside => rw [eraseChildren, eraseChildren, eraseItems_congr policy items _ inside]
  | .tuple items, _, alike => by
    cases alike with
    | refl => rfl
    | tuple inside => rw [eraseChildren, eraseChildren, eraseItems_congr policy items _ inside]
  | .node _, _, alike => by
    cases alike <;> rfl
  | .null, _, alike | .bool _, _, alike | .int _, _, alike | .float _, _, alike
  | .str _, _, alike | .bytes _, _, alike | .set _, _, alike | .map _, _, alike
  | .position _, _, alike | .foreign, _, alike => by
    cases alike
    rfl
termination_by structural children => children

theorem eraseItems_congr (policy : Policy) : ∀ (items items' : List Value),
    List.Forall₂ policy.AlikeOutside items items' →
    policy.eraseItems items = policy.eraseItems items'
  | [], _, alike => by
    cases alike
    rfl
  | item :: rest, _, alike => by
    cases alike with
    | cons first others =>
      rw [eraseItems, eraseItems, eraseItem_congr policy item _ first,
        eraseItems_congr policy rest _ others]
termination_by structural items => items

theorem eraseItem_congr (policy : Policy) : ∀ (item item' : Value),
    policy.AlikeOutside item item' → policy.eraseItem item = policy.eraseItem item'
  | .node node, .node node', alike => by
    rw [eraseItem, eraseItem, erase_congr policy node node' alike]
  | .list _, _, alike | .tuple _, _, alike => by
    cases alike <;> rfl
  | .null, _, alike | .bool _, _, alike | .int _, _, alike | .float _, _, alike
  | .str _, _, alike | .bytes _, _, alike | .set _, _, alike | .map _, _, alike
  | .position _, _, alike | .foreign, _, alike => by
    cases alike
    rfl
termination_by structural item => item

end

/-! ## Sanitized trees -/

/-- Sanitizing a tree is deleting what vanishes and sanitizing what is left under a policy by which
nothing vanishes; where the whole tree goes, there is an empty root.  What is inside an element that
vanishes makes no difference, even if its tag may stay or another tag asks for it. -/
theorem sanitize_erase (policy : Policy) (node : Node) :
    (policy.sanitize (.node node) =
      match policy.erase node with
      | some rest => policy.sparing.sanitize (.node rest)
      | none => Node.rootOf []) ∧
    ∀ other, policy.AlikeOutside (.node node) (.node other) →
      policy.sanitize (.node other) = policy.sanitize (.node node) := by
  have deleted : ∀ tree : Node, policy.sanitize (.node tree) =
      Node.collapse (policy.sparing.cleanLeft [] (policy.erase tree)) := by
    intro tree
    have same := clean_erase policy tree [] fun _ h => absurd h List.not_mem_nil
    rw [List.map_nil] at same
    rw [sanitize_node, same]
  constructor
  · rw [deleted]
    cases policy.erase node with
    | none => rfl
    | some rest => rfl
  · intro other alike
    rw [deleted, deleted, erase_congr policy node other alike]

/-- Bold text vanishes, although its tag may stay and italics ask for it. -/
def boldless : Policy where
  tagNames := .ofList ["b", "i"]
  ancestors := .ofEntries [("i", .ofList ["b"])]
  strip := .ofList ["b"]

/-- Italics outside of bold text are unwrapped, and what bold text there is does not matter. -/
theorem sanitize_erase_boldless :
    let bold (children : List Value) : Value :=
      .node (.element (.str "b") (.map []) (.list children) .null .null)
    let italics (text : String) : Value :=
      .node (.element (.str "i") (.map []) (.tuple [.node (.textOf text)]) .null .null)
    let line : Node := .root (.list [bold [italics "one"], italics "two"]) .null .null
    let other : Node := .root (.list [bold [], italics "two"]) .null .null
    boldless.AlikeOutside (.node line) (.node other) ∧
      boldless.sanitize (.node line) = .rootOf [.textOf "two"] ∧
      boldless.sanitize (.node other) = boldless.sanitize (.node line) := by
  intro bold italics line other
  have alike : boldless.AlikeOutside (.node line) (.node other) :=
    .root (.list (.cons (.vanishing (by decide) (by decide)) (.cons (.refl _) .nil)))
  exact ⟨alike, (sanitize_erase boldless line).1, (sanitize_erase boldless line).2 other alike⟩

end SafeMarkup.Policy
