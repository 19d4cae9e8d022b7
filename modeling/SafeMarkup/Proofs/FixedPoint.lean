/-
# Sanitizing once is enough

A tree that conforms to a policy, with values that are emitted as they are, is left alone by
cleaning (`nodes_clean_of_conforms`).  The second run sees a tree of another shape than the first
did: unwrapped elements are gone, several survivors have a root around them.  That does not matter,
since conformance is said of the tree as it came out, and the tags that the second run carries down
are those by which its conformance is judged.

Sanitized trees conform.  Whether their values are emitted once more as they are is a question of
the policy: the prefix, put before an accepted URL, may give it a scheme that is not accepted, and
the second run would refuse it.  Where no property is both given the prefix and checked for its
scheme, it is so (`sanitizeValue_emitted`), and sanitizing twice is sanitizing once.

The condition on the policy cannot be dropped, and the standard policy meets it.
`Proofs/Unchanged.lean` has the converse, that a tree which sanitizing leaves alone conforms with
settled values; and a policy that is tightened in between is the subject of
`Proofs/Tightening.lean`.
-/
import Mathlib.Data.List.Forall2
import SafeMarkup.Policy.Standard
import SafeMarkup.Proofs.Conformance

namespace SafeMarkup.Policy

variable {policy : Policy} {enclosing : List String}

/-- The value is emitted as it is. -/
def Stands (policy : Policy) (name : String) (value : Value) : Prop :=
  policy.sanitizeValue name value = some value

/-! ## Conforming trees are left alone -/

theorem cleanEntries_of_carries {tag : String} {entries : List (Value × Value)}
    (h : ∀ entry ∈ entries, policy.Carries policy.Stands tag entry) :
    (policy.cleanEntries tag entries).1 = entries := by
  induction entries with
  | nil => rfl
  | cons entry rest ih =>
    obtain ⟨name, key, allowed, stands⟩ := h entry (.head _)
    obtain ⟨_, value⟩ := entry
    cases key
    have stays : (policy.cleanEntries tag rest).1 = rest := ih fun other ho => h other (.tail _ ho)
    have emitted : policy.sanitizeValue name value = some value := stands
    simp only [cleanEntries, allowed, if_true, emitted, stays]

theorem forall₂_nodes_cleanItems {around : List Value} {R : Node → Node → Prop} {nodes : List Node}
    (h : ∀ node ∈ nodes, ∃ kept, (policy.clean around node).nodes = [kept] ∧ R kept node) :
    List.Forall₂ R (policy.cleanItems around (nodes.map .node)).nodes nodes := by
  induction nodes with
  | nil => exact .nil
  | cons node rest ih =>
    obtain ⟨kept, first, related⟩ := h node (.head _)
    have same : (policy.cleanItem around (.node node)).nodes = [kept] := first
    rw [List.map_cons, cleanItems, Cleaned.nodes_append, same]
    exact .cons related (ih fun other ho => h other (.tail _ ho))

theorem nodes_cleanItems_of_fixed {around : List Value} {nodes : List Node}
    (h : ∀ node ∈ nodes, (policy.clean around node).nodes = [node]) :
    (policy.cleanItems around (nodes.map .node)).nodes = nodes := by
  have pairs : List.Forall₂ Eq (policy.cleanItems around (nodes.map .node)).nodes nodes :=
    forall₂_nodes_cleanItems fun node hnode => ⟨node, h node hnode, rfl⟩
  rwa [List.forall₂_eq_eq_eq] at pairs

/-- An element that conforms is kept. -/
theorem judge_of_conforming {tag : String} (allowed : policy.allowsTag (.str tag) = true)
    (lasts : policy.isStripped (.str tag) = false)
    (placed : policy.requiredAncestors tag ≠ ∅ →
      ∃ outer ∈ enclosing, outer ∈ policy.requiredAncestors tag) :
    policy.judge (enclosing.map .str) (.str tag) = .kept tag :=
  judge_eq_kept_iff.2 ⟨rfl, isStripped_eq_false_iff.1 lasts, allowed, allowsPlace_iff.2 placed⟩

/-- A conforming tree is left alone inside tags that do not vanish. -/
theorem nodes_clean_of_conforms {node : Node}
    (conforms : policy.Conforms policy.Stands enclosing node)
    (last : ∀ outer ∈ enclosing, outer ∉ policy.strip) :
    (policy.clean (enclosing.map .str) node).nodes = [node] := by
  induction conforms with
  | @root enclosing children data position _ ih =>
    have same : (policy.cleanChildren (enclosing.map .str) (.tuple (children.map .node))).nodes =
        children := nodes_cleanItems_of_fixed fun child hc => ih child hc last
    rw [nodes_clean_root, same]
  | @element enclosing tag entries children data position allowed lasts placed carried _ ih =>
    have verdict := judge_of_conforming allowed lasts placed
    have inside := lasts_inside_kept last verdict
    have same : (policy.cleanChildren (enclosing.map .str ++ [.str tag])
        (.tuple (children.map .node))).nodes = children := by
      refine nodes_cleanItems_of_fixed fun child hc => ?_
      have fixed := ih child hc inside
      rwa [List.map_append] at fixed
    have carries : (policy.cleanProperties tag (.map entries)).1 = entries :=
      cleanEntries_of_carries carried
    rw [nodes_clean_kept verdict, same, carries]
  | text => exact nodes_clean_text_inside last

theorem sanitize_of_nodes_clean {node kept : Node} (h : (policy.clean [] node).nodes = [kept]) :
    policy.sanitize (.node node) = kept := by
  rw [sanitize_node, h]
  rfl

theorem sanitize_of_conforms {node : Node} (conforms : policy.Conforms policy.Stands [] node) :
    policy.sanitize (.node node) = node := by
  have fixed : (policy.clean [] node).nodes = [node] :=
    nodes_clean_of_conforms conforms fun _ h => absurd h List.not_mem_nil
  exact sanitize_of_nodes_clean fixed

/-! ## Sanitizing twice -/

/-- Where no property is both given the prefix and checked for its URL scheme, a sanitized tree is
sanitized already. -/
theorem sanitize_sanitize (policy : Policy) (apart : policy.IsSeparate) (value : Value) :
    policy.sanitize (.node (policy.sanitize value)) = policy.sanitize value := by
  refine sanitize_of_conforms ((sanitize_conforms_emits policy value).mono ?_)
  rintro name emitted ⟨raw, h⟩
  exact sanitizeValue_emitted apart h

/-- The standard policy is such a policy.  Here an element is unwrapped, so that what it encloses
comes out under a new root, and an id is given the prefix; neither happens a second time. -/
theorem sanitize_sanitize_standard :
    let item : Node := .element (.str "li") (.map [])
      (.list [.node (.textOf "one"),
        .node (.element (.str "b") (.map [(.str "id", .str "two")]) (.list []) .null .null)])
      .null .null
    let once : Node := .rootOf [.textOf "one",
      .element (.str "b") (.map [(.str "id", .str "user-content-two")]) (.tuple []) .null .null]
    standard.IsSeparate ∧ standard.sanitize (.node item) = once ∧
      standard.sanitize (.node (standard.sanitize (.node item))) = standard.sanitize (.node item) :=
  ⟨by decide, rfl, sanitize_sanitize standard (by decide) _⟩

end SafeMarkup.Policy
