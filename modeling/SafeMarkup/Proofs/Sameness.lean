/-
# Values that count as the same

Whoever compares two trees does not see everything that tells two values apart.  Numbers are the
same when they are equal as numbers, whatever their types; mappings are the same whatever the order
of their entries; all else is the same if it is of one kind and the same part by part.  A value is
always the same as itself, even if it holds a not-a-number.

`Value.Same` is that relation.  The lemmas below say what a text, a tuple, a mapping or a node can
be the same as.

It is what an equality test in a program sees, and weaker than equality; the statement that
sanitizing leaves a tree unchanged is made for both, since a caller can only observe the weaker
one.  The relation is symmetric neither by construction nor by any lemma here, because nobody needs
it to be: it always compares a tree with what became of it, in this order.
-/
import Mathlib.Data.List.Perm.Basic
import SafeMarkup.Proofs.Pairing
import SafeMarkup.Value.Key

namespace SafeMarkup

/-! ## Nodes compared pair by pair -/

theorem exists_nodes_of_forall₂ {R : Value → Value → Prop}
    (onlyNodes : ∀ n w, R (.node n) w → ∃ m, w = .node m) {nodes : List Node} {ws : List Value}
    (h : List.Forall₂ R (nodes.map .node) ws) : ∃ others : List Node, ws = others.map .node ∧
      List.Forall₂ (fun n m => R (.node n) (.node m)) nodes others := by
  induction nodes generalizing ws with
  | nil =>
    cases h
    exact ⟨[], rfl, .nil⟩
  | cons n rest ih =>
    cases h with
    | cons first others =>
      obtain ⟨m, rfl⟩ := onlyNodes n _ first
      obtain ⟨ms, rfl, pairs⟩ := ih others
      exact ⟨m :: ms, rfl, .cons first pairs⟩

/-! ## Sameness -/

/-- The fields of a node, in order. -/
def Node.fields : Node → List Value
  | bare data position => [data, position]
  | root children data position => [children, data, position]
  | element tagName properties children data position =>
    [tagName, properties, children, data, position]
  | text value data position | comment value data position | doctype value data position
  | raw value data position => [value, data, position]
  | unknown typeName value data position => [typeName, value, data, position]

namespace Value

/-- What stands under a key; at most one value, if no key occurs twice. -/
def valuesAt (key : Value) (entries : List (Value × Value)) : List Value :=
  entries.filterMap fun entry => if sameKey key entry.1 then some entry.2 else none

theorem eq_str_of_str? {value : Value} {s : String} (h : value.str? = some s) : value = str s := by
  cases value with
  | str _ => exact congrArg str (Option.some.inj h)
  | _ => cases h

theorem sameKey_str_str {s t : String} : sameKey (str s) (str t) = true ↔ t = s := by
  simp [sameKey, isText]

/-- The keys that are texts. -/
def names (entries : List (Value × Value)) : List String :=
  entries.filterMap fun entry => entry.1.str?

theorem count_names (name : String) (entries : List (Value × Value)) :
    (names entries).count name = (valuesAt (.str name) entries).length := by
  induction entries with
  | nil => rfl
  | cons entry rest ih =>
    obtain ⟨key, value⟩ := entry
    cases key with
    | str t =>
      have keys : names ((.str t, value) :: rest) = t :: names rest := rfl
      rw [keys, List.count_cons, ih, valuesAt, valuesAt, List.filterMap_cons]
      simp only [sameKey_str_str, beq_iff_eq]
      split <;> rfl
    | _ => exact ih

/-- The two values count as the same. -/
inductive Same : Value → Value → Prop
  | refl (v : Value) : Same v v
  | number {v w : Value} {n : Int} : v.integer? = some n → w.integer? = some n → Same v w
  | list {vs ws : List Value} : List.Forall₂ Same vs ws → Same (list vs) (list ws)
  | tuple {vs ws : List Value} : List.Forall₂ Same vs ws → Same (tuple vs) (tuple ws)
  /-- The same item by item, in some order. -/
  | set {vs us ws : List Value} : List.Forall₂ Same vs us → us.Perm ws → Same (set vs) (set ws)
  /-- As many entries, and the same values under each key. -/
  | map {es fs : List (Value × Value)} : es.length = fs.length →
      (∀ key, List.Forall₂ Same (valuesAt key es) (valuesAt key fs)) → Same (map es) (map fs)
  | node {n m : Node} : n.kind = m.kind → List.Forall₂ Same n.fields m.fields →
      Same (node n) (node m)

namespace Same

theorem forall₂_refl (vs : List Value) : List.Forall₂ Same vs vs :=
  List.forall₂_same.2 fun v _ => .refl v

variable {w : Value}

theorem eq_str {s : String} (h : Same (.str s) w) : w = .str s := by
  cases h with
  | refl => rfl
  | number isNumber _ => cases isNumber

theorem exists_tuple {vs : List Value} (h : Same (.tuple vs) w) :
    ∃ ws, w = .tuple ws ∧ List.Forall₂ Same vs ws := by
  cases h with
  | refl => exact ⟨vs, rfl, forall₂_refl vs⟩
  | number isNumber _ => cases isNumber
  | tuple items => exact ⟨_, rfl, items⟩

theorem exists_map {es : List (Value × Value)} (h : Same (.map es) w) :
    ∃ fs, w = .map fs ∧ es.length = fs.length ∧
      ∀ key, List.Forall₂ Same (valuesAt key es) (valuesAt key fs) := by
  cases h with
  | refl => exact ⟨es, rfl, rfl, fun key => forall₂_refl _⟩
  | number isNumber _ => cases isNumber
  | map length values => exact ⟨_, rfl, length, values⟩

/-- A mapping that is the same as one whose keys are texts has just these texts as its keys. -/
theorem exists_key {es fs : List (Value × Value)} (h : Same (.map es) (.map fs))
    (named : ∀ entry ∈ es, ∃ name, entry.1 = .str name) :
    ∀ entry ∈ fs, ∃ source ∈ es, entry.1 = source.1 := by
  obtain ⟨fs, e, length, values⟩ := h.exists_map
  cases e
  have perm : (names es).Perm (names fs) := by
    refine List.perm_iff_count.2 fun name => ?_
    rw [count_names, count_names, (values (.str name)).length_eq]
  have all : (names es).length = es.length := by
    refine List.filterMap_length_eq_length.2 fun entry he => ?_
    obtain ⟨name, key⟩ := named entry he
    rw [key]
    rfl
  -- The texts among the keys of the second are as many as its entries, so there are no others.
  have covered : (names fs).length = fs.length := (perm.length_eq.symm.trans all).trans length
  intro entry he
  obtain ⟨name, key⟩ :=
    Option.isSome_iff_exists.1 (List.filterMap_length_eq_length.1 covered entry he)
  have found : name ∈ names es := perm.mem_iff.2 (List.mem_filterMap.2 ⟨entry, he, key⟩)
  obtain ⟨source, hsource, key'⟩ := List.mem_filterMap.1 found
  exact ⟨source, hsource, (eq_str_of_str? key).trans (eq_str_of_str? key').symm⟩

theorem of_nodes {n m : Node} (h : Same (.node n) (.node m)) :
    n.kind = m.kind ∧ List.Forall₂ Same n.fields m.fields := by
  cases h with
  | refl => exact ⟨rfl, forall₂_refl _⟩
  | number isNumber _ => cases isNumber
  | node kind fields => exact ⟨kind, fields⟩

theorem exists_node {n : Node} (h : Same (.node n) w) : ∃ m, w = .node m := by
  cases h with
  | refl => exact ⟨n, rfl⟩
  | number isNumber _ => cases isNumber
  | node _ _ => exact ⟨_, rfl⟩

theorem exists_root {nodes : List Node} {data position : Value} {m : Node}
    (h : Same (.node (.root (.tuple (nodes.map .node)) data position)) (.node m)) :
    ∃ (others : List Node) (data' position' : Value),
      m = .root (.tuple (others.map .node)) data' position' ∧
      List.Forall₂ (fun n m => Same (.node n) (.node m)) nodes others := by
  obtain ⟨kind, fields⟩ := h.of_nodes
  cases m with
  | root children' data' position' =>
    cases fields with
    | cons children _ =>
      obtain ⟨ws, rfl, items⟩ := children.exists_tuple
      obtain ⟨others, rfl, pairs⟩ := exists_nodes_of_forall₂ (fun _ _ => exists_node) items
      exact ⟨others, data', position', rfl, pairs⟩
  | _ => cases kind

theorem exists_element {tag : String} {es : List (Value × Value)} {nodes : List Node}
    {data position : Value} {m : Node}
    (h : Same (.node (.element (.str tag) (.map es) (.tuple (nodes.map .node)) data position))
      (.node m)) :
    ∃ (fs : List (Value × Value)) (others : List Node) (data' position' : Value),
      m = .element (.str tag) (.map fs) (.tuple (others.map .node)) data' position' ∧
      Same (.map es) (.map fs) ∧
      List.Forall₂ (fun n m => Same (.node n) (.node m)) nodes others := by
  obtain ⟨kind, fields⟩ := h.of_nodes
  cases m with
  | element tag' properties' children' data' position' =>
    cases fields with
    | cons tags fields =>
      cases fields with
      | cons properties fields =>
        cases fields with
        | cons children _ =>
          obtain rfl := tags.eq_str
          obtain ⟨fs, rfl, -⟩ := properties.exists_map
          obtain ⟨ws, rfl, items⟩ := children.exists_tuple
          obtain ⟨others, rfl, pairs⟩ := exists_nodes_of_forall₂ (fun _ _ => exists_node) items
          exact ⟨fs, others, data', position', rfl, properties, pairs⟩
  | _ => cases kind

theorem exists_text {s : String} {data position : Value} {m : Node}
    (h : Same (.node (.text (.str s) data position)) (.node m)) :
    ∃ data' position', m = .text (.str s) data' position' := by
  obtain ⟨kind, fields⟩ := h.of_nodes
  cases m with
  | text value' data' position' =>
    cases fields with
    | cons values _ =>
      obtain rfl := values.eq_str
      exact ⟨data', position', rfl⟩
  | _ => cases kind

end Same

end Value

end SafeMarkup
