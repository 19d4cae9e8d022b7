/-
# Sanitizing a tree or its dict form

A tree can be handed over as it is or in its dict form.  In the second case it is read leniently
first, and the reader does not find the same tree again: lists stand for tuples, `data` has become a
mapping, and a node whose type is no text is skipped.  None of this shows in the result.  What
cleaning leaves of the tree and what it leaves of the tree that was read have the same dict forms,
node by node (`clean_written`).

`Node.Regular` is what has to be known of the tree, besides that it has a dict form.  Children may
be anything that can be walked through for the writer, but only lists and tuples for the cleaner;
and a node of no known kind must not pretend to be of one, since the reader would believe it.

Both conditions are needed.  Children in a set or a mapping are written, and read back as a list,
so they stay when the dict form is sanitized and go when the tree is.  A node that has no kind of
its own but the type of a text is dropped from the tree, and is read from the dict form as a text.
Trees that were returned by one of the readers meet both.

The comparison is by dict forms and not by trees, because the results differ in what the dict form
does not show, such as whether the children stand in a list or a tuple.
-/
import Mathlib.Data.List.Forall2
import SafeMarkup.Sanitizing
import SafeMarkup.Policy.Standard
import SafeMarkup.Proofs.Cleaning
import SafeMarkup.Proofs.PropertyValue
import SafeMarkup.Proofs.RoundTrip

namespace SafeMarkup

namespace Node

/-- The children of roots and elements are lists or tuples, and the type of a node of no known kind
is not the word for a kind. -/
inductive Regular : Node → Prop
  | root {children data position : Value} {items : List Value} :
      children.items? = some items → (∀ child, .node child ∈ items → Regular child) →
      Regular (.root children data position)
  | element {tagName properties children data position : Value} {items : List Value} :
      children.items? = some items → (∀ child, .node child ∈ items → Regular child) →
      Regular (.element tagName properties children data position)
  | text {value data position : Value} : Regular (.text value data position)
  | comment {value data position : Value} : Regular (.comment value data position)
  | doctype {name data position : Value} : Regular (.doctype name data position)
  | raw {value data position : Value} : Regular (.raw value data position)
  | unknown {typeName value data position : Value} :
      (∀ type, typeName = .str type → Kind.ofWord? type = none) →
      Regular (.unknown typeName value data position)

/-! ## The same dict form -/

/-- The two nodes have a dict form, and it is the same. -/
def WrittenAlike (a b : Node) : Prop :=
  ∃ dict, a.toValue = .ok dict ∧ b.toValue = .ok dict

variable {nodes nodes' : List Node} {data position data' position' : Value}
  {attached : List (Value × Value)}

theorem writtenItems_alike (h : List.Forall₂ WrittenAlike nodes nodes') :
    ∃ dicts, writtenItems (nodes.map .node) = .ok dicts ∧
      writtenItems (nodes'.map .node) = .ok dicts := by
  induction h with
  | nil => exact ⟨[], rfl, rfl⟩
  | cons first _ ih =>
    obtain ⟨dict, written, written'⟩ := first
    obtain ⟨dicts, others, others'⟩ := ih
    exact ⟨dict :: dicts, writtenItems_cons written others, writtenItems_cons written' others'⟩

theorem root_alike (h : List.Forall₂ WrittenAlike nodes nodes')
    (written : attachments data position = .ok attached)
    (written' : attachments data' position' = .ok attached) :
    WrittenAlike (root (.tuple (nodes.map .node)) data position)
      (root (.tuple (nodes'.map .node)) data' position') := by
  obtain ⟨dicts, children, children'⟩ := writtenItems_alike h
  exact ⟨.map (rootEntries dicts ++ attached),
    toValue_root_eq_ok_iff.2 ⟨dicts, attached, children, written, rfl⟩,
    toValue_root_eq_ok_iff.2 ⟨dicts, attached, children', written', rfl⟩⟩

theorem element_alike (h : List.Forall₂ WrittenAlike nodes nodes')
    (written : attachments data position = .ok attached)
    (written' : attachments data' position' = .ok attached) (tagName : Value)
    (entries : List (Value × Value)) :
    WrittenAlike (element tagName (.map entries) (.tuple (nodes.map .node)) data position)
      (element tagName (.map entries) (.tuple (nodes'.map .node)) data' position') := by
  obtain ⟨dicts, children, children'⟩ := writtenItems_alike h
  exact ⟨.map (elementEntries tagName (.map (Value.writtenEntries entries)) dicts ++ attached),
    toValue_element_eq_ok_iff.2 ⟨_, dicts, attached, rfl, children, written, rfl⟩,
    toValue_element_eq_ok_iff.2 ⟨_, dicts, attached, rfl, children', written', rfl⟩⟩

theorem text_alike (written : attachments data position = .ok attached)
    (written' : attachments data' position' = .ok attached) (value : Value) :
    WrittenAlike (text value data position) (text value data' position') :=
  ⟨.map ([Value.pair "type" (.str "text"), Value.pair "value" value] ++ attached),
    withAttachments_eq_ok_iff.2 ⟨attached, written, rfl⟩,
    withAttachments_eq_ok_iff.2 ⟨attached, written', rfl⟩⟩

theorem collapse_alike (h : List.Forall₂ WrittenAlike nodes nodes') :
    WrittenAlike (collapse nodes) (collapse nodes') := by
  cases h with
  | nil => exact root_alike .nil rfl rfl
  | cons first others =>
    cases others with
    | nil => exact first
    | cons second others => exact root_alike (.cons first (.cons second others)) rfl rfl

end Node

namespace Policy

open Node (WrittenAlike ofValue? coerceItems writtenItems attachments_of_attached exists_attached
  exists_attached_of_written ofValue?_parent ofValue?_leaf)

variable (policy : Policy)

/-! ## Properties -/

theorem sanitizeValue_written (name : String) (value : Value) :
    policy.sanitizeValue name value.written = policy.sanitizeValue name value := by
  cases value <;> rfl

theorem cleanEntries_writtenEntries (tag : String) (entries : List (Value × Value)) :
    (policy.cleanEntries tag (Value.writtenEntries entries)).1 =
      (policy.cleanEntries tag entries).1 := by
  have same : policy.cleanEntry tag ∘ (fun entry => (entry.1, entry.2.written)) =
      policy.cleanEntry tag := by
    funext entry
    simp only [Function.comp, cleanEntry, sanitizeValue_written]
  rw [cleanEntries_eq_filterMap, cleanEntries_eq_filterMap, Value.writtenEntries,
    List.filterMap_map, same]

/-! ## Nodes -/

theorem nodes_cleanItems_coerceItems (around : List Value) (dict : Value) (dicts : List Value) :
    (policy.cleanItems around ((coerceItems (dict :: dicts)).map .node)).nodes =
      policy.cleanLeft around (ofValue? dict) ++
        (policy.cleanItems around ((coerceItems dicts).map .node)).nodes := by
  rw [coerceItems]
  cases ofValue? dict with
  | none => rfl
  | some node => rfl

theorem cleanItems_written (around : List Value) {items dicts : List Value}
    (written : writtenItems items = .ok dicts)
    (h : ∀ child, .node child ∈ items → ∀ dict, child.toValue = .ok dict →
      List.Forall₂ WrittenAlike (policy.clean around child).nodes
        (policy.cleanLeft around (ofValue? dict))) :
    List.Forall₂ WrittenAlike (policy.cleanItems around items).nodes
      (policy.cleanItems around ((coerceItems dicts).map .node)).nodes := by
  induction items generalizing dicts with
  | nil =>
    cases written
    exact .nil
  | cons item rest ih =>
    obtain ⟨child, dict, others, rfl, first, after, rfl⟩ := Node.exists_of_writtenItems_cons written
    rw [cleanItems, Cleaned.nodes_append, nodes_cleanItems_coerceItems]
    exact List.rel_append (h child (.head _) dict first)
      (ih after fun other ho => h other (.tail _ ho))

/-- What cleaning leaves of a tree has the same dict form, node by node, as what it leaves of the
tree that is read from the dict form of the first. -/
theorem clean_written {node : Node} (regular : node.Regular) : ∀ dict, node.toValue = .ok dict →
    ∀ around, List.Forall₂ WrittenAlike (policy.clean around node).nodes
      (policy.cleanLeft around (ofValue? dict)) := by
  induction regular with
  | @root children data position items isList _ ih =>
    intro dict written around
    obtain ⟨dicts, attached, inside, attach, rfl⟩ := Node.toValue_root_eq_ok_iff.1 written
    obtain ⟨data', position', ok, rfl⟩ := exists_attached attach
    rw [Node.writtenChildren_of_items? isList] at inside
    have children := policy.cleanItems_written around inside fun child hc dict written =>
      ih child hc dict written around
    rw [ofValue?_parent rfl rfl rfl, Node.assemble_root ok, cleanLeft, nodes_clean_root,
      nodes_clean_root, cleanChildren_of_items? isList]
    exact .cons (Node.root_alike children attach (attachments_of_attached ok)) .nil
  | @element tagName properties children data position items isList _ ih =>
    intro dict written around
    obtain ⟨own, dicts, attached, carried, inside, attach, rfl⟩ :=
      Node.toValue_element_eq_ok_iff.1 written
    obtain ⟨data', position', ok, rfl⟩ := exists_attached attach
    rw [Node.writtenChildren_of_items? isList] at inside
    have children (around : List Value) :=
      policy.cleanItems_written around inside fun child hc dict written =>
        ih child hc dict written around
    cases properties with
    | map entries =>
      cases carried
      have same (tag : String) : (policy.cleanProperties tag
          (.map (entries.map fun entry => (entry.1, entry.2.written)))).1 =
          (policy.cleanProperties tag (.map entries)).1 :=
        policy.cleanEntries_writtenEntries tag entries
      rw [ofValue?_parent rfl rfl rfl, Node.assemble_element ok, cleanLeft]
      cases verdict : policy.judge around tagName with
      | stripped tag =>
        rw [nodes_clean_stripped verdict, nodes_clean_stripped verdict]
        exact .nil
      | kept tag =>
        rw [nodes_clean_kept verdict, nodes_clean_kept verdict, same,
          cleanChildren_of_items? isList]
        exact .cons (Node.element_alike (children _) attach (attachments_of_attached ok) _ _) .nil
      | _ =>
        rw [nodes_clean_unwrapped (by simp [verdict]) (by simp [verdict]),
          nodes_clean_unwrapped (by simp [verdict]) (by simp [verdict]),
          cleanChildren_of_items? isList]
        exact children around
    | _ => cases carried
  | @text value data position =>
    intro dict written around
    obtain ⟨data', position', ok, attach, rfl⟩ := exists_attached_of_written written
    rw [ofValue?_leaf rfl rfl, Node.assemble_text ok]
    show List.Forall₂ WrittenAlike (policy.cleanText around value data position).nodes
      (policy.cleanText around value data' position').nodes
    unfold cleanText
    split
    · split
      · exact .nil
      · exact .cons (Node.text_alike attach (attachments_of_attached ok) _) .nil
    · exact .nil
  | comment =>
    intro dict written around
    obtain ⟨_, _, ok, -, rfl⟩ := exists_attached_of_written written
    rw [ofValue?_leaf rfl rfl, Node.assemble_comment ok]
    exact .nil
  | doctype =>
    intro dict written around
    obtain ⟨_, _, ok, -, rfl⟩ := exists_attached_of_written written
    rw [ofValue?_leaf rfl rfl, Node.assemble_doctype ok]
    exact .nil
  | raw =>
    intro dict written around
    obtain ⟨_, _, ok, -, rfl⟩ := exists_attached_of_written written
    rw [ofValue?_leaf rfl rfl, Node.assemble_raw ok]
    exact .nil
  | @unknown typeName value data position noWord =>
    intro dict written around
    obtain ⟨_, _, ok, -, rfl⟩ := exists_attached_of_written written
    cases typeName with
    | str type =>
      rw [ofValue?_leaf rfl (Node.isParent_of_noWord (noWord type rfl)),
        Node.assemble_unknown ok (noWord type rfl)]
      exact .nil
    | _ =>
      -- The type is no text, so nothing is read, and nothing was to stay.
      exact .nil

/-! ## Sanitized trees -/

/-- Sanitizing the dict form of a tree gives the same, in its dict form, as sanitizing the tree. -/
theorem sanitize_toValue {node : Node} {dict : Value} (written : node.toValue = .ok dict)
    (regular : node.Regular) :
    ∃ out, (policy.sanitize dict).toValue = .ok out ∧
      (policy.sanitize (.node node)).toValue = .ok out := by
  obtain ⟨out, direct, read⟩ :=
    Node.collapse_alike (policy.clean_written regular dict written [])
  have same : policy.sanitize dict = Node.collapse (policy.cleanLeft [] (ofValue? dict)) := by
    obtain ⟨entries, rfl⟩ := Node.exists_entries_of_toValue written
    unfold sanitize sanitizeWithRecords treeIn?
    dsimp only
    cases ofValue? (.map entries) with
    | none => rfl
    | some node => rfl
  exact ⟨out, same ▸ read, direct⟩

/-- Under the standard policy, a link with a tuple among its properties and pairs as its `data`,
around a tag that is no text and a node whose type is none. -/
theorem sanitize_toValue_link :
    let big : Node := .element (.int 1) (.map []) (.list [.node (.textOf "big")]) .null .null
    let odd : Node := .unknown .null (.str "odd") .null .null
    let link : Node := .element (.str "a")
      (.map [(.str "href", .str "/x"), (.str "rel", .tuple [.str "me", .null])])
      (.tuple [.node big, .node odd])
      (.list [.tuple [.str "line", .int 3]]) (.position ⟨⟨1, 1, none⟩, ⟨1, 9, some 8⟩⟩)
    (∃ dict, link.toValue = .ok dict) ∧ link.Regular ∧ ∀ dict, link.toValue = .ok dict →
      ∃ out, (standard.sanitize dict).toValue = .ok out ∧
        (standard.sanitize (.node link)).toValue = .ok out := by
  intro big odd link
  have inBig : big.Regular := by
    refine .element rfl fun child hc => ?_
    cases List.mem_singleton.1 hc
    exact .text
  have regular : link.Regular := by
    refine .element rfl fun child hc => ?_
    rcases List.mem_cons.1 hc with e | hc
    · cases e
      exact inBig
    · cases List.mem_singleton.1 hc
      exact .unknown nofun
  exact ⟨⟨_, rfl⟩, regular, fun dict written => standard.sanitize_toValue written regular⟩

end Policy

end SafeMarkup
