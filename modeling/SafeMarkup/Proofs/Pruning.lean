/-
# What the lenient reader leaves out

The lenient reader skips what the strict one refuses.  `Node.prune` does the skipping ahead of the
reading: below a root or an element, children that stand in something other than a list or tuple
become the empty list, and what is no mapping with a type goes from among the others, at every
depth.  The strict reader then accepts the dict form, and returns what the lenient reader makes of
the whole of it (`ofValue_prune`).  So the lenient reader does not invent anything, and loses no
more than the broken places.

Pruning changes what stands under `children` and nothing else.  The fields that a node is assembled
from are therefore the same before and after it (`assemble_pruneField`), and the induction is about
the children alone.  It follows the two readers: a mapping, its fields, what stands under
`children`, and the items there.

The other way to compare the two readers would be to ask when both succeed, and to say that they
agree there.  That is part of what is proved, but it says nothing about broken values, and those
are what the lenient reader is for.  Fields other than the children are not broken in either
reader's eyes; a mapping with a type is enough to be a node.
-/
import SafeMarkup.Proofs.RoundTrip

namespace SafeMarkup

namespace Node

variable {entries : List (Value × Value)} {type : String} {value : Value}

/-! ## Mappings with a type -/

/-- The value is a mapping with a text for a type, so it may stand for a node. -/
def isTyped : Value → Bool
  | .map entries => (typeIn? entries).isSome
  | _ => false

theorem isTyped_iff :
    isTyped value = true ↔
      ∃ entries type, value = .map entries ∧ Value.field? "type" entries = some (.str type) := by
  constructor
  · intro typed
    cases value with
    | map entries =>
      obtain ⟨type, held⟩ := Option.isSome_iff_exists.1 typed
      refine ⟨entries, type, rfl, ?_⟩
      unfold typeIn? Value.field at held
      cases found : Value.field? "type" entries with
      | none =>
        rw [found] at held
        cases held
      | some value =>
        rw [found] at held
        cases value with
        | str text =>
          cases held
          rfl
        | _ => cases held
    | _ => cases typed
  · rintro ⟨entries, type, rfl, found⟩
    rw [isTyped, typeIn?, Value.field, found]
    rfl

/-- The lenient reader makes a node of such a mapping, and of nothing else. -/
theorem isSome_ofValue? (value : Value) : (ofValue? value).isSome = isTyped value := by
  cases value with
  | map entries =>
    rw [ofValue?, isTyped]
    cases typeIn? entries <;> rfl
  | _ => rfl

theorem isParent_iff : isParent type = true ↔ type = "root" ∨ type = "element" := by
  unfold isParent Kind.ofWord?
  constructor
  · intro parent
    split at parent
    · next word =>
      split at word
      · exact .inl rfl
      all_goals cases word
    · next word =>
      split at word
      · cases word
      · exact .inr rfl
      all_goals cases word
    · cases parent
  · rintro (rfl | rfl) <;> rfl

/-! ## Pruning -/

mutual

/-- The dict form of a tree without its broken places: only what stands below a root or an element
is looked at. -/
def prune : Value → Value
  | .map entries =>
    if typeIn? entries = some "root" ∨ typeIn? entries = some "element" then
      .map (pruneField entries)
    else .map entries
  | value => value
termination_by structural value => value

/-- The entries with the children pruned. -/
def pruneField : List (Value × Value) → List (Value × Value)
  | [] => []
  | (key, value) :: rest =>
    if key.isText "children" then (key, pruneChildren value) :: rest
    else (key, value) :: pruneField rest
termination_by structural entries => entries

/-- The children in a field; what is neither a list nor a tuple gives way to the empty list. -/
def pruneChildren : Value → Value
  | .list items => .list (pruneItems items)
  | .tuple items => .tuple (pruneItems items)
  | _ => .list []
termination_by structural value => value

/-- The items that may stand for nodes, themselves pruned. -/
def pruneItems : List Value → List Value
  | [] => []
  | item :: rest => if isTyped item then prune item :: pruneItems rest else pruneItems rest
termination_by structural items => items

end

/-! ## Fields other than the children -/

theorem field?_pruneField (name : String) (other : name ≠ "children") :
    Value.field? name (pruneField entries) = Value.field? name entries := by
  induction entries with
  | nil => rfl
  | cons entry rest ih =>
    obtain ⟨key, value⟩ := entry
    rw [pruneField]
    split
    · next here =>
      have elsewhere : ¬ key.isText name = true := by
        intro same
        cases key with
        | str text => exact other ((beq_iff_eq.1 same).symm.trans (beq_iff_eq.1 here))
        | _ => cases here
      rw [Value.field?, Value.field?, if_neg elsewhere, if_neg elsewhere]
    · rw [Value.field?, Value.field?, ih]

theorem field_pruneField (name : String) (other : name ≠ "children") :
    Value.field name (pruneField entries) = Value.field name entries := by
  rw [Value.field, Value.field, field?_pruneField name other]

theorem typeIn?_pruneField : typeIn? (pruneField entries) = typeIn? entries := by
  rw [typeIn?, typeIn?, field_pruneField "type" (by decide)]

theorem assemble_pruneField (type : String) (children : List Node) :
    assemble type (pruneField entries) children = assemble type entries children := by
  unfold assemble
  rw [field_pruneField "data" (by decide),
    field_pruneField "position" (by decide),
    field_pruneField "tagName" (by decide),
    field_pruneField "properties" (by decide),
    field_pruneField "value" (by decide),
    field_pruneField "name" (by decide),
    field?_pruneField "value" (by decide)]

theorem prune_parent (typed : typeIn? entries = some type) (parent : isParent type = true) :
    prune (.map entries) = .map (pruneField entries) := by
  rw [prune, typed]
  rcases isParent_iff.1 parent with rfl | rfl
  · exact if_pos (.inl rfl)
  · exact if_pos (.inr rfl)

theorem prune_leaf (typed : typeIn? entries = some type) (leaf : isParent type = false) :
    prune (.map entries) = .map entries := by
  rw [prune, typed]
  refine if_neg ?_
  intro named
  have parent : isParent type = true :=
    isParent_iff.2 (named.imp Option.some.inj Option.some.inj)
  rw [leaf] at parent
  cases parent

/-! ## Reading what was pruned -/

mutual

/-- What the lenient reader makes of a value, the strict one makes of the pruned value, wherever it
stands. -/
theorem readAt_prune : ∀ (value : Value) (node : Node), ofValue? value = some node →
    ∀ path, readAt path (prune value) = .ok node
  | .map entries, node, read, path => by
    cases typed : typeIn? entries with
    | none =>
      rw [ofValue?, typed] at read
      cases read
    | some type =>
      cases parent : isParent type with
      | true =>
        have inside := readField_pruneField entries path
        simp only [ofValue?, typed, parent, if_true, Option.some.injEq] at read
        rw [prune_parent typed parent, readAt_map_eq_ok_iff]
        refine ⟨type, _, typeIn?_pruneField.trans typed, ?_, .inl ⟨parent, inside⟩⟩
        rw [assemble_pruneField]
        exact read.symm
      | false =>
        rw [ofValue?_leaf typed parent] at read
        rw [prune_leaf typed parent, readAt_leaf typed parent]
        exact congrArg Except.ok (Option.some.inj read)
  | .null, _, read, _ | .bool _, _, read, _ | .int _, _, read, _ | .float _, _, read, _
  | .str _, _, read, _ | .bytes _, _, read, _ | .list _, _, read, _ | .tuple _, _, read, _
  | .set _, _, read, _ | .position _, _, read, _ | .node _, _, read, _
  | .foreign, _, read, _ => nomatch read
termination_by structural value => value

theorem readField_pruneField : ∀ (entries : List (Value × Value)) (path : List Nat),
    readField path (pruneField entries) = .ok (coerceField entries)
  | [], _ => rfl
  | (key, value) :: rest, path => by
    rw [pruneField, coerceField]
    split
    · next here =>
      rw [readField, if_pos here]
      exact readChildren_pruneChildren value path
    · next elsewhere =>
      rw [readField, if_neg elsewhere]
      exact readField_pruneField rest path
termination_by structural entries => entries

theorem readChildren_pruneChildren : ∀ (value : Value) (path : List Nat),
    readChildren path (pruneChildren value) = .ok (coerceChildren value)
  | .list items, path | .tuple items, path => readItems_pruneItems items path 0
  | .null, _ | .bool _, _ | .int _, _ | .float _, _ | .str _, _ | .bytes _, _ | .set _, _
  | .map _, _ | .position _, _ | .node _, _ | .foreign, _ => rfl
termination_by structural value => value

theorem readItems_pruneItems : ∀ (items : List Value) (path : List Nat) (index : Nat),
    readItems path index (pruneItems items) = .ok (coerceItems items)
  | [], _, _ => rfl
  | item :: rest, path, index => by
    have kept := isSome_ofValue? item
    rw [pruneItems, coerceItems]
    cases read : ofValue? item with
    | none =>
      rw [read] at kept
      rw [← kept]
      exact readItems_pruneItems rest path index
    | some node =>
      rw [read] at kept
      rw [← kept]
      have first := readAt_prune item node read (path ++ [index])
      have others := readItems_pruneItems rest path (index + 1)
      exact readItems_cons_eq_ok_iff.2 ⟨node, _, first, others, rfl⟩
termination_by structural items => items

end

/-- The lenient reader refuses exactly what is not a mapping with a text for a type.  Of any other
value it makes what the strict reader makes of the value without its broken places, and where the
strict reader accepts the value as it is, they agree on it. -/
theorem ofValue_prune :
    (∀ value, ofValue? value = none ↔
      ¬∃ entries type, value = .map entries ∧
        Value.field? "type" entries = some (.str type)) ∧
    (∀ entries type, Value.field? "type" entries = some (.str type) →
      ∃ node, ofValue (prune (.map entries)) = .ok node ∧ ofValue? (.map entries) = some node) ∧
    ∀ value node, ofValue value = .ok node → ofValue? value = some node := by
  refine ⟨?_, ?_, ?_⟩
  · intro value
    rw [← isTyped_iff, ← isSome_ofValue?, Option.not_isSome_iff_eq_none]
  · intro entries type found
    have typed : isTyped (.map entries) = true := isTyped_iff.2 ⟨entries, type, rfl, found⟩
    rw [← isSome_ofValue?] at typed
    obtain ⟨node, read⟩ := Option.isSome_iff_exists.1 typed
    exact ⟨node, readAt_prune (.map entries) node read [], read⟩
  · intro value node read
    exact ofValue?_of_readAt value [] node read

/-- A root with a text among its children, and with an element whose children are a text and which
holds a comment where none is looked for. -/
theorem ofValue_prune_broken :
    let element (children : Value) : List (Value × Value) :=
      [(.str "tagName", .str "p"), (.str "children", children), (.str "type", .str "element")]
    let comment : List (Value × Value) :=
      [(.str "type", .str "comment"), (.str "children", .str "left")]
    let broken : List (Value × Value) := [(.str "type", .str "root"),
      (.str "children", .list [.str "loose", .map (element (.str "odd")), .map comment])]
    Value.field? "type" broken = some (.str "root") ∧
      prune (.map broken) = .map [(.str "type", .str "root"),
        (.str "children", .list [.map (element (.list [])), .map comment])] ∧
      ofValue (.map broken) = .error (.format [0] (.notMapping "str")) ∧
      ∃ node, ofValue (prune (.map broken)) = .ok node ∧ ofValue? (.map broken) = some node := by
  intro element comment broken
  exact ⟨rfl, rfl, rfl, ofValue_prune.2.1 broken "root" rfl⟩

end Node

end SafeMarkup
