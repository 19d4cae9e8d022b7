/-
# Building a tree from its dict form

There are two ways from a mapping with a type to a node, and each has its own table of kinds and its
own treatment of what is missing: the reader assembles the node from the entries, and the
constructor `Node.ofType` builds it from the type, the entries and a value.  `Node.rebuild` goes the
second way all the way up: it builds the children first, and gives them to the constructor in place
of the value.

The two differ where the reader treats a broken field as absent and the constructor does not, or the
other way round.  `Node.IsPlain` leaves out just these fields of a mapping.  For a mapping that is
left, both make the same node of the same children (`ofType_parent`, `ofType_leaf`), and the
induction along the reader carries this to the whole tree (`rebuild_eq_ofValue`).  Only the mappings
that the reader comes to have to be plain.

The conditions of `IsPlain` are on single mappings and can be read off them: fields that hold a
mapping or nothing, where the reader takes anything else for nothing, and the like.  They are not
conditions under which the reader succeeds; that it accepts the tree is a separate hypothesis, and
without it there is nothing to compare.  The constructor itself may succeed on trees that the
reader refuses.
-/
import SafeMarkup.Proofs.FirstFlaw
import SafeMarkup.Proofs.Leaves

namespace SafeMarkup

theorem Kind.word_of_ofWord? {type : String} {kind : Kind} (h : ofWord? type = some kind) :
    type = kind.word := by
  unfold ofWord? at h
  split at h <;> cases h <;> rfl

namespace Node

/-! ## Rebuilding -/

mutual

/-- Builds the node of a mapping by its type from its entries, and from the nodes that were built
of its children, or else from its value. -/
def rebuild : Value → Except Fault Node
  | .map entries =>
    match typeIn? entries with
    | none => .error (.format [] .noType)
    | some type =>
      if type = "root" ∨ type = "element" then do
        let nodes ← rebuildField entries
        ofType (.str type) (.map entries) (.list (nodes.map .node))
      else ofType (.str type) (.map entries) (Value.field "value" entries)
  | value => .error (.format [] (.notMapping value.typeName))
termination_by structural value => value

def rebuildField : List (Value × Value) → Except Fault (List Node)
  | [] => .ok []
  | (key, value) :: rest =>
    if key.isText "children" then rebuildChildren value else rebuildField rest
termination_by structural entries => entries

def rebuildChildren : Value → Except Fault (List Node)
  | .list items | .tuple items => rebuildItems items
  | value => .error (.format [] (.childrenNotList value.typeName))
termination_by structural value => value

def rebuildItems : List Value → Except Fault (List Node)
  | [] => .ok []
  | item :: rest => do
    let node ← rebuild item
    let others ← rebuildItems rest
    return node :: others
termination_by structural items => items

end

/-! ## Plain mappings -/

/-- A field that is absent or null, or holds a mapping. -/
def HoldsMapping (name : String) (entries : List (Value × Value)) : Prop :=
  ∀ value, Value.field? name entries = some value → value = .null ∨ ∃ own, value = .map own

/-- Reader and constructor take the fields of the mapping in the same way. -/
structure IsPlain (entries : List (Value × Value)) : Prop where
  data : HoldsMapping "data" entries
  properties : Value.field? "type" entries = some (.str "element") →
    HoldsMapping "properties" entries
  position : ∀ p, Value.field? "position" entries ≠ some (.position p)
  value : Value.field? "type" entries = some (.str "comment") ∨
    Value.field? "type" entries = some (.str "raw") → Value.field? "value" entries ≠ some .null

variable {entries : List (Value × Value)} {type : String}

/-! ## One field -/

theorem HoldsMapping.field {name : String} (h : HoldsMapping name entries) :
    Value.field name entries = .null ∨ ∃ own, Value.field name entries = .map own := by
  unfold Value.field
  cases held : Value.field? name entries with
  | none => exact .inl rfl
  | some value => exact h value held

theorem mappingOrNull_of_holds {name : String} (h : HoldsMapping name entries) :
    mappingOrNull (Value.field name entries) = Value.field name entries := by
  rcases h.field with held | ⟨own, held⟩ <;> rw [held] <;> rfl

theorem exists_properties (h : HoldsMapping "properties" entries) :
    ∃ own, (Value.field "properties" entries).pairsOrNone = .ok own ∧
      mappingOrEmpty (Value.field "properties" entries) = .map own := by
  rcases h.field with held | ⟨own, held⟩
  · exact ⟨[], by rw [held]; rfl, by rw [held]; rfl⟩
  · refine ⟨own, ?_, by rw [held]; rfl⟩
    rw [held]
    cases own <;> rfl

theorem positionIn_eq (apart : ∀ p, Value.field? "position" entries ≠ some (.position p)) :
    positionIn entries =
      Position.asField (Position.ofValue? (Value.field "position" entries)) := by
  unfold positionIn
  split
  · next p held =>
    unfold Value.field at held
    cases found : Value.field? "position" entries with
    | none =>
      rw [found] at held
      cases held
    | some value =>
      rw [found] at held
      exact absurd (found.trans (congrArg some held)) (apart p)
  · rfl

theorem orEmptyText_field (there : Value.field? "value" entries ≠ some .null) :
    orEmptyText (Value.field "value" entries) =
      (Value.field? "value" entries).getD (.str "") := by
  unfold Value.field
  cases found : Value.field? "value" entries with
  | none => rfl
  | some value =>
    cases value with
    | null => exact absurd found there
    | _ => rfl

theorem fieldNodes_nodes (nodes : List Node) :
    (Value.list (nodes.map .node)).fieldNodes = .ok nodes := by
  cases nodes with
  | nil => rfl
  | cons node rest => exact Value.childrenNodes_nodes (node :: rest)

/-! ## One mapping -/

theorem ofType_parent (plain : IsPlain entries) (typed : typeIn? entries = some type)
    (parent : type = "root" ∨ type = "element") (nodes : List Node) :
    ofType (.str type) (.map entries) (.list (nodes.map .node)) =
      .ok (assemble type entries nodes) := by
  rcases parent with rfl | rfl
  · simp only [ofType, ofFields, Value.str?, Option.bind_some, Kind.ofWord?, fieldNodes_nodes,
      assemble, mappingOrNull_of_holds plain.data, positionIn_eq plain.position]
    rfl
  · obtain ⟨own, taken, read⟩ := exists_properties (plain.properties (typeIn?_eq_some_iff.1 typed))
    simp only [ofType, ofFields, Value.str?, Option.bind_some, Kind.ofWord?, fieldNodes_nodes,
      assemble, mappingOrNull_of_holds plain.data, positionIn_eq plain.position, taken, read]
    rfl

theorem ofType_leaf (plain : IsPlain entries) (typed : typeIn? entries = some type)
    (leaf : isParent type = false) :
    ofType (.str type) (.map entries) (Value.field "value" entries) =
      .ok (assemble type entries []) := by
  have held := typeIn?_eq_some_iff.1 typed
  simp only [ofType, ofFields, Value.str?, Option.bind_some, assemble,
    mappingOrNull_of_holds plain.data, positionIn_eq plain.position]
  cases word : Kind.ofWord? type with
  | none => rfl
  | some kind =>
    obtain rfl := Kind.word_of_ofWord? word
    cases kind with
    | root | element => cases leaf
    | comment => rw [orEmptyText_field (plain.value (.inl held))]
    | raw => rw [orEmptyText_field (plain.value (.inr held))]
    | _ => rfl

/-! ## The whole tree -/

/-- All mappings that the reader comes to are plain. -/
def IsPlainThroughout (value : Value) : Prop :=
  ∀ path entries, Visits value path (.map entries) → IsPlain entries

theorem isPlainThroughout_map_iff :
    IsPlainThroughout (.map entries) ↔ IsPlain entries ∧
      ∀ type children items, Value.field? "type" entries = some (.str type) →
        type = "root" ∨ type = "element" → Value.field? "children" entries = some children →
        children.items? = some items → ∀ item ∈ items, IsPlainThroughout item := by
  constructor
  · intro plain
    refine ⟨plain [] entries .here, ?_⟩
    intro type children items typed parent held listed item member path own visits
    obtain ⟨i, occurs⟩ := List.mem_iff_getElem?.1 member
    exact plain (i :: path) own (.child typed parent held listed occurs visits)
  · rintro ⟨here, inside⟩ path own visits
    cases visits with
    | here => exact here
    | child typed parent held listed occurs visits =>
      exact inside _ _ _ typed parent held listed _ (List.mem_of_getElem? occurs) _ _ visits

mutual

/-- What the reader accepts is built as it is read, if all is plain. -/
theorem rebuild_of_readAt : ∀ (value : Value) (path : List Nat) (node : Node),
    readAt path value = .ok node → IsPlainThroughout value → rebuild value = .ok node
  | .map entries, path, node, read, plain => by
    obtain ⟨here, below⟩ := isPlainThroughout_map_iff.1 plain
    obtain ⟨type, nodes, typed, rfl, ⟨parent, inside⟩ | ⟨leaf, rfl⟩⟩ :=
      readAt_map_eq_ok_iff.1 read
    · have named := isParent_iff.1 parent
      have built := rebuildField_of_readField entries path nodes inside fun children held items =>
        below type children items (typeIn?_eq_some_iff.1 typed) named held
      simp only [rebuild, typed]
      rw [if_pos named, built]
      exact ofType_parent here typed named nodes
    · simp only [rebuild, typed]
      rw [if_neg fun named => Bool.false_ne_true (leaf.symm.trans (isParent_iff.2 named))]
      exact ofType_leaf here typed leaf
  | .null, _, _, read, _ | .bool _, _, _, read, _ | .int _, _, _, read, _
  | .float _, _, _, read, _ | .str _, _, _, read, _ | .bytes _, _, _, read, _
  | .list _, _, _, read, _ | .tuple _, _, _, read, _ | .set _, _, _, read, _
  | .position _, _, _, read, _ | .node _, _, _, read, _ | .foreign, _, _, read, _ => nomatch read
termination_by structural value => value

theorem rebuildField_of_readField : ∀ (entries : List (Value × Value)) (path : List Nat)
    (nodes : List Node), readField path entries = .ok nodes →
    (∀ children, Value.field? "children" entries = some children →
      ∀ items, children.items? = some items → ∀ item ∈ items, IsPlainThroughout item) →
    rebuildField entries = .ok nodes
  | [], _, _, read, _ => read
  | (key, value) :: rest, path, nodes, read, plain => by
    rw [readField] at read
    rw [rebuildField]
    split
    · next here =>
      rw [if_pos here] at read
      refine rebuildChildren_of_readChildren value path nodes read (plain value ?_)
      rw [Value.field?, if_pos here]
    · next elsewhere =>
      rw [if_neg elsewhere] at read
      refine rebuildField_of_readField rest path nodes read fun children held => plain children ?_
      rw [Value.field?, if_neg elsewhere, held]
termination_by structural entries => entries

theorem rebuildChildren_of_readChildren : ∀ (children : Value) (path : List Nat)
    (nodes : List Node), readChildren path children = .ok nodes →
    (∀ items, children.items? = some items → ∀ item ∈ items, IsPlainThroughout item) →
    rebuildChildren children = .ok nodes
  | .list items, path, nodes, read, plain | .tuple items, path, nodes, read, plain =>
    rebuildItems_of_readItems items path 0 nodes read (plain items rfl)
  | .null, _, _, read, _ | .bool _, _, _, read, _ | .int _, _, _, read, _
  | .float _, _, _, read, _ | .str _, _, _, read, _ | .bytes _, _, _, read, _
  | .set _, _, _, read, _ | .map _, _, _, read, _ | .position _, _, _, read, _
  | .node _, _, _, read, _ | .foreign, _, _, read, _ => nomatch read
termination_by structural children => children

theorem rebuildItems_of_readItems : ∀ (items : List Value) (path : List Nat) (index : Nat)
    (nodes : List Node), readItems path index items = .ok nodes →
    (∀ item ∈ items, IsPlainThroughout item) → rebuildItems items = .ok nodes
  | [], _, _, _, read, _ => read
  | item :: rest, path, index, nodes, read, plain => by
    obtain ⟨node, others, first, after, rfl⟩ := readItems_cons_eq_ok_iff.1 read
    rw [rebuildItems, rebuild_of_readAt item _ node first (plain item (.head _)),
      rebuildItems_of_readItems rest path (index + 1) others after fun other ho =>
        plain other (.tail _ ho)]
    rfl
termination_by structural items => items

end

/-- A tree that the strict reader accepts, and in which it comes to plain mappings only, is built
from its dict form as it is read. -/
theorem rebuild_eq_ofValue (dict : Value) (accepted : ∃ node, ofValue dict = .ok node)
    (plain : IsPlainThroughout dict) : rebuild dict = ofValue dict := by
  obtain ⟨node, read⟩ := accepted
  rw [read]
  exact rebuild_of_readAt dict [] node read plain

/-- A paragraph without properties and with a broken position, and a comment without a value, in a
tuple below an element. -/
theorem rebuild_eq_ofValue_paragraph :
    let comment : List (Value × Value) := [(.str "type", .str "comment")]
    let paragraph : List (Value × Value) :=
      [(.str "type", .str "element"), (.str "tagName", .str "p"), (.str "properties", .null),
        (.str "position", .map []), (.str "children", .tuple [.map comment])]
    let node : Node := .element (.str "p") (.map [])
      (.tuple [.node (.comment (.str "") .null .null)]) .null .null
    (∃ node, ofValue (.map paragraph) = .ok node) ∧ IsPlainThroughout (.map paragraph) ∧
      rebuild (.map paragraph) = ofValue (.map paragraph) ∧
      ofValue (.map paragraph) = .ok node := by
  intro comment paragraph node
  have accepted : ∃ node, ofValue (.map paragraph) = .ok node := ⟨node, rfl⟩
  have inner : IsPlainThroughout (.map comment) := by
    refine isPlainThroughout_map_iff.2 ⟨⟨nofun, nofun, nofun, nofun⟩, ?_⟩
    intro type children items typed parent held
    cases held
  have plain : IsPlainThroughout (.map paragraph) := by
    refine isPlainThroughout_map_iff.2 ⟨⟨nofun, ?_, nofun, nofun⟩, ?_⟩
    · rintro - value held
      cases held
      exact .inl rfl
    · intro type children items typed parent held listed item member
      cases held
      cases listed
      rw [List.mem_singleton.1 member]
      exact inner
  exact ⟨accepted, plain, rebuild_eq_ofValue _ accepted plain, rfl⟩

end Node

end SafeMarkup
