/-
# Trees and their dict forms

`Node.WellFormed` describes the trees that have a dict form from which they can be read back: the
children are tuples of nodes, the properties are a mapping, a node of no known kind has a type that
is not the word for one, and what is attached to a node is a mapping and a position.  Nothing is
asked of the values; two parameters say what may stand where, so that one induction serves trees
with any values, trees read from JSON, and sanitized trees.

Writing such a tree and reading it strictly gives it back, up to one thing: a tuple among the
properties is written as a list, and comes back as one (`exists_dict`).  The induction is over the
tree, and it is said of every path, since the path at which a child is read depends on its index.

Whatever one of the readers returns is such a tree (`wellFormed_of_ofValue?`), with values that
stood in the mapping it was read from.  In a value that was read from JSON there are no tuples, so a
tree read from JSON comes back as it is.

The converse direction, from a dict form to a tree and back, does not give the mapping back: keys
that belong to no field are dropped, and `data` that is no mapping is read as absent.  What can be
said is that a tree which was read can be written, and that reading it again gives the tree of the
first reading, with lists for tuples; that is part of `ofValue_toValue`.
-/
import SafeMarkup.Proofs.DictForm
import SafeMarkup.Proofs.JsonValue

namespace SafeMarkup

/-! ## Lists in place of tuples -/

/-- The entries of a mapping as they are written, with lists in place of the tuples among the
values. -/
def Value.writtenEntries (entries : List (Value × Value)) : List (Value × Value) :=
  entries.map fun entry => (entry.1, entry.2.written)

/-- The properties with lists in place of the tuples among their values. -/
def Value.propertiesWithLists : Value → Value
  | .map entries => .map (writtenEntries entries)
  | value => value

namespace Node

mutual

/-- The tree with lists in place of the tuples among the values of properties. -/
def withLists : Node → Node
  | root children data position => root (childrenWithLists children) data position
  | element tagName properties children data position =>
    element tagName properties.propertiesWithLists (childrenWithLists children) data position
  | node => node
termination_by structural node => node

def childrenWithLists : Value → Value
  | .list items => .list (itemsWithLists items)
  | .tuple items => .tuple (itemsWithLists items)
  | value => value
termination_by structural value => value

def itemsWithLists : List Value → List Value
  | [] => []
  | item :: rest => itemWithLists item :: itemsWithLists rest
termination_by structural items => items

def itemWithLists : Value → Value
  | .node node => .node (withLists node)
  | value => value
termination_by structural value => value

end

theorem itemsWithLists_nodes (children : List Node) :
    itemsWithLists (children.map .node) = (children.map withLists).map .node := by
  induction children with
  | nil => rfl
  | cons child rest ih =>
    show .node child.withLists :: itemsWithLists (rest.map .node) = _
    rw [ih]
    rfl

theorem childrenWithLists_nodes (children : List Node) :
    childrenWithLists (.tuple (children.map .node)) =
      .tuple ((children.map withLists).map .node) :=
  congrArg Value.tuple (itemsWithLists_nodes children)

/-! ## Well-formed trees -/

variable {fits : Value → Prop} {carries : List (Value × Value) → Prop}

/-- The tree has a dict form from which it can be read back.  The values that it holds fit, and so
do the entries of its properties. -/
inductive WellFormed (fits : Value → Prop) (carries : List (Value × Value) → Prop) : Node → Prop
  | root {children : List Node} {data position : Value} :
      (∀ child ∈ children, WellFormed fits carries child) → Attached fits data position →
      WellFormed fits carries (.root (.tuple (children.map .node)) data position)
  | element {tagName : Value} {entries : List (Value × Value)} {children : List Node}
      {data position : Value} :
      fits tagName → carries entries →
      (∀ child ∈ children, WellFormed fits carries child) → Attached fits data position →
      WellFormed fits carries
        (.element tagName (.map entries) (.tuple (children.map .node)) data position)
  | text {value data position : Value} :
      fits value → Attached fits data position → WellFormed fits carries (.text value data position)
  | comment {value data position : Value} :
      fits value → Attached fits data position →
      WellFormed fits carries (.comment value data position)
  | doctype {name data position : Value} :
      fits name → Attached fits data position →
      WellFormed fits carries (.doctype name data position)
  | raw {value data position : Value} :
      fits value → Attached fits data position → WellFormed fits carries (.raw value data position)
  | unknown {type : String} {value data position : Value} :
      Kind.ofWord? type = none → fits value → Attached fits data position →
      WellFormed fits carries (.unknown (.str type) value data position)

theorem WellFormed.withLists_eq
    (noTuples : ∀ entries, carries entries → Value.writtenEntries entries = entries) {node : Node}
    (h : node.WellFormed fits carries) : node.withLists = node := by
  induction h with
  | @root children _ _ _ _ ih =>
    have same : children.map withLists = children :=
      (List.map_congr_left ih).trans (List.map_id' children)
    rw [withLists, childrenWithLists_nodes, same]
  | @element _ _ children _ _ _ carried _ _ ih =>
    have same : children.map withLists = children :=
      (List.map_congr_left ih).trans (List.map_id' children)
    rw [withLists, childrenWithLists_nodes, same, Value.propertiesWithLists, noTuples _ carried]
  | _ => rfl

/-! ## Writing and reading back -/

theorem exists_dicts {children : List Node}
    (h : ∀ child ∈ children, ∃ dict, child.toValue = .ok dict ∧
      ∀ path, readAt path dict = .ok child.withLists) :
    ∃ dicts, writtenItems (children.map .node) = .ok dicts ∧
      ∀ path index, readItems path index dicts = .ok (children.map withLists) := by
  induction children with
  | nil => exact ⟨[], rfl, fun _ _ => rfl⟩
  | cons child rest ih =>
    obtain ⟨dict, written, read⟩ := h child (.head _)
    obtain ⟨dicts, others, readOthers⟩ := ih fun other ho => h other (.tail _ ho)
    refine ⟨dict :: dicts, ?_, fun path index => ?_⟩
    · exact writtenItems_cons written others
    · exact readItems_cons_eq_ok_iff.2 ⟨_, _, read _, readOthers path (index + 1), rfl⟩

theorem exists_dict_leaf {front : List (Value × Value)} {type : String} {data position : Value}
    {node : Node} (attached : Attached fits data position)
    (typed : typeIn? (front ++ attachedEntries data position) = some type)
    (leaf : isParent type = false)
    (assembled : assemble type (front ++ attachedEntries data position) [] = node) :
    ∃ dict, withAttachments front data position = .ok dict ∧
      ∀ path, readAt path dict = .ok node := by
  refine ⟨.map (front ++ attachedEntries data position), ?_, fun path => ?_⟩
  · exact withAttachments_eq_ok_iff.2 ⟨_, attachments_of_attached attached, rfl⟩
  · rw [readAt_leaf typed leaf, assembled]

/-- A well-formed tree has a dict form, and what is read from it strictly, anywhere, is the tree
with lists in place of the tuples among its properties. -/
theorem WellFormed.exists_dict {node : Node} (h : node.WellFormed fits carries) :
    ∃ dict, node.toValue = .ok dict ∧ ∀ path, readAt path dict = .ok node.withLists := by
  induction h with
  | @root children data position _ attached ih =>
    obtain ⟨dicts, written, read⟩ := exists_dicts ih
    refine ⟨.map (rootEntries dicts ++ attachedEntries data position), ?_, fun path => ?_⟩
    · exact toValue_root_eq_ok_iff.2 ⟨dicts, _, written, attachments_of_attached attached, rfl⟩
    · have inside : readChildren path (.list dicts) = .ok (children.map withLists) := read path 0
      rw [readAt_parent rfl rfl rfl inside, assemble_root attached, withLists,
        childrenWithLists_nodes]
  | @element tagName entries children data position _ _ _ attached ih =>
    obtain ⟨dicts, written, read⟩ := exists_dicts ih
    refine ⟨.map (elementEntries tagName (.map (Value.writtenEntries entries)) dicts ++
      attachedEntries data position), ?_, fun path => ?_⟩
    · exact toValue_element_eq_ok_iff.2
        ⟨_, dicts, _, rfl, written, attachments_of_attached attached, rfl⟩
    · have inside : readChildren path (.list dicts) = .ok (children.map withLists) := read path 0
      rw [readAt_parent rfl rfl rfl inside, assemble_element attached, withLists,
        childrenWithLists_nodes]
      rfl
  | text _ attached => exact exists_dict_leaf attached rfl rfl (assemble_text attached _)
  | comment _ attached => exact exists_dict_leaf attached rfl rfl (assemble_comment attached _)
  | doctype _ attached => exact exists_dict_leaf attached rfl rfl (assemble_doctype attached _)
  | raw _ attached => exact exists_dict_leaf attached rfl rfl (assemble_raw attached _)
  | unknown noWord _ attached =>
    exact exists_dict_leaf attached rfl (isParent_of_noWord noWord)
      (assemble_unknown attached noWord _)

/-! ## What the readers return -/

end Node

/-- What fits passes on to the parts of a mapping that a reader looks at, and what a reader puts in
place of an absent part fits. -/
structure Value.Hereditary (fits : Value → Prop) : Prop where
  null : fits .null
  emptyText : fits (.str "")
  emptyMap : fits (.map [])
  entry {entries : List (Value × Value)} : fits (.map entries) → ∀ entry ∈ entries, fits entry.2
  item {value : Value} {items : List Value} : fits value → value.items? = some items →
    ∀ item ∈ items, fits item
  position {value : Value} {p : Position} : fits value → Position.ofValue? value = some p →
    fits p.toValue

theorem Value.hereditary_true : Value.Hereditary fun _ => True :=
  ⟨trivial, trivial, trivial, fun _ _ _ => trivial, fun _ _ _ _ => trivial, fun _ _ => trivial⟩

theorem Value.Hereditary.field {fits : Value → Prop} (h : Value.Hereditary fits)
    {entries : List (Value × Value)} (inside : ∀ entry ∈ entries, fits entry.2) (name : String) :
    fits (Value.field name entries) := by
  unfold Value.field
  cases held : Value.field? name entries with
  | none => exact h.null
  | some value =>
    obtain ⟨entry, he, -, rfl⟩ := Value.exists_of_field? held
    exact inside entry he

namespace Node

theorem kind_ne_of_ofWord? {type : String} {kind : Kind} (h : Kind.ofWord? type = some kind) :
    kind ≠ .bare ∧ kind ≠ .unknown := by
  unfold Kind.ofWord? at h
  split at h <;> cases h <;> exact ⟨nofun, nofun⟩

variable {fits : Value → Prop} {entries : List (Value × Value)}

theorem attached_fields (h : Value.Hereditary fits) (inside : ∀ entry ∈ entries, fits entry.2) :
    Attached fits (mappingOrNull (Value.field "data" entries))
      (Position.asField (Position.ofValue? (Value.field "position" entries))) := by
  constructor
  · have ok := h.field inside "data"
    cases held : Value.field "data" entries with
    | map data =>
      rw [held] at ok
      exact .inr ⟨data, rfl, ok⟩
    | _ => exact .inl rfl
  · cases read : Position.ofValue? (Value.field "position" entries) with
    | none => exact .inl rfl
    | some p => exact .inr ⟨p, rfl, h.position (h.field inside "position") read⟩

theorem assemble_wellFormed (h : Value.Hereditary fits) (type : String)
    (inside : ∀ entry ∈ entries, fits entry.2) {children : List Node}
    (nodes : ∀ child ∈ children, child.WellFormed fits fun entries => fits (.map entries)) :
    (assemble type entries children).WellFormed fits fun entries => fits (.map entries) := by
  have attached := attached_fields h inside
  have orEmpty : fits ((Value.field? "value" entries).getD (.str "")) := by
    cases held : Value.field? "value" entries with
    | none => exact h.emptyText
    | some value =>
      obtain ⟨entry, he, -, rfl⟩ := Value.exists_of_field? held
      exact inside entry he
  have properties : ∃ own, mappingOrEmpty (Value.field "properties" entries) = .map own ∧
      fits (.map own) := by
    have ok := h.field inside "properties"
    cases held : Value.field "properties" entries with
    | map own =>
      rw [held] at ok
      exact ⟨own, rfl, ok⟩
    | _ => exact ⟨[], rfl, h.emptyMap⟩
  unfold assemble
  cases word : Kind.ofWord? type with
  | none => exact .unknown word (h.field inside "value") attached
  | some kind =>
    cases kind with
    | root => exact .root nodes attached
    | element =>
      obtain ⟨own, same, ok⟩ := properties
      simp only [same]
      exact .element (h.field inside "tagName") ok nodes attached
    | text => exact .text (h.field inside "value") attached
    | comment => exact .comment orEmpty attached
    | doctype => exact .doctype (h.field inside "name") attached
    | raw => exact .raw orEmpty attached
    | bare => exact absurd rfl (kind_ne_of_ofWord? word).1
    | unknown => exact absurd rfl (kind_ne_of_ofWord? word).2

mutual

/-- Whatever the lenient reader returns is well-formed, with values from what was read. -/
theorem wellFormed_of_ofValue? (h : Value.Hereditary fits) : ∀ value : Value, fits value →
    ∀ node, ofValue? value = some node → node.WellFormed fits fun entries => fits (.map entries)
  | .map entries, ok, node, read => by
    rw [ofValue?] at read
    have inside := h.entry ok
    split at read
    · cases read
    · next type _ =>
      cases read
      refine assemble_wellFormed h type inside ?_
      split
      · exact wellFormed_of_coerceField h entries inside
      · exact fun _ hchild => absurd hchild List.not_mem_nil
  | .null, _, _, read | .bool _, _, _, read | .int _, _, _, read | .float _, _, _, read
  | .str _, _, _, read | .bytes _, _, _, read | .list _, _, _, read | .tuple _, _, _, read
  | .set _, _, _, read | .position _, _, _, read | .node _, _, _, read
  | .foreign, _, _, read => nomatch read
termination_by structural value => value

theorem wellFormed_of_coerceField (h : Value.Hereditary fits) :
    ∀ entries : List (Value × Value), (∀ entry ∈ entries, fits entry.2) →
    ∀ child ∈ coerceField entries, child.WellFormed fits fun entries => fits (.map entries)
  | [], _ => fun _ hchild => absurd hchild List.not_mem_nil
  | (key, value) :: rest, inside => by
    rw [coerceField]
    split
    · exact wellFormed_of_coerceChildren h value (inside (key, value) (.head _))
    · exact wellFormed_of_coerceField h rest fun entry he => inside entry (.tail _ he)
termination_by structural entries => entries

theorem wellFormed_of_coerceChildren (h : Value.Hereditary fits) : ∀ value : Value, fits value →
    ∀ child ∈ coerceChildren value, child.WellFormed fits fun entries => fits (.map entries)
  | .list items, ok | .tuple items, ok => wellFormed_of_coerceItems h items (h.item ok rfl)
  | .null, _ | .bool _, _ | .int _, _ | .float _, _ | .str _, _ | .bytes _, _ | .set _, _
  | .map _, _ | .position _, _ | .node _, _ | .foreign, _ =>
    fun _ hchild => absurd hchild List.not_mem_nil
termination_by structural value => value

theorem wellFormed_of_coerceItems (h : Value.Hereditary fits) : ∀ items : List Value,
    (∀ item ∈ items, fits item) →
    ∀ child ∈ coerceItems items, child.WellFormed fits fun entries => fits (.map entries)
  | [], _ => fun _ hchild => absurd hchild List.not_mem_nil
  | item :: rest, inside => by
    have others := wellFormed_of_coerceItems h rest fun other ho => inside other (.tail _ ho)
    intro child hchild
    rw [coerceItems] at hchild
    split at hchild
    · next node read =>
      rcases List.mem_cons.1 hchild with rfl | hchild
      · exact wellFormed_of_ofValue? h item (inside item (.head _)) child read
      · exact others child hchild
    · exact others child hchild
termination_by structural items => items

end

/-! ## The two readers agree -/

mutual

/-- What is read strictly is read leniently too. -/
theorem ofValue?_of_readAt : ∀ (value : Value) (path : List Nat) (node : Node),
    readAt path value = .ok node → ofValue? value = some node
  | .map entries, path, node, read => by
    obtain ⟨type, children, typed, rfl, ⟨parent, inside⟩ | ⟨leaf, rfl⟩⟩ :=
      readAt_map_eq_ok_iff.1 read
    · simp only [ofValue?, typed, parent, if_true,
        coerceField_of_readField entries path children inside]
    · exact ofValue?_leaf typed leaf
  | .null, _, _, read | .bool _, _, _, read | .int _, _, _, read | .float _, _, _, read
  | .str _, _, _, read | .bytes _, _, _, read | .list _, _, _, read | .tuple _, _, _, read
  | .set _, _, _, read | .position _, _, _, read | .node _, _, _, read
  | .foreign, _, _, read => nomatch read
termination_by structural value => value

theorem coerceField_of_readField : ∀ (entries : List (Value × Value)) (path : List Nat)
    (children : List Node), readField path entries = .ok children → coerceField entries = children
  | [], _, _, read => Except.ok.inj read
  | (_, value) :: rest, path, children, read => by
    rw [readField] at read
    rw [coerceField]
    split at read
    · next here =>
      rw [if_pos here]
      exact coerceChildren_of_readChildren value path children read
    · next elsewhere =>
      rw [if_neg elsewhere]
      exact coerceField_of_readField rest path children read
termination_by structural entries => entries

theorem coerceChildren_of_readChildren : ∀ (value : Value) (path : List Nat)
    (children : List Node), readChildren path value = .ok children →
    coerceChildren value = children
  | .list items, path, children, read | .tuple items, path, children, read =>
    coerceItems_of_readItems items path 0 children read
  | .null, _, _, read | .bool _, _, _, read | .int _, _, _, read | .float _, _, _, read
  | .str _, _, _, read | .bytes _, _, _, read | .map _, _, _, read
  | .set _, _, _, read | .position _, _, _, read | .node _, _, _, read
  | .foreign, _, _, read => nomatch read
termination_by structural value => value

theorem coerceItems_of_readItems : ∀ (items : List Value) (path : List Nat) (index : Nat)
    (children : List Node), readItems path index items = .ok children →
    coerceItems items = children
  | [], _, _, _, read => Except.ok.inj read
  | item :: rest, path, index, children, read => by
    obtain ⟨node, others, first, after, rfl⟩ := readItems_cons_eq_ok_iff.1 read
    rw [coerceItems, ofValue?_of_readAt item _ _ first]
    exact congrArg (node :: ·) (coerceItems_of_readItems rest path (index + 1) others after)
termination_by structural items => items

end

end Node

/-! ## Values from JSON

What has a JSON form fits wherever a reader looks, and holds no tuples. -/

section Json

variable {whole : Int → Prop}

theorem Value.whole_of_int? {value : Value} {n : Int} (ok : value.IsJson whole)
    (h : value.int? = some n) : whole n := by
  cases ok with
  | int ok =>
    cases h
    exact ok
  | _ => cases h

theorem Point.isJson_toValue {value : Value} {p : Point} (ok : value.IsJson whole)
    (h : Point.ofValue? value = some p) : p.toValue.IsJson whole := by
  cases ok with
  | @map entries _ _ inside =>
    have field {name : String} {n : Int} (h : (Value.field name entries).int? = some n) :
        whole n := by
      obtain ⟨entry, he, held⟩ := Value.exists_of_field Value.int? rfl h
      exact Value.whole_of_int? (inside entry he) held
    obtain ⟨line, column, offset⟩ := Point.fields_of_ofValue? h
    unfold Point.toValue
    cases some : p.offset with
    | none =>
      refine .map (by simp) (by simp) ?_
      rintro entry (_ | ⟨_, _ | ⟨_, he⟩⟩)
      · exact .int (field line)
      · exact .int (field column)
      · cases he
    | some n =>
      refine .map (by simp) (by simp) ?_
      rintro entry (_ | ⟨_, _ | ⟨_, _ | ⟨_, he⟩⟩⟩)
      · exact .int (field line)
      · exact .int (field column)
      · exact .int (field (offset.trans some))
      · cases he
  | _ => cases h

theorem Position.isJson_toValue {value : Value} {p : Position} (ok : value.IsJson whole)
    (h : Position.ofValue? value = some p) : p.toValue.IsJson whole := by
  cases ok with
  | @map entries _ _ inside =>
    have field {name : String} {point : Point}
        (h : Point.ofValue? (Value.field name entries) = some point) :
        point.toValue.IsJson whole := by
      obtain ⟨entry, he, held⟩ := Value.exists_of_field Point.ofValue? rfl h
      exact Point.isJson_toValue (inside entry he) held
    obtain ⟨start, stop⟩ := Position.fields_of_ofValue? h
    refine .map (by simp) (by simp) ?_
    rintro entry (_ | ⟨_, _ | ⟨_, he⟩⟩)
    · exact field start
    · exact field stop
    · cases he
  | _ => cases h

theorem Value.hereditary_isJson : Value.Hereditary (Value.IsJson whole) where
  null := .null
  emptyText := .str
  emptyMap := .map (by simp) List.nodup_nil (by simp)
  entry := by
    intro entries ok
    cases ok with
    | map _ _ inside => exact inside
  item := by
    intro value items ok h
    cases ok with
    | list inside =>
      cases h
      exact inside
    | _ => cases h
  position := Position.isJson_toValue

theorem Value.writtenEntries_of_isJson {entries : List (Value × Value)}
    (ok : (Value.map entries).IsJson whole) : writtenEntries entries = entries := by
  cases ok with
  | map _ _ inside =>
    have same : ∀ entry ∈ entries, (entry.1, entry.2.written) = entry := by
      rintro ⟨key, value⟩ he
      cases inside _ he <;> rfl
    exact (List.map_congr_left same).trans (List.map_id' entries)

end Json

namespace Node

/-- A well-formed tree is read back from its dict form, with lists in place of the tuples among its
properties.  Both readers return well-formed trees only, and a tree that one of them has read from
what stands in a JSON text is read back as it is. -/
theorem ofValue_toValue :
    (∀ node : Node, node.WellFormed (fun _ => True) (fun _ => True) →
      ∃ dict, node.toValue = .ok dict ∧ ofValue dict = .ok node.withLists) ∧
    (∀ (value : Value) (node : Node), ofValue value = .ok node ∨ ofValue? value = some node →
      node.WellFormed (fun _ => True) fun _ => True) ∧
    ∀ (text : String) (value : Value) (node : Node), Json.read text = .ok value →
      ofValue value = .ok node ∨ ofValue? value = some node →
      ∃ dict, node.toValue = .ok dict ∧ ofValue dict = .ok node := by
  have lenient (value : Value) (node : Node)
      (read : ofValue value = .ok node ∨ ofValue? value = some node) :
      ofValue? value = some node :=
    read.elim (ofValue?_of_readAt value [] node) id
  have back {fits : Value → Prop} {carries : List (Value × Value) → Prop} {node : Node}
      (h : node.WellFormed fits carries) :
      ∃ dict, node.toValue = .ok dict ∧ ofValue dict = .ok node.withLists := by
    obtain ⟨dict, written, read⟩ := h.exists_dict
    exact ⟨dict, written, read []⟩
  refine ⟨fun node => back, ?_, ?_⟩
  · intro value node read
    exact wellFormed_of_ofValue? Value.hereditary_true value trivial node (lenient value node read)
  · intro text value node parsed read
    have wellFormed := wellFormed_of_ofValue? Value.hereditary_isJson value
      (Json.isJson_of_read parsed) node (lenient value node read)
    have same : node.withLists = node :=
      wellFormed.withLists_eq fun _ => Value.writtenEntries_of_isJson
    have again := back wellFormed
    rwa [same] at again

/-- An image whose tag is a number, with a tuple among its properties and a formula inside, of a
kind that has no word. -/
theorem ofValue_toValue_image :
    let image (sources : Value) : Node :=
      .element (.int 7) (.map [(.str "srcset", sources), (.str "alt", .bytes "x")])
        (.tuple [.node (.unknown (.str "math") .null .null .null)])
        (.map [(.str "from", .set [.int 1])]) (.position ⟨⟨1, 1, none⟩, ⟨1, 9, some 8⟩⟩)
    let sources : List Value := [.str "a.png", .null]
    (image (.tuple sources)).WellFormed (fun _ => True) (fun _ => True) ∧
      ∃ dict, (image (.tuple sources)).toValue = .ok dict ∧
        ofValue dict = .ok (image (.list sources)) := by
  intro image sources
  have inside : ∀ child ∈ [Node.unknown (.str "math") .null .null .null],
      child.WellFormed (fun _ => True) fun _ => True := by
    intro child hchild
    obtain rfl := List.mem_singleton.1 hchild
    exact .unknown rfl trivial ⟨.inl rfl, .inl rfl⟩
  have wellFormed : (image (.tuple sources)).WellFormed (fun _ => True) fun _ => True :=
    .element trivial trivial inside ⟨.inr ⟨_, rfl, trivial⟩, .inr ⟨_, rfl, trivial⟩⟩
  exact ⟨wellFormed, ofValue_toValue.1 _ wellFormed⟩

end Node

end SafeMarkup
