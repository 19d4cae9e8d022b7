/-
# The dict form of a node, entry by entry

What the writer puts under which key, and what the readers make of what stands there.  Everything
that is proved about trees and their dict forms goes through the equations below; no later proof
opens the writer or the readers.

A node has two kinds of entries: those of its own kind, under keys that are known, and those for
`data` and `position`, which are written alike for every node and only when there is something to
write.  `Node.attachedEntries` are the second ones, for a node with `data` that is absent or a
mapping and a position that is absent or a `Position`.  Reading gives them back
(`mappingOrNull_data_attached`, `asField_position_attached`), and writing whatever else has a dict
form at all gives entries of such a node (`exists_attached`).

The equations come in pairs, one for each direction, and the keys are compared by the texts that
they are.  Looking a key up in the entries of a node of a known kind is then evaluation, and what a
later proof has to supply is only that `data` and `position` are not among the fields of the kind.

The dict forms of points and positions are treated here as well (`Position.ofValue?_toValue`); they
are small enough to need no theory of their own.
-/
import SafeMarkup.Interchange.Reader
import SafeMarkup.Interchange.Writer
import SafeMarkup.Proofs.Steps

namespace SafeMarkup

/-! ## Fields -/

namespace Value

variable {name other : String} {value : Value} {front entries : List (Value × Value)}

theorem field?_nil : field? name ([] : List (Value × Value)) = none :=
  rfl

theorem field?_pair : field? name (pair other value :: entries) =
    if other = name then some value else field? name entries := by
  simp [field?, pair, isText]

theorem field?_append_of_eq_none (h : field? name front = none) :
    field? name (front ++ entries) = field? name entries := by
  induction front with
  | nil => rfl
  | cons entry rest ih =>
    unfold field? at h
    split at h
    · cases h
    · next elsewhere =>
      rw [List.cons_append, field?, if_neg elsewhere]
      exact ih h

theorem exists_of_field? (h : field? name entries = some value) :
    ∃ entry ∈ entries, entry.1 = .str name ∧ entry.2 = value := by
  induction entries with
  | nil => cases h
  | cons entry rest ih =>
    unfold field? at h
    split at h
    · next here =>
      refine ⟨entry, .head _, ?_, Option.some.inj h⟩
      obtain ⟨key, value⟩ := entry
      cases key with
      | str text => exact congrArg str (beq_iff_eq.1 here)
      | _ => cases here
    · obtain ⟨found, hfound, key, held⟩ := ih h
      exact ⟨found, .tail _ hfound, key, held⟩

theorem exists_of_field {α : Type} (ask : Value → Option α) (absent : ask .null = none) {answer : α}
    (h : ask (field name entries) = some answer) :
    ∃ entry ∈ entries, ask entry.2 = some answer := by
  unfold field at h
  cases held : field? name entries with
  | none =>
    rw [held, Option.getD_none, absent] at h
    cases h
  | some value =>
    rw [held] at h
    obtain ⟨entry, he, -, rfl⟩ := exists_of_field? held
    exact ⟨entry, he, h⟩

end Value

/-! ## Positions -/

theorem Point.ofValue?_toValue (p : Point) : Point.ofValue? p.toValue = some p := by
  obtain ⟨line, column, offset⟩ := p
  cases offset with
  | none => rfl
  | some n => rfl

theorem Point.fields_of_ofValue? {entries : List (Value × Value)} {p : Point}
    (h : Point.ofValue? (.map entries) = some p) :
    (Value.field "line" entries).int? = some p.line ∧
      (Value.field "column" entries).int? = some p.column ∧
      (Value.field "offset" entries).int? = p.offset := by
  obtain ⟨line, hline, h⟩ := Option.bind_eq_some_iff.1 h
  obtain ⟨column, hcolumn, h⟩ := Option.bind_eq_some_iff.1 h
  cases h
  exact ⟨hline, hcolumn, rfl⟩

theorem Position.fields_of_ofValue? {entries : List (Value × Value)} {p : Position}
    (h : Position.ofValue? (.map entries) = some p) :
    Point.ofValue? (Value.field "start" entries) = some p.start ∧
      Point.ofValue? (Value.field "end" entries) = some p.stop := by
  obtain ⟨start, hstart, h⟩ := Option.bind_eq_some_iff.1 h
  obtain ⟨stop, hstop, h⟩ := Option.bind_eq_some_iff.1 h
  cases h
  exact ⟨hstart, hstop⟩

theorem Position.ofValue?_toValue (p : Position) : Position.ofValue? p.toValue = some p := by
  obtain ⟨start, stop⟩ := p
  have first := Point.ofValue?_toValue start
  have last := Point.ofValue?_toValue stop
  show (do
    let start ← Point.ofValue? start.toValue
    let stop ← Point.ofValue? stop.toValue
    some (Position.mk start stop)) = some ⟨start, stop⟩
  rw [first, last]
  rfl

namespace Node

variable {fits : Value → Prop} {data position : Value}

/-! ## What is attached to a node -/

/-- `data` is absent or a mapping, and `position` is absent or a position, with what fits. -/
structure Attached (fits : Value → Prop) (data position : Value) : Prop where
  data : data = .null ∨ ∃ entries, data = .map entries ∧ fits (.map entries)
  position : position = .null ∨ ∃ p : Position, position = .position p ∧ fits p.toValue

/-- The entries for what is attached to a node. -/
def attachedEntries (data position : Value) : List (Value × Value) :=
  (match data with
    | .null => []
    | data => [Value.pair "data" data]) ++
  (match position with
    | .position p => [Value.pair "position" p.toValue]
    | _ => [])

theorem attachments_of_attached (h : Attached fits data position) :
    attachments data position = .ok (attachedEntries data position) := by
  obtain ⟨rfl | ⟨entries, rfl, -⟩, rfl | ⟨p, rfl, -⟩⟩ := h <;> rfl

/-- Whatever is attached to a node, if it has a dict form at all, that is also the dict form of a
mapping and a position, or of nothing. -/
theorem exists_attached {attached : List (Value × Value)}
    (h : attachments data position = .ok attached) :
    ∃ data' position', Attached (fun _ => True) data' position' ∧
      attached = attachedEntries data' position' := by
  have place : ∃ position', Attached (fun _ => True) .null position' ∧ ∀ front,
      (match position with
        | .position p => (pure (front ++ [Value.pair "position" p.toValue]) : Except Fault _)
        | _ => pure front) = .ok (front ++ attachedEntries .null position') := by
    cases position with
    | position p => exact ⟨.position p, ⟨.inl rfl, .inr ⟨p, rfl, trivial⟩⟩, fun _ => rfl⟩
    | _ =>
      refine ⟨.null, ⟨.inl rfl, .inl rfl⟩, fun front => ?_⟩
      exact congrArg Except.ok (List.append_nil front).symm
  obtain ⟨position', hposition, written⟩ := place
  have absent (h : Except.ok (attachedEntries .null position') = Except.ok (ε := Fault) attached) :
      ∃ data' position', Attached (fun _ => True) data' position' ∧
        attached = attachedEntries data' position' :=
    ⟨.null, position', hposition, (Except.ok.inj h).symm⟩
  unfold attachments at h
  cases data with
  | null => exact absent ((written []).symm.trans h)
  | _ =>
    obtain ⟨front, copied, h⟩ := bind_eq_ok_iff.1 h
    obtain ⟨entries, -, rfl⟩ := map_eq_ok_iff.1 copied
    refine ⟨.map entries, position', ⟨.inr ⟨entries, rfl, trivial⟩, hposition.position⟩, ?_⟩
    exact (Except.ok.inj ((written _).symm.trans h)).symm

/-! Both are read back from among the entries of a node, if none of the others has their key. -/

variable {front : List (Value × Value)}

theorem mappingOrNull_data_attached (h : Attached fits data position)
    (none : Value.field? "data" front = none) :
    mappingOrNull (Value.field "data" (front ++ attachedEntries data position)) = data := by
  rw [Value.field, Value.field?_append_of_eq_none none]
  obtain ⟨rfl | ⟨entries, rfl, -⟩, rfl | ⟨p, rfl, -⟩⟩ := h <;> rfl

theorem asField_position_attached (h : Attached fits data position)
    (none : Value.field? "position" front = none) :
    Position.asField (Position.ofValue?
      (Value.field "position" (front ++ attachedEntries data position))) = position := by
  rw [Value.field, Value.field?_append_of_eq_none none]
  have back (p : Position) : Position.asField (Position.ofValue? p.toValue) = .position p := by
    rw [Position.ofValue?_toValue]
    rfl
  obtain ⟨rfl | ⟨entries, rfl, -⟩, rfl | ⟨p, rfl, -⟩⟩ := h
  · rfl
  · exact back p
  · rfl
  · exact back p

theorem field?_attached {name : String} (notData : name ≠ "data")
    (notPosition : name ≠ "position") :
    Value.field? name (attachedEntries data position) = none := by
  unfold attachedEntries
  split <;> split <;>
    simp only [List.nil_append, List.append_nil, List.singleton_append, Value.field?_pair,
      if_neg notData.symm, if_neg notPosition.symm, Value.field?_nil]

/-! ## Writing -/

theorem withAttachments_eq_ok_iff {entries : List (Value × Value)} {dict : Value} :
    withAttachments entries data position = .ok dict ↔
      ∃ attached, attachments data position = .ok attached ∧ dict = .map (entries ++ attached) := by
  unfold withAttachments
  cases attachments data position with
  | error fault => simp [Except.map]
  | ok attached => simp [Except.map, eq_comm]

theorem exists_attached_of_written {entries : List (Value × Value)} {dict : Value}
    (written : withAttachments entries data position = .ok dict) :
    ∃ data' position', Attached (fun _ => True) data' position' ∧
      attachments data position = .ok (attachedEntries data' position') ∧
      dict = .map (entries ++ attachedEntries data' position') := by
  obtain ⟨attached, attach, rfl⟩ := withAttachments_eq_ok_iff.1 written
  obtain ⟨data', position', ok, rfl⟩ := exists_attached attach
  exact ⟨data', position', ok, attach, rfl⟩

theorem writtenChildren_of_items? {children : Value} {items : List Value}
    (h : children.items? = some items) : writtenChildren children = writtenItems items := by
  cases children with
  | list _ | tuple _ =>
    cases h
    rfl
  | _ => cases h

theorem exists_of_writtenItems_cons {item : Value} {rest dicts : List Value}
    (h : writtenItems (item :: rest) = .ok dicts) :
    ∃ node dict others, item = .node node ∧ node.toValue = .ok dict ∧
      writtenItems rest = .ok others ∧ dicts = dict :: others := by
  rw [writtenItems, bind_eq_ok_iff] at h
  obtain ⟨dict, first, h⟩ := h
  obtain ⟨others, after, same⟩ := bind_eq_ok_iff.1 h
  cases same
  cases item with
  | node node => exact ⟨node, dict, others, rfl, first, after, rfl⟩
  | _ => cases first

theorem writtenItems_cons {node : Node} {dict : Value} {rest dicts : List Value}
    (first : node.toValue = .ok dict) (others : writtenItems rest = .ok dicts) :
    writtenItems (.node node :: rest) = .ok (dict :: dicts) := by
  rw [writtenItems, bind_eq_ok_iff]
  exact ⟨dict, first, bind_eq_ok_iff.2 ⟨dicts, others, rfl⟩⟩

/-- The entries of a root. -/
def rootEntries (dicts : List Value) : List (Value × Value) :=
  [Value.pair "type" (.str "root"), Value.pair "children" (.list dicts)]

/-- The entries of an element. -/
def elementEntries (tagName properties : Value) (dicts : List Value) : List (Value × Value) :=
  [Value.pair "type" (.str "element"), Value.pair "tagName" tagName,
    Value.pair "properties" properties, Value.pair "children" (.list dicts)]

theorem toValue_root_eq_ok_iff {children dict : Value} :
    (root children data position).toValue = .ok dict ↔
      ∃ dicts attached, writtenChildren children = .ok dicts ∧
        attachments data position = .ok attached ∧ dict = .map (rootEntries dicts ++ attached) := by
  simp only [toValue, bind_eq_ok_iff, withAttachments_eq_ok_iff, rootEntries, exists_and_left]

theorem toValue_element_eq_ok_iff {tagName properties children dict : Value} :
    (element tagName properties children data position).toValue = .ok dict ↔
      ∃ written dicts attached, properties.writtenProperties = .ok written ∧
        writtenChildren children = .ok dicts ∧ attachments data position = .ok attached ∧
        dict = .map (elementEntries tagName written dicts ++ attached) := by
  simp only [toValue, bind_eq_ok_iff, withAttachments_eq_ok_iff, elementEntries, exists_and_left]

theorem exists_entries_of_toValue {node : Node} {dict : Value} (h : node.toValue = .ok dict) :
    ∃ entries, dict = .map entries := by
  cases node with
  | bare => cases h
  | root =>
    obtain ⟨_, _, -, -, rfl⟩ := toValue_root_eq_ok_iff.1 h
    exact ⟨_, rfl⟩
  | element =>
    obtain ⟨_, _, _, -, -, -, rfl⟩ := toValue_element_eq_ok_iff.1 h
    exact ⟨_, rfl⟩
  | _ =>
    obtain ⟨_, -, rfl⟩ := withAttachments_eq_ok_iff.1 h
    exact ⟨_, rfl⟩

/-! ## Reading -/

theorem readField_eq (path : List Nat) (entries : List (Value × Value)) :
    readField path entries =
      ((Value.field? "children" entries).map (readChildren path)).getD (.ok []) := by
  induction entries with
  | nil => rfl
  | cons entry rest ih =>
    obtain ⟨key, value⟩ := entry
    rw [readField, Value.field?]
    split
    · rfl
    · exact ih

theorem coerceField_eq (entries : List (Value × Value)) :
    coerceField entries = ((Value.field? "children" entries).map coerceChildren).getD [] := by
  induction entries with
  | nil => rfl
  | cons entry rest ih =>
    obtain ⟨key, value⟩ := entry
    rw [coerceField, Value.field?]
    split
    · rfl
    · exact ih

section Reading

variable {path : List Nat} {type : String} {entries : List (Value × Value)}

theorem readAt_leaf (typed : typeIn? entries = some type) (leaf : isParent type = false) :
    readAt path (.map entries) = .ok (assemble type entries []) := by
  simp only [readAt, typed, leaf]
  rfl

theorem ofValue?_leaf (typed : typeIn? entries = some type) (leaf : isParent type = false) :
    ofValue? (.map entries) = some (assemble type entries []) := by
  simp only [ofValue?, typed, leaf]
  rfl

theorem readAt_parent (typed : typeIn? entries = some type) (parent : isParent type = true)
    {children : Value} (held : Value.field? "children" entries = some children)
    {nodes : List Node} (read : readChildren path children = .ok nodes) :
    readAt path (.map entries) = .ok (assemble type entries nodes) := by
  have field : readField path entries = .ok nodes := by
    rw [readField_eq, held]
    exact read
  simp only [readAt, typed, parent, field]
  rfl

theorem ofValue?_parent (typed : typeIn? entries = some type) (parent : isParent type = true)
    {children : Value} (held : Value.field? "children" entries = some children) :
    ofValue? (.map entries) = some (assemble type entries (coerceChildren children)) := by
  have field : coerceField entries = coerceChildren children := by
    rw [coerceField_eq, held]
    rfl
  simp only [ofValue?, typed, parent, field]
  rfl

/-- A mapping is read by its type, with what was read of its children if it has such a type. -/
theorem readAt_map_eq_ok_iff {node : Node} :
    readAt path (.map entries) = .ok node ↔
      ∃ type nodes, typeIn? entries = some type ∧ node = assemble type entries nodes ∧
        (isParent type = true ∧ readField path entries = .ok nodes ∨
          isParent type = false ∧ nodes = []) := by
  rw [readAt]
  cases typed : typeIn? entries with
  | none => simp
  | some type =>
    cases parent : isParent type with
    | true =>
      simp only [parent, if_true, map_eq_ok_iff]
      constructor
      · rintro ⟨nodes, read, rfl⟩
        exact ⟨type, nodes, rfl, rfl, .inl ⟨parent, read⟩⟩
      · rintro ⟨_, nodes, ⟨⟩, rfl, ⟨-, read⟩ | ⟨leaf, -⟩⟩
        · exact ⟨nodes, read, rfl⟩
        · cases parent.symm.trans leaf
    | false =>
      simp only [parent, Bool.false_eq_true, if_false]
      constructor
      · intro read
        exact ⟨type, [], rfl, (Except.ok.inj read).symm, .inr ⟨parent, rfl⟩⟩
      · rintro ⟨_, nodes, ⟨⟩, rfl, ⟨holds, -⟩ | ⟨-, rfl⟩⟩
        · cases parent.symm.trans holds
        · rfl

theorem readItems_cons_eq_ok_iff {item : Value} {rest : List Value} {index : Nat}
    {nodes : List Node} :
    readItems path index (item :: rest) = .ok nodes ↔
      ∃ node others, readAt (path ++ [index]) item = .ok node ∧
        readItems path (index + 1) rest = .ok others ∧ node :: others = nodes := by
  simp only [readItems, bind_eq_ok_iff, pure, Except.pure, Except.ok.injEq, exists_and_left]

theorem isParent_of_noWord (noWord : Kind.ofWord? type = none) : isParent type = false := by
  rw [isParent, noWord]

end Reading

section Assembled

/-! What is assembled from the entries that the writer puts out. -/

variable (h : Attached fits data position)

include h

theorem assemble_root (dicts : List Value) (children : List Node) :
    assemble "root" (rootEntries dicts ++ attachedEntries data position) children =
      root (.tuple (children.map .node)) data position := by
  unfold assemble
  rw [mappingOrNull_data_attached h rfl, asField_position_attached h rfl]
  rfl

theorem assemble_element (tagName : Value) (entries : List (Value × Value)) (dicts : List Value)
    (children : List Node) :
    assemble "element" (elementEntries tagName (.map entries) dicts ++
        attachedEntries data position) children =
      element tagName (.map entries) (.tuple (children.map .node)) data position := by
  unfold assemble
  rw [mappingOrNull_data_attached h rfl, asField_position_attached h rfl]
  rfl

theorem assemble_text (value : Value) :
    assemble "text" ([Value.pair "type" (.str "text"), Value.pair "value" value] ++
        attachedEntries data position) [] = text value data position := by
  unfold assemble
  rw [mappingOrNull_data_attached h rfl, asField_position_attached h rfl]
  rfl

theorem assemble_comment (value : Value) :
    assemble "comment" ([Value.pair "type" (.str "comment"), Value.pair "value" value] ++
        attachedEntries data position) [] = comment value data position := by
  unfold assemble
  rw [mappingOrNull_data_attached h rfl, asField_position_attached h rfl]
  rfl

theorem assemble_raw (value : Value) :
    assemble "raw" ([Value.pair "type" (.str "raw"), Value.pair "value" value] ++
        attachedEntries data position) [] = raw value data position := by
  unfold assemble
  rw [mappingOrNull_data_attached h rfl, asField_position_attached h rfl]
  rfl

theorem assemble_doctype (name : Value) :
    assemble "doctype" ([Value.pair "type" (.str "doctype"), Value.pair "name" name] ++
        attachedEntries data position) [] = doctype name data position := by
  unfold assemble
  rw [mappingOrNull_data_attached h rfl, asField_position_attached h rfl]
  rfl

theorem assemble_unknown {type : String} (noWord : Kind.ofWord? type = none) (value : Value) :
    assemble type ((Value.pair "type" (.str type) ::
        if value.isNull then [] else [Value.pair "value" value]) ++
        attachedEntries data position) [] = unknown (.str type) value data position := by
  have none (key : String) (notType : "type" ≠ key) (notValue : "value" ≠ key) :
      Value.field? key (Value.pair "type" (.str type) ::
        if value.isNull then [] else [Value.pair "value" value]) = none := by
    rw [Value.field?_pair, if_neg notType]
    split
    · rfl
    · rw [Value.field?_pair, if_neg notValue]
      rfl
  have held : Value.field "value" ((Value.pair "type" (.str type) ::
        if value.isNull then [] else [Value.pair "value" value]) ++
        attachedEntries data position) = value := by
    rw [Value.field, List.cons_append, Value.field?_pair, if_neg (by decide)]
    cases value with
    | null =>
      show (Value.field? "value" (attachedEntries data position)).getD .null = .null
      rw [field?_attached (by decide) (by decide)]
      rfl
    | _ => rfl
  unfold assemble
  rw [mappingOrNull_data_attached h (none "data" (by decide) (by decide)),
    asField_position_attached h (none "position" (by decide) (by decide)), held, noWord]

end Assembled

end Node

end SafeMarkup
