/-
# From JSON to JSON

A value with a JSON form is read leniently, cleaned, written, read back strictly, and cleaned again.
None of the steps after the first can fail, and the second text is the first.

Whatever a sanitized tree holds was in the value, apart from the prefix of a property, so it has a
JSON form (`sanitize_wellFormed`), and so has its dict form (`isJson_of_toValue`).  What is read
back is the tree with lists in place of tuples and with the entries of mappings in another order.
Cleaning does not see the first difference (`clean_withLists`) and hands the second on
(`clean_rearranged`); apart from it the tree is a fixed point.  The text shows neither.

The assumption is that the value has a JSON form and that none of its integers is too long under
the limit that reading and writing go by.  With the limit lifted, every value with a JSON form is
covered; with the standard one, every value that was read from a text.  The policy must not put the
prefix on a property that it checks, since then sanitizing twice is not sanitizing once, with or
without a text in between.
-/
import SafeMarkup.Proofs.DictAgreement
import SafeMarkup.Proofs.FixedPoint
import SafeMarkup.Proofs.JsonText

namespace SafeMarkup

/-- The entries of a mapping that has a JSON form when they are written. -/
def Value.WrittenJson (whole : Int → Prop) (entries : List (Value × Value)) : Prop :=
  (Value.map (Value.writtenEntries entries)).IsJson whole

variable {whole : Int → Prop}

/-! ## Sanitized trees have a JSON form -/

namespace Policy

variable {policy : Policy}

theorem isJson_of_sanitizePrimitive {name : String} {raw value : Value} (ok : raw.IsJson whole)
    (h : policy.sanitizePrimitive name raw = some value) : value.IsJson whole := by
  cases raw with
  | str text =>
    simp only [sanitizePrimitive] at h
    split at h
    · cases h
      exact .str
    · cases h
  | _ =>
    cases h
    exact ok

theorem isJson_of_sanitizeValue {name : String} {raw value : Value} (ok : raw.IsJson whole)
    (h : policy.sanitizeValue name raw = some value) : value.written.IsJson whole := by
  rcases sanitizeValue_cases h with ⟨prim, emitted⟩ | ⟨items, isList, rfl⟩
  · have primitive := isPrimitive_of_sanitizePrimitive prim emitted
    have same : value.written = value := by
      cases value with
      | tuple => cases primitive
      | _ => rfl
    exact same.symm ▸ isJson_of_sanitizePrimitive ok emitted
  · refine .list fun item hi => ?_
    obtain ⟨source, hsource, emitted⟩ := List.mem_filterMap.1 hi
    have inside := Value.hereditary_isJson.item ok isList source (List.mem_of_mem_filter hsource)
    exact isJson_of_sanitizePrimitive inside emitted

theorem writtenJson_cleanEntries (tag : String) {entries : List (Value × Value)}
    (ok : (Value.map entries).IsJson whole) :
    Value.WrittenJson whole (policy.cleanEntries tag entries).1 := by
  cases ok with
  | map named distinct inside =>
    have source : ∀ entry ∈ (policy.cleanEntries tag entries).1, ∃ first ∈ entries,
        entry.1 = first.1 ∧ entry.2.written.IsJson whole := by
      intro entry he
      rw [cleanEntries_eq_filterMap] at he
      obtain ⟨first, hfirst, stays⟩ := List.mem_filterMap.1 he
      obtain ⟨property, key, key', -, emitted⟩ := cleanEntry_eq_some_iff.1 stays
      exact ⟨first, hfirst, key'.trans key.symm,
        isJson_of_sanitizeValue (inside first hfirst) emitted⟩
    refine .map ?_ ?_ ?_
    · intro entry he
      obtain ⟨own, hown, rfl⟩ := List.mem_map.1 he
      obtain ⟨first, hfirst, key, -⟩ := source own hown
      exact key ▸ named first hfirst
    · have same : (Value.writtenEntries (policy.cleanEntries tag entries).1).map Prod.fst =
          (policy.cleanEntries tag entries).1.map Prod.fst := by
        rw [Value.writtenEntries, List.map_map]
        rfl
      exact same ▸ (keys_cleanEntries entries).nodup distinct
    · intro entry he
      obtain ⟨own, hown, rfl⟩ := List.mem_map.1 he
      obtain ⟨-, -, -, written⟩ := source own hown
      exact written

theorem exists_mem_of_cleanItems {around : List Value} {children : List Node} {kept : Node}
    (h : kept ∈ (policy.cleanItems around (children.map .node)).nodes) :
    ∃ child ∈ children, kept ∈ (policy.clean around child).nodes := by
  induction children with
  | nil => exact absurd h List.not_mem_nil
  | cons child rest ih =>
    rw [List.map_cons, cleanItems, Cleaned.nodes_append, List.mem_append] at h
    rcases h with here | there
    · exact ⟨child, .head _, here⟩
    · obtain ⟨other, ho, found⟩ := ih there
      exact ⟨other, .tail _ ho, found⟩

theorem clean_wellFormed {node : Node}
    (h : node.WellFormed (Value.IsJson whole) fun entries => (Value.map entries).IsJson whole) :
    ∀ around, ∀ kept ∈ (policy.clean around node).nodes,
      kept.WellFormed (Value.IsJson whole) (Value.WrittenJson whole) := by
  induction h with
  | @root children _ _ _ attached ih =>
    intro around kept hkept
    rw [nodes_clean_root] at hkept
    obtain rfl := List.mem_singleton.1 hkept
    refine .root (fun child hc => ?_) attached
    obtain ⟨source, hsource, found⟩ := exists_mem_of_cleanItems hc
    exact ih source hsource around child found
  | @element tagName _ children _ _ _ carried _ attached ih =>
    intro around kept hkept
    have inside (around : List Value) :
        ∀ child ∈ (policy.cleanItems around (children.map .node)).nodes,
          child.WellFormed (Value.IsJson whole) (Value.WrittenJson whole) := by
      intro child hc
      obtain ⟨source, hsource, found⟩ := exists_mem_of_cleanItems hc
      exact ih source hsource around child found
    cases verdict : policy.judge around tagName with
    | stripped tag =>
      rw [nodes_clean_stripped verdict] at hkept
      exact absurd hkept List.not_mem_nil
    | kept tag =>
      rw [nodes_clean_kept verdict] at hkept
      obtain rfl := List.mem_singleton.1 hkept
      exact .element .str (writtenJson_cleanEntries tag carried) (inside _) attached
    | _ =>
      rw [nodes_clean_unwrapped (by simp [verdict]) (by simp [verdict])] at hkept
      exact inside around kept hkept
  | text _ attached =>
    intro around kept hkept
    obtain ⟨s, -, rfl⟩ := mem_nodes_cleanText hkept
    exact .text .str attached
  | _ => exact fun _ _ hkept => absurd hkept List.not_mem_nil

/-- The sanitized tree of a value with a JSON form is well-formed and holds what has a JSON form. -/
theorem sanitize_wellFormed (policy : Policy) {value : Value} (ok : value.IsJson whole) :
    (policy.sanitize value).WellFormed (Value.IsJson whole) (Value.WrittenJson whole) := by
  have gathered {nodes : List Node}
      (h : ∀ node ∈ nodes, node.WellFormed (Value.IsJson whole) (Value.WrittenJson whole)) :
      (Node.collapse nodes).WellFormed (Value.IsJson whole) (Value.WrittenJson whole) := by
    match nodes with
    | [] | _ :: _ :: _ => exact .root h ⟨.inl rfl, .inl rfl⟩
    | [sole] => exact h sole (.head _)
  unfold sanitize sanitizeWithRecords
  cases tree : treeIn? value with
  | none => exact gathered fun _ h => absurd h List.not_mem_nil
  | some node =>
    refine gathered (clean_wellFormed ?_ [])
    cases ok with
    | map named distinct inside =>
      exact Node.wellFormed_of_ofValue? Value.hereditary_isJson _ (.map named distinct inside) node
        tree
    | _ => cases tree

end Policy

/-! ## Their dict forms have a JSON form -/

namespace Node

variable {data position : Value}

theorem isJson_withAttached {own : List (Value × Value)} (ok : (Value.map own).IsJson whole)
    (noData : .str "data" ∉ own.map Prod.fst) (noPosition : .str "position" ∉ own.map Prod.fst)
    (h : Attached (Value.IsJson whole) data position) :
    (Value.map (own ++ attachedEntries data position)).IsJson whole := by
  have keys : ∀ entry ∈ attachedEntries data position,
      (entry.1 = .str "data" ∨ entry.1 = .str "position") ∧ entry.2.IsJson whole := by
    obtain ⟨rfl | ⟨entries, rfl, fits⟩, rfl | ⟨p, rfl, fits'⟩⟩ := h
    · exact nofun
    · intro entry he
      rw [List.mem_singleton.1 he]
      exact ⟨.inr rfl, fits'⟩
    · intro entry he
      rw [List.mem_singleton.1 he]
      exact ⟨.inl rfl, fits⟩
    · intro entry he
      rcases List.mem_cons.1 he with rfl | he
      · exact ⟨.inl rfl, fits⟩
      · rw [List.mem_singleton.1 he]
        exact ⟨.inr rfl, fits'⟩
  have once : ((attachedEntries data position).map Prod.fst).Nodup := by
    obtain ⟨rfl | ⟨entries, rfl, -⟩, rfl | ⟨p, rfl, -⟩⟩ := h <;>
      simp [attachedEntries, Value.pair]
  cases ok with
  | map named distinct inside =>
    refine .map ?_ ?_ ?_
    · intro entry he
      rcases List.mem_append.1 he with he | he
      · exact named entry he
      · rcases (keys entry he).1 with key | key <;> exact ⟨_, key⟩
    · rw [List.map_append, List.nodup_append]
      refine ⟨distinct, once, ?_⟩
      rintro key hkey _ hother rfl
      obtain ⟨entry, he, rfl⟩ := List.mem_map.1 hother
      rcases (keys entry he).1 with e | e
      · exact noData (e ▸ hkey)
      · exact noPosition (e ▸ hkey)
    · intro entry he
      rcases List.mem_append.1 he with he | he
      · exact inside entry he
      · exact (keys entry he).2

theorem isJson_leaf {word key : String} {value dict : Value} (notType : "type" ≠ key)
    (notData : key ≠ "data") (notPosition : key ≠ "position") (ok : value.IsJson whole)
    (h : Attached (Value.IsJson whole) data position)
    (written : withAttachments [Value.pair "type" (.str word), Value.pair key value] data
      position = .ok dict) : dict.IsJson whole := by
  obtain ⟨_, attach, rfl⟩ := withAttachments_eq_ok_iff.1 written
  cases (attachments_of_attached h).symm.trans attach
  refine isJson_withAttached (.map ?_ ?_ ?_) ?_ ?_ h
  · simp [Value.pair]
  · simp [Value.pair, notType]
  · intro entry he
    rcases List.mem_cons.1 he with rfl | he
    · exact .str
    · rw [List.mem_singleton.1 he]
      exact ok
  · simp [Value.pair, notData.symm]
  · simp [Value.pair, notPosition.symm]

theorem isJson_of_writtenItems {nodes : List Node} {dicts : List Value}
    (h : ∀ node ∈ nodes, ∀ dict, node.toValue = .ok dict → dict.IsJson whole)
    (written : writtenItems (nodes.map .node) = .ok dicts) : ∀ dict ∈ dicts, dict.IsJson whole := by
  induction nodes generalizing dicts with
  | nil =>
    cases written
    exact fun _ hd => absurd hd List.not_mem_nil
  | cons node rest ih =>
    obtain ⟨n, dict, others, e, first, after, rfl⟩ := exists_of_writtenItems_cons written
    cases e
    intro d hd
    rcases List.mem_cons.1 hd with rfl | hd
    · exact h node (.head _) d first
    · exact ih (fun node hn => h node (.tail _ hn)) after d hd

/-- The dict form of a well-formed tree that holds what has a JSON form has one. -/
theorem isJson_of_toValue {node : Node}
    (h : node.WellFormed (Value.IsJson whole) (Value.WrittenJson whole)) :
    ∀ dict, node.toValue = .ok dict → dict.IsJson whole := by
  induction h with
  | @root children data position _ attached ih =>
    intro dict written
    obtain ⟨dicts, _, inside, attach, rfl⟩ := toValue_root_eq_ok_iff.1 written
    cases (attachments_of_attached attached).symm.trans attach
    have items := isJson_of_writtenItems ih inside
    refine isJson_withAttached (.map ?_ ?_ ?_) ?_ ?_ attached
    · simp [rootEntries, Value.pair]
    · simp [rootEntries, Value.pair]
    · rintro entry (_ | ⟨_, _ | ⟨_, he⟩⟩)
      · exact .str
      · exact .list items
      · cases he
    · simp [rootEntries, Value.pair]
    · simp [rootEntries, Value.pair]
  | @element tagName entries children data position tag carried _ attached ih =>
    intro dict written
    obtain ⟨_, dicts, _, own, inside, attach, rfl⟩ := toValue_element_eq_ok_iff.1 written
    cases own
    cases (attachments_of_attached attached).symm.trans attach
    have items := isJson_of_writtenItems ih inside
    refine isJson_withAttached (.map ?_ ?_ ?_) ?_ ?_ attached
    · simp [elementEntries, Value.pair]
    · simp [elementEntries, Value.pair]
    · rintro entry (_ | ⟨_, _ | ⟨_, _ | ⟨_, _ | ⟨_, he⟩⟩⟩⟩)
      · exact .str
      · exact tag
      · exact carried
      · exact .list items
      · cases he
    · simp [elementEntries, Value.pair]
    · simp [elementEntries, Value.pair]
  | text ok attached | comment ok attached | doctype ok attached | raw ok attached =>
    exact fun dict written =>
      isJson_leaf (by decide) (by decide) (by decide) ok attached written
  | @unknown type value data position _ ok attached =>
    intro dict written
    by_cases absent : value.isNull = true
    · obtain ⟨_, attach, rfl⟩ := withAttachments_eq_ok_iff.1 written
      cases (attachments_of_attached attached).symm.trans attach
      rw [if_pos absent]
      refine isJson_withAttached (.map ?_ ?_ ?_) ?_ ?_ attached <;> simp [Value.pair]
      exact .str
    · rw [toValue, if_neg absent] at written
      exact isJson_leaf (by decide) (by decide) (by decide) ok attached written

/-- The text of a well-formed tree, or the fault if some integer is too long, does not depend on the
order of the entries of its mappings. -/
theorem toJson_rearranged {node other : Node}
    (wellFormed : node.WellFormed (Value.IsJson whole) (Value.WrittenJson whole))
    (related : node.Rearranged other) (layout : Json.Layout) (limit : DigitLimit) :
    other.toJson layout limit = node.toJson layout limit := by
  obtain ⟨dict, written, -⟩ := wellFormed.exists_dict
  obtain ⟨dict', written', related'⟩ := toValue_rearranged wellFormed other dict related written
  have isJson := isJson_of_toValue wellFormed dict written
  simp only [toJson, written, written', bind, Except.bind]
  exact (Json.writeAt_rearranged related' isJson 0).symm

end Node

/-! ## Sanitizing what was read back -/

namespace Policy

variable {policy : Policy}

/-- Cleaning does not see whether the value of a property is a list or a tuple. -/
theorem clean_withLists {fits : Value → Prop} {carries : List (Value × Value) → Prop} {node : Node}
    (h : node.WellFormed fits carries) :
    ∀ around, (policy.clean around node.withLists).nodes = (policy.clean around node).nodes := by
  have items {children : List Node} {around : List Value}
      (ih : ∀ child ∈ children, ∀ around, (policy.clean around child.withLists).nodes =
        (policy.clean around child).nodes) :
      (policy.cleanItems around ((children.map Node.withLists).map .node)).nodes =
        (policy.cleanItems around (children.map .node)).nodes := by
    induction children with
    | nil => rfl
    | cons child rest rec =>
      have first : (policy.cleanItem around (.node child.withLists)).nodes =
          (policy.cleanItem around (.node child)).nodes := ih child (.head _) around
      rw [List.map_cons, List.map_cons, List.map_cons, cleanItems, cleanItems,
        Cleaned.nodes_append, Cleaned.nodes_append, first,
        rec fun other ho => ih other (.tail _ ho)]
  induction h with
  | @root children data position _ _ ih =>
    intro around
    have inside : (policy.cleanChildren around
        (.tuple ((children.map Node.withLists).map .node))).nodes =
        (policy.cleanChildren around (.tuple (children.map .node))).nodes := items ih
    rw [Node.withLists, Node.childrenWithLists_nodes, nodes_clean_root, nodes_clean_root, inside]
  | @element tagName entries children data position _ _ _ _ ih =>
    intro around
    have inside (around : List Value) : (policy.cleanChildren around
        (.tuple ((children.map Node.withLists).map .node))).nodes =
        (policy.cleanChildren around (.tuple (children.map .node))).nodes := items ih
    have same (tag : String) :
        (policy.cleanProperties tag (Value.propertiesWithLists (.map entries))).1 =
          (policy.cleanProperties tag (.map entries)).1 :=
      policy.cleanEntries_writtenEntries tag entries
    rw [Node.withLists, Node.childrenWithLists_nodes]
    cases verdict : policy.judge around tagName with
    | stripped tag => rw [nodes_clean_stripped verdict, nodes_clean_stripped verdict]
    | kept tag => rw [nodes_clean_kept verdict, nodes_clean_kept verdict, inside, same]
    | _ =>
      rw [nodes_clean_unwrapped (by simp [verdict]) (by simp [verdict]),
        nodes_clean_unwrapped (by simp [verdict]) (by simp [verdict]), inside]
  | _ => exact fun _ => rfl

theorem collapse_rearranged {ns ms : List Node} (h : List.Forall₂ Node.Rearranged ns ms) :
    (Node.collapse ns).Rearranged (Node.collapse ms) := by
  have wrapped {ns ms : List Node} (h : List.Forall₂ Node.Rearranged ns ms) :
      (Node.rootOf ns).Rearranged (Node.rootOf ms) :=
    .of_fields rfl (.cons (.of_nodes h) (.cons (.refl _) (.cons (.refl _) .nil)))
  cases h with
  | nil => exact wrapped .nil
  | cons first others =>
    cases others with
    | nil => exact first
    | cons second others => exact wrapped (.cons first (.cons second others))

/-- A sanitized tree has a dict form with a JSON form; and whatever order the entries of its
mappings are brought into, a tree can be read from it strictly, and sanitizing that tree gives the
same text in every layout. -/
theorem sanitize_rearranged (apart : policy.IsSeparate) {value : Value} (ok : value.IsJson whole) :
    ∃ dict, (policy.sanitize value).toValue = .ok dict ∧ dict.IsJson whole ∧
      ∀ back, dict.Rearranged back → ∃ node, Node.ofValue back = .ok node ∧
        ∀ layout limit, (policy.sanitize (.node node)).toJson layout limit =
          (policy.sanitize value).toJson layout limit := by
  have wellFormed := sanitize_wellFormed policy ok
  have fixed : policy.sanitize (.node (policy.sanitize value)) = policy.sanitize value := by
    refine sanitize_of_conforms ((sanitize_conforms_emits policy value).mono ?_)
    rintro name emitted ⟨raw, h⟩
    exact sanitizeValue_emitted apart h
  obtain ⟨dict, written, read⟩ := wellFormed.exists_dict
  have isJson := Node.isJson_of_toValue wellFormed dict written
  refine ⟨dict, written, isJson, fun back related => ?_⟩
  obtain ⟨node, readBack, again⟩ := (Node.readAt_rearranged related isJson).1 [] _ (read [])
  have lists : policy.sanitize (.node (policy.sanitize value).withLists) =
      policy.sanitize value := by
    rw [sanitize_node, clean_withLists wellFormed, ← sanitize_node, fixed]
  have same : (policy.sanitize value).Rearranged (policy.sanitize (.node node)) := by
    have collapsed := collapse_rearranged (clean_rearranged policy again []).1
    rw [← lists]
    exact collapsed
  exact ⟨node, readBack, Node.toJson_rearranged wellFormed same⟩

/-- The text of the sanitized tree of a value with a JSON form whose integers are none of them too
long, in any layout.  A tree can be read from the dict form in whatever order its entries are, and
from the text itself; and sanitizing that tree gives the same text. -/
theorem sanitize_toJson (policy : Policy) (apart : policy.IsSeparate) (limit : DigitLimit)
    {value : Value} (ok : value.IsJson limit.Admits) :
    ∃ dict, (policy.sanitize value).toValue = .ok dict ∧ ∀ layout, ∃ text,
      (policy.sanitize value).toJson layout limit = .ok text ∧
      (∀ back, dict.Rearranged back → ∃ node, Node.ofValue back = .ok node ∧
        (policy.sanitize (.node node)).toJson layout limit = .ok text) ∧
      ∃ node, Node.ofJson text limit = .ok node ∧
        (policy.sanitize (.node node)).toJson layout limit = .ok text := by
  obtain ⟨dict, written, isJson, again⟩ := sanitize_rearranged apart ok
  refine ⟨dict, written, fun layout => ?_⟩
  obtain ⟨text, htext⟩ := Json.exists_text layout isJson 0
  have direct : (policy.sanitize value).toJson layout limit = .ok text := by
    simp only [Node.toJson, written, bind, Except.bind]
    exact htext
  have fromOrder (back : Value) (related : dict.Rearranged back) :
      ∃ node, Node.ofValue back = .ok node ∧
        (policy.sanitize (.node node)).toJson layout limit = .ok text := by
    obtain ⟨node, read, same⟩ := again back related
    exact ⟨node, read, (same layout limit).trans direct⟩
  obtain ⟨back, parsed, related⟩ := Json.read_write isJson htext
  obtain ⟨node, read, same⟩ := fromOrder back related
  refine ⟨text, direct, fromOrder, node, ?_, same⟩
  simp only [Node.ofJson, parsed, bind, Except.bind]
  exact read

/-- The standard policy can be applied again to its own output.  Here a link carries an infinite
number as its title and a list as its `rel`, and it has a node of no kind and a number among its
children. -/
theorem sanitize_toJson_standard :
    let text : Value := .map [(.str "type", .str "text"), (.str "value", .str "\u00e9\"")]
    let link : Value := .map [(.str "type", .str "element"), (.str "tagName", .str "a"),
      (.str "properties", .map [(.str "title", .float (.infinite true)),
        (.str "rel", .list [.str "me", .null, .int (-7)])]),
      (.str "children", .list [.map [(.str "type", .null)], .int 3, text]),
      (.str "data", .map [(.str "z", .bool true), (.str "a", .list [])])]
    standard.IsSeparate ∧ link.IsJson DigitLimit.standard.Admits ∧
      ∃ out node, (standard.sanitize link).toJson .line = .ok out ∧ Node.ofJson out = .ok node ∧
        (standard.sanitize (.node node)).toJson .line = .ok out := by
  intro text link
  have ok : link.IsJson DigitLimit.standard.Admits := by
    refine .map (by simp) (by simp) ?_
    simp only [List.forall_mem_cons]
    refine ⟨.str, .str, ?properties, ?children, ?data, nofun⟩
    case properties =>
      refine .map (by simp) (by simp) ?_
      simp only [List.forall_mem_cons]
      refine ⟨.float, .list ?_, nofun⟩
      simp only [List.forall_mem_cons]
      exact ⟨.str, .null, .int (by decide), nofun⟩
    case children =>
      refine .list ?_
      simp only [List.forall_mem_cons]
      refine ⟨.map (by simp) (by simp) ?_, .int (by decide), .map (by simp) (by simp) ?_, nofun⟩
      · simp only [List.forall_mem_cons]
        exact ⟨.null, nofun⟩
      · simp only [List.forall_mem_cons]
        exact ⟨.str, .str, nofun⟩
    case data =>
      refine .map (by simp) (by simp) ?_
      simp only [List.forall_mem_cons]
      exact ⟨.bool, .list nofun, nofun⟩
  obtain ⟨_, -, texts⟩ := sanitize_toJson standard (by decide) .standard ok
  obtain ⟨out, written, -, node, read, same⟩ := texts .line
  exact ⟨by decide, ok, out, node, written, read, same⟩

end Policy

end SafeMarkup
