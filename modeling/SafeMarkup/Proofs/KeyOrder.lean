/-
# The text does not show the order of keys

Two values with a JSON form that differ only in the order of the entries of their mappings, at
whatever depth, are sanitized to trees with the same text (`sanitize_sameText`).  The order of the
items of a list is not at issue: it is kept all the way.

The order is not seen at four places.  The lenient reader looks the fields of a node up by their
keys, and no key occurs twice (`ofValue?_rearranged`).  The walk goes through the properties of an
element in the order in which they came, but what becomes of one does not depend on the others
(`clean_rearranged`).  What is attached to a node is handed on unseen, its entries in whatever order
they have.  And the writer sorts the keys of every mapping (`writeAt_rearranged`), those of the dict
form and those in `data` alike.

The two values need not be readable as trees for this to be of interest: a value that is none gives
the text of the empty root, and does so in any order.  No condition is put on the policy either.
The statement compares two runs, and nothing is said here about what the text is; for that the
values would have to be compared with the tree they describe, as `Proofs/Pipeline.lean` does.
-/
import SafeMarkup.Proofs.Pipeline

namespace SafeMarkup

variable {whole : Int → Prop}

/-! ## Reading leniently -/

namespace Node

theorem relNode_refl (node : Option Node) : Option.Rel Node.Rearranged node node := by
  cases node with
  | none => exact .none
  | some node => exact .some (.refl _)

theorem coerceItems_rearranged {vs ws : List Value}
    (h : List.Forall₂ (fun v w => Option.Rel Node.Rearranged (ofValue? v) (ofValue? w)) vs ws) :
    List.Forall₂ Node.Rearranged (coerceItems vs) (coerceItems ws) := by
  induction h with
  | nil => exact .nil
  | @cons v w _ _ first _ ih =>
    rw [coerceItems, coerceItems]
    revert first
    generalize ofValue? v = held, ofValue? w = held'
    intro first
    cases first with
    | none => exact ih
    | some related => exact .cons related ih

/-- What can be read of a rearranged mapping is the tree that can be read of the mapping,
rearranged; and so are children in a field, by the same induction. -/
theorem ofValue?_rearranged {v w : Value} (h : v.Rearranged w) (ok : v.IsJson whole) :
    Option.Rel Node.Rearranged (ofValue? v) (ofValue? w) ∧
    List.Forall₂ Node.Rearranged (coerceChildren v) (coerceChildren w) := by
  induction h with
  | refl v => exact ⟨relNode_refl _, Value.Rearranged.nodes_refl _⟩
  | tuple => cases ok
  | node => cases ok
  | list length _ ih =>
    cases ok with
    | list inside =>
      refine ⟨.none, coerceItems_rearranged (forall₂_of_zip length fun pair hp => ?_)⟩
      exact (ih pair hp (inside _ (List.of_mem_zip hp).1)).1
  | @map es us fs perm length keys values ih =>
    have fields : ∀ name, Option.Rel (fun v w => v.IsJson whole ∧ v.Rearranged w)
        (Value.field? name es) (Value.field? name fs) :=
      Value.field?_rel_of_isJson ok perm length keys fun pair hp fits => ⟨fits, values pair hp⟩
    have children : Option.Rel
        (fun v w => List.Forall₂ Node.Rearranged (coerceChildren v) (coerceChildren w))
        (Value.field? "children" es) (Value.field? "children" fs) :=
      Value.field?_rel_of_isJson ok perm length keys (fun pair hp fits => (ih pair hp fits).2) _
    have inField : List.Forall₂ Node.Rearranged (coerceField es) (coerceField fs) := by
      rw [coerceField_eq, coerceField_eq]
      revert children
      generalize Value.field? "children" es = held, Value.field? "children" fs = held'
      intro children
      cases children with
      | none => exact .nil
      | some related => exact related
    have types : typeIn? es = typeIn? fs := (Value.field_rearranged (fields "type")).2.str?_eq
    have nodes (type : String) : List.Forall₂ Node.Rearranged
        (if isParent type then coerceField es else [])
        (if isParent type then coerceField fs else []) := by
      split
      · exact inField
      · exact .nil
    refine ⟨?_, .nil⟩
    rw [ofValue?, ofValue?, ← types]
    cases typeIn? es with
    | none => exact .none
    | some type => exact .some (assemble_rearranged fields (nodes type) type)

end Node

/-! ## Sanitizing -/

namespace Policy

theorem treeIn?_rearranged {v w : Value} (h : v.Rearranged w) (ok : v.IsJson whole) :
    Option.Rel Node.Rearranged (treeIn? v) (treeIn? w) := by
  cases v with
  | map es =>
    obtain ⟨-, fs, rfl, -, -⟩ := h.exists_map
    exact (Node.ofValue?_rearranged h ok).1
  | node => cases ok
  | _ => cases h <;> exact .none

/-- A rearranged value is sanitized to the tree that the value is sanitized to, rearranged. -/
theorem sanitize_of_rearranged (policy : Policy) {v w : Value} (h : v.Rearranged w)
    (ok : v.IsJson whole) : (policy.sanitize v).Rearranged (policy.sanitize w) := by
  have trees := treeIn?_rearranged h ok
  unfold sanitize sanitizeWithRecords
  revert trees
  generalize treeIn? v = tree, treeIn? w = tree'
  intro trees
  cases trees with
  | none => exact .refl _
  | some related => exact collapse_rearranged (clean_rearranged policy related []).1

/-- Values with a JSON form that differ in the order of the entries of mappings alone, at whatever
depth, are sanitized to trees with the same text in every layout; and there is such a text, if none
of their integers is too long. -/
theorem sanitize_sameText (policy : Policy) {v w : Value} (ok : v.IsJson fun _ => True)
    (same : v.Rearranged w) (layout : Json.Layout) (limit : DigitLimit) :
    (policy.sanitize w).toJson layout limit = (policy.sanitize v).toJson layout limit ∧
    (v.IsJson limit.Admits → ∃ text, (policy.sanitize v).toJson layout limit = .ok text ∧
      (policy.sanitize w).toJson layout limit = .ok text) := by
  have equal : (policy.sanitize w).toJson layout limit = (policy.sanitize v).toJson layout limit :=
    Node.toJson_rearranged (sanitize_wellFormed policy ok) (sanitize_of_rearranged policy same ok)
      layout limit
  refine ⟨equal, fun short => ?_⟩
  have wellFormed := sanitize_wellFormed policy short
  obtain ⟨dict, written, -⟩ := wellFormed.exists_dict
  have isJson := Node.isJson_of_toValue wellFormed dict written
  obtain ⟨text, direct⟩ := Json.exists_text layout isJson 0
  have left : (policy.sanitize v).toJson layout limit = .ok text := by
    simp only [Node.toJson, written, bind, Except.bind]
    exact direct
  exact ⟨text, left, equal.trans left⟩

/-- The keys of an element, of its properties and of what is attached to it come in two orders;
the items of its lists have one. -/
theorem sanitize_sameText_image :
    let point : Value := .map [(.str "line", .int 1), (.str "column", .int 1)]
    let image : Value := .map [(.str "type", .str "element"), (.str "tagName", .str "img"),
      (.str "properties", .map [(.str "src", .str "a.png"),
        (.str "alt", .list [.str "a", .int 1])]),
      (.str "data", .map [(.str "z", .bool true), (.str "a", .map [])]),
      (.str "position", .map [(.str "start", point), (.str "end", point)])]
    let turned : Value := .map [
      (.str "position", .map [(.str "end", point), (.str "start", point)]),
      (.str "data", .map [(.str "a", .map []), (.str "z", .bool true)]),
      (.str "properties", .map [(.str "alt", .list [.str "a", .int 1]),
        (.str "src", .str "a.png")]),
      (.str "tagName", .str "img"), (.str "type", .str "element")]
    image.IsJson (fun _ => True) ∧ image.Rearranged turned ∧
      ∃ text, (standard.sanitize image).toJson (.block 2) = .ok text ∧
        (standard.sanitize turned).toJson (.block 2) = .ok text := by
  intro point image turned
  have pointOk : point.IsJson DigitLimit.standard.Admits := by
    refine .map (by simp) (by simp) ?_
    simp only [List.forall_mem_cons]
    exact ⟨.int (by decide), .int (by decide), nofun⟩
  have short : image.IsJson DigitLimit.standard.Admits := by
    refine .map (by simp) (by simp) ?_
    simp only [List.forall_mem_cons]
    refine ⟨.str, .str, .map (by simp) (by simp) ?properties, .map (by simp) (by simp) ?data,
      .map (by simp) (by simp) ?position, nofun⟩
    case properties =>
      simp only [List.forall_mem_cons]
      refine ⟨.str, .list ?_, nofun⟩
      simp only [List.forall_mem_cons]
      exact ⟨.str, .int (by decide), nofun⟩
    case data =>
      simp only [List.forall_mem_cons]
      exact ⟨.bool, .map nofun List.nodup_nil nofun, nofun⟩
    case position =>
      simp only [List.forall_mem_cons]
      exact ⟨pointOk, pointOk, nofun⟩
  have two (e f : Value × Value) : (Value.map [e, f]).Rearranged (.map [f, e]) :=
    .of_entries (.swap ..) (Value.Rearranged.entries_refl _)
  have same : image.Rearranged turned :=
    .of_entries (List.reverse_perm _).symm (.cons ⟨rfl, two _ _⟩ (.cons ⟨rfl, two _ _⟩
      (.cons ⟨rfl, two _ _⟩ (.cons ⟨rfl, .refl _⟩ (.cons ⟨rfl, .refl _⟩ .nil)))))
  have ok : image.IsJson fun _ => True := short.mono fun _ _ => trivial
  exact ⟨ok, same, (sanitize_sameText standard ok same (.block 2) .standard).2 short⟩

end Policy

end SafeMarkup
