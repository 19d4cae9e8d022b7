/-
# The order of entries

A JSON text has the keys of an object in their sorted order, so what is read back from it has the
entries of a mapping in another order than what was written.  `Value.Rearranged` relates two values
that differ in nothing else, at any depth.

Nothing that a tree goes through depends on that order.  The strict reader reads a rearranged
mapping as a rearranged tree (`readAt_rearranged`), what cleaning leaves of a rearranged tree is
rearranged (`clean_rearranged`), and so is the dict form of a rearranged tree
(`toValue_rearranged`).  Reading looks entries up by their keys, so it has to be known there that no
key occurs twice; values with a JSON form are such.

The condition on the keys is there for one reason: in entries with a repeated key, which one a
look-up finds first depends on the order.  Values with a JSON form cannot repeat a key, and a tree
that was cleaned holds only what was in such a value, so the condition is met where it is needed.

The lists in a value are not rearranged, at any depth: the order of children, and of the items of a
property, is part of what a tree says.
-/
import Mathlib.Data.List.Forall2
import Mathlib.Data.List.Perm.Basic
import SafeMarkup.Proofs.Cleaning
import SafeMarkup.Proofs.PropertyValue
import SafeMarkup.Proofs.RoundTrip
import SafeMarkup.Proofs.Sameness

namespace SafeMarkup

namespace Value

/-- The second value is the first with the entries of mappings in some other order. -/
inductive Rearranged : Value → Value → Prop
  | refl (v : Value) : Rearranged v v
  | list {vs ws : List Value} : vs.length = ws.length →
      (∀ pair ∈ vs.zip ws, Rearranged pair.1 pair.2) → Rearranged (list vs) (list ws)
  | tuple {vs ws : List Value} : vs.length = ws.length →
      (∀ pair ∈ vs.zip ws, Rearranged pair.1 pair.2) → Rearranged (tuple vs) (tuple ws)
  | map {es us fs : List (Value × Value)} : es.Perm us → us.length = fs.length →
      (∀ pair ∈ us.zip fs, pair.1.1 = pair.2.1) →
      (∀ pair ∈ us.zip fs, Rearranged pair.1.2 pair.2.2) → Rearranged (map es) (map fs)
  | node {n m : Node} : n.kind = m.kind →
      (∀ pair ∈ n.fields.zip m.fields, Rearranged pair.1 pair.2) → Rearranged (node n) (node m)

end Value

/-- The second node is the first with the entries of mappings in some other order. -/
def Node.Rearranged (n m : Node) : Prop :=
  Value.Rearranged (.node n) (.node m)

namespace Value.Rearranged

/-- The two entries have the same key, and rearranged values. -/
def Entry (e f : Value × Value) : Prop :=
  e.1 = f.1 ∧ Rearranged e.2 f.2

/-! ## Building -/

variable {v w : Value}

theorem forall₂_refl (vs : List Value) : List.Forall₂ Rearranged vs vs :=
  List.forall₂_same.2 fun v _ => refl v

theorem entries_refl (es : List (Value × Value)) : List.Forall₂ Entry es es :=
  List.forall₂_same.2 fun e _ => ⟨rfl, refl e.2⟩

theorem nodes_refl (nodes : List Node) : List.Forall₂ Node.Rearranged nodes nodes :=
  List.forall₂_same.2 fun n _ => refl (.node n)

theorem of_listItems {vs ws : List Value} (h : List.Forall₂ Rearranged vs ws) :
    Rearranged (.list vs) (.list ws) :=
  list h.length_eq fun _ hp => List.forall₂_zip h hp

theorem of_nodes {ns ms : List Node} (h : List.Forall₂ Node.Rearranged ns ms) :
    Rearranged (.tuple (ns.map .node)) (.tuple (ms.map .node)) := by
  have items : List.Forall₂ Rearranged (ns.map .node) (ms.map .node) :=
    List.forall₂_map_left_iff.2 (List.forall₂_map_right_iff.2 h)
  exact tuple items.length_eq fun _ hp => List.forall₂_zip items hp

theorem of_entries {es us fs : List (Value × Value)} (perm : es.Perm us)
    (h : List.Forall₂ Entry us fs) : Rearranged (.map es) (.map fs) :=
  map perm h.length_eq (fun _ hp => (List.forall₂_zip h hp).1)
    fun _ hp => (List.forall₂_zip h hp).2

theorem of_fields {n m : Node} (kind : n.kind = m.kind)
    (h : List.Forall₂ Rearranged n.fields m.fields) : n.Rearranged m :=
  node kind fun _ hp => List.forall₂_zip h hp

/-! ## Taking apart -/

theorem exists_tuple {vs : List Value} (h : Rearranged (.tuple vs) w) :
    ∃ ws, w = .tuple ws ∧ List.Forall₂ Rearranged vs ws := by
  cases h with
  | refl => exact ⟨vs, rfl, forall₂_refl vs⟩
  | tuple length items => exact ⟨_, rfl, forall₂_of_zip length items⟩

theorem exists_map {es : List (Value × Value)} (h : Rearranged (.map es) w) :
    ∃ us fs, w = .map fs ∧ es.Perm us ∧ List.Forall₂ Entry us fs := by
  cases h with
  | refl => exact ⟨es, es, rfl, .refl es, entries_refl es⟩
  | map perm length keys values =>
    exact ⟨_, _, rfl, perm, forall₂_of_zip length fun pair hp => ⟨keys pair hp, values pair hp⟩⟩

theorem exists_node {n : Node} (h : Rearranged (.node n) w) : ∃ m, w = .node m := by
  cases h with
  | refl => exact ⟨n, rfl⟩
  | node _ _ => exact ⟨_, rfl⟩

theorem exists_nodes {nodes : List Node} (h : Rearranged (.tuple (nodes.map .node)) w) :
    ∃ others : List Node, w = .tuple (others.map .node) ∧
      List.Forall₂ Node.Rearranged nodes others := by
  obtain ⟨ws, rfl, items⟩ := h.exists_tuple
  obtain ⟨others, rfl, pairs⟩ := exists_nodes_of_forall₂ (fun _ _ => exists_node) items
  exact ⟨others, rfl, pairs⟩

theorem kind_and_fields {n m : Node} (h : n.Rearranged m) :
    n.kind = m.kind ∧ List.Forall₂ Rearranged n.fields m.fields := by
  cases h with
  | refl => exact ⟨rfl, forall₂_refl _⟩
  | node kind fields =>
    refine ⟨kind, forall₂_of_zip ?_ fields⟩
    cases n <;> cases m <;> first | rfl | cases kind

theorem str?_eq (h : Rearranged v w) : v.str? = w.str? := by
  cases h <;> rfl

theorem int?_eq (h : Rearranged v w) : v.int? = w.int? := by
  cases h <;> rfl

theorem isNull_eq (h : Rearranged v w) : v.isNull = w.isNull := by
  cases h <;> rfl

theorem isPrimitive_eq (h : Rearranged v w) : v.isPrimitive = w.isPrimitive := by
  cases h <;> rfl

theorem eq_of_isPrimitive (h : Rearranged v w) (prim : v.isPrimitive = true) : v = w := by
  cases h with
  | refl => rfl
  | _ => cases prim

end Value.Rearranged

/-! ## Looking up -/

namespace Value

variable {es us fs : List (Value × Value)} {name : String}

theorem field?_eq_some_iff (distinct : (es.map Prod.fst).Nodup) {value : Value} :
    field? name es = some value ↔ (.str name, value) ∈ es := by
  constructor
  · intro held
    obtain ⟨⟨_, _⟩, he, rfl, rfl⟩ := exists_of_field? held
    exact he
  · intro he
    induction es with
    | nil => cases he
    | cons entry rest ih =>
      rw [List.map_cons, List.nodup_cons] at distinct
      unfold field?
      rcases List.mem_cons.1 he with rfl | he
      · exact if_pos (beq_iff_eq.2 rfl)
      · rw [if_neg, ih distinct.2 he]
        intro here
        refine distinct.1 (List.mem_map.2 ⟨_, he, ?_⟩)
        obtain ⟨key, _⟩ := entry
        cases key with
        | str text => exact (congrArg Value.str (beq_iff_eq.1 here)).symm
        | _ => cases here

theorem field?_perm (distinct : (es.map Prod.fst).Nodup) (perm : es.Perm us) :
    field? name es = field? name us := by
  have distinct' : (us.map Prod.fst).Nodup := (perm.map Prod.fst).nodup_iff.1 distinct
  refine Option.ext fun value => ?_
  rw [field?_eq_some_iff distinct, field?_eq_some_iff distinct', perm.mem_iff]

theorem rel_getD {P : Value → Value → Prop} {held held' : Option Value} {absent : Value}
    (h : Option.Rel P held held') (related : P absent absent) :
    P (held.getD absent) (held'.getD absent) := by
  cases h with
  | none => exact related
  | some related => exact related

theorem field?_rel {P : Value → Value → Prop} (distinct : (es.map Prod.fst).Nodup)
    (perm : es.Perm us) (pairs : List.Forall₂ (fun e f => e.1 = f.1 ∧ P e.2 f.2) us fs) :
    Option.Rel P (field? name es) (field? name fs) := by
  rw [field?_perm distinct perm]
  clear perm
  induction pairs with
  | nil => exact .none
  | cons first _ ih =>
    obtain ⟨key, value⟩ := first
    unfold field?
    rw [key]
    split
    · exact .some value
    · exact ih

/-- What stands under the same key of two mappings that are rearranged is related, if all values
are that an entry of the one has in the other. -/
theorem field?_rel_of_isJson {P : Value → Value → Prop} {whole : Int → Prop}
    (ok : (Value.map es).IsJson whole) (perm : es.Perm us) (length : us.length = fs.length)
    (keys : ∀ pair ∈ us.zip fs, pair.1.1 = pair.2.1)
    (values : ∀ pair ∈ us.zip fs, pair.1.2.IsJson whole → P pair.1.2 pair.2.2) (name : String) :
    Option.Rel P (field? name es) (field? name fs) := by
  cases ok with
  | map _ distinct inside =>
    refine field?_rel distinct perm (forall₂_of_zip length fun pair hp => ⟨keys pair hp, ?_⟩)
    exact values pair hp (inside _ (perm.mem_iff.2 (List.of_mem_zip hp).1))

end Value

/-! ## Reading strictly -/

variable {whole : Int → Prop}

section Fields

variable {es fs : List (Value × Value)}

theorem Value.field_rearranged {name : String}
    (h : Option.Rel (fun v w => v.IsJson whole ∧ v.Rearranged w) (field? name es)
      (field? name fs)) :
    (field name es).IsJson whole ∧ (field name es).Rearranged (field name fs) :=
  rel_getD h ⟨.null, .refl .null⟩

theorem Value.Rearranged.fields (h : Rearranged (.map es) (.map fs))
    (ok : (Value.map es).IsJson whole) (name : String) :
    (field name es).IsJson whole ∧ (field name es).Rearranged (field name fs) := by
  obtain ⟨us, _, e, perm, pairs⟩ := h.exists_map
  cases e
  refine field_rearranged (field?_rel_of_isJson ok perm pairs.length_eq ?_ ?_ name)
  · intro pair hp
    exact (List.forall₂_zip pairs hp).1
  · intro pair hp fits
    exact ⟨fits, (List.forall₂_zip pairs hp).2⟩

end Fields

theorem Point.ofValue?_rearranged {v w : Value} (h : v.Rearranged w) (ok : v.IsJson whole) :
    Point.ofValue? v = Point.ofValue? w := by
  cases v with
  | map es =>
    obtain ⟨-, fs, rfl, -, -⟩ := h.exists_map
    have same (name : String) : (Value.field name es).int? = (Value.field name fs).int? :=
      (h.fields ok name).2.int?_eq
    simp only [Point.ofValue?, same]
  | _ => cases h <;> rfl

theorem Position.ofValue?_rearranged {v w : Value} (h : v.Rearranged w) (ok : v.IsJson whole) :
    Position.ofValue? v = Position.ofValue? w := by
  cases v with
  | map es =>
    obtain ⟨-, fs, rfl, -, -⟩ := h.exists_map
    have same (name : String) :
        Point.ofValue? (Value.field name es) = Point.ofValue? (Value.field name fs) :=
      Point.ofValue?_rearranged (h.fields ok name).2 (h.fields ok name).1
    simp only [Position.ofValue?, same]
  | _ => cases h <;> rfl

namespace Node

theorem mappingOrNull_rearranged {v w : Value} (h : v.Rearranged w) :
    (mappingOrNull v).Rearranged (mappingOrNull w) := by
  cases v with
  | map es =>
    obtain ⟨-, fs, rfl, -, -⟩ := h.exists_map
    exact h
  | _ => cases h <;> exact .refl _

theorem mappingOrEmpty_rearranged {v w : Value} (h : v.Rearranged w) :
    (mappingOrEmpty v).Rearranged (mappingOrEmpty w) := by
  cases v with
  | map es =>
    obtain ⟨-, fs, rfl, -, -⟩ := h.exists_map
    exact h
  | _ => cases h <;> exact .refl _

theorem assemble_rearranged {es fs : List (Value × Value)} {ns ms : List Node}
    (fields : ∀ name, Option.Rel (fun v w => v.IsJson whole ∧ v.Rearranged w)
      (Value.field? name es) (Value.field? name fs))
    (nodes : List.Forall₂ Node.Rearranged ns ms) (type : String) :
    (assemble type es ns).Rearranged (assemble type fs ms) := by
  have field (name : String) : (Value.field name es).Rearranged (Value.field name fs) :=
    (Value.field_rearranged (fields name)).2
  have data := mappingOrNull_rearranged (field "data")
  have properties := mappingOrEmpty_rearranged (field "properties")
  have children := Value.Rearranged.of_nodes nodes
  have orEmpty : ((Value.field? "value" es).getD (.str "")).Rearranged
      ((Value.field? "value" fs).getD (.str "")) :=
    (Value.rel_getD (fields "value") ⟨.str, .refl _⟩).2
  have position : Position.ofValue? (Value.field "position" es) =
      Position.ofValue? (Value.field "position" fs) :=
    Position.ofValue?_rearranged (field "position") (Value.field_rearranged (fields "position")).1
  unfold assemble
  rw [position]
  dsimp only
  split
  · exact .of_fields rfl (.cons children (.cons data (.cons (.refl _) .nil)))
  · exact .of_fields rfl (.cons (field "tagName") (.cons properties
      (.cons children (.cons data (.cons (.refl _) .nil)))))
  · exact .of_fields rfl (.cons (field "value") (.cons data (.cons (.refl _) .nil)))
  · exact .of_fields rfl (.cons orEmpty (.cons data (.cons (.refl _) .nil)))
  · exact .of_fields rfl (.cons (field "name") (.cons data (.cons (.refl _) .nil)))
  · exact .of_fields rfl (.cons orEmpty (.cons data (.cons (.refl _) .nil)))
  · exact .of_fields rfl (.cons (.refl _) (.cons (field "value")
      (.cons data (.cons (.refl _) .nil))))

theorem readItems_rearranged {vs ws : List Value}
    (h : List.Forall₂ (fun v w => ∀ path n, readAt path v = .ok n →
      ∃ m, readAt path w = .ok m ∧ n.Rearranged m) vs ws) :
    ∀ path index ns, readItems path index vs = .ok ns →
      ∃ ms, readItems path index ws = .ok ms ∧ List.Forall₂ Node.Rearranged ns ms := by
  induction h with
  | nil =>
    intro path index ns read
    exact ⟨ns, read, Value.Rearranged.nodes_refl ns⟩
  | cons first _ ih =>
    intro path index ns read
    obtain ⟨n, others, here, after, rfl⟩ := readItems_cons_eq_ok_iff.1 read
    obtain ⟨m, here', related⟩ := first _ n here
    obtain ⟨ms, after', pairs⟩ := ih path (index + 1) others after
    exact ⟨m :: ms, readItems_cons_eq_ok_iff.2 ⟨m, ms, here', after', rfl⟩, .cons related pairs⟩

/-- A rearranged mapping is read strictly as a rearranged tree; and so are children in a field, by
the same induction. -/
theorem readAt_rearranged {v w : Value} (h : v.Rearranged w) (ok : v.IsJson whole) :
    (∀ path n, readAt path v = .ok n → ∃ m, readAt path w = .ok m ∧ n.Rearranged m) ∧
    (∀ path ns, readChildren path v = .ok ns →
      ∃ ms, readChildren path w = .ok ms ∧ List.Forall₂ Node.Rearranged ns ms) := by
  induction h with
  | refl v =>
    exact ⟨fun path n read => ⟨n, read, .refl _⟩,
      fun path ns read => ⟨ns, read, Value.Rearranged.nodes_refl ns⟩⟩
  | list length _ ih =>
    refine ⟨fun _ _ read => ?_, fun path ns read => ?_⟩
    · cases read
    cases ok with
    | list inside =>
      refine readItems_rearranged (forall₂_of_zip length fun pair hp => ?_) path 0 ns read
      exact (ih pair hp (inside _ (List.of_mem_zip hp).1)).1
  | tuple => cases ok
  | node => cases ok
  | @map es us fs perm length keys values ih =>
    refine ⟨fun path n read => ?_, fun _ _ read => ?_⟩
    case refine_2 => cases read
    have fields : ∀ name, Option.Rel (fun v w => v.IsJson whole ∧ v.Rearranged w)
        (Value.field? name es) (Value.field? name fs) :=
      Value.field?_rel_of_isJson ok perm length keys fun pair hp fits => ⟨fits, values pair hp⟩
    have children : Option.Rel (fun v w => ∀ path ns, readChildren path v = .ok ns →
        ∃ ms, readChildren path w = .ok ms ∧ List.Forall₂ Node.Rearranged ns ms)
        (Value.field? "children" es) (Value.field? "children" fs) :=
      Value.field?_rel_of_isJson ok perm length keys (fun pair hp fits => (ih pair hp fits).2) _
    have inField (ns : List Node) (read : readField path es = .ok ns) :
        ∃ ms, readField path fs = .ok ms ∧ List.Forall₂ Node.Rearranged ns ms := by
      rw [readField_eq] at read ⊢
      revert read children
      generalize Value.field? "children" es = held, Value.field? "children" fs = held'
      intro children read
      cases children with
      | none => exact ⟨ns, read, Value.Rearranged.nodes_refl ns⟩
      | some related => exact related path ns read
    have types : typeIn? es = typeIn? fs := (Value.field_rearranged (fields "type")).2.str?_eq
    obtain ⟨type, ns, typed, rfl, ⟨parent, inside⟩ | ⟨leaf, rfl⟩⟩ := readAt_map_eq_ok_iff.1 read
    · obtain ⟨ms, again, nodes⟩ := inField ns inside
      refine ⟨assemble type fs ms, readAt_map_eq_ok_iff.2 ?_, assemble_rearranged fields nodes type⟩
      exact ⟨type, ms, types ▸ typed, rfl, .inl ⟨parent, again⟩⟩
    · refine ⟨assemble type fs [], readAt_map_eq_ok_iff.2 ?_, assemble_rearranged fields .nil type⟩
      exact ⟨type, [], types ▸ typed, rfl, .inr ⟨leaf, rfl⟩⟩

end Node

/-! ## Cleaning -/

namespace Policy

variable {policy : Policy}

theorem sanitizeValue_rearranged (name : String) {v w : Value} (h : v.Rearranged w) :
    policy.sanitizeValue name v = policy.sanitizeValue name w := by
  have items {vs ws : List Value} (pairs : List.Forall₂ Value.Rearranged vs ws) :
      vs.filter Value.isPrimitive = ws.filter Value.isPrimitive := by
    induction pairs with
    | nil => rfl
    | cons first _ ih =>
      rw [List.filter_cons, List.filter_cons, ← first.isPrimitive_eq, ih]
      split
      · next prim => rw [first.eq_of_isPrimitive prim]
      · rfl
  cases h with
  | refl => rfl
  | list length inside | tuple length inside =>
    have pairs := forall₂_of_zip length inside
    rw [sanitizeValue_of_items rfl, sanitizeValue_of_items rfl, items pairs]
  | map => rfl
  | node => rfl

theorem cleanProperties_rearranged (policy : Policy) (tag : String) {v w : Value}
    (h : v.Rearranged w) :
    (Value.map (policy.cleanProperties tag v).1).Rearranged
      (.map (policy.cleanProperties tag w).1) := by
  cases v with
  | map es =>
    obtain ⟨us, fs, rfl, perm, pairs⟩ := h.exists_map
    have same : us.filterMap (policy.cleanEntry tag) = fs.filterMap (policy.cleanEntry tag) := by
      clear perm h
      induction pairs with
      | nil => rfl
      | @cons e f _ _ first _ ih =>
        have entry : policy.cleanEntry tag e = policy.cleanEntry tag f := by
          unfold cleanEntry
          simp only [first.1, sanitizeValue_rearranged _ first.2]
        rw [List.filterMap_cons, List.filterMap_cons, entry, ih]
    show (Value.map (policy.cleanEntries tag es).1).Rearranged
      (.map (policy.cleanEntries tag fs).1)
    rw [cleanEntries_eq_filterMap, cleanEntries_eq_filterMap]
    exact .of_entries (perm.filterMap _) (same ▸ Value.Rearranged.entries_refl _)
  | _ => cases h <;> exact .refl _

theorem judge_rearranged (around : List Value) {v w : Value} (h : v.Rearranged w) :
    policy.judge around v = policy.judge around w := by
  cases h <;> rfl

section Kinds

variable (around : List Value) {data data' position position' : Value}

theorem cleanElement_rearranged {tag tag' properties properties' children children' : Value}
    (tags : tag.Rearranged tag') (carried : properties.Rearranged properties')
    (inside : ∀ around, List.Forall₂ Node.Rearranged (policy.cleanChildren around children).nodes
      (policy.cleanChildren around children').nodes)
    (attached : data.Rearranged data') (place : position.Rearranged position') :
    List.Forall₂ Node.Rearranged
      (policy.clean around (.element tag properties children data position)).nodes
      (policy.clean around (.element tag' properties' children' data' position')).nodes := by
  have verdicts : policy.judge around tag = policy.judge around tag' := judge_rearranged around tags
  cases verdict : policy.judge around tag with
  | stripped name =>
    rw [nodes_clean_stripped verdict, nodes_clean_stripped (verdicts ▸ verdict)]
    exact .nil
  | kept name =>
    have properties := cleanProperties_rearranged policy name carried
    rw [nodes_clean_kept verdict, nodes_clean_kept (verdicts ▸ verdict)]
    exact .cons (.of_fields rfl (.cons (.refl _) (.cons properties
      (.cons (.of_nodes (inside _)) (.cons attached (.cons place .nil)))))) .nil
  | _ =>
    rw [nodes_clean_unwrapped (by simp [verdict]) (by simp [verdict]),
      nodes_clean_unwrapped (by simp [← verdicts, verdict]) (by simp [← verdicts, verdict])]
    exact inside around

theorem cleanText_rearranged {v w : Value} (value : v.Rearranged w)
    (attached : data.Rearranged data') (place : position.Rearranged position') :
    List.Forall₂ Node.Rearranged (policy.cleanText around v data position).nodes
      (policy.cleanText around w data' position').nodes := by
  cases value with
  | refl =>
    unfold cleanText
    split
    · split
      · exact .nil
      · exact .cons (.of_fields rfl (.cons (.refl _) (.cons attached (.cons place .nil)))) .nil
    · exact .nil
  | _ => exact .nil

end Kinds

theorem cleanItems_rearranged (around : List Value) {vs ws : List Value}
    (h : List.Forall₂ (fun v w => List.Forall₂ Node.Rearranged (policy.cleanItem around v).nodes
      (policy.cleanItem around w).nodes) vs ws) :
    List.Forall₂ Node.Rearranged (policy.cleanItems around vs).nodes
      (policy.cleanItems around ws).nodes := by
  induction h with
  | nil => exact .nil
  | cons first _ ih =>
    rw [cleanItems, cleanItems, Cleaned.nodes_append, Cleaned.nodes_append]
    exact List.rel_append first ih

/-- What cleaning leaves of a rearranged tree is rearranged; and so is what it leaves of children in
a field, by the same induction. -/
theorem clean_rearranged (policy : Policy) {v w : Value} (h : v.Rearranged w) : ∀ around,
    List.Forall₂ Node.Rearranged (policy.cleanItem around v).nodes
      (policy.cleanItem around w).nodes ∧
    List.Forall₂ Node.Rearranged (policy.cleanChildren around v).nodes
      (policy.cleanChildren around w).nodes := by
  induction h with
  | refl v =>
    intro around
    exact ⟨Value.Rearranged.nodes_refl _, Value.Rearranged.nodes_refl _⟩
  | list length _ ih | tuple length _ ih =>
    intro around
    refine ⟨.nil, cleanItems_rearranged around (forall₂_of_zip length fun pair hp => ?_)⟩
    exact (ih pair hp around).1
  | map =>
    intro around
    exact ⟨.nil, .nil⟩
  | @node n m kind fields ih =>
    intro around
    refine ⟨?_, .nil⟩
    show List.Forall₂ Node.Rearranged (policy.clean around n).nodes (policy.clean around m).nodes
    cases n with
    | root children data position =>
      cases m with
      | root children' data' position' =>
        have inside := (ih (children, children') (.head _) around).2
        have attached := fields (data, data') (.tail _ (.head _))
        have place := fields (position, position') (.tail _ (.tail _ (.head _)))
        rw [nodes_clean_root, nodes_clean_root]
        exact .cons (.of_fields rfl
          (.cons (.of_nodes inside) (.cons attached (.cons place .nil)))) .nil
      | _ => cases kind
    | element tag properties children data position =>
      cases m with
      | element tag' properties' children' data' position' =>
        exact cleanElement_rearranged around (fields (tag, tag') (.head _))
          (fields (properties, properties') (.tail _ (.head _)))
          (fun around => (ih (children, children') (.tail _ (.tail _ (.head _))) around).2)
          (fields (data, data') (.tail _ (.tail _ (.tail _ (.head _)))))
          (fields (position, position') (.tail _ (.tail _ (.tail _ (.tail _ (.head _))))))
      | _ => cases kind
    | text value data position =>
      cases m with
      | text value' data' position' =>
        exact cleanText_rearranged around (fields (value, value') (.head _))
          (fields (data, data') (.tail _ (.head _)))
          (fields (position, position') (.tail _ (.tail _ (.head _))))
      | _ => cases kind
    | _ => cases m <;> first | exact .nil | cases kind

end Policy

/-! ## Writing the dict form -/

theorem Value.written_rearranged {v w : Value} (h : v.Rearranged w) :
    v.written.Rearranged w.written := by
  cases h with
  | refl => exact .refl _
  | list length inside | tuple length inside => exact .list length inside
  | map perm length keys values => exact .map perm length keys values
  | node kind fields => exact .node kind fields

theorem Value.writtenEntries_rearranged {es fs : List (Value × Value)}
    (h : (Value.map es).Rearranged (.map fs)) :
    (Value.map (writtenEntries es)).Rearranged (.map (writtenEntries fs)) := by
  obtain ⟨us, _, e, perm, pairs⟩ := h.exists_map
  cases e
  refine .of_entries (perm.map _) ?_
  refine List.forall₂_map_left_iff.2 (List.forall₂_map_right_iff.2 ?_)
  exact pairs.imp fun _ _ pair => ⟨pair.1, written_rearranged pair.2⟩

namespace Node

open Value.Rearranged (Entry)

variable {fits : Value → Prop} {carries : List (Value × Value) → Prop}
  {data data' position position' : Value}

theorem attached_rearranged (h : Attached fits data position) (attached : data.Rearranged data')
    (place : position.Rearranged position') : Attached (fun _ => True) data' position' := by
  constructor
  · rcases h.data with rfl | ⟨entries, rfl, -⟩
    · cases attached
      exact .inl rfl
    · obtain ⟨-, fs, rfl, -, -⟩ := attached.exists_map
      exact .inr ⟨fs, rfl, trivial⟩
  · rcases h.position with rfl | ⟨p, rfl, -⟩ <;> cases place
    · exact .inl rfl
    · exact .inr ⟨p, rfl, trivial⟩

theorem attachedEntries_rearranged (h : Attached fits data position)
    (attached : data.Rearranged data') (place : position.Rearranged position') :
    List.Forall₂ Entry (attachedEntries data position) (attachedEntries data' position') := by
  have same : position' = position := by
    rcases h.position with rfl | ⟨p, rfl, -⟩ <;> cases place <;> rfl
  rw [same]
  unfold attachedEntries
  refine List.rel_append ?_ (Value.Rearranged.entries_refl _)
  rcases h.data with rfl | ⟨entries, rfl, -⟩
  · cases attached
    exact .nil
  · obtain ⟨-, fs, rfl, -, -⟩ := attached.exists_map
    exact .cons ⟨rfl, attached⟩ .nil

theorem withAttachments_rearranged (h : Attached fits data position)
    (attached : data.Rearranged data') (place : position.Rearranged position')
    {es fs : List (Value × Value)} (own : List.Forall₂ Entry es fs) {dict : Value}
    (written : withAttachments es data position = .ok dict) :
    ∃ dict', withAttachments fs data' position' = .ok dict' ∧ dict.Rearranged dict' := by
  have first : withAttachments es data position =
      .ok (.map (es ++ attachedEntries data position)) :=
    withAttachments_eq_ok_iff.2 ⟨_, attachments_of_attached h, rfl⟩
  cases first.symm.trans written
  refine ⟨.map (fs ++ attachedEntries data' position'), ?_, ?_⟩
  · exact withAttachments_eq_ok_iff.2
      ⟨_, attachments_of_attached (attached_rearranged h attached place), rfl⟩
  · exact .of_entries (.refl _) (List.rel_append own (attachedEntries_rearranged h attached place))

theorem leaf_rearranged (h : Attached fits data position) (attached : data.Rearranged data')
    (place : position.Rearranged position') {word key : String} {value value' : Value}
    (held : value.Rearranged value') {dict : Value}
    (written : withAttachments [Value.pair "type" (.str word), Value.pair key value] data
      position = .ok dict) :
    ∃ dict', withAttachments [Value.pair "type" (.str word), Value.pair key value'] data'
      position' = .ok dict' ∧ dict.Rearranged dict' := by
  have own : List.Forall₂ Entry [Value.pair "type" (.str word), Value.pair key value]
      [Value.pair "type" (.str word), Value.pair key value'] :=
    .cons ⟨rfl, .refl _⟩ (.cons ⟨rfl, held⟩ .nil)
  exact withAttachments_rearranged h attached place own written

theorem writtenItems_rearranged {ns ms : List Node} {dicts : List Value}
    (pairs : List.Forall₂ Node.Rearranged ns ms)
    (h : ∀ n ∈ ns, ∀ m dict, n.Rearranged m → n.toValue = .ok dict →
      ∃ dict', m.toValue = .ok dict' ∧ dict.Rearranged dict')
    (written : writtenItems (ns.map .node) = .ok dicts) :
    ∃ dicts', writtenItems (ms.map .node) = .ok dicts' ∧
      List.Forall₂ Value.Rearranged dicts dicts' := by
  induction pairs generalizing dicts with
  | nil =>
    cases written
    exact ⟨[], rfl, .nil⟩
  | cons related _ ih =>
    obtain ⟨n, dict, others, e, first, after, rfl⟩ := exists_of_writtenItems_cons written
    cases e
    obtain ⟨dict', first', here⟩ := h _ (.head _) _ dict related first
    obtain ⟨dicts', after', there⟩ := ih (fun n hn => h n (.tail _ hn)) after
    exact ⟨dict' :: dicts', writtenItems_cons first' after', .cons here there⟩

/-- The dict form of a rearranged tree is the dict form of the tree, rearranged. -/
theorem toValue_rearranged {n : Node} (wellFormed : n.WellFormed fits carries) :
    ∀ m dict, n.Rearranged m → n.toValue = .ok dict →
      ∃ dict', m.toValue = .ok dict' ∧ dict.Rearranged dict' := by
  induction wellFormed with
  | @root children data position _ ok ih =>
    intro m dict related written
    obtain ⟨kind, fields⟩ := Value.Rearranged.kind_and_fields related
    cases m with
    | root children' data' position' =>
      obtain _ | ⟨nodes, _ | ⟨attached, _ | ⟨place, _⟩⟩⟩ := fields
      obtain ⟨others, rfl, pairs⟩ := nodes.exists_nodes
      obtain ⟨dicts, _, inside, attach, rfl⟩ := toValue_root_eq_ok_iff.1 written
      obtain ⟨dicts', inside', items⟩ := writtenItems_rearranged pairs ih inside
      have own : List.Forall₂ Entry (rootEntries dicts) (rootEntries dicts') :=
        .cons ⟨rfl, .refl _⟩ (.cons ⟨rfl, .of_listItems items⟩ .nil)
      obtain ⟨dict', written', same⟩ := withAttachments_rearranged ok attached place own
        (withAttachments_eq_ok_iff.2 ⟨_, attach, rfl⟩)
      obtain ⟨_, attach', rfl⟩ := withAttachments_eq_ok_iff.1 written'
      exact ⟨_, toValue_root_eq_ok_iff.2 ⟨dicts', _, inside', attach', rfl⟩, same⟩
    | _ => cases kind
  | @element tagName entries children data position _ _ _ ok ih =>
    intro m dict related written
    obtain ⟨kind, fields⟩ := Value.Rearranged.kind_and_fields related
    cases m with
    | element tagName' properties' children' data' position' =>
      obtain _ | ⟨tag, _ | ⟨properties, _ | ⟨nodes, _ | ⟨attached, _ | ⟨place, _⟩⟩⟩⟩⟩ := fields
      obtain ⟨-, entries', rfl, -, -⟩ := properties.exists_map
      obtain ⟨others, rfl, pairs⟩ := nodes.exists_nodes
      obtain ⟨_, dicts, _, carried, inside, attach, rfl⟩ := toValue_element_eq_ok_iff.1 written
      cases carried
      obtain ⟨dicts', inside', items⟩ := writtenItems_rearranged pairs ih inside
      have own : List.Forall₂ Entry
          (elementEntries tagName (.map (Value.writtenEntries entries)) dicts)
          (elementEntries tagName' (.map (Value.writtenEntries entries')) dicts') :=
        .cons ⟨rfl, .refl _⟩ (.cons ⟨rfl, tag⟩ (.cons
          ⟨rfl, Value.writtenEntries_rearranged properties⟩
          (.cons ⟨rfl, .of_listItems items⟩ .nil)))
      obtain ⟨dict', written', same⟩ := withAttachments_rearranged ok attached place own
        (withAttachments_eq_ok_iff.2 ⟨_, attach, rfl⟩)
      obtain ⟨_, attach', rfl⟩ := withAttachments_eq_ok_iff.1 written'
      exact ⟨_, toValue_element_eq_ok_iff.2 ⟨_, dicts', _, rfl, inside', attach', rfl⟩, same⟩
    | _ => cases kind
  | text _ ok | comment _ ok | doctype _ ok | raw _ ok =>
    intro m dict related written
    obtain ⟨kind, fields⟩ := Value.Rearranged.kind_and_fields related
    cases m <;> first
      | (cases kind; done)
      | obtain _ | ⟨value, _ | ⟨attached, _ | ⟨place, _⟩⟩⟩ := fields
        exact leaf_rearranged ok attached place value written
  | @unknown type value data position _ _ ok =>
    intro m dict related written
    obtain ⟨kind, fields⟩ := Value.Rearranged.kind_and_fields related
    cases m with
    | unknown typeName' value' data' position' =>
      obtain _ | ⟨named, _ | ⟨held, _ | ⟨attached, _ | ⟨place, _⟩⟩⟩⟩ := fields
      have own : List.Forall₂ Entry
          (Value.pair "type" (.str type) ::
            if value.isNull then [] else [Value.pair "value" value])
          (Value.pair "type" typeName' ::
            if value'.isNull then [] else [Value.pair "value" value']) := by
        refine .cons ⟨rfl, named⟩ ?_
        rw [← held.isNull_eq]
        split
        · exact .nil
        · exact .cons ⟨rfl, held⟩ .nil
      exact withAttachments_rearranged ok attached place own written
    | _ => cases kind

end Node

end SafeMarkup
