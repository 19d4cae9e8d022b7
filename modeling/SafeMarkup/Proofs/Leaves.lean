/-
# Children by their leaves

The constructors take children in lists and tuples, nested in whatever way.  Only the leaves count:
the values that are neither lists nor tuples, from left to right (`Value.leaves`).  Children make
the nodes that their leaves make, in a row without any nesting (`childrenNodes_eq_leaves`), so two
arguments with the same leaves are as good as each other.

In a row, each leaf is asked by itself.  It makes one node, or it is the absent value and makes
none, or it cannot stand among children at all (`childNodes_cases`).  The last is the only way to fail,
and the fault is that of the first such leaf.

A truth value is such a leaf, although it counts as a child where the properties should be: left in
that place it is taken for the first child, and fails as one.

An integer with too many digits is of a sort to stand among children, but it makes no text and so
no node.  It comes under the same heading as the leaves that are of another sort, and since the
first leaf at fault decides, it can hide one of these behind it (`not_forall_other_sort_reported`).
Where no such integer comes first, the fault is that of the first leaf of another sort, and tells
its type.
-/
import SafeMarkup.Construct
import SafeMarkup.Proofs.Pairing
import SafeMarkup.Proofs.Steps

namespace SafeMarkup

namespace Value

/-! ## Leaves -/

mutual

/-- What is met from left to right when lists and tuples are opened, to any depth. -/
def leaves : Value → List Value
  | list items | tuple items => leavesAmong items
  | value => [value]
termination_by structural value => value

def leavesAmong : List Value → List Value
  | [] => []
  | value :: rest => leaves value ++ leavesAmong rest
termination_by structural values => values

end

mutual

theorem items?_of_mem_leaves : ∀ value : Value, ∀ leaf ∈ leaves value, leaf.items? = none
  | .list items, leaf, h | .tuple items, leaf, h => items?_of_mem_leavesAmong items leaf h
  | .null, _, h | .bool _, _, h | .int _, _, h | .float _, _, h | .str _, _, h | .bytes _, _, h
  | .set _, _, h | .map _, _, h | .position _, _, h | .node _, _, h | .foreign, _, h => by
    rw [List.mem_singleton.1 h]
    rfl
termination_by structural value => value

theorem items?_of_mem_leavesAmong : ∀ values : List Value, ∀ leaf ∈ leavesAmong values,
    leaf.items? = none
  | [], _, h => nomatch h
  | value :: rest, leaf, h => by
    rcases List.mem_append.1 h with h | h
    · exact items?_of_mem_leaves value leaf h
    · exact items?_of_mem_leavesAmong rest leaf h
termination_by structural values => values

end

/-! ## Opening lists and tuples -/

theorem childrenNodes_append (front back : List Value) :
    childrenNodes (front ++ back) = (do
      let first ← childrenNodes front
      let others ← childrenNodes back
      return first ++ others) := by
  induction front with
  | nil =>
    rw [List.nil_append, childrenNodes]
    cases childrenNodes back <;> rfl
  | cons value rest ih =>
    rw [List.cons_append, childrenNodes, childrenNodes, ih]
    cases childNodes value with
    | error fault => rfl
    | ok first =>
      cases childrenNodes rest with
      | error fault => rfl
      | ok others =>
        cases childrenNodes back with
        | error fault => rfl
        | ok last => exact congrArg Except.ok (List.append_assoc first others last).symm

theorem childrenNodes_singleton (value : Value) : childrenNodes [value] = childNodes value := by
  rw [childrenNodes, childrenNodes]
  cases childNodes value with
  | error fault => rfl
  | ok nodes => exact congrArg Except.ok (List.append_nil nodes)

mutual

theorem childNodes_eq_leaves : ∀ value : Value, childNodes value = childrenNodes (leaves value)
  | .list items | .tuple items => childrenNodes_eq_leaves items
  | .null | .bool _ | .int _ | .float _ | .str _ | .bytes _ | .set _ | .map _ | .position _
  | .node _ | .foreign => (childrenNodes_singleton _).symm
termination_by structural value => value

/-- Children make the nodes that their leaves make. -/
theorem childrenNodes_eq_leaves : ∀ values : List Value,
    childrenNodes values = childrenNodes (leavesAmong values)
  | [] => rfl
  | value :: rest => by
    rw [leavesAmong, childrenNodes_append, childrenNodes, childNodes_eq_leaves value,
      childrenNodes_eq_leaves rest]
termination_by structural values => values

end

/-! ## One leaf -/

/-- The sorts of values that are meant to stand among children. -/
inductive HasChildSort : Value → Prop
  | null : HasChildSort .null
  | node {n : Node} : HasChildSort (.node n)
  | text {s : String} : HasChildSort (.str s)
  | int {n : Int} : HasChildSort (.int n)
  | float {x : Binary64} : HasChildSort (.float x)

/-- The value is an integer that has no text. -/
def IsTooLong (leaf : Value) : Prop :=
  ∃ n, leaf = .int n ∧ ¬ DigitLimit.standard.Admits n

/-- The leaf makes this node.  Texts and numbers make a text node of the value as plain text. -/
inductive MakesChild : Value → Node → Prop
  | node {n : Node} : MakesChild (.node n) n
  | text {s : String} : MakesChild (.str s) (Node.textOf s)
  | int {n : Int} : DigitLimit.standard.Admits n →
      MakesChild (.int n) (Node.textOf (plain (.int n)))
  | float {x : Binary64} : MakesChild (.float x) (Node.textOf (plain (.float x)))

/-- The leaf may stand among children. -/
def IsChild (leaf : Value) : Prop :=
  leaf = .null ∨ ∃ node, MakesChild leaf node

/-- The leaf is of another sort, and this is the fault. -/
def IsOfOtherSort (leaf : Value) (fault : Fault) : Prop :=
  ¬ leaf.HasChildSort ∧ fault = .notChild leaf.typeName

/-- The leaf may not stand among children, and this is the fault. -/
def SpoilsChildren (leaf : Value) (fault : Fault) : Prop :=
  leaf.IsOfOtherSort fault ∨ leaf.IsTooLong ∧ fault = .tooManyDigits

theorem MakesChild.unique {leaf : Value} {node node' : Node} (h : MakesChild leaf node)
    (h' : MakesChild leaf node') : node = node' := by
  cases h <;> cases h' <;> rfl

theorem MakesChild.isNull {leaf : Value} {node : Node} (h : MakesChild leaf node) :
    leaf.isNull = false := by
  cases h <;> rfl

theorem isTooLong_int {n : Int} : (Value.int n).IsTooLong ↔ ¬ DigitLimit.standard.Admits n := by
  constructor
  · rintro ⟨m, same, long⟩
    cases same
    exact long
  · exact fun long => ⟨n, rfl, long⟩

theorem isChild_iff {leaf : Value} : leaf.IsChild ↔ leaf.HasChildSort ∧ ¬ leaf.IsTooLong := by
  constructor
  · rintro (rfl | ⟨node, makes⟩)
    · exact ⟨.null, nofun⟩
    · cases makes with
      | node => exact ⟨.node, nofun⟩
      | text => exact ⟨.text, nofun⟩
      | int short => exact ⟨.int, fun long => isTooLong_int.1 long short⟩
      | float => exact ⟨.float, nofun⟩
  · rintro ⟨sort, short⟩
    cases sort with
    | null => exact .inl rfl
    | node => exact .inr ⟨_, .node⟩
    | text => exact .inr ⟨_, .text⟩
    | int => exact .inr ⟨_, .int (not_not.1 fun long => short (isTooLong_int.2 long))⟩
    | float => exact .inr ⟨_, .float⟩

theorem SpoilsChildren.not_isChild {leaf : Value} {fault : Fault}
    (h : leaf.SpoilsChildren fault) : ¬ leaf.IsChild := by
  rw [isChild_iff]
  rintro ⟨sort, short⟩
  rcases h with ⟨other, -⟩ | ⟨long, -⟩
  · exact other sort
  · exact short long

theorem SpoilsChildren.unique {leaf : Value} {fault fault' : Fault}
    (h : leaf.SpoilsChildren fault) (h' : leaf.SpoilsChildren fault') : fault = fault' := by
  rcases h with ⟨other, rfl⟩ | ⟨⟨n, rfl, -⟩, rfl⟩ <;>
    rcases h' with ⟨other', rfl⟩ | ⟨⟨n', same, -⟩, rfl⟩
  · rfl
  · exact absurd (same ▸ .int) other
  · exact absurd .int other'
  · rfl

theorem exists_spoilsChildren {leaf : Value} (h : ¬ leaf.IsChild) :
    ∃ fault, leaf.SpoilsChildren fault := by
  by_cases sort : leaf.HasChildSort
  · have long : leaf.IsTooLong := not_not.1 fun short => h (isChild_iff.2 ⟨sort, short⟩)
    exact ⟨_, .inr ⟨long, rfl⟩⟩
  · exact ⟨_, .inl ⟨sort, rfl⟩⟩

theorem spoilsChildren_tooManyDigits {leaf : Value} :
    leaf.SpoilsChildren .tooManyDigits ↔ leaf.IsTooLong := by
  constructor
  · rintro (⟨-, same⟩ | ⟨long, -⟩)
    · cases same
    · exact long
  · exact fun long => .inr ⟨long, rfl⟩

theorem isNull_of_not_isChild {leaf : Value} (h : ¬ leaf.IsChild) : leaf.isNull = false := by
  cases leaf with
  | null => exact absurd (.inl rfl) h
  | _ => rfl

theorem childNodes_cases {leaf : Value} (single : leaf.items? = none) :
    (leaf = .null ∧ childNodes leaf = .ok []) ∨
    (∃ node, MakesChild leaf node ∧ childNodes leaf = .ok [node]) ∨
    ∃ fault, SpoilsChildren leaf fault ∧ childNodes leaf = .error fault := by
  cases leaf with
  | null => exact .inl ⟨rfl, rfl⟩
  | node n => exact .inr (.inl ⟨n, .node, rfl⟩)
  | str s => exact .inr (.inl ⟨_, .text, rfl⟩)
  | int n =>
    by_cases short : DigitLimit.standard.Admits n
    · refine .inr (.inl ⟨_, .int short, ?_⟩)
      rw [childNodes, DigitLimit.text_eq_ok short]
      rfl
    · refine .inr (.inr ⟨_, spoilsChildren_tooManyDigits.2 (isTooLong_int.2 short), ?_⟩)
      rw [childNodes, DigitLimit.text_eq_error short]
      rfl
  | float x => exact .inr (.inl ⟨_, .float, rfl⟩)
  | list | tuple => cases single
  | _ => exact .inr (.inr ⟨_, .inl ⟨nofun, rfl⟩, rfl⟩)

/-! ## Leaves in a row -/

section Row

variable {leaf : Value} {rest : List Value}

theorem childrenNodes_null : childrenNodes (.null :: rest) = childrenNodes rest := by
  rw [childrenNodes, childNodes]
  cases childrenNodes rest <;> rfl

theorem childrenNodes_child {node : Node} (made : childNodes leaf = .ok [node]) :
    childrenNodes (leaf :: rest) = (childrenNodes rest).map (node :: ·) := by
  rw [childrenNodes, made]
  cases childrenNodes rest <;> rfl

theorem childrenNodes_spoilt {fault : Fault} (failed : childNodes leaf = .error fault) :
    childrenNodes (leaf :: rest) = .error fault := by
  rw [childrenNodes, failed]
  rfl

theorem childrenNodes_nodes (nodes : List Node) : childrenNodes (nodes.map .node) = .ok nodes := by
  induction nodes with
  | nil => rfl
  | cons node rest ih =>
    rw [List.map_cons, childrenNodes_child rfl, ih]
    rfl

theorem childrenNodes_row_eq_ok_iff {row : List Value} {nodes : List Node}
    (single : ∀ leaf ∈ row, leaf.items? = none) :
    childrenNodes row = .ok nodes ↔
      List.Forall₂ MakesChild (row.filter fun leaf => !leaf.isNull) nodes := by
  induction row generalizing nodes with
  | nil =>
    rw [childrenNodes, Except.ok.injEq, List.filter_nil, List.forall₂_nil_left_iff, eq_comm]
  | cons leaf rest ih =>
    have others (nodes : List Node) := @ih nodes fun other ho => single other (.tail _ ho)
    rcases childNodes_cases (single leaf (.head _)) with
      ⟨rfl, -⟩ | ⟨node, makes, made⟩ | ⟨fault, spoils, failed⟩
    · rw [childrenNodes_null, others nodes]
      rfl
    · rw [childrenNodes_child made, map_eq_ok_iff,
        List.filter_cons_of_pos (by rw [makes.isNull]; rfl), List.forall₂_cons_left_iff]
      constructor
      · rintro ⟨made', ran, rfl⟩
        exact ⟨node, made', makes, (others made').1 ran, rfl⟩
      · rintro ⟨node', made', makes', after, rfl⟩
        exact ⟨made', (others made').2 after, by rw [makes.unique makes']⟩
    · rw [childrenNodes_spoilt failed,
        List.filter_cons_of_pos (by rw [isNull_of_not_isChild spoils.not_isChild]; rfl),
        List.forall₂_cons_left_iff]
      refine iff_of_false nofun ?_
      rintro ⟨node, -, makes, -⟩
      exact spoils.not_isChild (.inr ⟨node, makes⟩)

/-- The fault is that of the first leaf that cannot stand among children. -/
theorem childrenNodes_row_eq_error_iff {row : List Value} {fault : Fault}
    (single : ∀ leaf ∈ row, leaf.items? = none) :
    childrenNodes row = .error fault ↔ FirstFault IsChild SpoilsChildren row fault := by
  induction row with
  | nil => exact iff_of_false nofun not_firstFault_nil
  | cons leaf rest ih =>
    have others := ih fun other ho => single other (.tail _ ho)
    rw [firstFault_cons]
    rcases childNodes_cases (single leaf (.head _)) with
      ⟨rfl, -⟩ | ⟨node, makes, made⟩ | ⟨found, spoils, failed⟩
    · have child : IsChild .null := .inl rfl
      rw [childrenNodes_null, others]
      exact ⟨fun later => .inr ⟨child, later⟩,
        fun h => h.elim (fun spoils => absurd child spoils.not_isChild) And.right⟩
    · have child : leaf.IsChild := .inr ⟨node, makes⟩
      rw [childrenNodes_child made, map_eq_error_iff, others]
      exact ⟨fun later => .inr ⟨child, later⟩,
        fun h => h.elim (fun spoils => absurd child spoils.not_isChild) And.right⟩
    · rw [childrenNodes_spoilt failed, Except.error.injEq]
      constructor
      · rintro rfl
        exact .inl spoils
      · rintro (spoils' | ⟨child, -⟩)
        · exact spoils.unique spoils'
        · exact absurd child spoils.not_isChild

end Row

/-- What stands where the properties should be counts as the first child. -/
inductive TakesFirstPlace : Value → Prop
  | null : TakesFirstPlace .null
  | node {n : Node} : TakesFirstPlace (.node n)
  | text {s : String} : TakesFirstPlace (.str s)
  | int {n : Int} : TakesFirstPlace (.int n)
  | float {x : Binary64} : TakesFirstPlace (.float x)
  | truth {b : Bool} : TakesFirstPlace (.bool b)
  | list {items : List Value} : TakesFirstPlace (.list items)
  | tuple {items : List Value} : TakesFirstPlace (.tuple items)

end Value

namespace Node

/-! ## Elements and roots -/

/-- The root, if there is no tag, or else the element around these nodes.  Properties without a
value are left out. -/
def around (tag : Value) (properties : List (Value × Value)) (nodes : List Node) : Node :=
  if tag.isNull then root (childTuple nodes) .null .null
  else element tag (.map (properties.filter fun entry => !entry.2.isNull)) (childTuple nodes)
    .null .null

theorem script_map (tag : Value) (properties : List (Value × Value)) (arguments : List Value) :
    script tag (.map properties) arguments =
      (Value.childrenNodes arguments).map (around tag properties) := by
  have entries : (Value.map properties).entriesOrNone = .ok properties := by
    cases properties <;> rfl
  show build tag (.map properties) arguments = _
  unfold build around
  split
  · rfl
  · rw [entries]
    rfl

theorem script_of_takesFirstPlace {first : Value} (h : first.TakesFirstPlace) (tag : Value)
    (arguments : List Value) :
    script tag first arguments = script tag (.map []) (first :: arguments) := by
  have place : script tag first arguments = build tag .null (first :: arguments) := by
    cases h <;> rfl
  rw [place]
  rfl

/-- The constructor fails if and only if some leaf of its arguments cannot stand among children,
with the fault of the first such leaf.  Either that leaf is an integer that is too long for a text;
or, and this is all if no such integer comes first, it is of a sort that children are not, and the
fault tells its type.  Otherwise the children are the nodes that the leaves make, one for each that
is there and in the same order.  So arguments with the same leaves give the same result, however
they are nested.  A first child in the place of the properties is no different from one behind empty
properties. -/
theorem script_opens_leaves (tag : Value) (properties : List (Value × Value))
    (arguments : List Value) :
    ((∃ fault, script tag (.map properties) arguments = .error fault) ↔
      ∃ leaf ∈ Value.leavesAmong arguments, ¬ (leaf.HasChildSort ∧ ¬ leaf.IsTooLong)) ∧
    (∀ fault, script tag (.map properties) arguments = .error fault ↔
      FirstFault Value.IsChild Value.SpoilsChildren (Value.leavesAmong arguments) fault) ∧
    (script tag (.map properties) arguments = .error .tooManyDigits ↔
      FirstIs Value.IsChild Value.IsTooLong (Value.leavesAmong arguments)) ∧
    (¬ FirstIs Value.IsChild Value.IsTooLong (Value.leavesAmong arguments) →
      ((∃ fault, script tag (.map properties) arguments = .error fault) ↔
        ∃ leaf ∈ Value.leavesAmong arguments, ¬ leaf.HasChildSort) ∧
      ∀ fault, script tag (.map properties) arguments = .error fault ↔
        FirstFault Value.HasChildSort Value.IsOfOtherSort (Value.leavesAmong arguments) fault) ∧
    (∀ leaf fault, Value.IsOfOtherSort leaf fault → fault.message =
      "Expected node, string, number or list as child, got " ++ leaf.typeName) ∧
    (∀ node, script tag (.map properties) arguments = .ok node ↔ ∃ nodes,
      List.Forall₂ Value.MakesChild
        ((Value.leavesAmong arguments).filter fun leaf => !leaf.isNull) nodes ∧
      around tag properties nodes = node) ∧
    (∀ others, Value.leavesAmong others = Value.leavesAmong arguments →
      script tag (.map properties) others = script tag (.map properties) arguments) ∧
    ∀ first : Value, first.TakesFirstPlace →
      script tag first arguments = script tag (.map []) (first :: arguments) := by
  have single := Value.items?_of_mem_leavesAmong arguments
  have failed (fault : Fault) : script tag (.map properties) arguments = .error fault ↔
      FirstFault Value.IsChild Value.SpoilsChildren (Value.leavesAmong arguments) fault := by
    rw [script_map, map_eq_error_iff, Value.childrenNodes_eq_leaves,
      Value.childrenNodes_row_eq_error_iff single]
  have made (node : Node) : script tag (.map properties) arguments = .ok node ↔ ∃ nodes,
      List.Forall₂ Value.MakesChild
        ((Value.leavesAmong arguments).filter fun leaf => !leaf.isNull) nodes ∧
      around tag properties nodes = node := by
    rw [script_map, map_eq_ok_iff, Value.childrenNodes_eq_leaves]
    simp only [Value.childrenNodes_row_eq_ok_iff single]
  have fails : (∃ fault, script tag (.map properties) arguments = .error fault) ↔
      ∃ leaf ∈ Value.leavesAmong arguments, ¬ (leaf.HasChildSort ∧ ¬ leaf.IsTooLong) := by
    simp only [failed, ← Value.isChild_iff]
    exact exists_firstFault_iff (fun _ _ spoils => spoils.not_isChild)
      fun _ => Value.exists_spoilsChildren
  have long : script tag (.map properties) arguments = .error .tooManyDigits ↔
      FirstIs Value.IsChild Value.IsTooLong (Value.leavesAmong arguments) :=
    (failed _).trans (firstFault_iff_firstIs fun _ => Value.spoilsChildren_tooManyDigits)
  refine ⟨fails, failed, long, fun short => ?_, ?_, made, ?_,
    fun first h => script_of_takesFirstPlace h tag arguments⟩
  · have sorted (fault : Fault) : script tag (.map properties) arguments = .error fault ↔
        FirstFault Value.HasChildSort Value.IsOfOtherSort (Value.leavesAmong arguments) fault :=
      (failed fault).trans
        (firstFault_iff_of_not_firstIs (fun _ => Value.isChild_iff) (fun _ _ => .rfl) short)
    refine ⟨?_, sorted⟩
    simp only [sorted]
    exact exists_firstFault_iff (fun _ _ other => other.1) fun leaf other => ⟨_, other, rfl⟩
  · rintro leaf fault ⟨-, rfl⟩
    rfl
  · intro others same
    rw [script_map, script_map, Value.childrenNodes_eq_leaves, same,
      ← Value.childrenNodes_eq_leaves]

/-- The same leaves nested in two ways, and a truth value where the properties should be. -/
theorem script_opens_leaves_nested :
    let nested : List Value := [.tuple [.str "a", .list [.null, .int (-7)]], .list []]
    let others : List Value := [.list [.str "a"], .null, .int (-7)]
    Value.leavesAmong others = Value.leavesAmong nested ∧
      script (.str "p") (.map []) others = script (.str "p") (.map []) nested ∧
      script .null (.map []) nested = .ok (.rootOf [.textOf "a", .textOf "-7"]) ∧
      Value.IsOfOtherSort (.bool true) (.notChild "bool") ∧
      (Fault.notChild "bool").message =
        "Expected node, string, number or list as child, got bool" ∧
      (Value.bool true).TakesFirstPlace ∧
      script .null (.bool true) nested = script .null (.map []) (.bool true :: nested) ∧
      script .null (.map []) (.bool true :: nested) = .error (.notChild "bool") := by
  intro nested others
  obtain ⟨-, -, -, -, -, made, -, place⟩ := script_opens_leaves .null [] nested
  obtain ⟨-, failed, -, -, message, -⟩ := script_opens_leaves .null [] (.bool true :: nested)
  have other : Value.IsOfOtherSort (.bool true) (.notChild "bool") := ⟨nofun, rfl⟩
  have pairs : List.Forall₂ Value.MakesChild
      ((Value.leavesAmong nested).filter fun leaf => !leaf.isNull)
      [.textOf "a", .textOf "-7"] := .cons .text (.cons (.int (by decide)) .nil)
  obtain ⟨-, -, -, -, -, -, again, -⟩ := script_opens_leaves (.str "p") [] nested
  exact ⟨rfl, again others rfl, (made _).2 ⟨_, pairs, rfl⟩, other, message _ _ other, .truth,
    place _ .truth, (failed _).2 ⟨[], .bool true, _, rfl, nofun, .inl other⟩⟩

/-- A byte string among the children goes unreported behind the least integer that is too long. -/
theorem not_forall_other_sort_reported :
    ¬ ∀ tag properties arguments,
      (∃ leaf ∈ Value.leavesAmong arguments, ¬ leaf.HasChildSort) →
        ∃ typeName, script tag (.map properties) arguments = .error (.notChild typeName) := by
  intro holds
  have long : ¬ DigitLimit.standard.Admits (DigitLimit.leastRefused 4300) :=
    DigitLimit.not_admits_leastRefused (by decide)
  obtain ⟨-, failed, -⟩ :=
    script_opens_leaves (.str "p") [] [.int (DigitLimit.leastRefused 4300), .bytes "x"]
  obtain ⟨typeName, reported⟩ :=
    holds (.str "p") [] [.int (DigitLimit.leastRefused 4300), .bytes "x"]
      ⟨.bytes "x", .tail _ (.head _), nofun⟩
  have first := (failed .tooManyDigits).2
    ⟨[], _, _, rfl, nofun, Value.spoilsChildren_tooManyDigits.2 (Value.isTooLong_int.2 long)⟩
  cases reported.symm.trans first

end Node

end SafeMarkup
