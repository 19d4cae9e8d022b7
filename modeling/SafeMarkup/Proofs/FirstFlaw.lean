/-
# The first flaw of a dict form

The strict reader comes to a value, and from a root or an element on to the items of its children.
`Node.Visits` names what it comes to by paths, and `Node.IsFlawed` says what is wrong with a value,
each without the reader.  Reading then succeeds if and only if nothing that is visited is flawed,
and otherwise the fault is the flaw that comes first in document order, at its path
(`ofValue_first_flaw`).  Document order is the lexicographic order of paths, as for occurrences.

The reader stops at the first fault and never looks at what comes later, so the induction has to
compare a flaw it has found with flaws in items that it has not read.  `Tells` is what is known of
a result at each point of the walk: which of the visited values the result speaks for, below which
path.  It is put together from the result for one item and the result for the items after it
(`tells_cons`), where every path of the former comes before every path of the latter.

The description of flaws does not mention reading, and in particular not the order in which the
reader goes about it: it says of one value what is wrong with it, if anything, and the order comes
in by the comparison of paths alone.  So a reader that collected all flaws first and reported the
smallest path would meet the same statement.  The message is part of it: the path of the flaw is
told in words, from the top down, and is left out if the value itself is flawed
(`pathText_concat`).
-/
import SafeMarkup.Proofs.Occurrence
import SafeMarkup.Proofs.Pruning

namespace SafeMarkup

namespace Node

/-! ## What is visited, and what is wrong with it -/

/-- On its way down from the first value, the reader comes to the second at this path. -/
inductive Visits : Value → Path → Value → Prop
  | here {value : Value} : Visits value [] value
  | child {entries : List (Value × Value)} {type : String} {children item place : Value}
      {items : List Value} {i : Nat} {path : Path} :
      Value.field? "type" entries = some (.str type) → type = "root" ∨ type = "element" →
      Value.field? "children" entries = some children → children.items? = some items →
      items[i]? = some item → Visits item path place →
      Visits (.map entries) (i :: path) place

/-- The value cannot stand for a node, for this reason. -/
inductive IsFlawed : Value → FormatFlaw → Prop
  | notMapping {value : Value} : value.entries? = none →
      IsFlawed value (.notMapping value.typeName)
  | noType {entries : List (Value × Value)} :
      (∀ type, Value.field? "type" entries ≠ some (.str type)) → IsFlawed (.map entries) .noType
  | childrenNotList {entries : List (Value × Value)} {type : String} {children : Value} :
      Value.field? "type" entries = some (.str type) → type = "root" ∨ type = "element" →
      Value.field? "children" entries = some children → children.items? = none →
      IsFlawed (.map entries) (.childrenNotList children.typeName)

/-- Of the flaws in what is visited, this one comes first, and it is found at this path. -/
structure IsFirstFlaw (visits : Path → Value → Prop) (path : Path) (flaw : FormatFlaw) : Prop where
  found : ∃ place, visits path place ∧ IsFlawed place flaw
  first : ∀ other place later, visits other place → IsFlawed place later → ¬ other < path

/-- What the reader comes to from the items of a list, the first of which has this index. -/
def VisitsAmong (items : List Value) (index : Nat) (path : Path) (place : Value) : Prop :=
  ∃ i item rest, items[i]? = some item ∧ path = (index + i) :: rest ∧ Visits item rest place

variable {entries : List (Value × Value)} {type : String} {value item place : Value}
  {items rest : List Value} {index : Nat} {path : Path}

theorem not_visitsAmong_nil : ¬ VisitsAmong [] index path place := by
  rintro ⟨i, item, rest, occurs, -⟩
  cases occurs

theorem visitsAmong_cons_iff :
    VisitsAmong (item :: rest) index path place ↔
      (∃ inner, path = index :: inner ∧ Visits item inner place) ∨
        VisitsAmong rest (index + 1) path place := by
  constructor
  · rintro ⟨i, found, inner, occurs, rfl, visits⟩
    cases i with
    | zero =>
      cases occurs
      exact .inl ⟨inner, rfl, visits⟩
    | succ i => exact .inr ⟨i, found, inner, occurs, by rw [Nat.add_right_comm]; rfl, visits⟩
  · rintro (⟨inner, rfl, visits⟩ | ⟨i, found, inner, occurs, rfl, visits⟩)
    · exact ⟨0, item, inner, rfl, rfl, visits⟩
    · exact ⟨i + 1, found, inner, occurs, by rw [Nat.add_right_comm]; rfl, visits⟩

theorem typeIn?_eq_some_iff :
    typeIn? entries = some type ↔ Value.field? "type" entries = some (.str type) := by
  rw [typeIn?, Value.field]
  cases Value.field? "type" entries with
  | none => simp [Value.str?]
  | some value => cases value <;> simp [Value.str?]

/-! ## What a result tells -/

/-- The result, of reading below a path, is a fault if what is visited has a flaw: the first one. -/
def Tells {α : Type} (below : Path) (visits : Path → Value → Prop) : Except Fault α → Prop
  | .ok _ => ∀ path place flaw, visits path place → ¬ IsFlawed place flaw
  | .error fault => ∃ path flaw, IsFirstFlaw visits path flaw ∧ fault = .format (below ++ path) flaw

variable {α β : Type} {below : Path} {visits : Path → Value → Prop}

theorem Tells.map {result : Except Fault α} (f : α → β) (h : Tells below visits result) :
    Tells below visits (result.map f) := by
  cases result with
  | ok _ => exact h
  | error _ => exact h

theorem tells_error {flaw : FormatFlaw} (flawed : IsFlawed value flaw) :
    Tells (α := α) below (Visits value) (.error (.format below flaw)) :=
  ⟨[], flaw, ⟨⟨value, .here, flawed⟩, fun _ _ _ _ _ => List.not_lt_nil _⟩,
    by rw [List.append_nil]⟩

/-- An item and the items after it: the flaws of the item come first. -/
theorem tells_cons {first : Except Fault α} {others : Except Fault (List α)}
    (hfirst : Tells (below ++ [index]) (Visits item) first)
    (hothers : Tells below (VisitsAmong rest (index + 1)) others) :
    Tells below (VisitsAmong (item :: rest) index) (do
      let node ← first
      let nodes ← others
      return node :: nodes) := by
  cases first with
  | error fault =>
    obtain ⟨path, flaw, ⟨⟨place, visits, flawed⟩, before⟩, rfl⟩ := hfirst
    refine ⟨index :: path, flaw, ⟨?_, ?_⟩, ?_⟩
    · exact ⟨place, visitsAmong_cons_iff.2 (.inl ⟨path, rfl, visits⟩), flawed⟩
    · intro other place' later visits' flawed' lt
      rcases visitsAmong_cons_iff.1 visits' with ⟨inner, rfl, inside⟩ | ⟨i, _, inner, _, rfl, _⟩
      · rcases List.cons_lt_cons_iff.1 lt with lt | ⟨-, lt⟩
        · exact Nat.lt_irrefl index lt
        · exact before inner place' later inside flawed' lt
      · rcases List.cons_lt_cons_iff.1 lt with lt | ⟨same, -⟩
        · omega
        · omega
    · rw [List.append_assoc]
      rfl
  | ok node =>
    cases others with
    | error fault =>
      obtain ⟨path, flaw, ⟨⟨place, visits, flawed⟩, before⟩, rfl⟩ := hothers
      refine ⟨path, flaw, ⟨⟨place, visitsAmong_cons_iff.2 (.inr visits), flawed⟩, ?_⟩, rfl⟩
      intro other place' later visits' flawed'
      rcases visitsAmong_cons_iff.1 visits' with ⟨inner, -, inside⟩ | after
      · exact absurd flawed' (hfirst inner place' later inside)
      · exact before other place' later after flawed'
    | ok nodes =>
      intro path place flaw visits
      rcases visitsAmong_cons_iff.1 visits with ⟨inner, -, inside⟩ | after
      · exact hfirst inner place flaw inside
      · exact hothers path place flaw after

/-! ## One mapping -/

/-- From a mapping that stands for a root or an element the reader goes on among its children. -/
theorem visits_parent_iff {children : Value}
    (typed : Value.field? "type" entries = some (.str type))
    (parent : type = "root" ∨ type = "element")
    (held : Value.field? "children" entries = some children)
    (listed : children.items? = some items) :
    Visits (.map entries) path place ↔
      path = [] ∧ place = .map entries ∨ VisitsAmong items 0 path place := by
  constructor
  · intro visits
    cases visits with
    | here => exact .inl ⟨rfl, rfl⟩
    | @child _ _ _ item _ _ i path _ _ held' listed' occurs inside =>
      cases held.symm.trans held'
      cases listed.symm.trans listed'
      exact .inr ⟨i, item, path, occurs, by rw [Nat.zero_add], inside⟩
  · rintro (⟨rfl, rfl⟩ | ⟨i, item, rest, occurs, rfl, inside⟩)
    · exact .here
    · rw [Nat.zero_add]
      exact .child typed parent held listed occurs inside

theorem eq_of_visits (visits : Visits (.map entries) path place)
    (childless : ∀ type children items, Value.field? "type" entries = some (.str type) →
      type = "root" ∨ type = "element" → Value.field? "children" entries = some children →
      children.items? ≠ some items) : place = .map entries := by
  cases visits with
  | here => rfl
  | child typed parent held listed _ _ => exact absurd listed (childless _ _ _ typed parent held)

/-- All that can be wrong with a mapping that has a type is where its children stand. -/
theorem of_isFlawed_typed {flaw : FormatFlaw}
    (typed : Value.field? "type" entries = some (.str type))
    (flawed : IsFlawed (.map entries) flaw) :
    (type = "root" ∨ type = "element") ∧
      ∃ children, Value.field? "children" entries = some children ∧ children.items? = none := by
  cases flawed with
  | notMapping unmapped => cases unmapped
  | noType untyped => exact absurd typed (untyped type)
  | childrenNotList typed' parent held listed =>
    cases typed.symm.trans typed'
    exact ⟨parent, _, held, listed⟩

theorem readChildren_of_items? {children : Value} (h : children.items? = some items) :
    readChildren path children = readItems path 0 items := by
  cases children with
  | list _ | tuple _ =>
    cases h
    rfl
  | _ => cases h

theorem readChildren_of_no_items {children : Value} (h : children.items? = none) :
    readChildren path children = .error (.format path (.childrenNotList children.typeName)) := by
  cases children with
  | list _ | tuple _ => cases h
  | _ => rfl

theorem tells_parent {children : Value} {result : Except Fault α}
    (typed : Value.field? "type" entries = some (.str type))
    (parent : type = "root" ∨ type = "element")
    (held : Value.field? "children" entries = some children)
    (listed : children.items? = some items) (told : Tells below (VisitsAmong items 0) result) :
    Tells below (Visits (.map entries)) result := by
  have sound : ∀ flaw, ¬ IsFlawed (.map entries) flaw := by
    intro flaw flawed
    obtain ⟨-, other, held', unlisted⟩ := of_isFlawed_typed typed flawed
    cases held.symm.trans held'
    cases listed.symm.trans unlisted
  cases result with
  | ok _ =>
    intro path place flaw visits flawed
    rcases (visits_parent_iff typed parent held listed).1 visits with ⟨-, rfl⟩ | inside
    · exact sound flaw flawed
    · exact told path place flaw inside flawed
  | error fault =>
    obtain ⟨path, flaw, ⟨⟨place, visits, flawed⟩, before⟩, rfl⟩ := told
    have found := (visits_parent_iff typed parent held listed).2 (.inr visits)
    refine ⟨path, flaw, ⟨⟨place, found, flawed⟩, ?_⟩, rfl⟩
    intro other place' later visits' flawed'
    rcases (visits_parent_iff typed parent held listed).1 visits' with ⟨-, rfl⟩ | inside
    · exact absurd flawed' (sound later)
    · exact before other place' later inside flawed'

theorem tells_childless {a : α} (childless : ∀ path place, Visits (.map entries) path place →
      place = .map entries) (sound : ∀ flaw, ¬ IsFlawed (.map entries) flaw) :
    Tells below (Visits (.map entries)) (.ok a : Except Fault α) :=
  fun path place flaw visits flawed => sound flaw (childless path place visits ▸ flawed)

theorem tells_map
    (inside : ∀ children items, Value.field? "children" entries = some children →
      children.items? = some items → Tells below (VisitsAmong items 0) (readItems below 0 items)) :
    Tells below (Visits (.map entries)) (readAt below (.map entries)) := by
  cases typed : typeIn? entries with
  | none =>
    simp only [readAt, typed]
    refine tells_error (.noType fun type held => ?_)
    rw [typeIn?_eq_some_iff.2 held] at typed
    cases typed
  | some type =>
    have held := typeIn?_eq_some_iff.1 typed
    cases parent : isParent type with
    | false =>
      have leaf : ¬ (type = "root" ∨ type = "element") := by
        rw [← isParent_iff, parent]
        exact Bool.false_ne_true
      rw [readAt_leaf typed parent]
      refine tells_childless (fun _ _ visits => ?_) fun _ flawed =>
        leaf (of_isFlawed_typed held flawed).1
      refine eq_of_visits visits fun type' _ _ held' parent' _ _ => ?_
      cases held.symm.trans held'
      exact leaf parent'
    | true =>
      have parent' := isParent_iff.1 parent
      simp only [readAt, typed, parent, if_true, readField_eq]
      cases children : Value.field? "children" entries with
      | none =>
        refine tells_childless (fun _ _ visits => ?_) fun _ flawed => ?_
        · refine eq_of_visits visits fun _ _ _ _ _ children' _ => ?_
          cases children.symm.trans children'
        · obtain ⟨-, _, children', -⟩ := of_isFlawed_typed held flawed
          cases children.symm.trans children'
      | some value =>
        cases listed : value.items? with
        | none =>
          rw [Option.map_some, Option.getD_some, readChildren_of_no_items listed]
          exact tells_error (.childrenNotList held parent' children listed)
        | some items =>
          have told := inside value items children listed
          rw [Option.map_some, Option.getD_some, readChildren_of_items? listed]
          exact (tells_parent held parent' children listed told).map _

/-! ## The walk -/

mutual

theorem readAt_tells : ∀ (value : Value) (path : Path),
    Tells path (Visits value) (readAt path value)
  | .map entries, path =>
    tells_map fun children items held listed =>
      readField_tells entries children held items listed path
  | .null, _ | .bool _, _ | .int _, _ | .float _, _ | .str _, _ | .bytes _, _ | .list _, _
  | .tuple _, _ | .set _, _ | .position _, _ | .node _, _ | .foreign, _ =>
    tells_error (.notMapping rfl)
termination_by structural value => value

theorem readField_tells : ∀ (entries : List (Value × Value)) (children : Value),
    Value.field? "children" entries = some children → ∀ items, children.items? = some items →
    ∀ path, Tells path (VisitsAmong items 0) (readItems path 0 items)
  | [], _, held, _, _, _ => nomatch held
  | (key, value) :: rest, children, held, items, listed, path => by
    rw [Value.field?] at held
    split at held
    · cases held
      exact readChildren_tells value items listed path
    · exact readField_tells rest children held items listed path
termination_by structural entries => entries

theorem readChildren_tells : ∀ (children : Value) (items : List Value),
    children.items? = some items →
    ∀ path, Tells path (VisitsAmong items 0) (readItems path 0 items)
  | .list items, _, listed, path | .tuple items, _, listed, path => by
    cases listed
    exact readItems_tells items path 0
  | .null, _, listed, _ | .bool _, _, listed, _ | .int _, _, listed, _ | .float _, _, listed, _
  | .str _, _, listed, _ | .bytes _, _, listed, _ | .set _, _, listed, _ | .map _, _, listed, _
  | .position _, _, listed, _ | .node _, _, listed, _ | .foreign, _, listed, _ => nomatch listed
termination_by structural children => children

theorem readItems_tells : ∀ (items : List Value) (path : Path) (index : Nat),
    Tells path (VisitsAmong items index) (readItems path index items)
  | [], _, _ => fun _ _ _ visits => absurd visits not_visitsAmong_nil
  | item :: rest, path, index =>
    tells_cons (readAt_tells item (path ++ [index])) (readItems_tells rest path (index + 1))
termination_by structural items => items

end

/-! ## The first flaw is one -/

theorem Visits.unique {place' : Value} (h : Visits value path place)
    (h' : Visits value path place') : place = place' := by
  induction h with
  | here =>
    cases h'
    rfl
  | child _ _ held listed occurs _ ih =>
    cases h' with
    | child _ _ held' listed' occurs' inside' =>
      cases held.symm.trans held'
      cases listed.symm.trans listed'
      cases occurs.symm.trans occurs'
      exact ih inside'

theorem IsFlawed.unique {flaw flaw' : FormatFlaw} (h : IsFlawed value flaw)
    (h' : IsFlawed value flaw') : flaw = flaw' := by
  cases h with
  | notMapping unmapped =>
    cases h' with
    | notMapping => rfl
    | noType | childrenNotList => cases unmapped
  | noType untyped =>
    cases h' with
    | notMapping unmapped => cases unmapped
    | noType => rfl
    | childrenNotList typed => exact absurd typed (untyped _)
  | childrenNotList typed _ held =>
    cases h' with
    | notMapping unmapped => cases unmapped
    | noType untyped => exact absurd typed (untyped _)
    | childrenNotList _ _ held' =>
      cases held.symm.trans held'
      rfl

theorem IsFirstFlaw.unique {path' : Path} {flaw flaw' : FormatFlaw}
    (h : IsFirstFlaw (Visits value) path flaw) (h' : IsFirstFlaw (Visits value) path' flaw') :
    path = path' ∧ flaw = flaw' := by
  obtain ⟨⟨place, visits, flawed⟩, first⟩ := h
  obtain ⟨⟨place', visits', flawed'⟩, first'⟩ := h'
  have same : path = path' := by
    rcases Std.lt_trichotomy path path' with lt | same | lt
    · exact absurd lt (first' path place flaw visits flawed)
    · exact same
    · exact absurd lt (first path' place' flaw' visits' flawed')
  subst same
  obtain rfl := visits.unique visits'
  exact ⟨rfl, flawed.unique flawed'⟩

end Node

/-! ## The text of a path -/

namespace Fault

/-- One step down a tree, in words. -/
def stepText (i : Nat) : String :=
  "children[" ++ toString i ++ "]"

theorem pathText_concat (path : List Nat) (i : Nat) :
    pathText (path ++ [i]) =
      some (((pathText path).elim "" fun outer => outer ++ ".") ++ stepText i) := by
  cases path with
  | nil => simp [pathText, stepText]
  | cons first rest =>
    have ne : (first :: rest).map stepText ≠ [] := by simp
    show some (String.intercalate "." ((first :: rest ++ [i]).map stepText)) =
      some (String.intercalate "." ((first :: rest).map stepText) ++ "." ++ stepText i)
    rw [List.map_append, List.map_singleton,
      String.intercalate_append_of_ne_nil ne (List.cons_ne_nil _ _), String.intercalate_singleton]

end Fault

/-- The strict reader accepts a value if and only if nothing that it comes to is flawed.  Otherwise
it fails with the flaw that comes first in document order, and with no other fault; the path to that
flaw is told in words, unless the value itself is flawed. -/
theorem Node.ofValue_first_flaw (value : Value) :
    ((∃ node, ofValue value = .ok node) ↔
      ∀ path place flaw, Visits value path place → ¬ IsFlawed place flaw) ∧
    (∀ fault, ofValue value = .error fault ↔
      ∃ path flaw, IsFirstFlaw (Visits value) path flaw ∧ fault = .format path flaw) ∧
    Fault.pathText [] = none ∧
    ∀ path i, Fault.pathText (path ++ [i]) =
      some (((Fault.pathText path).elim "" fun outer => outer ++ ".") ++ Fault.stepText i) := by
  have told : Tells [] (Visits value) (ofValue value) := readAt_tells value []
  refine ⟨?_, ?_, rfl, Fault.pathText_concat⟩
  · cases read : ofValue value with
    | ok node =>
      rw [read] at told
      exact iff_of_true ⟨node, rfl⟩ told
    | error fault =>
      rw [read] at told
      obtain ⟨path, flaw, ⟨⟨place, visits, flawed⟩, -⟩, -⟩ := told
      refine iff_of_false ?_ fun sound => sound path place flaw visits flawed
      rintro ⟨node, accepted⟩
      cases accepted
  · intro fault
    cases read : ofValue value with
    | ok node =>
      rw [read] at told
      refine iff_of_false (fun failed => nomatch failed) ?_
      rintro ⟨path, flaw, ⟨⟨place, visits, flawed⟩, -⟩, -⟩
      exact told path place flaw visits flawed
    | error actual =>
      rw [read] at told
      obtain ⟨path, flaw, first, rfl⟩ := told
      constructor
      · rintro ⟨⟩
        exact ⟨path, flaw, first, rfl⟩
      · rintro ⟨path', flaw', first', rfl⟩
        obtain ⟨rfl, rfl⟩ := first.unique first'
        rfl

end SafeMarkup
