/-
# The two ways through a tree agree

`Value.occurrences` and `Visitor.visit` are two recursions over a tree.  Here each is tied to what
it should go by.

* The calls of a visit are those that the occurrences lead to, one occurrence after the other
  (`calls_eq_expand`).  This holds of every value, whatever children stand where, and of every
  visitor; also a fault that ends one way ends the other at the same place.  Which call an
  occurrence leads to is `Visitor.Handles`.
* In a tree of nodes, the occurrences are what occurs at the paths into the tree, each path once
  and in document order (`Meets`).  The list is put together like the tree: one list of items after
  another, and a node before what stands among its items.

The answer of a visit is that of the call for the top, and no other call has a part in it.

What a handler does with its node is left open: the type of answers is a parameter, and no handler
can influence which node comes next.  A visitor that goes into children by itself, or stops early,
is not of this kind, and nothing is said about it.
-/
import SafeMarkup.Proofs.Occurrence
import SafeMarkup.Proofs.Pairing
import SafeMarkup.Traversal

namespace SafeMarkup

namespace Way

variable {β γ : Type}

/-- The way on which a list is met in place of each thing. -/
def expand (f : β → List γ) (way : Way β) : Way γ :=
  ⟨way.met.flatMap f, way.fault⟩

theorem expand_andThen (f : β → List γ) (first second : Way β) :
    (first.andThen second).expand f = (first.expand f).andThen (second.expand f) := by
  obtain ⟨met, fault⟩ := first
  cases fault with
  | none => exact congrArg (Way.mk · second.fault) List.flatMap_append
  | some fault => rfl

theorem andThen_eq {first : Way β} (whole : first.fault = none) (second : Way β) :
    first.andThen second = ⟨first.met ++ second.met, second.fault⟩ := by
  rw [andThen, whole]

end Way

/-! ## Calls -/

namespace Visitor

variable {α : Type} {visitor : Visitor α}

/-- The value goes to this handler: that of its own kind if there is one, else the default one. -/
inductive Handles (visitor : Visitor α) : Value → Handler → (Value → α) → Prop
  | own {node : Node} {handle : Value → α} : node.kind ≠ .bare →
      visitor.handlerOf node.kind = some handle →
      visitor.Handles (.node node) (.ofKind node.kind) handle
  | default {value : Value} {handle : Value → α} :
      (∀ node, value = .node node → node.kind = .bare ∨ visitor.handlerOf node.kind = none) →
      visitor.default = some handle → visitor.Handles value .default handle

/-- The call that the value leads to. -/
def Makes (visitor : Visitor α) (value : Value) (call : Call) : Prop :=
  call.visited = value ∧ ∃ handle, visitor.Handles value call.handler handle

theorem Handles.unique {value : Value} {handler handler' : Handler} {handle handle' : Value → α}
    (h : visitor.Handles value handler handle) (h' : visitor.Handles value handler' handle') :
    handler = handler' ∧ handle = handle' := by
  cases h with
  | own kinded own =>
    cases h' with
    | own _ own' => exact ⟨rfl, Option.some.inj (own.symm.trans own')⟩
    | default none _ =>
      rcases none _ rfl with bare | none
      · exact absurd bare kinded
      · exact nomatch own.symm.trans none
  | default none standing =>
    cases h' with
    | own kinded own =>
      rcases none _ rfl with bare | none
      · exact absurd bare kinded
      · exact nomatch own.symm.trans none
    | default _ standing' => exact ⟨rfl, Option.some.inj (standing.symm.trans standing')⟩

theorem dispatch_own {node : Node} {handle : Value → α} (kinded : node.kind ≠ .bare)
    (own : visitor.handlerOf node.kind = some handle) :
    visitor.dispatch (.node node) =
      (some (handle (.node node)), [⟨.ofKind node.kind, .node node⟩]) := by
  unfold dispatch
  cases node with
  | bare => exact absurd rfl kinded
  | _ =>
    simp only [Node.kind] at own ⊢
    rw [own]
    rfl

theorem dispatch_rest {value : Value}
    (none : ∀ node, value = .node node → node.kind = .bare ∨ visitor.handlerOf node.kind = none) :
    visitor.dispatch value =
      (visitor.default.map (· value), visitor.default.toList.map fun _ => ⟨.default, value⟩) := by
  unfold dispatch
  cases value with
  | node node =>
    cases node with
    | bare => cases visitor.default <;> rfl
    | _ =>
      rcases none _ rfl with bare | none
      · cases bare
      · simp only [Node.kind] at none ⊢
        rw [none]
        cases visitor.default <;> rfl
  | _ => cases visitor.default <;> rfl

/-- A value is given to the handler that it goes to, and to none if it goes to none. -/
theorem dispatch_cases (visitor : Visitor α) (value : Value) :
    (∃ handler handle, visitor.Handles value handler handle ∧
      visitor.dispatch value = (some (handle value), [⟨handler, value⟩])) ∨
    (∀ handler handle, ¬ visitor.Handles value handler handle) ∧
      visitor.dispatch value = (none, []) := by
  by_cases own : ∃ node handle, value = .node node ∧ node.kind ≠ .bare ∧
      visitor.handlerOf node.kind = some handle
  · obtain ⟨node, handle, rfl, kinded, own⟩ := own
    exact .inl ⟨_, _, .own kinded own, dispatch_own kinded own⟩
  · have none : ∀ node, value = .node node →
        node.kind = .bare ∨ visitor.handlerOf node.kind = none := by
      intro node same
      refine or_iff_not_imp_left.2 fun kinded => Option.eq_none_iff_forall_ne_some.2 ?_
      exact fun handle found => own ⟨node, handle, same, kinded, found⟩
    rw [dispatch_rest none]
    cases standing : visitor.default with
    | some handle => exact .inl ⟨_, _, .default none standing, rfl⟩
    | none =>
      refine .inr ⟨fun handler handle handles => ?_, rfl⟩
      cases handles with
      | own kinded found => exact own ⟨_, _, rfl, kinded, found⟩
      | default _ standing' => exact nomatch standing.symm.trans standing'

theorem answer_eq_some_iff {value : Value} {answer : α} :
    (visitor.dispatch value).1 = some answer ↔
      ∃ handler handle, visitor.Handles value handler handle ∧ answer = handle value := by
  rcases visitor.dispatch_cases value with ⟨handler, handle, handles, called⟩ | ⟨none, called⟩
  · rw [called]
    constructor
    · rintro ⟨⟩
      exact ⟨handler, handle, handles, rfl⟩
    · rintro ⟨handler', handle', handles', rfl⟩
      obtain ⟨-, rfl⟩ := handles.unique handles'
      rfl
  · rw [called]
    refine iff_of_false nofun ?_
    rintro ⟨handler, handle, handles, -⟩
    exact none handler handle handles

theorem head?_calls_eq_some_iff {value : Value} {call : Call} :
    (visitor.dispatch value).2.head? = some call ↔ visitor.Makes value call := by
  obtain ⟨handler', visited⟩ := call
  rcases visitor.dispatch_cases value with ⟨handler, handle, handles, called⟩ | ⟨none, called⟩
  · rw [called]
    constructor
    · rintro ⟨⟩
      exact ⟨rfl, handle, handles⟩
    · rintro ⟨rfl, handle', handles'⟩
      obtain ⟨rfl, -⟩ := handles.unique handles'
      rfl
  · rw [called]
    refine iff_of_false nofun ?_
    rintro ⟨-, handle, handles⟩
    exact none _ handle handles

theorem calls_eq_toList_head? (visitor : Visitor α) (value : Value) :
    (visitor.dispatch value).2 = (visitor.dispatch value).2.head?.toList := by
  rcases visitor.dispatch_cases value with ⟨handler, handle, -, called⟩ | ⟨-, called⟩ <;>
    rw [called] <;> rfl

theorem picks_flatMap (visitor : Visitor α) (values : List Value) :
    Picks visitor.Makes values (values.flatMap fun value => (visitor.dispatch value).2) := by
  refine ⟨fun value => (visitor.dispatch value).2.head?, fun _ _ => head?_calls_eq_some_iff, ?_⟩
  rw [List.filterMap_eq_flatMap_toList]
  exact congrArg (values.flatMap ·) (funext fun value => visitor.calls_eq_toList_head? value)

/-! ## One way beside the other -/

mutual

/-- The calls of a visit are those that the occurrences lead to, and both ways end alike. -/
theorem calls_eq_expand (visitor : Visitor α) : ∀ value : Value,
    visitor.calls value = value.occurrences.expand fun value => (visitor.dispatch value).2
  | .node n => by
    rw [calls, Value.occurrences, Way.expand_andThen, callsBelow_eq_expand visitor n]
    simp [Way.expand, Way.of]
  | .null | .bool _ | .int _ | .float _ | .str _ | .bytes _ | .list _ | .tuple _ | .set _ | .map _
  | .position _ | .foreign => by
    simp [calls, Value.occurrences, Way.expand, Way.of]
termination_by structural value => value

theorem callsBelow_eq_expand (visitor : Visitor α) : ∀ node : Node,
    visitor.callsBelow node =
      (Value.enclosedBy node).expand fun value => (visitor.dispatch value).2
  | .root children _ _ | .element _ _ children _ _ => callsIn_eq_expand visitor children
  | .bare .. | .text .. | .comment .. | .doctype .. | .raw .. | .unknown .. => rfl
termination_by structural node => node

theorem callsIn_eq_expand (visitor : Visitor α) : ∀ children : Value,
    visitor.callsIn children =
      children.enclosedIn.expand fun value => (visitor.dispatch value).2
  | .list items | .tuple items | .set items => callsAmong_eq_expand visitor items
  | .map entries => callsOfKeys_eq_expand visitor entries
  | .str _ | .bytes _ => by
    simp only [callsIn, Value.enclosedIn, Way.expand, Way.of, List.flatMap_map]
  | .null | .bool _ | .int _ | .float _ | .position _ | .node _ | .foreign => rfl
termination_by structural children => children

theorem callsAmong_eq_expand (visitor : Visitor α) : ∀ items : List Value,
    visitor.callsAmong items =
      (Value.occurrencesAmong items).expand fun value => (visitor.dispatch value).2
  | [] => rfl
  | item :: rest => by
    rw [callsAmong, Value.occurrencesAmong, Way.expand_andThen, calls_eq_expand visitor item,
      callsAmong_eq_expand visitor rest]
termination_by structural items => items

theorem callsOfKeys_eq_expand (visitor : Visitor α) : ∀ entries : List (Value × Value),
    visitor.callsOfKeys entries =
      (Value.occurrencesOfKeys entries).expand fun value => (visitor.dispatch value).2
  | [] => rfl
  | (key, _) :: rest => by
    rw [callsOfKeys, Value.occurrencesOfKeys, Way.expand_andThen, calls_eq_expand visitor key,
      callsOfKeys_eq_expand visitor rest]
termination_by structural entries => entries

end

end Visitor

/-! ## Occurrences of a tree -/

/-- The value is a node, and so is whatever stands among its children, which are in a list or
tuple. -/
inductive Value.IsTree : Value → Prop
  | root {children data position : Value} {items : List Value} : children.items? = some items →
      (∀ item ∈ items, IsTree item) → IsTree (.node (.root children data position))
  | element {tagName properties children data position : Value} {items : List Value} :
      children.items? = some items → (∀ item ∈ items, IsTree item) →
      IsTree (.node (.element tagName properties children data position))
  | childless {node : Node} : node.kind ≠ .root → node.kind ≠ .element → IsTree (.node node)

/-- The value is the node that occurs at the path. -/
def StandsAt (items : List Value) (path : Path) (value : Value) : Prop :=
  ∃ node, occurrence? items path = some node ∧ value = .node node

/-- On the way, what occurs at these paths is met, and nothing else; these are all the paths. -/
structure Meets (items : List Value) (way : Way Value) (paths : List Path) : Prop where
  whole : way.fault = none
  places : Enumerates (IsOccupied items) paths
  met : List.Forall₂ (StandsAt items) paths way.met

namespace Meets

variable {items xs ys : List Value} {first second way : Way Value} {paths ps qs : List Path}
  {node : Node}

theorem isLocal_standsAt (value : Value) : IsLocal fun items path => StandsAt items path value where
  not_nil := fun ⟨node, occurs, _⟩ => (isLocal_occurs node).not_nil occurs
  lt_length := fun ⟨node, occurs, _⟩ => (isLocal_occurs node).lt_length occurs
  congr := fun h => exists_congr fun node => and_congr_left fun _ => (isLocal_occurs node).congr h

theorem nothing (none : ∀ path, ¬ IsOccupied items path) : Meets items (.of []) [] :=
  ⟨rfl, .nothing none, .nil⟩

theorem append (hxs : Meets xs first ps) (hys : Meets ys second qs) :
    Meets (xs ++ ys) (first.andThen second) (ps ++ qs.map (Path.bump xs.length)) where
  whole := by
    rw [Way.andThen_eq hxs.whole]
    exact hys.whole
  places := .append isLocal_isOccupied hxs.places hys.places
  met := by
    rw [Way.andThen_eq hxs.whole]
    refine List.rel_append (hxs.met.imp fun path value stands => ?_) ?_
    · exact (isLocal_standsAt value).append_left stands
    · refine List.forall₂_map_left_iff.2 (hys.met.imp fun path value stands => ?_)
      exact (isLocal_standsAt value).append_right stands

theorem top (h : Meets node.items way paths) :
    Meets [.node node] ((Way.of [.node node]).andThen way) ([0] :: paths.map (0 :: ·)) where
  whole := h.whole
  places := .top h.places isLocal_isOccupied.not_nil fun _ => isOccupied_node_iff
  met := by
    refine .cons ⟨node, occurrence?_top, rfl⟩ (List.forall₂_map_left_iff.2 ?_)
    refine h.met.imp fun path value stands => ?_
    obtain ⟨found, occurs, rfl⟩ := stands
    exact ⟨found, (occurrence?_below rfl (ne_nil_of_occurrence? occurs)).trans occurs, rfl⟩

theorem among (each : ∀ item ∈ items, ∃ paths, Meets [item] item.occurrences paths) :
    ∃ paths, Meets items (Value.occurrencesAmong items) paths := by
  induction items with
  | nil => exact ⟨[], nothing fun _ => isLocal_isOccupied.not_empty⟩
  | cons item rest ih =>
    obtain ⟨ps, first⟩ := each item (.head _)
    obtain ⟨qs, others⟩ := ih fun other ho => each other (.tail _ ho)
    exact ⟨_, first.append others⟩

end Meets

theorem Value.enclosedIn_of_items? {children : Value} {items : List Value}
    (h : children.items? = some items) : children.enclosedIn = occurrencesAmong items := by
  cases children with
  | list _ | tuple _ =>
    cases h
    rfl
  | _ => cases h

theorem Meets.enclosed {node : Node} {items : List Value} (listed : node.items = items)
    (enclosed : Value.enclosedBy node = Value.occurrencesAmong items)
    (each : ∀ item ∈ items, ∃ paths, Meets [item] item.occurrences paths) :
    ∃ paths, Meets [.node node] (Value.node node).occurrences paths := by
  subst listed
  obtain ⟨paths, inside⟩ := Meets.among each
  rw [← enclosed] at inside
  exact ⟨_, inside.top⟩

theorem Value.IsTree.exists_meets {value : Value} (tree : value.IsTree) :
    ∃ paths, Meets [value] value.occurrences paths := by
  induction tree with
  | root listed _ ih | element listed _ ih =>
    refine Meets.enclosed ?_ (Value.enclosedIn_of_items? listed) ih
    rw [Node.items, listed, Option.getD_some]
  | @childless node noRoot noElement =>
    have empty : ∀ item ∈ [], ∃ paths, Meets [item] item.occurrences paths := nofun
    cases node with
    | root | element => contradiction
    | _ => exact Meets.enclosed rfl rfl empty

/-! ## The agreement -/

/-- In a tree of nodes, the way through it meets what occurs at the paths into it, each path once
and in document order.  A visit comes to the same end by calls for these occurrences, in the same
order; each goes to the handler of its kind if there is one, else to the default one if there is
one, else to none.  So none is left out if each has a handler.  The answer is that of the handler of
the top. -/
theorem Visitor.visit_follows_occurrences {α : Type} (visitor : Visitor α) (node : Node)
    (tree : (Value.node node).IsTree) :
    (∃ paths, Meets [.node node] (Value.node node).occurrences paths) ∧
    (visitor.visit (.node node)).calls.fault = none ∧
    Picks visitor.Makes (Value.node node).occurrences.met (visitor.visit (.node node)).calls.met ∧
    ((∀ value ∈ (Value.node node).occurrences.met, ∃ call, visitor.Makes value call) →
      (visitor.visit (.node node)).calls.met.map Call.visited =
        (Value.node node).occurrences.met) ∧
    ∀ answer, (visitor.visit (.node node)).answer = some answer ↔
      ∃ handler handle, visitor.Handles (.node node) handler handle ∧
        answer = handle (.node node) := by
  obtain ⟨paths, meets⟩ := tree.exists_meets
  have calls := visitor.calls_eq_expand (.node node)
  have picks : Picks visitor.Makes (Value.node node).occurrences.met
      (visitor.visit (.node node)).calls.met := by
    rw [visit, calls]
    exact visitor.picks_flatMap _
  refine ⟨⟨paths, meets⟩, ?_, picks, ?_, fun answer => visitor.answer_eq_some_iff⟩
  · rw [visit, calls]
    exact meets.whole
  · exact picks.map_eq Call.visited fun _ _ makes => makes.1

/-- A text that occurs twice, once inside a paragraph, beside a node of no kind; the visitor has
handlers for roots and texts only. -/
theorem Visitor.visit_follows_occurrences_repeated :
    let text : Value := .node (.textOf "a")
    let paragraph : Value := .node (.element (.str "p") (.map []) (.tuple [text]) .null .null)
    let bare : Value := .node (.bare .null .null)
    let top : Node := .root (.list [text, paragraph, bare]) .null .null
    let visitor : Visitor Kind := ⟨fun kind =>
      if kind = .root ∨ kind = .text then some fun _ => kind else none, none⟩
    (Value.node top).IsTree ∧
      (Value.node top).occurrences.met = [.node top, text, paragraph, text, bare] ∧
      (∃ paths, Meets [.node top] (Value.node top).occurrences paths) ∧
      (visitor.visit (.node top)).calls.met =
        [⟨.ofKind .root, .node top⟩, ⟨.ofKind .text, text⟩, ⟨.ofKind .text, text⟩] ∧
      Picks visitor.Makes (Value.node top).occurrences.met (visitor.visit (.node top)).calls.met ∧
      (visitor.visit (.node top)).answer = some .root := by
  intro text paragraph bare top visitor
  have leaf : text.IsTree := .childless nofun nofun
  have inside : paragraph.IsTree := .element rfl fun item hitem => by
    obtain rfl := List.mem_singleton.1 hitem
    exact leaf
  have tree : (Value.node top).IsTree := .root rfl fun item hitem => by
    rcases hitem with _ | ⟨_, _ | ⟨_, _ | ⟨_, hitem⟩⟩⟩
    · exact leaf
    · exact inside
    · exact .childless nofun nofun
    · cases hitem
  obtain ⟨meets, -, picks, -, answer⟩ := visitor.visit_follows_occurrences top tree
  have own : visitor.Handles (.node top) (.ofKind .root) fun _ => .root := .own nofun rfl
  exact ⟨tree, rfl, meets, rfl, picks, (answer _).2 ⟨_, _, own, rfl⟩⟩

end SafeMarkup
