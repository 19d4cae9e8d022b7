/-
# The shape of a sanitized tree

A sanitized root comes back as that root.  Anything else comes back in the shape that the number of
its outermost survivors decides: none leaves an empty root, a sole one stands by itself, several get
a root around them.

So a root around exactly one node comes back in one case only (`sanitize_shape`): the sole outermost
survivor is itself a root, one that stood below the top, and a single survivor hangs from it.  That
root is not taken away, although the node in it could stand by itself.

Which survivors hang from which is asked of the tree that was sanitized.  The pairing of survivors
with what cleaning leaves keeps enclosure, and so it also keeps who hangs from whom; on the other
side those are the children of a node, and they can be counted.

It would be natural to expect that only a root comes back as a root around one node, and
`not_forall_minimal` shows that it is not so.  The theorem says in which trees it happens, for
every policy; everything else about the shape, the count of survivors and what is attached to the
root, holds without exception.
-/
import Mathlib.Data.List.Sort
import SafeMarkup.Policy.Standard
import SafeMarkup.Proofs.Conformance
import SafeMarkup.Proofs.Transfer

namespace SafeMarkup

/-! ## Who hangs from whom -/

/-- The occurrence has the property and is enclosed by `outer`, and nothing between them has the
property.  From the empty path hang the outermost ones. -/
def Hangs (P : Path → Prop) (outer path : Path) : Prop :=
  P path ∧ Encloses outer path ∧ ∀ way, P way → Encloses outer way → ¬ Encloses way path

theorem occurrence?_append {items : List Value} {outer path : Path} (ne : outer ≠ [])
    (further : path ≠ []) :
    occurrence? items (outer ++ path) =
      (occurrence? items outer).bind fun node => occurrence? node.items path := by
  obtain ⟨j, rest, rfl⟩ := List.exists_cons_of_ne_nil further
  induction outer generalizing items with
  | nil => exact absurd rfl ne
  | cons i outer ih =>
    cases outer with
    | nil => rw [occurrence?_singleton, List.singleton_append, occurrence?]
    | cons k outer =>
      rw [List.cons_append, List.cons_append, occurrence?, occurrence?,
        Option.bind_assoc (items[i]?.bind Value.node?)]
      exact Option.bind_congr fun node _ => ih (List.cons_ne_nil k outer)

theorem IsOccupied.of_append {items : List Value} {outer path : Path}
    (h : IsOccupied items (outer ++ path)) (ne : outer ≠ []) : IsOccupied items outer := by
  by_cases further : path = []
  · rwa [further, List.append_nil] at h
  · obtain ⟨node, occurs⟩ := h
    rw [occurrence?_append ne further] at occurs
    obtain ⟨found, h, -⟩ := Option.bind_eq_some_iff.1 occurs
    exact ⟨found, h⟩

/-- What hangs from a node, of all that occurs, are its children. -/
theorem hangs_isOccupied_iff {items : List Value} {outer path : Path} :
    Hangs (IsOccupied items) outer path ↔
      ∃ i, IsOccupied items (outer ++ [i]) ∧ outer ++ [i] = path := by
  constructor
  · rintro ⟨occupied, ⟨⟨rest, rfl⟩, ne⟩, between⟩
    match rest with
    | [] => exact absurd (List.append_nil outer).symm ne
    | [i] => exact ⟨i, occupied, rfl⟩
    | i :: j :: rest =>
      -- The child on the way stands between.
      rw [← List.singleton_append, ← List.append_assoc] at occupied between
      have child : IsOccupied items (outer ++ [i]) := occupied.of_append (by simp)
      exact absurd ⟨List.prefix_append .., by simp⟩
        (between _ child ⟨List.prefix_append .., by simp⟩)
  · rintro ⟨i, occupied, rfl⟩
    refine ⟨occupied, ⟨List.prefix_append .., by simp⟩, fun way _ above below => ?_⟩
    have longer : outer.length < way.length :=
      Nat.lt_of_not_le fun le => above.2 (above.1.eq_of_length_le le)
    have shorter : way.length < (outer ++ [i]).length :=
      Nat.lt_of_not_le fun le => below.2 (below.1.eq_of_length_le le)
    rw [List.length_append, List.length_singleton] at shorter
    omega

theorem isOccupied_map_node {nodes : List Node} {i : Nat} :
    IsOccupied (nodes.map .node) [i] ↔ i < nodes.length := by
  constructor
  · rintro ⟨node, occurs⟩
    simpa using lt_length_of_occurrence? occurs
  · intro lt
    refine ⟨nodes[i], ?_⟩
    rw [occurrence?_singleton, List.getElem?_map, List.getElem?_eq_getElem lt]
    rfl

/-- The node is a root around exactly one node. -/
def Node.HoldsOne (node : Node) : Prop :=
  node.kind = .root ∧ node.items.length = 1

/-! ## Counting -/

theorem Enumerates.unique {P : Path → Prop} {paths paths' : List Path} (h : Enumerates P paths)
    (h' : Enumerates P paths') : paths = paths' :=
  h.1.eq_of_mem_iff h'.1 fun path => (h.2 path).trans (h'.2 path).symm

theorem Enumerates.filter {α : Type} {f : α → Path} {P Q : Path → Prop} {xs : List α}
    (h : Enumerates P (xs.map f)) {keep : α → Bool} (step : ∀ x ∈ xs, keep x = true ↔ Q (f x))
    (stronger : ∀ path, Q path → P path) : Enumerates Q ((xs.filter keep).map f) := by
  refine ⟨h.1.sublist (List.filter_sublist.map f), fun path => ?_⟩
  constructor
  · intro hp
    obtain ⟨x, hx, rfl⟩ := List.mem_map.1 hp
    obtain ⟨hx, kept⟩ := List.mem_filter.1 hx
    exact (step x hx).1 kept
  · intro q
    obtain ⟨x, hx, rfl⟩ := List.mem_map.1 ((h.2 path).2 (stronger path q))
    exact List.mem_map_of_mem (List.mem_filter.2 ⟨hx, (step x hx).2 q⟩)

theorem enumerates_children {items : List Value} {outer : Path} {n : Nat}
    (count : ∀ i, IsOccupied items (outer ++ [i]) ↔ i < n) :
    Enumerates (Hangs (IsOccupied items) outer)
      ((List.range n).map fun i => outer ++ [i]) := by
  constructor
  · refine List.pairwise_map.2 (List.pairwise_lt_range.imp fun lt => ?_)
    exact List.append_left_lt (List.cons_lt_cons_iff.2 (.inl lt))
  · intro path
    rw [hangs_isOccupied_iff, List.mem_map]
    simp only [List.mem_range, count]

namespace Policy

variable {policy : Policy} {enclosing : List String} {items out : List Value}
  {moves : List (Path × Path)} {node : Node}

theorem Transfers.hangs_iff (h : policy.Transfers enclosing items out moves) {outer outer' : Path}
    (paired : (outer, outer') ∈ moves ∨ outer = [] ∧ outer' = []) {move : Path × Path}
    (hm : move ∈ moves) :
    Hangs (policy.Survives enclosing items) outer move.1 ↔
      Hangs (IsOccupied out) outer' move.2 := by
  have same : ∀ other ∈ moves, Encloses outer other.1 ↔ Encloses outer' other.2 := by
    intro other ho
    rcases paired with pair | ⟨rfl, rfl⟩
    · exact h.nesting _ pair _ ho
    · rw [encloses_nil_left, encloses_nil_left]
      exact iff_of_true (h.ne_nil ho).1 (h.ne_nil ho).2
  unfold Hangs
  rw [same move hm]
  refine and_congr (iff_of_true (h.survives hm) (h.isOccupied hm)) (and_congr_right fun _ => ?_)
  constructor
  · intro between way occupied above below
    obtain ⟨other, ho, rfl⟩ := List.mem_map.1 ((h.targets.2 way).2 occupied)
    exact between other.1 (h.survives ho) ((same other ho).2 above) ((h.nesting _ ho _ hm).2 below)
  · intro between way survives above below
    obtain ⟨other, ho, rfl⟩ := List.mem_map.1 ((h.sources.2 way).2 survives)
    exact between other.2 (h.isOccupied ho) ((same other ho).1 above)
      ((h.nesting _ ho _ hm).1 below)

/-- As many survivors hang from an occurrence as the node in its place has children. -/
theorem Transfers.hanging (h : policy.Transfers enclosing items out moves) {outer outer' : Path}
    (paired : (outer, outer') ∈ moves ∨ outer = [] ∧ outer' = []) {n : Nat}
    (count : ∀ i, IsOccupied out (outer' ++ [i]) ↔ i < n) :
    ∃ tops, Enumerates (Hangs (policy.Survives enclosing items) outer) tops ∧ tops.length = n := by
  classical
  let keep (move : Path × Path) : Bool := decide (Hangs (IsOccupied out) outer' move.2)
  have sources : Enumerates (Hangs (policy.Survives enclosing items) outer)
      ((moves.filter keep).map Prod.fst) :=
    h.sources.filter (fun move hm => decide_eq_true_iff.trans (h.hangs_iff paired hm).symm)
      fun _ hangs => hangs.1
  have targets : Enumerates (Hangs (IsOccupied out) outer') ((moves.filter keep).map Prod.snd) :=
    h.targets.filter (fun _ _ => decide_eq_true_iff) fun _ hangs => hangs.1
  refine ⟨_, sources, ?_⟩
  rw [List.length_map, ← List.length_map Prod.snd, targets.unique (enumerates_children count),
    List.length_map, List.length_range]

/-! ## The shape -/

theorem clean_tops (policy : Policy) (node : Node) :
    ∃ tops, Enumerates (Hangs (policy.Survives [] [.node node]) []) tops ∧
      tops.length = (policy.clean [] node).nodes.length := by
  obtain ⟨moves, h⟩ := clean_transfers policy node [] fun _ h => absurd h List.not_mem_nil
  exact h.hanging (.inr ⟨rfl, rfl⟩) fun _ => isOccupied_map_node

/-- A sole node that cleaning leaves stands for the one outermost survivor, and is a root around
exactly one node if that survivor is a root that a single survivor hangs from. -/
theorem clean_sole {sole : Node} {path : Path} (left : (policy.clean [] node).nodes = [sole])
    (top : Enumerates (Hangs (policy.Survives [] [.node node]) []) [path]) :
    ∃ source, occurrence? [.node node] path = some source ∧ sole.label = source.label ∧
      (sole.HoldsOne ↔ source.kind = .root ∧
        ∃ inner, Enumerates (Hangs (policy.Survives [] [.node node]) path) [inner]) := by
  obtain ⟨moves, h⟩ := clean_transfers policy node [] fun _ h => absurd h List.not_mem_nil
  obtain ⟨kids, inner, items, -⟩ := (clean_conforms policy node [] sole (by simp [left])).items
  rw [List.map_nil, left] at h
  -- What is left occurs at the first place, and so the survivor paired with it is outermost.
  have first : IsOccupied [.node sole] [0] := ⟨sole, occurrence?_top⟩
  obtain ⟨⟨path', _⟩, hm, rfl⟩ := List.mem_map.1 ((h.targets.2 [0]).2 first)
  have hangs : Hangs (policy.Survives [] [.node node]) [] path' :=
    (h.hangs_iff (.inr ⟨rfl, rfl⟩) hm).2 (hangs_isOccupied_iff.2 ⟨0, first, rfl⟩)
  obtain rfl := List.mem_singleton.1 ((top.2 path').2 hangs)
  obtain ⟨source, target, occurs, occursOut, same⟩ := h.labels _ hm
  obtain rfl := Option.some.inj (occurrence?_top.symm.trans occursOut)
  have count : ∀ i, IsOccupied [.node sole] ([0] ++ [i]) ↔ i < sole.items.length := by
    intro i
    have below : occurrence? [.node sole] ([0] ++ [i]) = occurrence? sole.items [i] :=
      occurrence?_below rfl (List.cons_ne_nil i [])
    rw [IsOccupied, below, items, List.length_map]
    exact isOccupied_map_node
  obtain ⟨inside, enumerates, length⟩ := h.hanging (.inl hm) count
  refine ⟨source, occurs, same, ?_⟩
  rw [Node.HoldsOne, show sole.kind = source.kind from congrArg Label.kind same, ← length]
  refine and_congr_right fun _ => ⟨fun one => ?_, ?_⟩
  · obtain ⟨inner, rfl⟩ := List.length_eq_one_iff.1 one
    exact ⟨inner, enumerates⟩
  · rintro ⟨inner, alone⟩
    rw [enumerates.unique alone, List.length_singleton]

/-- A root comes back as that root, and what is no tree as an empty one.  Of any other tree, the
outermost survivors say what comes back: an empty root, the sole one of them, or a root around them
all.  And a root around exactly one node comes back if and only if the sole outermost survivor is a
root that a single survivor hangs from. -/
theorem sanitize_shape (policy : Policy) (value : Value) :
    (treeIn? value = none → policy.sanitize value = Node.rootOf []) ∧
    (∀ children data position, treeIn? value = some (.root children data position) →
      ∃ kids : List Node,
        policy.sanitize value = .root (.tuple (kids.map .node)) data position) ∧
    ∀ node, treeIn? value = some node → node.kind ≠ .root →
      ∃ tops, Enumerates (Hangs (policy.Survives [] [.node node]) []) tops ∧
        (tops = [] → policy.sanitize value = Node.rootOf []) ∧
        (∀ path, tops = [path] → ∃ source, occurrence? [.node node] path = some source ∧
          (policy.sanitize value).label = source.label) ∧
        (2 ≤ tops.length → ∃ kids : List Node, kids.length = tops.length ∧
          policy.sanitize value = Node.rootOf kids) ∧
        ((policy.sanitize value).HoldsOne ↔
          ∃ path source inner, tops = [path] ∧ occurrence? [.node node] path = some source ∧
            source.kind = .root ∧
            Enumerates (Hangs (policy.Survives [] [.node node]) path) [inner]) := by
  have sanitized : ∀ {node}, treeIn? value = some node →
      policy.sanitize value = Node.collapse (policy.clean [] node).nodes := by
    intro node tree
    rw [sanitize, sanitizeWithRecords, tree]
  refine ⟨fun none => ?_, fun children data position tree => ?_, fun node tree notRoot => ?_⟩
  · rw [sanitize, sanitizeWithRecords, none]
  · exact ⟨_, sanitized tree⟩
  obtain ⟨tops, enumerates, length⟩ := clean_tops policy node
  rw [sanitized tree]
  refine ⟨tops, enumerates, ?_⟩
  match left : (policy.clean [] node).nodes with
  | [] =>
    rw [left, List.length_nil, List.length_eq_zero_iff] at length
    subst length
    refine ⟨fun _ => rfl, nofun, nofun, fun one => absurd one.2 (by decide), ?_⟩
    rintro ⟨_, _, _, h, -⟩
    cases h
  | [sole] =>
    rw [left] at length
    obtain ⟨path, rfl⟩ := List.length_eq_one_iff.1 length
    obtain ⟨source, occurs, same, holdsOne⟩ := clean_sole left enumerates
    refine ⟨nofun, ?_, fun two => absurd two (by simp), holdsOne.trans ?_⟩
    · rintro _ ⟨⟩
      exact ⟨source, occurs, same⟩
    · constructor
      · rintro ⟨isRoot, inner, alone⟩
        exact ⟨path, source, inner, rfl, occurs, isRoot, alone⟩
      · rintro ⟨_, _, inner, ⟨⟩, occurs', isRoot, alone⟩
        obtain rfl := Option.some.inj (occurs.symm.trans occurs')
        exact ⟨isRoot, inner, alone⟩
  | first :: second :: rest =>
    rw [left] at length
    refine ⟨?_, ?_, fun _ => ⟨_, length.symm, rfl⟩, fun one => ?_, ?_⟩
    · rintro rfl
      cases length
    · rintro _ rfl
      cases length
    · have sole : ((first :: second :: rest).map Value.node).length = 1 := one.2
      rw [List.length_map] at sole
      cases sole
    · rintro ⟨_, _, _, rfl, -⟩
      cases length

/-- A text inside a root inside an element that may not stay comes back with that root around
it. -/
theorem not_forall_minimal :
    ¬ ∀ (policy : Policy) (node : Node), node.kind ≠ .root →
      ¬ (policy.sanitize (.node node)).HoldsOne := by
  intro minimal
  let nested : Node := .root (.tuple [.node (.textOf "a")]) .null .null
  let outer : Node := .element (.str "x") (.map []) (.tuple [.node nested]) .null .null
  have came : Policy.standard.sanitize (.node outer) = nested := rfl
  exact minimal .standard outer nofun (came ▸ ⟨rfl, rfl⟩)

end Policy

end SafeMarkup
