/-
# Where the survivors go

Cleaning leaves exactly the occurrences that survive.  `Policy.Transfers` pairs them with the
occurrences in what cleaning leaves: both sides are listed in full, once and in document order, the
paired nodes say the same of themselves, and one occurrence encloses another afterwards if and only
if it did before.  So nothing is lost, invented, doubled, put in another place or hung below another
node.

Cleaning splices what an unwrapped element enclosed into the list of its siblings, so the paths on
the two sides drift apart.  The pairing is therefore built up with the walk, from operations that
act on both sides at once: putting one list of items after another (`Transfers.append`), and putting
a node around a list of items (`Transfers.keep`, or `Transfers.unwrap` where it goes on one side
only).  The tags that the walk carries are never ones that vanish, since nothing is walked into
below those; without that a text could go because of the tag that the walk was begun with.

Attached data and positions are part of the label, and so is the text of a text node; what an
element carries is not, since properties are filtered one by one (`Proofs/PropertySurvival.lean`).
The theorem speaks about every node, also one with children that are no nodes or stand in no list,
since these do not occur in it by definition.
-/
import SafeMarkup.Proofs.Survival

namespace SafeMarkup

/-! ## Labels -/

/-- The tag name of an element and the value of a text. -/
def Node.word? : Node → Option Value
  | element tagName _ _ _ _ => some tagName
  | text value _ _ => some value
  | _ => none

/-- What a node says of itself, its properties apart. -/
structure Label where
  kind : Kind
  word : Option Value
  data : Value
  position : Value

/-- The label of a node. -/
def Node.label (node : Node) : Label :=
  ⟨node.kind, node.word?, node.data, node.position⟩

/-! ## Pairing -/

/-- The pairs match what survives of the items, inside elements with the tags `enclosing`, with
what occurs in `out`. -/
structure Policy.Transfers (policy : Policy) (enclosing : List String) (items out : List Value)
    (moves : List (Path × Path)) : Prop where
  /-- The first parts are the surviving occurrences, each once and in document order. -/
  sources : Enumerates (policy.Survives enclosing items) (moves.map Prod.fst)
  /-- The second parts are the occurrences in `out`, each once and in document order. -/
  targets : Enumerates (IsOccupied out) (moves.map Prod.snd)
  /-- Paired nodes have the same label. -/
  labels : ∀ move ∈ moves, ∃ source target, occurrence? items move.1 = some source ∧
    occurrence? out move.2 = some target ∧ target.label = source.label
  /-- Enclosure is the same on both sides. -/
  nesting : ∀ a ∈ moves, ∀ b ∈ moves, Encloses a.1 b.1 ↔ Encloses a.2 b.2

namespace Policy.Transfers

variable {policy : Policy} {enclosing : List String} {items out : List Value}
  {moves : List (Path × Path)}

theorem ne_nil (h : policy.Transfers enclosing items out moves) {move : Path × Path}
    (hm : move ∈ moves) : move.1 ≠ [] ∧ move.2 ≠ [] := by
  obtain ⟨source, target, occursIn, occursOut, -⟩ := h.labels move hm
  exact ⟨ne_nil_of_occurrence? occursIn, ne_nil_of_occurrence? occursOut⟩

theorem survives (h : policy.Transfers enclosing items out moves) {move : Path × Path}
    (hm : move ∈ moves) : policy.Survives enclosing items move.1 :=
  (h.sources.2 _).1 (List.mem_map_of_mem hm)

theorem isOccupied (h : policy.Transfers enclosing items out moves) {move : Path × Path}
    (hm : move ∈ moves) : IsOccupied out move.2 :=
  (h.targets.2 _).1 (List.mem_map_of_mem hm)

theorem nothing (none : ∀ path, ¬ policy.Survives enclosing items path) :
    policy.Transfers enclosing items [] [] where
  sources := .nothing none
  targets := .nothing fun _ => isLocal_isOccupied.not_empty
  labels := fun _ hm => absurd hm List.not_mem_nil
  nesting := fun _ hm => absurd hm List.not_mem_nil

theorem empty : policy.Transfers enclosing [] [] [] :=
  nothing fun _ => isLocal_survives.not_empty

theorem append {xs ys outXs outYs : List Value} {first second : List (Path × Path)}
    (hxs : policy.Transfers enclosing xs outXs first)
    (hys : policy.Transfers enclosing ys outYs second) :
    policy.Transfers enclosing (xs ++ ys) (outXs ++ outYs)
      (first ++ second.map fun move => (move.1.bump xs.length, move.2.bump outXs.length)) where
  sources := by
    have joined := hxs.sources.append isLocal_survives hys.sources
    simpa only [List.map_append, List.map_map, Function.comp_def] using joined
  targets := by
    have joined := hxs.targets.append isLocal_isOccupied hys.targets
    simpa only [List.map_append, List.map_map, Function.comp_def] using joined
  labels := by
    intro moved hmoved
    rcases List.mem_append.1 hmoved with hm | hm'
    · obtain ⟨source, target, occursIn, occursOut, same⟩ := hxs.labels moved hm
      exact ⟨source, target, (isLocal_occurs source).append_left occursIn,
        (isLocal_occurs target).append_left occursOut, same⟩
    · obtain ⟨move, hm, rfl⟩ := List.mem_map.1 hm'
      obtain ⟨source, target, occursIn, occursOut, same⟩ := hys.labels move hm
      exact ⟨source, target, (isLocal_occurs source).append_right occursIn,
        (isLocal_occurs target).append_right occursOut, same⟩
  nesting := by
    intro a' ha' b' hb'
    rcases List.mem_append.1 ha' with hxa | hya <;> rcases List.mem_append.1 hb' with hxb | hyb
    · exact hxs.nesting a' hxa b' hxb
    · obtain ⟨b, hb, rfl⟩ := List.mem_map.1 hyb
      exact iff_of_false (isLocal_survives.apart (hxs.survives hxa) (hys.survives hb)).1
        (isLocal_isOccupied.apart (hxs.isOccupied hxa) (hys.isOccupied hb)).1
    · obtain ⟨a, ha, rfl⟩ := List.mem_map.1 hya
      exact iff_of_false (isLocal_survives.apart (hxs.survives hxb) (hys.survives ha)).2
        (isLocal_isOccupied.apart (hxs.isOccupied hxb) (hys.isOccupied ha)).2
    · obtain ⟨a, ha, rfl⟩ := List.mem_map.1 hya
      obtain ⟨b, hb, rfl⟩ := List.mem_map.1 hyb
      exact encloses_bump.trans ((hys.nesting a ha b hb).trans encloses_bump.symm)

section Below

variable (node : Node) {inner : List String}

/-- A node around the items that goes: what survives below it moves up. -/
theorem unwrap (h : policy.Transfers inner node.items out moves) (spared : policy.Spares node)
    (grown : ∀ tag, tag ∈ inner ↔ tag ∈ enclosing ∨ policy.Keeps enclosing [.node node] [0] tag)
    (goes : ¬ policy.Survives enclosing [.node node] [0]) :
    policy.Transfers enclosing [.node node] out (moves.map fun move => (0 :: move.1, move.2)) where
  sources := by
    have lifted := h.sources.below (Q := policy.Survives enclosing [.node node]) fun path => by
      rw [survives_node_iff spared grown, or_iff_right fun top => goes top.2]
    simpa only [List.map_map, Function.comp_def] using lifted
  targets := by
    simpa only [List.map_map, Function.comp_def] using h.targets
  labels := by
    intro moved hmoved
    obtain ⟨move, hm, rfl⟩ := List.mem_map.1 hmoved
    obtain ⟨source, target, occursIn, occursOut, same⟩ := h.labels move hm
    exact ⟨source, target, (occurrence?_below rfl (h.ne_nil hm).1).trans occursIn, occursOut, same⟩
  nesting := by
    intro a' ha' b' hb'
    obtain ⟨a, ha, rfl⟩ := List.mem_map.1 ha'
    obtain ⟨b, hb, rfl⟩ := List.mem_map.1 hb'
    rw [encloses_cons_cons, h.nesting a ha b hb]
    exact and_iff_right rfl

/-- A node around the items that stays, with the node that takes its place. -/
theorem keep (h : policy.Transfers inner node.items out moves) (spared : policy.Spares node)
    (grown : ∀ tag, tag ∈ inner ↔ tag ∈ enclosing ∨ policy.Keeps enclosing [.node node] [0] tag)
    (stays : policy.Survives enclosing [.node node] [0]) {rebuilt : Node}
    (around : rebuilt.items = out) (same : rebuilt.label = node.label) :
    policy.Transfers enclosing [.node node] [.node rebuilt]
      (([0], [0]) :: moves.map fun move => (0 :: move.1, 0 :: move.2)) where
  sources := by
    have lifted := h.sources.top (Q := policy.Survives enclosing [.node node])
      isLocal_survives.not_nil fun path => by
        rw [survives_node_iff spared grown, and_iff_left stays]
    simpa only [List.map_cons, List.map_map, Function.comp_def] using lifted
  targets := by
    have lifted := h.targets.top (Q := IsOccupied [.node rebuilt]) isLocal_isOccupied.not_nil
      fun path => by rw [isOccupied_node_iff, around]
    simpa only [List.map_cons, List.map_map, Function.comp_def] using lifted
  labels := by
    intro moved hmoved
    rcases List.mem_cons.1 hmoved with rfl | hm'
    · exact ⟨node, rebuilt, occurrence?_top, occurrence?_top, same⟩
    · obtain ⟨move, hm, rfl⟩ := List.mem_map.1 hm'
      obtain ⟨source, target, occursIn, occursOut, same⟩ := h.labels move hm
      have ne := h.ne_nil hm
      exact ⟨source, target, (occurrence?_below rfl ne.1).trans occursIn,
        (occurrence?_below rfl ne.2).trans (around ▸ occursOut), same⟩
  nesting := by
    intro a' ha' b' hb'
    rcases List.mem_cons.1 ha' with rfl | hla <;> rcases List.mem_cons.1 hb' with rfl | hlb
    · exact Iff.rfl
    · -- The node encloses whatever is below it, on both sides.
      obtain ⟨b, hb, rfl⟩ := List.mem_map.1 hlb
      have ne := h.ne_nil hb
      rw [encloses_cons_cons, encloses_cons_cons, encloses_nil_left, encloses_nil_left]
      exact iff_of_true ⟨rfl, ne.1⟩ ⟨rfl, ne.2⟩
    · obtain ⟨a, ha, rfl⟩ := List.mem_map.1 hla
      rw [encloses_cons_cons, encloses_cons_cons]
      exact iff_of_false (fun below => not_encloses_nil below.2)
        fun below => not_encloses_nil below.2
    · obtain ⟨a, ha, rfl⟩ := List.mem_map.1 hla
      obtain ⟨b, hb, rfl⟩ := List.mem_map.1 hlb
      rw [encloses_cons_cons, encloses_cons_cons, h.nesting a ha b hb]

end Below

section Untagged

/-! A node that is no element hands on the tags around it, and no rule is asked of it. -/

variable {node : Node}

theorem keep_untagged (h : policy.Transfers enclosing node.items out moves)
    (untagged : node.tag? = none) (stays : policy.Survives enclosing [.node node] [0])
    {rebuilt : Node} (around : rebuilt.items = out) (same : rebuilt.label = node.label) :
    policy.Transfers enclosing [.node node] [.node rebuilt]
      (([0], [0]) :: moves.map fun move => (0 :: move.1, 0 :: move.2)) :=
  h.keep node (spares_of_untagged untagged)
    (fun _ => (or_iff_left (not_keeps_of_untagged untagged)).symm) stays around same

theorem vanish (leaf : node.items = []) (untagged : node.tag? = none)
    (goes : ¬ policy.Survives enclosing [.node node] [0]) :
    policy.Transfers enclosing [.node node] [] [] := by
  have inside : policy.Transfers enclosing node.items [] [] := by
    rw [leaf]
    exact empty
  exact inside.unwrap node (spares_of_untagged untagged)
    (fun _ => (or_iff_left (not_keeps_of_untagged untagged)).symm) goes

end Untagged

end Policy.Transfers

/-! ## The walk -/

namespace Policy

variable {policy : Policy} {enclosing : List String}

theorem tag?_element {tag properties children data position : Value} {name : String} :
    (Node.element tag properties children data position).tag? = some name ↔ tag = .str name := by
  cases tag with
  | str t => simp [Node.tag?]
  | _ => simp [Node.tag?]

section Element

variable {tag properties children data position : Value} {moves : List (Path × Path)}

/-! What the verdict on an element says about the walk below it: the element does not vanish, and
the tags around its children grow by its own if and only if it is kept. -/

theorem spares_element
    (notStripped : ∀ name, policy.judge (enclosing.map .str) tag ≠ .stripped name) :
    policy.Spares (.element tag properties children data position) :=
  fun name tagged vanishes =>
    notStripped name (judge_eq_stripped_iff.2 ⟨tag?_element.1 tagged, vanishes⟩)

theorem grown_of_kept {name : String}
    (verdict : policy.judge (enclosing.map .str) tag = .kept name) (other : String) :
    other ∈ enclosing ++ [name] ↔ other ∈ enclosing ∨ policy.Keeps enclosing
      [.node (.element tag properties children data position)] [0] other := by
  obtain ⟨rfl, -⟩ := judge_eq_kept_iff.1 verdict
  rw [List.mem_append, List.mem_singleton, keeps_top_iff, tag?_element]
  refine or_congr_right ⟨?_, fun kept => (Value.str.inj kept.1).symm⟩
  rintro rfl
  exact ⟨rfl, verdict⟩

theorem grown_of_unwrapped
    (notKept : ∀ name, policy.judge (enclosing.map .str) tag ≠ .kept name) (other : String) :
    other ∈ enclosing ↔ other ∈ enclosing ∨ policy.Keeps enclosing
      [.node (.element tag properties children data position)] [0] other := by
  refine (or_iff_left fun keeps => ?_).symm
  obtain ⟨tagged, verdict⟩ := keeps_top_iff.1 keeps
  exact notKept other (tag?_element.1 tagged ▸ verdict)

theorem transfers_stripped {name : String}
    (verdict : policy.judge (enclosing.map .str) tag = .stripped name) :
    policy.Transfers enclosing [.node (.element tag properties children data position)] [] [] := by
  refine .nothing fun path survives => ?_
  obtain ⟨tagged, vanishes⟩ := judge_eq_stripped_iff.1 verdict
  exact survives.spares name (tag?_element.2 tagged) vanishes

theorem transfers_kept {name : String} {out : List Value} {entries : List (Value × Value)}
    (verdict : policy.judge (enclosing.map .str) tag = .kept name)
    (h : policy.Transfers (enclosing ++ [name]) (children.items?.getD []) out moves) :
    policy.Transfers enclosing [.node (.element tag properties children data position)]
      [.node (.element (.str name) (.map entries) (.tuple out) data position)]
      (([0], [0]) :: moves.map fun move => (0 :: move.1, 0 :: move.2)) := by
  have notStripped : ∀ other, policy.judge (enclosing.map .str) tag ≠ .stripped other := by
    simp [verdict]
  obtain ⟨rfl, -⟩ := judge_eq_kept_iff.1 verdict
  exact Transfers.keep (.element (.str name) properties children data position) h
    (spares_element notStripped) (grown_of_kept verdict)
    (.element (keeps_top_iff.2 ⟨rfl, verdict⟩)) rfl rfl

theorem transfers_unwrapped {out : List Value}
    (notStripped : ∀ name, policy.judge (enclosing.map .str) tag ≠ .stripped name)
    (notKept : ∀ name, policy.judge (enclosing.map .str) tag ≠ .kept name)
    (h : policy.Transfers enclosing (children.items?.getD []) out moves) :
    policy.Transfers enclosing [.node (.element tag properties children data position)] out
      (moves.map fun move => (0 :: move.1, move.2)) := by
  refine Transfers.unwrap (.element tag properties children data position) h
    (spares_element notStripped) (grown_of_unwrapped notKept) fun survives => ?_
  rcases survives.top_cases with ⟨_, _, _, e⟩ | ⟨_, _, _, e⟩ | ⟨name, tagged, verdict⟩
  · cases e
  · cases e
  · exact notKept name (tag?_element.1 tagged ▸ verdict)

end Element

mutual

/-- What survives of a node is what takes its place, if no tag around it vanishes. -/
theorem clean_transfers (policy : Policy) : ∀ (node : Node) (enclosing : List String),
    (∀ outer ∈ enclosing, outer ∉ policy.strip) →
    ∃ moves, policy.Transfers enclosing [.node node]
      ((policy.clean (enclosing.map .str) node).nodes.map .node) moves
  | .root children data position, enclosing, last => by
    obtain ⟨moves, h⟩ := cleanChildren_transfers policy children enclosing last
    have stays : policy.Survives enclosing [.node (.root children data position)] [0] :=
      .root occurrence?_top (isLive_top.2 (spares_of_untagged rfl))
    exact ⟨_, h.keep_untagged rfl stays rfl rfl⟩
  | .element tag properties children data position, enclosing, last => by
    cases verdict : policy.judge (enclosing.map .str) tag with
    | stripped name =>
      rw [nodes_clean_stripped verdict]
      exact ⟨_, transfers_stripped verdict⟩
    | kept name =>
      obtain ⟨moves, h⟩ := cleanChildren_transfers policy children (enclosing ++ [name])
        (lasts_inside_kept last verdict)
      rw [List.map_append] at h
      rw [nodes_clean_kept verdict]
      exact ⟨_, transfers_kept verdict h⟩
    | _ =>
      -- Either way of being unwrapped leaves the tags around the children as they are.
      obtain ⟨moves, h⟩ := cleanChildren_transfers policy children enclosing last
      rw [nodes_clean_unwrapped (by simp [verdict]) (by simp [verdict])]
      exact ⟨_, transfers_unwrapped (by simp [verdict]) (by simp [verdict]) h⟩
  | .text value data position, enclosing, last => by
    cases value with
    | str s =>
      rw [nodes_clean_text_inside last]
      have stays : policy.Survives enclosing [.node (.text (.str s) data position)] [0] :=
        .text occurrence?_top (isLive_top.2 (spares_of_untagged rfl))
      exact ⟨_, Transfers.empty.keep_untagged rfl stays rfl rfl⟩
    | _ =>
      refine ⟨_, .vanish rfl rfl fun survives => ?_⟩
      rcases survives.top_cases with ⟨_, _, _, e⟩ | ⟨_, _, _, e⟩ | ⟨_, e, _⟩ <;> cases e
  | .bare .., _, _ | .comment .., _, _ | .doctype .., _, _ | .raw .., _, _ | .unknown .., _, _ => by
    refine ⟨_, .vanish rfl rfl fun survives => ?_⟩
    rcases survives.top_cases with ⟨_, _, _, e⟩ | ⟨_, _, _, e⟩ | ⟨_, e, _⟩ <;> cases e
termination_by structural node => node

theorem cleanChildren_transfers (policy : Policy) : ∀ (children : Value) (enclosing : List String),
    (∀ outer ∈ enclosing, outer ∉ policy.strip) →
    ∃ moves, policy.Transfers enclosing (children.items?.getD [])
      ((policy.cleanChildren (enclosing.map .str) children).nodes.map .node) moves
  | .list items, enclosing, last | .tuple items, enclosing, last =>
    cleanItems_transfers policy items enclosing last
  | .null, _, _ | .bool _, _, _ | .int _, _, _ | .float _, _, _ | .str _, _, _ | .bytes _, _, _
  | .set _, _, _ | .map _, _, _ | .position _, _, _ | .node _, _, _ | .foreign, _, _ =>
    ⟨[], .empty⟩
termination_by structural children => children

theorem cleanItems_transfers (policy : Policy) : ∀ (items : List Value) (enclosing : List String),
    (∀ outer ∈ enclosing, outer ∉ policy.strip) →
    ∃ moves, policy.Transfers enclosing items
      ((policy.cleanItems (enclosing.map .str) items).nodes.map .node) moves
  | [], _, _ => ⟨[], .empty⟩
  | item :: rest, enclosing, last => by
    obtain ⟨first, hfirst⟩ := cleanItem_transfers policy item enclosing last
    obtain ⟨second, hsecond⟩ := cleanItems_transfers policy rest enclosing last
    rw [cleanItems, Cleaned.nodes_append, List.map_append]
    exact ⟨_, hfirst.append hsecond⟩
termination_by structural items => items

theorem cleanItem_transfers (policy : Policy) : ∀ (item : Value) (enclosing : List String),
    (∀ outer ∈ enclosing, outer ∉ policy.strip) →
    ∃ moves, policy.Transfers enclosing [item]
      ((policy.cleanItem (enclosing.map .str) item).nodes.map .node) moves
  | .node node, enclosing, last => clean_transfers policy node enclosing last
  | .null, _, _ | .bool _, _, _ | .int _, _, _ | .float _, _, _ | .str _, _, _ | .bytes _, _, _
  | .list _, _, _ | .tuple _, _, _ | .set _, _, _ | .map _, _, _ | .position _, _, _
  | .foreign, _, _ =>
    ⟨[], .nothing fun _ survives => not_isOccupied_of_node? rfl survives.isOccupied⟩
termination_by structural item => item

end

/-- Cleaning a node leaves one node for each occurrence in it that survives, and nothing else: in
the same order, with the same labels, and one enclosing another if and only if it did. -/
theorem clean_leaves_survivors (policy : Policy) (node : Node) :
    ∃ moves, policy.Transfers [] [.node node] ((policy.clean [] node).nodes.map .node) moves :=
  clean_transfers policy node [] fun _ h => absurd h List.not_mem_nil

end Policy

end SafeMarkup
