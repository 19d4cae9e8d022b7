/-
# Where a node occurs

The nodes that occur in a list of items are named by paths: the index of an item, then the index of
an item among the children of that node, and so on.  Two copies of one node are two occurrences.
Children count if they are in a list or tuple, and only roots and elements have any.

Paths carry the two relations that a tree is read by.  One occurrence encloses another if its path
is a proper beginning of the other's, and it comes first in document order if its path is the
smaller one in the lexicographic order of lists, in which a list comes after its beginnings.

What is said about the occurrences in a list of items splits where the list splits: an occurrence
in `xs ++ ys` is one in `xs`, or one in `ys` whose path has been moved past `xs`.  `IsLocal` is what
a property of paths needs for that, and `Enumerates.append` is the consequence for the list of all
paths that have it.

Paths are into lists of items and not into nodes, because that is what the walks take apart: a node
leaves a list of nodes when it is cleaned, and the children of an unwrapped element become items of
the list that it stood in.  The node at the top of a tree has the path `[0]` in the list that holds
it alone.  Nothing in this module knows about policies.
-/
import SafeMarkup.Value.Basic

namespace SafeMarkup

/-! ## Paths -/

/-- The way to an occurrence. -/
abbrev Path := List Nat

/-- The first occurrence encloses the second. -/
def Encloses (outer inner : Path) : Prop :=
  outer <+: inner ∧ outer ≠ inner

theorem encloses_cons_cons {i j : Nat} {p q : Path} :
    Encloses (i :: p) (j :: q) ↔ i = j ∧ Encloses p q := by
  rw [Encloses, Encloses, List.cons_prefix_cons]
  constructor
  · rintro ⟨⟨rfl, le⟩, ne⟩
    exact ⟨rfl, le, fun e => ne (e ▸ rfl)⟩
  · rintro ⟨rfl, le, ne⟩
    exact ⟨⟨rfl, le⟩, fun e => ne (List.cons.inj e).2⟩

theorem encloses_nil_left {q : Path} : Encloses [] q ↔ q ≠ [] :=
  ⟨fun h e => h.2 e.symm, fun h => ⟨List.nil_prefix, fun e => h e.symm⟩⟩

theorem not_encloses_nil {p : Path} : ¬ Encloses p [] :=
  fun h => h.2 (List.prefix_nil.1 h.1)

/-- The path after `k` items have been put before the items that it leads into. -/
def Path.bump (k : Nat) : Path → Path
  | [] => []
  | i :: p => (k + i) :: p

theorem Path.bump_lt_bump {k : Nat} {p q : Path} (h : p < q) : bump k p < bump k q := by
  match p, q with
  | [], [] => exact h
  | [], _ :: _ => exact List.nil_lt_cons ..
  | _ :: _, [] => exact absurd h (List.not_lt_nil _)
  | i :: p, j :: q =>
    refine List.cons_lt_cons_iff.2 ((List.cons_lt_cons_iff.1 h).imp ?_ ?_)
    · intro lt
      omega
    · rintro ⟨rfl, lt⟩
      exact ⟨rfl, lt⟩

theorem encloses_bump {k : Nat} {p q : Path} :
    Encloses (Path.bump k p) (Path.bump k q) ↔ Encloses p q := by
  match p, q with
  | [], [] => exact Iff.rfl
  | [], _ :: _ =>
    exact iff_of_true (encloses_nil_left.2 (List.cons_ne_nil _ _))
      (encloses_nil_left.2 (List.cons_ne_nil _ _))
  | _ :: _, [] => exact iff_of_false not_encloses_nil not_encloses_nil
  | i :: p, j :: q =>
    rw [Path.bump, Path.bump, encloses_cons_cons, encloses_cons_cons, Nat.add_left_cancel_iff]

/-! ## Occurrences -/

/-- The node, if the value is one. -/
def Value.node? : Value → Option Node
  | node n => some n
  | _ => none

/-- What a node encloses at the first level. -/
def Node.items : Node → List Value
  | root children _ _ | element _ _ children _ _ => children.items?.getD []
  | _ => []

/-- The node that occurs at a path. -/
def occurrence? : List Value → Path → Option Node
  | _, [] => none
  | items, [i] => items[i]?.bind Value.node?
  | items, i :: j :: path =>
    (items[i]?.bind Value.node?).bind fun node => occurrence? node.items (j :: path)

@[simp] theorem occurrence?_nil (items : List Value) : occurrence? items [] = none := by
  unfold occurrence?
  rfl

theorem occurrence?_singleton (items : List Value) (i : Nat) :
    occurrence? items [i] = items[i]?.bind Value.node? := by
  unfold occurrence?
  rfl

theorem occurrence?_below {items : List Value} {i : Nat} {node : Node} {path : Path}
    (h : items[i]? = some (.node node)) (ne : path ≠ []) :
    occurrence? items (i :: path) = occurrence? node.items path := by
  cases path with
  | nil => exact absurd rfl ne
  | cons j path =>
    rw [occurrence?, h]
    rfl

theorem occurrence?_congr {items items' : List Value} {i j : Nat} (h : items[i]? = items'[j]?)
    (path : Path) : occurrence? items (i :: path) = occurrence? items' (j :: path) := by
  cases path with
  | nil => rw [occurrence?_singleton, occurrence?_singleton, h]
  | cons _ _ => rw [occurrence?, occurrence?, h]

theorem ne_nil_of_occurrence? {items : List Value} {path : Path} {node : Node}
    (h : occurrence? items path = some node) : path ≠ [] := by
  rintro rfl
  rw [occurrence?_nil] at h
  cases h

theorem lt_length_of_occurrence? {items : List Value} {i : Nat} {path : Path} {node : Node}
    (h : occurrence? items (i :: path) = some node) : i < items.length := by
  refine Nat.lt_of_not_le fun le => ?_
  have none : items[i]? = none := List.getElem?_eq_none le
  cases path with
  | nil =>
    rw [occurrence?_singleton, none] at h
    cases h
  | cons _ _ =>
    rw [occurrence?, none] at h
    cases h

theorem occurrence?_top {node : Node} : occurrence? [.node node] [0] = some node :=
  occurrence?_singleton ..

/-- A node occurs at the path. -/
def IsOccupied (items : List Value) (path : Path) : Prop :=
  ∃ node, occurrence? items path = some node

/-! ## Local properties -/

/-- The property of paths depends only on the item that the path begins with, and no path has it
that begins with none. -/
structure IsLocal (R : List Value → Path → Prop) : Prop where
  not_nil : ∀ {items}, ¬ R items []
  lt_length : ∀ {items i path}, R items (i :: path) → i < items.length
  congr : ∀ {items items' : List Value} {i j path}, items[i]? = items'[j]? →
    (R items (i :: path) ↔ R items' (j :: path))

namespace IsLocal

variable {R : List Value → Path → Prop}

theorem not_empty (hR : IsLocal R) {path : Path} : ¬ R [] path := by
  intro h
  cases path with
  | nil => exact hR.not_nil h
  | cons i path => exact Nat.not_lt_zero i (hR.lt_length h)

theorem exists_cons (hR : IsLocal R) {item : Value} {path : Path} (h : R [item] path) :
    ∃ rest, path = 0 :: rest := by
  cases path with
  | nil => exact absurd h hR.not_nil
  | cons i rest =>
    obtain rfl : i = 0 := Nat.lt_one_iff.1 (hR.lt_length h)
    exact ⟨rest, rfl⟩

theorem append_left (hR : IsLocal R) {xs ys : List Value} {path : Path} (h : R xs path) :
    R (xs ++ ys) path := by
  cases path with
  | nil => exact absurd h hR.not_nil
  | cons i path => exact (hR.congr (List.getElem?_append_left (hR.lt_length h))).2 h

theorem append_right (hR : IsLocal R) {xs ys : List Value} {path : Path} (h : R ys path) :
    R (xs ++ ys) (path.bump xs.length) := by
  cases path with
  | nil => exact absurd h hR.not_nil
  | cons i path =>
    refine (hR.congr ?_).2 h
    rw [List.getElem?_append_right (Nat.le_add_right ..), Nat.add_sub_cancel_left]

/-- A path into `xs ++ ys` leads into `xs`, or into `ys` past `xs`. -/
theorem append_iff (hR : IsLocal R) {xs ys : List Value} {path : Path} :
    R (xs ++ ys) path ↔ R xs path ∨ ∃ rest, R ys rest ∧ rest.bump xs.length = path := by
  constructor
  · intro h
    cases path with
    | nil => exact absurd h hR.not_nil
    | cons i path =>
      by_cases lt : i < xs.length
      · exact .inl ((hR.congr (List.getElem?_append_left lt)).1 h)
      · have le : xs.length ≤ i := Nat.le_of_not_lt lt
        refine .inr ⟨(i - xs.length) :: path, ?_, ?_⟩
        · exact (hR.congr (List.getElem?_append_right le)).1 h
        · rw [Path.bump, Nat.add_sub_cancel' le]
  · rintro (h | ⟨rest, h, rfl⟩)
    · exact hR.append_left h
    · exact hR.append_right h

/-- An occurrence in `xs` and one in `ys` do not enclose each other in `xs ++ ys`. -/
theorem apart (hR : IsLocal R) {xs ys : List Value} {p q : Path} (hp : R xs p) (hq : R ys q) :
    ¬ Encloses p (q.bump xs.length) ∧ ¬ Encloses (q.bump xs.length) p := by
  cases p with
  | nil => exact absurd hp hR.not_nil
  | cons i p =>
    cases q with
    | nil => exact absurd hq hR.not_nil
    | cons j q =>
      have lt : i < xs.length := hR.lt_length hp
      rw [Path.bump, encloses_cons_cons, encloses_cons_cons]
      exact ⟨fun h => by omega, fun h => by omega⟩

end IsLocal

theorem isLocal_occurs (node : Node) :
    IsLocal fun items path => occurrence? items path = some node where
  not_nil := fun h => ne_nil_of_occurrence? h rfl
  lt_length := lt_length_of_occurrence?
  congr := fun h => by rw [occurrence?_congr h]

theorem isLocal_isOccupied : IsLocal IsOccupied where
  not_nil := fun ⟨node, h⟩ => (isLocal_occurs node).not_nil h
  lt_length := fun ⟨node, h⟩ => (isLocal_occurs node).lt_length h
  congr := fun h => exists_congr fun node => (isLocal_occurs node).congr h

theorem not_isOccupied_of_node? {item : Value} (h : item.node? = none) {path : Path} :
    ¬ IsOccupied [item] path := by
  intro occupied
  obtain ⟨rest, rfl⟩ := isLocal_isOccupied.exists_cons occupied
  obtain ⟨node, occurs⟩ := occupied
  cases rest with
  | nil =>
    rw [occurrence?_singleton] at occurs
    exact nomatch h.symm.trans occurs
  | cons j rest =>
    obtain ⟨found, top, -⟩ := Option.bind_eq_some_iff.1 occurs
    exact nomatch h.symm.trans top

/-- What occurs in a node and below it: the node itself, and what occurs among its items. -/
theorem isOccupied_node_iff {node : Node} {path : Path} :
    IsOccupied [.node node] path ↔
      path = [0] ∨ ∃ rest, IsOccupied node.items rest ∧ 0 :: rest = path := by
  constructor
  · intro occupied
    obtain ⟨rest, rfl⟩ := isLocal_isOccupied.exists_cons occupied
    cases rest with
    | nil => exact .inl rfl
    | cons j rest =>
      obtain ⟨found, h⟩ := occupied
      have occurs := (occurrence?_below rfl (List.cons_ne_nil j rest)).symm.trans h
      exact .inr ⟨j :: rest, ⟨found, occurs⟩, rfl⟩
  · rintro (rfl | ⟨rest, ⟨found, h⟩, rfl⟩)
    · exact ⟨node, occurrence?_top⟩
    · exact ⟨found, (occurrence?_below rfl (ne_nil_of_occurrence? h)).trans h⟩

/-! ## Enumerations -/

/-- The paths with a property, each once and in document order. -/
def Enumerates (P : Path → Prop) (paths : List Path) : Prop :=
  paths.Pairwise (· < ·) ∧ ∀ path, path ∈ paths ↔ P path

namespace Enumerates

variable {P Q : Path → Prop} {paths : List Path}

theorem nothing (none : ∀ path, ¬ P path) : Enumerates P [] :=
  ⟨.nil, fun path => ⟨fun h => absurd h List.not_mem_nil, fun h => absurd h (none path)⟩⟩

theorem append {R : List Value → Path → Prop} (hR : IsLocal R) {xs ys : List Value}
    {ps qs : List Path} (hxs : Enumerates (R xs) ps) (hys : Enumerates (R ys) qs) :
    Enumerates (R (xs ++ ys)) (ps ++ qs.map (Path.bump xs.length)) := by
  constructor
  · refine List.pairwise_append.2 ⟨hxs.1, ?_, ?_⟩
    · exact List.pairwise_map.2 (hys.1.imp fun lt => Path.bump_lt_bump lt)
    · intro p hp moved hmoved
      obtain ⟨q, hq, rfl⟩ := List.mem_map.1 hmoved
      have inXs : R xs p := (hxs.2 p).1 hp
      have inYs : R ys q := (hys.2 q).1 hq
      cases p with
      | nil => exact absurd inXs hR.not_nil
      | cons i p =>
        cases q with
        | nil => exact absurd inYs hR.not_nil
        | cons j q =>
          have lt : i < xs.length := hR.lt_length inXs
          exact List.cons_lt_cons_iff.2 (.inl (by omega))
  · intro path
    rw [hR.append_iff, List.mem_append, List.mem_map, hxs.2]
    simp only [hys.2]

theorem below (h : Enumerates P paths) (step : ∀ path, Q path ↔ ∃ rest, P rest ∧ 0 :: rest = path) :
    Enumerates Q (paths.map (0 :: ·)) := by
  constructor
  · refine List.pairwise_map.2 (h.1.imp fun lt => ?_)
    exact List.cons_lt_cons_iff.2 (.inr ⟨rfl, lt⟩)
  · intro path
    rw [step, List.mem_map]
    simp only [h.2]

theorem top (h : Enumerates P paths) (notNil : ¬ P [])
    (step : ∀ path, Q path ↔ path = [0] ∨ ∃ rest, P rest ∧ 0 :: rest = path) :
    Enumerates Q ([0] :: paths.map (0 :: ·)) := by
  have inner : Enumerates (fun path => ∃ rest, P rest ∧ 0 :: rest = path) (paths.map (0 :: ·)) :=
    h.below fun _ => Iff.rfl
  constructor
  · refine List.pairwise_cons.2 ⟨fun path hp => ?_, inner.1⟩
    obtain ⟨rest, hrest, rfl⟩ := (inner.2 path).1 hp
    cases rest with
    | nil => exact absurd hrest notNil
    | cons j rest => exact List.cons_lt_cons_iff.2 (.inr ⟨rfl, List.nil_lt_cons ..⟩)
  · intro path
    rw [step, List.mem_cons, inner.2]

end Enumerates

end SafeMarkup
