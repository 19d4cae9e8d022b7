/-
# Sets of names

A policy lists tags, properties and URL schemes by name.  Such a set is kept as the strictly
ascending list of its names, in the order of code points, so two sets with the same members are
the same set: the order and repetition in which the names were supplied leave no trace.
`ext_iff` says so, and `mem_insert` and its companions say what each operation does to the
members.

The condition on the list is a field of the structure, so there is no set that is out of order and
no operation has to be trusted to keep the order: `insert`, `erase` and `map` come with the proof
that they do.  It also makes equality of sets decidable without any quotient.

Names are compared as whole texts and case counts.  Where case is to make no difference, as with
URL schemes, the caller hands in lower-case forms (`NameMap.mapNames` in
`Policy/Configuration.lean`).
-/

namespace SafeMarkup

/-- A finite set of names. -/
structure NameSet where
  names : List String
  ascending : names.Pairwise (· < ·)
deriving DecidableEq

namespace NameSet

/-! ## Members -/

instance : Membership String NameSet := ⟨fun set name => name ∈ set.names⟩

instance (name : String) (set : NameSet) : Decidable (name ∈ set) :=
  inferInstanceAs (Decidable (name ∈ set.names))

def contains (set : NameSet) (name : String) : Bool :=
  set.names.contains name

@[simp] theorem contains_iff {set : NameSet} {name : String} :
    set.contains name = true ↔ name ∈ set := by
  simp only [contains, List.contains_iff_mem]
  exact Iff.rfl

/-- Ascending lists with the same members are equal. -/
theorem eq_of_mem_iff : ∀ {xs ys : List String}, xs.Pairwise (· < ·) → ys.Pairwise (· < ·) →
    (∀ name, name ∈ xs ↔ name ∈ ys) → xs = ys
  | [], [], _, _, _ => rfl
  | [], y :: ys, _, _, h => absurd ((h y).2 (.head _)) (List.not_mem_nil)
  | x :: xs, [], _, _, h => absurd ((h x).1 (.head _)) (List.not_mem_nil)
  | x :: xs, y :: ys, hxs, hys, h => by
    have hx := List.pairwise_cons.1 hxs
    have hy := List.pairwise_cons.1 hys
    have heq : x = y := by
      rcases List.mem_cons.1 ((h x).1 (.head _)) with e | e
      · exact e
      · rcases List.mem_cons.1 ((h y).2 (.head _)) with e' | e'
        · exact e'.symm
        · exact absurd (hy.1 x e) (String.lt_asymm (hx.1 y e'))
    subst heq
    have tails : ∀ name, name ∈ xs ↔ name ∈ ys := by
      intro name
      constructor
      · intro m
        rcases List.mem_cons.1 ((h name).1 (.tail _ m)) with e | e
        · exact absurd (e ▸ hx.1 name m) (String.lt_irrefl _)
        · exact e
      · intro m
        rcases List.mem_cons.1 ((h name).2 (.tail _ m)) with e | e
        · exact absurd (e ▸ hy.1 name m) (String.lt_irrefl _)
        · exact e
    rw [eq_of_mem_iff hx.2 hy.2 tails]

theorem ext_iff {a b : NameSet} : a = b ↔ ∀ name, name ∈ a ↔ name ∈ b := by
  constructor
  · rintro rfl name
    exact Iff.rfl
  · intro h
    cases a with
    | mk xs hxs =>
      cases b with
      | mk ys hys =>
        have : xs = ys := eq_of_mem_iff hxs hys h
        subst this
        rfl

/-! ## Operations -/

def empty : NameSet := ⟨[], .nil⟩

instance : EmptyCollection NameSet := ⟨empty⟩
instance : Inhabited NameSet := ⟨empty⟩

def isEmpty (set : NameSet) : Bool := set.names.isEmpty

/-- The list with a name put in its place. -/
def insertName (name : String) : List String → List String
  | [] => [name]
  | x :: xs =>
    if name < x then name :: x :: xs else if name = x then x :: xs else x :: insertName name xs

theorem mem_insertName {name other : String} {xs : List String} :
    other ∈ insertName name xs ↔ other = name ∨ other ∈ xs := by
  induction xs with
  | nil => simp [insertName]
  | cons x xs ih =>
    unfold insertName
    split
    · simp
    · split
      · next h =>
        subst h
        simp
      · simp only [List.mem_cons, ih]
        constructor
        · rintro (h | h | h)
          · exact .inr (.inl h)
          · exact .inl h
          · exact .inr (.inr h)
        · rintro (h | h | h)
          · exact .inr (.inl h)
          · exact .inl h
          · exact .inr (.inr h)

theorem insertName_ascending {name : String} {xs : List String} (h : xs.Pairwise (· < ·)) :
    (insertName name xs).Pairwise (· < ·) := by
  induction xs with
  | nil => simp [insertName]
  | cons x xs ih =>
    have hx := List.pairwise_cons.1 h
    unfold insertName
    split
    · next lt =>
      refine List.pairwise_cons.2 ⟨fun y hy => ?_, h⟩
      rcases List.mem_cons.1 hy with e | e
      · exact e ▸ lt
      · exact String.lt_trans lt (hx.1 y e)
    · next notLt =>
      split
      · exact h
      · next ne =>
        refine List.pairwise_cons.2 ⟨fun y hy => ?_, ih hx.2⟩
        rcases mem_insertName.1 hy with e | e
        · subst e
          rcases Std.lt_trichotomy x y with l | l | l
          · exact l
          · exact absurd l.symm ne
          · exact absurd l notLt
        · exact hx.1 y e

def insert (name : String) (set : NameSet) : NameSet :=
  ⟨insertName name set.names, insertName_ascending set.ascending⟩

@[simp] theorem mem_insert {name other : String} {set : NameSet} :
    other ∈ set.insert name ↔ other = name ∨ other ∈ set :=
  mem_insertName

def erase (name : String) (set : NameSet) : NameSet :=
  ⟨set.names.filter (· ≠ name), set.ascending.filter _⟩

@[simp] theorem mem_erase {name other : String} {set : NameSet} :
    other ∈ set.erase name ↔ other ≠ name ∧ other ∈ set := by
  show other ∈ set.names.filter (· ≠ name) ↔ other ≠ name ∧ other ∈ set.names
  simp [List.mem_filter, and_comm]

/-- The set with the names of a list added. -/
def addAll (set : NameSet) (names : List String) : NameSet :=
  names.foldl (fun set name => set.insert name) set

@[simp] theorem mem_addAll {set : NameSet} {names : List String} {name : String} :
    name ∈ set.addAll names ↔ name ∈ set ∨ name ∈ names := by
  unfold addAll
  induction names generalizing set with
  | nil => simp
  | cons x xs ih =>
    simp only [List.foldl_cons, ih, mem_insert, List.mem_cons]
    constructor
    · rintro ((h | h) | h)
      · exact .inr (.inl h)
      · exact .inl h
      · exact .inr (.inr h)
    · rintro (h | h | h)
      · exact .inl (.inr h)
      · exact .inl (.inl h)
      · exact .inr h

def ofList (names : List String) : NameSet := empty.addAll names

@[simp] theorem mem_ofList {names : List String} {name : String} :
    name ∈ ofList names ↔ name ∈ names := by
  rw [ofList, mem_addAll]
  exact ⟨fun h => h.elim (fun h => absurd h List.not_mem_nil) id, .inr⟩

def map (f : String → String) (set : NameSet) : NameSet :=
  ofList (set.names.map f)

@[simp] theorem mem_map {f : String → String} {set : NameSet} {name : String} :
    name ∈ set.map f ↔ ∃ source, source ∈ set ∧ f source = name := by
  rw [map, mem_ofList, List.mem_map]
  exact Iff.rfl

end NameSet

end SafeMarkup
