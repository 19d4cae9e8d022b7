/-
# Lists compared pair by pair

What is known of each pair of two lists, and what follows for the items of either one.

`Picks` says of two lists that the second holds, in order, what the items of the first become, and
nothing for those that become nothing.

Relations between lists come up wherever a tree is compared with what became of it: children with
what was read of them, properties with those that stay, one run with another.  Mathlib's
`List.Forall₂` says that two lists of equal length match item by item, and the lemmas here take an
item of one side to its partner on the other.

Where items may go, `Forall₂` does not apply, since the lists differ in length.  `Picks` is the
relation for that case.  It is given by clauses and not by a filter, so that the reader can see
that order is kept and that what is left out became nothing; that it amounts to a filter is what
its uses prove.
-/
import Mathlib.Data.List.Forall2

namespace SafeMarkup

variable {α β : Type} {R : α → β → Prop} {xs : List α} {ys : List β}

theorem exists_left_of_forall₂ (h : List.Forall₂ R xs ys) : ∀ y ∈ ys, ∃ x ∈ xs, R x y := by
  induction h with
  | nil => exact fun _ hy => absurd hy List.not_mem_nil
  | @cons x y _ _ related _ ih =>
    intro z hz
    rcases List.mem_cons.1 hz with rfl | hz
    · exact ⟨x, .head _, related⟩
    · obtain ⟨source, hsource, related⟩ := ih z hz
      exact ⟨source, .tail _ hsource, related⟩

theorem exists_right_of_forall₂ (h : List.Forall₂ R xs ys) : ∀ x ∈ xs, ∃ y ∈ ys, R x y :=
  exists_left_of_forall₂ h.flip

theorem forall_of_forall₂ {P : β → Prop} (h : List.Forall₂ (fun x y => R x y → P y) xs ys)
    (pairs : List.Forall₂ R xs ys) : ∀ y ∈ ys, P y := by
  intro y hy
  have all : List.Forall₂ (fun _ y => P y) xs ys :=
    List.Forall₂.mp (fun _ _ follows related => follows related) h pairs
  obtain ⟨_, -, holds⟩ := exists_left_of_forall₂ all y hy
  exact holds

theorem exists_of_forall₂_filterMap {f : β → Option α} (h : List.Forall₂ R (ys.filterMap f) ys) :
    ∀ y ∈ ys, ∃ x, f y = some x ∧ R x y := by
  induction ys with
  | nil => exact fun _ hy => absurd hy List.not_mem_nil
  | cons y rest ih =>
    cases first : f y with
    | none =>
      have short := List.length_filterMap_le f rest
      have long := h.length_eq
      rw [List.filterMap_cons_none first, List.length_cons] at long
      omega
    | some x =>
      rw [List.filterMap_cons_some first] at h
      cases h with
      | cons related others =>
        intro other ho
        rcases List.mem_cons.1 ho with rfl | ho
        · exact ⟨x, first, related⟩
        · exact ih others other ho

/-- Pairs that are related one by one, as the constructors of relations below ask for them. -/
theorem forall₂_of_zip (length : xs.length = ys.length)
    (h : ∀ pair ∈ xs.zip ys, R pair.1 pair.2) : List.Forall₂ R xs ys :=
  List.forall₂_iff_zip.2 ⟨length, fun hp => h _ hp⟩

theorem exists_forall₂ (h : ∀ x ∈ xs, ∃ y, R x y) : ∃ ys, List.Forall₂ R xs ys := by
  induction xs with
  | nil => exact ⟨[], .nil⟩
  | cons x rest ih =>
    obtain ⟨y, first⟩ := h x (.head _)
    obtain ⟨ys, others⟩ := ih fun x hx => h x (.tail _ hx)
    exact ⟨y :: ys, .cons first others⟩

/-! ## What the items of a list become -/

/-- The second list holds what the items of the first become, in order; an item that becomes
nothing leaves nothing. -/
def Picks {α β : Type} (becomes : α → β → Prop) (items : List α) (results : List β) : Prop :=
  ∃ pick : α → Option β, (∀ item result, pick item = some result ↔ becomes item result) ∧
    results = items.filterMap pick

theorem Picks.mem {α β : Type} {becomes : α → β → Prop} {items : List α} {results : List β}
    (h : Picks becomes items results) {result : β} (hr : result ∈ results) :
    ∃ item ∈ items, becomes item result := by
  obtain ⟨pick, exact, rfl⟩ := h
  obtain ⟨item, hitem, picked⟩ := List.mem_filterMap.1 hr
  exact ⟨item, hitem, (exact item result).1 picked⟩

theorem Picks.unique {α β : Type} {becomes : α → β → Prop} {items : List α}
    {results results' : List β} (h : Picks becomes items results)
    (h' : Picks becomes items results') : results = results' := by
  obtain ⟨pick, exact, rfl⟩ := h
  obtain ⟨pick', exact', rfl⟩ := h'
  have same : pick = pick' := by
    funext item
    refine Option.ext fun result => ?_
    rw [exact, exact']
  rw [same]

/-- If every item becomes something that tells what it was, no item is lost. -/
theorem Picks.map_eq {becomes : α → β → Prop} {items : List α} {results : List β}
    (h : Picks becomes items results) (source : β → α)
    (back : ∀ item result, becomes item result → source result = item)
    (all : ∀ item ∈ items, ∃ result, becomes item result) : results.map source = items := by
  obtain ⟨pick, exact, rfl⟩ := h
  induction items with
  | nil => rfl
  | cons item rest ih =>
    obtain ⟨result, first⟩ := all item (.head _)
    rw [List.filterMap_cons_some ((exact item result).2 first), List.map_cons,
      back item result first, ih fun other ho => all other (.tail _ ho)]

end SafeMarkup
