/-
# Names with sets of names

Which properties a tag may carry, which schemes a property accepts: a policy has three such maps.
As with sets, the entries are kept in strictly ascending order of their keys, so the map does not
remember in which order it was filled.  A key with an empty set differs from no key: a property
that accepts no scheme is still checked.

Maps that hold the same under every key are the same map (`ext_iff`), so a policy is determined by
the answers that it gives to look-ups.  That is what makes its export canonical, and what lets a
policy that was edited be compared with one that was configured by comparing look-ups alone.

`ofEntries` is the only way in from unsorted entries, and of several with one key the last counts.
The lemmas beside each operation say what a look-up finds afterwards, and the proofs that use maps
go by them; the order of the entries shows in the export only.
-/
import SafeMarkup.Names.NameSet

namespace SafeMarkup

/-- A finite map from names to sets of names. -/
structure NameMap where
  entries : List (String × NameSet)
  ascending : entries.Pairwise (·.1 < ·.1)
deriving DecidableEq

namespace NameMap

/-! ## Look-up -/

/-- What a list of entries holds under a key. -/
def lookup (key : String) : List (String × NameSet) → Option NameSet
  | [] => none
  | entry :: rest => if key = entry.1 then some entry.2 else lookup key rest

def get? (map : NameMap) (key : String) : Option NameSet :=
  lookup key map.entries

/-- The set under a key, and the empty set under a key that is not there. -/
def get (map : NameMap) (key : String) : NameSet :=
  (map.get? key).getD ∅

/-! ## Operations -/

def empty : NameMap := ⟨[], .nil⟩

instance : EmptyCollection NameMap := ⟨empty⟩
instance : Inhabited NameMap := ⟨empty⟩

/-- The entries with one put in its place; an entry of the same key gives way. -/
def putEntry (key : String) (set : NameSet) : List (String × NameSet) → List (String × NameSet)
  | [] => [(key, set)]
  | entry :: rest =>
    if key < entry.1 then (key, set) :: entry :: rest
    else if key = entry.1 then (key, set) :: rest
    else entry :: putEntry key set rest

theorem key_of_mem_putEntry {key : String} {set : NameSet} {entry : String × NameSet}
    {entries : List (String × NameSet)} (h : entry ∈ putEntry key set entries) :
    entry.1 = key ∨ entry ∈ entries := by
  induction entries with
  | nil =>
    simp only [putEntry, List.mem_singleton] at h
    exact .inl (by rw [h])
  | cons first rest ih =>
    unfold putEntry at h
    split at h
    · rcases List.mem_cons.1 h with e | e
      · exact .inl (by rw [e])
      · exact .inr e
    · split at h
      · rcases List.mem_cons.1 h with e | e
        · exact .inl (by rw [e])
        · exact .inr (.tail _ e)
      · rcases List.mem_cons.1 h with e | e
        · exact .inr (e ▸ .head _)
        · exact (ih e).imp id (.tail _)

theorem putEntry_ascending {key : String} {set : NameSet} {entries : List (String × NameSet)}
    (h : entries.Pairwise (·.1 < ·.1)) : (putEntry key set entries).Pairwise (·.1 < ·.1) := by
  induction entries with
  | nil => simp [putEntry]
  | cons first rest ih =>
    have hx := List.pairwise_cons.1 h
    unfold putEntry
    split
    · next lt =>
      refine List.pairwise_cons.2 ⟨fun entry he => ?_, h⟩
      rcases List.mem_cons.1 he with e | e
      · exact e ▸ lt
      · exact String.lt_trans lt (hx.1 entry e)
    · next notLt =>
      split
      · next eq =>
        subst eq
        exact List.pairwise_cons.2 ⟨hx.1, hx.2⟩
      · next ne =>
        refine List.pairwise_cons.2 ⟨fun entry he => ?_, ih hx.2⟩
        rcases key_of_mem_putEntry he with e | e
        · rw [e]
          rcases Std.lt_trichotomy first.1 key with l | l | l
          · exact l
          · exact absurd l.symm ne
          · exact absurd l notLt
        · exact hx.1 entry e

/-- The map with a set put under a key; one that was there gives way. -/
def put (key : String) (set : NameSet) (map : NameMap) : NameMap :=
  ⟨putEntry key set map.entries, putEntry_ascending map.ascending⟩

theorem lookup_putEntry {key other : String} {set : NameSet} {entries : List (String × NameSet)} :
    lookup other (putEntry key set entries)
      = if other = key then some set else lookup other entries := by
  induction entries with
  | nil => simp [putEntry, lookup]
  | cons first rest ih =>
    unfold putEntry
    split
    · simp [lookup]
    · split
      · next eq =>
        subst eq
        by_cases h : other = first.1 <;> simp [lookup, h]
      · next ne =>
        by_cases h : other = first.1
        · have : other ≠ key := fun e => ne (e ▸ h)
          simp [lookup, h, h ▸ this]
        · simp [lookup, h, ih]

@[simp] theorem get?_put {key other : String} {set : NameSet} {map : NameMap} :
    (map.put key set).get? other = if other = key then some set else map.get? other :=
  lookup_putEntry

/-! ## Extensionality -/

theorem lookup_eq_none_of_ne {key : String} {entries : List (String × NameSet)}
    (h : ∀ entry ∈ entries, key ≠ entry.1) : lookup key entries = none := by
  induction entries with
  | nil => rfl
  | cons first rest ih =>
    rw [lookup, if_neg (h first (.head _))]
    exact ih fun entry he => h entry (.tail _ he)

theorem lookup_eq_none_of_lt {key : String} {entries : List (String × NameSet)}
    (h : ∀ entry ∈ entries, key < entry.1) : lookup key entries = none :=
  lookup_eq_none_of_ne fun entry he same => String.lt_irrefl _ (same ▸ h entry he)

theorem lookup_eq_some_iff {key : String} {set : NameSet} {entries : List (String × NameSet)}
    (distinct : entries.Pairwise (·.1 ≠ ·.1)) :
    lookup key entries = some set ↔ (key, set) ∈ entries := by
  induction entries with
  | nil => simp [lookup]
  | cons first rest ih =>
    obtain ⟨apart, later⟩ := List.pairwise_cons.1 distinct
    rw [lookup]
    split
    · next here =>
      subst here
      constructor
      · intro held
        cases held
        exact .head rest
      · intro member
        rcases List.mem_cons.1 member with e | e
        · rw [← e]
        · exact absurd rfl (apart (first.1, set) e)
    · next elsewhere =>
      rw [ih later]
      constructor
      · exact .tail _
      · intro member
        rcases List.mem_cons.1 member with e | e
        · exact absurd (congrArg Prod.fst e) elsewhere
        · exact e

/-- Ascending lists that hold the same under every key are equal. -/
theorem eq_of_lookup_eq : ∀ {xs ys : List (String × NameSet)}, xs.Pairwise (·.1 < ·.1) →
    ys.Pairwise (·.1 < ·.1) → (∀ key, lookup key xs = lookup key ys) → xs = ys
  | [], [], _, _, _ => rfl
  | [], y :: ys, _, _, h => by
    have := h y.1
    simp [lookup] at this
  | x :: xs, [], _, _, h => by
    have := h x.1
    simp [lookup] at this
  | x :: xs, y :: ys, hxs, hys, h => by
    have hx := List.pairwise_cons.1 hxs
    have hy := List.pairwise_cons.1 hys
    have absent : ∀ {key : String} {z : String × NameSet} {zs : List (String × NameSet)},
        (∀ entry ∈ zs, z.1 < entry.1) → key < z.1 → lookup key (z :: zs) = none := by
      intro key z zs hz lt
      refine lookup_eq_none_of_lt fun entry he => ?_
      rcases List.mem_cons.1 he with e | e
      · exact e ▸ lt
      · exact String.lt_trans lt (hz entry e)
    have keys : x.1 = y.1 := by
      rcases Std.lt_trichotomy x.1 y.1 with l | l | l
      · have := h x.1
        rw [absent hy.1 l] at this
        simp [lookup] at this
      · exact l
      · have := h y.1
        rw [absent hx.1 l] at this
        simp [lookup] at this
    have sets : x.2 = y.2 := by
      have := h x.1
      simpa [lookup, keys] using this
    have tails : ∀ key, lookup key xs = lookup key ys := by
      intro key
      by_cases e : key = x.1
      · subst e
        rw [lookup_eq_none_of_lt hx.1, keys, lookup_eq_none_of_lt hy.1]
      · have := h key
        rwa [lookup, lookup, if_neg e, if_neg (keys ▸ e)] at this
    rw [eq_of_lookup_eq hx.2 hy.2 tails, show x = y from Prod.ext keys sets]

theorem ext_iff {a b : NameMap} : a = b ↔ ∀ key, a.get? key = b.get? key := by
  constructor
  · rintro rfl key
    rfl
  · intro h
    cases a with
    | mk xs hxs =>
      cases b with
      | mk ys hys =>
        have : xs = ys := eq_of_lookup_eq hxs hys h
        subst this
        rfl

/-! ## Filling -/

/-- The map that holds these entries, a later one of a key counting. -/
def ofEntries (entries : List (String × NameSet)) : NameMap :=
  entries.foldl (fun map entry => map.put entry.1 entry.2) empty

theorem get?_foldl_put {entries : List (String × NameSet)}
    (distinct : entries.Pairwise (·.1 ≠ ·.1)) (key : String) (map : NameMap) :
    (entries.foldl (fun map entry => map.put entry.1 entry.2) map).get? key =
      (lookup key entries).or (map.get? key) := by
  induction entries generalizing map with
  | nil => rfl
  | cons first rest ih =>
    have later := List.pairwise_cons.1 distinct
    rw [List.foldl_cons, ih later.2, get?_put, lookup]
    by_cases here : key = first.1
    · have absent : lookup key rest = none := lookup_eq_none_of_ne (here ▸ later.1)
      rw [if_pos here, if_pos here, absent]
      rfl
    · rw [if_neg here, if_neg here]

theorem get?_ofEntries {entries : List (String × NameSet)}
    (distinct : entries.Pairwise (·.1 ≠ ·.1)) (key : String) :
    (ofEntries entries).get? key = lookup key entries := by
  rw [ofEntries, get?_foldl_put distinct]
  exact Option.or_none

theorem distinct_of_ascending {entries : List (String × NameSet)}
    (h : entries.Pairwise (·.1 < ·.1)) : entries.Pairwise (·.1 ≠ ·.1) :=
  h.imp fun {one other} (lt : one.1 < other.1) (same : one.1 = other.1) =>
    String.lt_irrefl _ (same ▸ lt)

theorem ofEntries_entries (map : NameMap) : ofEntries map.entries = map := by
  rw [ext_iff]
  intro key
  exact get?_ofEntries (distinct_of_ascending map.ascending) key

end NameMap

end SafeMarkup
