/-
# Edits that fail

An edit that adds names, or replaces what stands under a key, checks its arguments before it does
anything: where it fails, the draft is as it was.  An edit that takes names out does not check them.
It goes through them one by one, and when it comes to a value that cannot be a key, the names before
that value are gone.  So a failed edit has changed the draft if and only if it takes names out and
one of the names before the value at fault was there (`edit_failed`).

Going through the names is one loop for all three such edits, and it does the same up to its end or
up to the value at which it stops (`takeOut_fst`).

So it is not so that a failed edit changes nothing, and `not_forall_failed_unchanged` is a draft
made from nothing for which it fails.  What is true is exact and covers every edit with every list
of arguments: either the draft is as it was, or the edit takes names out and the names before the
value at fault are gone, and nothing else is different.  In particular the draft never loses a name
that the edit did not mention, and never gains one.
-/
import SafeMarkup.Proofs.EditEffect

namespace SafeMarkup

theorem NameSet.eraseAll_eq_self_iff {set : NameSet} {names : List String} :
    set.eraseAll names = set ↔ ∀ name ∈ names, name ∉ set := by
  rw [NameSet.ext_iff]
  simp only [NameSet.mem_eraseAll]
  constructor
  · intro same name listed member
    exact ((same name).2 member).2 listed
  · intro apart name
    exact ⟨And.left, fun member => ⟨member, fun listed => apart name listed member⟩⟩

/-! ## Entries of a map -/

namespace Value

variable {α : Type} {key : Value} {value : α} {entries : List (Value × α)}

theorem put_of_find? (h : find? key entries = some value) : put key value entries = entries := by
  induction entries with
  | nil => cases h
  | cons entry rest ih =>
    rw [find?] at h
    rw [put]
    split
    · next here =>
      rw [if_pos here] at h
      cases h
      rfl
    · next elsewhere =>
      rw [if_neg elsewhere] at h
      rw [ih h]

theorem find?_put_of_find? (h : find? key entries = some value) (other : α) :
    find? key (put key other entries) = some other := by
  induction entries with
  | nil => cases h
  | cons entry rest ih =>
    rw [find?] at h
    rw [put]
    split
    · next here => rw [find?, if_pos here]
    · next elsewhere =>
      rw [if_neg elsewhere] at h
      rw [find?, if_neg elsewhere, ih h]

end Value

namespace Edit

/-- The names that the edit has taken out when it comes to a value that cannot be a key. -/
def takenOut : Edit → List String
  | .disallowTags names | .unstripTags names => texts (names.takeWhile Value.isKey)
  | .disallowAttributes tag names =>
    if tag.isKey then texts (names.takeWhile Value.isKey) else []
  | _ => []

end Edit

namespace Draft

open Edit

variable {draft changed : Draft} {change : Edit} {fault : Fault}

/-! ## Taking names out -/

/-- The draft without these names in the set from which the edit takes names out. -/
def without (draft : Draft) (names : List String) : Edit → Draft
  | .disallowTags _ => { draft with tagNames := draft.tagNames.eraseAll names }
  | .unstripTags _ => { draft with strip := draft.strip.eraseAll names }
  | .disallowAttributes tag _ =>
    { draft with attributes := eraseUnder tag names draft.attributes }
  | _ => draft

/-- The name is in the set from which the edit takes names out. -/
def Holds (draft : Draft) (name : String) : Edit → Prop
  | .disallowTags _ => name ∈ draft.tagNames
  | .unstripTags _ => name ∈ draft.strip
  | .disallowAttributes tag _ =>
    ∃ own, Value.find? tag draft.attributes = some own ∧ name ∈ own
  | _ => False

/-- Whether it gets through the values or not, the loop takes out the names that it comes to. -/
theorem takeOut_fst (values : List Value) (set : NameSet) :
    (takeOut values set).1 = set.eraseAll (texts (values.takeWhile Value.isKey)) := by
  induction values generalizing set with
  | nil => rfl
  | cons value rest ih =>
    rw [takeOut]
    split
    · next fit =>
      rw [List.takeWhile_cons_of_pos fit]
      cases value with
      | str name => exact ih (set.erase name)
      | _ => exact ih set
    · next unfit =>
      rw [List.takeWhile_cons_of_neg unfit]
      rfl

theorem eraseUnder_eq_self_iff {key : Value} {names : List String}
    {entries : List (Value × NameSet)} :
    eraseUnder key names entries = entries ↔
      ∀ name ∈ names, ¬ ∃ own, Value.find? key entries = some own ∧ name ∈ own := by
  unfold eraseUnder
  cases found : Value.find? key entries with
  | none => simp
  | some own =>
    have apart : own.eraseAll names = own ↔ ∀ name ∈ names, name ∉ own :=
      NameSet.eraseAll_eq_self_iff
    simp only [Option.some.injEq, exists_eq_left', ← apart]
    constructor
    · intro same
      have held := Value.find?_put_of_find? found (own.eraseAll names)
      rw [same, found] at held
      exact (Option.some.inj held).symm
    · intro same
      rw [same]
      exact Value.put_of_find? found

theorem without_eq_self_iff {names : List String} :
    draft.without names change = draft ↔ ∀ name ∈ names, ¬ draft.Holds name change := by
  obtain ⟨tagNames, attributes, protocols, ancestors, clobber, clobberPrefix, strip⟩ := draft
  cases change with
  | disallowTags | unstripTags =>
    simp only [without, Holds, Draft.mk.injEq, true_and, and_true]
    exact NameSet.eraseAll_eq_self_iff
  | disallowAttributes tag =>
    simp only [without, Holds, Draft.mk.injEq, true_and, and_true]
    exact eraseUnder_eq_self_iff
  | _ => simp [without, Holds]

/-! ## One edit -/

theorem attempt_failed {result : Except Fault Draft}
    (h : draft.attempt result = (changed, some fault)) : changed = draft := by
  cases result with
  | ok other => cases h
  | error cause =>
    cases h
    rfl

/-- A failed edit has taken out the names that it came to, and has done nothing else. -/
theorem edit_eq_without (h : draft.edit change = (changed, some fault)) :
    changed = draft.without change.takenOut change := by
  cases change with
  | disallowTags names | unstripTags names =>
    simp only [edit, Prod.mk.injEq] at h
    obtain ⟨rfl, -⟩ := h
    rw [without, takenOut, takeOut_fst]
  | disallowAttributes tag names =>
    by_cases fit : tag.isKey
    · simp only [edit, key, if_pos fit] at h
      cases found : Value.find? tag draft.attributes with
      | none =>
        rw [found] at h
        cases h
      | some own =>
        simp only [found, Prod.mk.injEq] at h
        obtain ⟨rfl, -⟩ := h
        simp only [without, takenOut, if_pos fit, eraseUnder, found, takeOut_fst]
    · -- The tag itself is at fault, so nothing has been taken out.
      simp only [edit, key, if_neg fit, Prod.mk.injEq] at h
      obtain ⟨rfl, -⟩ := h
      rw [takenOut, if_neg fit]
      exact (without_eq_self_iff.2 fun _ member => absurd member List.not_mem_nil).symm
  | _ => exact attempt_failed h

/-- A failed edit has changed nothing, unless it takes names out: then those before the value at
fault are gone, and all else is as it was.  The draft has changed if and only if it held one of
them. -/
theorem edit_failed (h : draft.edit change = (changed, some fault)) :
    changed = draft.without change.takenOut change ∧
      (changed = draft ↔ ∀ name ∈ change.takenOut, ¬ draft.Holds name change) := by
  have known := edit_eq_without h
  refine ⟨known, ?_⟩
  rw [known]
  exact without_eq_self_iff

/-- A list cannot be a key, so of three tags that are to be taken out only the first one goes. -/
theorem edit_failed_disallowTags :
    let draft := (fresh.edit (.allowTags [.str "p", .str "q"])).1
    let change : Edit := .disallowTags [.str "p", .list [.str "x"], .str "q"]
    let changed : Draft := { draft with tagNames := .ofList ["q"] }
    draft.edit change = (changed, some .notKey) ∧
      changed = draft.without ["p"] change ∧
      (changed = draft ↔ ∀ name ∈ ["p"], ¬ draft.Holds name change) := by
  intro draft change changed
  have failed : draft.edit change = (changed, some .notKey) := rfl
  exact ⟨failed, edit_failed failed⟩

/-- It is not so that a failed edit leaves the draft as it was, not even if edits made the draft
from nothing. -/
theorem not_forall_failed_unchanged :
    ¬ ∀ (edits : List Edit) (draft changed : Draft) (change : Edit) (fault : Fault),
      fresh.editAll edits = .ok draft → draft.edit change = (changed, some fault) →
      changed = draft := by
  intro unchanged
  have same := unchanged [.allowTags [.str "p"]] _ _ (.disallowTags [.str "p", .list [.str "x"]])
    .notKey rfl rfl
  have held : NameSet.contains ∅ "p" = NameSet.contains (.ofList ["p"]) "p" :=
    congrArg (fun draft => draft.tagNames.contains "p") same
  exact absurd held (by decide)

end Draft

end SafeMarkup
