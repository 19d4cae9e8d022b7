/-
# The last word

Things that come one after the other may each decide a matter, or leave it as it is.  The last one
that decides is all that counts for how the matter stands after them (`foldl_lastWord`).

This is the shape of many answers about a sequence: which policy a session goes by after some
steps, whether a tag may stay after some edits.  Each is a function of the last item that has
something to say, `lastWord`, and of how matters stood at the beginning if no item has.  For things
that add up since the last decision there is `sinceLastWord`, the items after it.

The function is given by what an item decides, as an option, so that the lemma can be used wherever
a fold goes by such a rule.  Whether an item decides must not depend on how matters stand; where it
does, as with failed edits, this is of no use.
-/
import Mathlib.Data.List.DropRight

namespace SafeMarkup

variable {α β : Type}

/-- What the last item that decides the matter decides. -/
def lastWord (say : α → Option β) (items : List α) : Option β :=
  items.reverse.findSome? say

/-- The items after the last one that decides the matter. -/
def sinceLastWord (say : α → Option β) (items : List α) : List α :=
  items.rtakeWhile fun item => (say item).isNone

theorem lastWord_concat (say : α → Option β) (items : List α) (item : α) :
    lastWord say (items ++ [item]) = (say item).or (lastWord say items) := by
  rw [lastWord, List.reverse_append, List.reverse_singleton, List.singleton_append,
    List.findSome?_cons]
  cases say item <;> rfl

theorem sinceLastWord_concat (say : α → Option β) (items : List α) (item : α) :
    sinceLastWord say (items ++ [item]) =
      if (say item).isNone then sinceLastWord say items ++ [item] else [] :=
  List.rtakeWhile_concat ..

theorem exists_of_lastWord {say : α → Option β} {items : List α} {decision : β}
    (h : lastWord say items = some decision) : ∃ item ∈ items, say item = some decision := by
  obtain ⟨item, member, decided⟩ := List.exists_of_findSome?_eq_some h
  exact ⟨item, List.mem_reverse.1 member, decided⟩

/-- Where each item decides or leaves things as they are, the last decision is left. -/
theorem foldl_lastWord (say : α → Option β) (start : β) (items : List α) :
    items.foldl (fun held item => (say item).getD held) start =
      (lastWord say items).getD start := by
  induction items using List.reverseRecOn with
  | nil => rfl
  | append_singleton items item ih =>
    rw [List.foldl_append, List.foldl_cons, List.foldl_nil, ih, lastWord_concat]
    cases say item <;> rfl

end SafeMarkup
