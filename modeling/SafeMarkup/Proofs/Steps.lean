/-
# Steps that may fail

What is known of steps of which each is made only if those before it succeeded: when they succeed
together, and which fault comes out if they do not.

Of things that are gone through in their order, the first that is not sound is reported.
`FirstFault` says so for things of every sort; a reader is compared with it by peeling off one item
(`firstFault_cons`).

The steps are in `Except`, and the lemmas turn a sequence of them into a statement about results:
it succeeds with such a value if the parts do, and fails with such a fault if one part does and
those before it succeed.  Proofs about readers rewrite with them and never unfold a bind.

`FirstIs` says that the first unsound item is of a certain sort, when it is only the sort that
matters and not the fault; it is used where one sort of fault is an exception to a rule that covers
the others (`firstFault_iff_of_not_firstIs`).
-/
import SafeMarkup.Fault

namespace SafeMarkup

/-! ## One step after another -/

section Steps

variable {ε α β : Type} {first : Except ε α} {result : β} {fault : ε}

theorem bind_eq_ok_iff {next : α → Except ε β} :
    first >>= next = .ok result ↔ ∃ a, first = .ok a ∧ next a = .ok result := by
  cases first with
  | error fault =>
    constructor
    · intro h
      cases h
    · rintro ⟨a, h, -⟩
      cases h
  | ok a =>
    constructor
    · intro h
      exact ⟨a, rfl, h⟩
    · rintro ⟨b, h, ran⟩
      cases h
      exact ran

theorem map_eq_ok_iff {f : α → β} :
    first.map f = .ok result ↔ ∃ a, first = .ok a ∧ f a = result := by
  cases first with
  | error fault =>
    constructor
    · intro h
      cases h
    · rintro ⟨a, h, -⟩
      cases h
  | ok a =>
    constructor
    · intro h
      exact ⟨a, rfl, Except.ok.inj h⟩
    · rintro ⟨b, h, rfl⟩
      cases h
      rfl

theorem bind_eq_error_iff {next : α → Except ε β} :
    first >>= next = .error fault ↔
      first = .error fault ∨ ∃ a, first = .ok a ∧ next a = .error fault := by
  cases first with
  | error other =>
    constructor
    · intro h
      cases h
      exact .inl rfl
    · rintro (h | ⟨a, h, -⟩)
      · cases h
        rfl
      · cases h
  | ok a =>
    constructor
    · intro h
      exact .inr ⟨a, rfl, h⟩
    · rintro (h | ⟨b, h, failed⟩)
      · cases h
      · cases h
        exact failed

theorem map_eq_error_iff {f : α → β} : first.map f = .error fault ↔ first = .error fault := by
  cases first <;> simp [Except.map]

end Steps

/-! ## The first fault -/

section FirstFault

variable {α : Type} {sound : α → Prop} {faulty : α → Fault → Prop} {fault : Fault}

/-- The fault is one of an item such that all items before it are sound. -/
def FirstFault (sound : α → Prop) (faulty : α → Fault → Prop) (items : List α) (fault : Fault) :
    Prop :=
  ∃ front item back, items = front ++ item :: back ∧ (∀ earlier ∈ front, sound earlier) ∧
    faulty item fault

/-- Such an item is there, and all items before it are sound. -/
def FirstIs (sound such : α → Prop) (items : List α) : Prop :=
  ∃ front item back, items = front ++ item :: back ∧ (∀ earlier ∈ front, sound earlier) ∧ such item

theorem firstFault_iff_firstIs {such : α → Prop} (same : ∀ item, faulty item fault ↔ such item)
    {items : List α} : FirstFault sound faulty items fault ↔ FirstIs sound such items := by
  unfold FirstFault FirstIs
  simp only [same]

theorem not_firstFault_nil : ¬ FirstFault sound faulty [] fault := by
  rintro ⟨front, item, back, same, -⟩
  cases front <;> cases same

theorem firstFault_cons {item : α} {rest : List α} :
    FirstFault sound faulty (item :: rest) fault ↔
      faulty item fault ∨ sound item ∧ FirstFault sound faulty rest fault := by
  constructor
  · rintro ⟨front, found, back, same, before, wrong⟩
    cases front with
    | nil =>
      cases same
      exact .inl wrong
    | cons first front =>
      cases same
      exact .inr ⟨before _ (.head _), front, found, back, rfl,
        fun earlier he => before earlier (.tail _ he), wrong⟩
  · rintro (wrong | ⟨first, front, found, back, rfl, before, wrong⟩)
    · exact ⟨[], item, rest, rfl, nofun, wrong⟩
    · exact ⟨item :: front, found, back, rfl, List.forall_mem_cons.2 ⟨first, before⟩, wrong⟩

theorem firstIs_cons {such : α → Prop} {item : α} {rest : List α} :
    FirstIs sound such (item :: rest) ↔ such item ∨ sound item ∧ FirstIs sound such rest := by
  have same (items : List α) :
      FirstFault sound (fun item _ => such item) items .notJson ↔ FirstIs sound such items :=
    firstFault_iff_firstIs fun _ => .rfl
  rw [← same, ← same, firstFault_cons]

/-- Where no item of some sort is the first to be unsound, it is as if that sort were sound and had
no fault. -/
theorem firstFault_iff_of_not_firstIs {such base : α → Prop} {baseFaulty : α → Fault → Prop}
    {extra : Fault} {items : List α} (sound_iff : ∀ item, sound item ↔ base item ∧ ¬ such item)
    (faulty_iff : ∀ item fault,
      faulty item fault ↔ baseFaulty item fault ∨ such item ∧ fault = extra)
    (other : ¬ FirstIs sound such items) :
    FirstFault sound faulty items fault ↔ FirstFault base baseFaulty items fault := by
  induction items with
  | nil => exact iff_of_false not_firstFault_nil not_firstFault_nil
  | cons item rest ih =>
    rw [firstIs_cons, not_or] at other
    obtain ⟨differs, later⟩ := other
    have isSound : sound item ↔ base item := by simp [sound_iff, differs]
    have isFaulty : faulty item fault ↔ baseFaulty item fault := by simp [faulty_iff, differs]
    rw [firstFault_cons, firstFault_cons, isFaulty, isSound]
    refine or_congr_right (and_congr_right fun first => ih fun h => ?_)
    exact later ⟨isSound.2 first, h⟩

theorem FirstFault.exists_not_sound {items : List α} (h : FirstFault sound faulty items fault)
    (apart : ∀ item, faulty item fault → ¬ sound item) : ∃ item ∈ items, ¬ sound item := by
  obtain ⟨front, item, back, rfl, -, wrong⟩ := h
  exact ⟨item, List.mem_append_right _ (.head _), apart item wrong⟩

/-- There is a fault if and only if not all items are sound, when each that is not has a fault. -/
theorem exists_firstFault_iff {items : List α}
    (apart : ∀ item fault, faulty item fault → ¬ sound item)
    (has : ∀ item, ¬ sound item → ∃ fault, faulty item fault) :
    (∃ fault, FirstFault sound faulty items fault) ↔ ∃ item ∈ items, ¬ sound item := by
  constructor
  · rintro ⟨fault, h⟩
    exact h.exists_not_sound fun item wrong => apart item fault wrong
  · intro h
    induction items with
    | nil =>
      obtain ⟨item, member, -⟩ := h
      cases member
    | cons first rest ih =>
      simp only [firstFault_cons]
      by_cases isSound : sound first
      · have later : ∃ item ∈ rest, ¬ sound item := by
          obtain ⟨item, member, unsound⟩ := h
          cases member with
          | head => exact absurd isSound unsound
          | tail _ member => exact ⟨item, member, unsound⟩
        obtain ⟨fault, wrong⟩ := ih later
        exact ⟨fault, .inr ⟨isSound, wrong⟩⟩
      · obtain ⟨fault, wrong⟩ := has first isSound
        exact ⟨fault, .inl wrong⟩

end FirstFault

end SafeMarkup
