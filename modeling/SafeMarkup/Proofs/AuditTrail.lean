/-
# The audit trail is complete

The records of a run are, element by element in document order, what `Policy.Reports` says of each
element that no element with a vanishing tag encloses.  It says so from the tree alone: which
elements around it are kept is `Policy.Keeps`, not what the walk happens to carry.

`Policy.Trails` ties a list of records to the items of a tree through a trail, the list of the
judged elements, each with the records about it.  The trail is built up with the walk by the same
operations as the pairing of survivors: one list of items after another, and a node around a list
of items.  An element that vanishes ends the trail below it, since nothing inside it is judged.

Of the records about an element, exactly one is about the element itself if it does not stay, and
none if it does.  Together with the pairing of survivors this says that an element is either still
there or accounted for.

Two things are not stated.  The records do not say where in the tree an element stood; that is
what the trail is for, and it is there in the proof only.  And a text of a record does not give the
record back, since a tag can be any text and may look like the rest of a message.  What the text
does tell is the sort of the record and what was put into words in it
(`Audit.Record.message_eq_iff`).
-/
import SafeMarkup.Policy.Standard
import SafeMarkup.Proofs.PropertySurvival
import SafeMarkup.Proofs.Transfer
import SafeMarkup.Sanitizing

namespace SafeMarkup

/-- The record is about what became of an element, and not about one of its properties. -/
def Audit.Record.isOfElement : Audit.Record → Bool
  | refused .. => false
  | _ => true

/-! ## What the texts tell -/

namespace Audit.Record

/-- The records are of one sort, and the same is put into words of each. -/
inductive Alike : Record → Record → Prop
  | stripped {tag : String} : Alike (.stripped tag) (.stripped tag)
  | disallowed {tag tag' : Value} : tag.shown = tag'.shown →
      Alike (.disallowed tag) (.disallowed tag')
  | misplaced {tag tag' : String} {required required' : NameSet} :
      tag ++ "> outside of " ++ String.intercalate "/" required.names =
        tag' ++ "> outside of " ++ String.intercalate "/" required'.names →
      Alike (.misplaced tag required) (.misplaced tag' required')
  | refused {tag tag' name name' : String} : tag ++ "[" ++ name = tag' ++ "[" ++ name' →
      Alike (.refused tag name) (.refused tag' name')

theorem begin_alike {front front' rest rest' : String}
    (same : front ++ rest = front' ++ rest') :
    front.toList <+: front'.toList ∨ front'.toList <+: front.toList := by
  have chars := congrArg String.toList same
  rw [String.toList_append, String.toList_append] at chars
  exact List.prefix_or_prefix_of_prefix ⟨_, rfl⟩ ⟨_, chars.symm⟩

theorem end_alike {front front' rest rest' : String}
    (same : front ++ rest = front' ++ rest') :
    rest.toList <:+ rest'.toList ∨ rest'.toList <:+ rest.toList := by
  have chars := congrArg String.toList same
  rw [String.toList_append, String.toList_append] at chars
  exact List.suffix_or_suffix_of_suffix ⟨_, rfl⟩ ⟨_, chars.symm⟩

/-- From its text it can be told what sort a record is of, and what is put into words in it. -/
theorem alike_of_message_eq {record record' : Record} (same : record.message = record'.message) :
    Alike record record' := by
  cases record <;> cases record' <;> unfold message at same <;> dsimp only at same
  case stripped.stripped =>
    rw [String.append_left_inj, String.append_right_inj] at same
    exact same ▸ .stripped
  case disallowed.disallowed => exact .disallowed ((String.append_right_inj _).1 same)
  case misplaced.misplaced =>
    simp only [String.append_assoc, String.append_right_inj] at same
    exact .misplaced (by rw [String.append_assoc, String.append_assoc, same])
  case refused.refused =>
    rw [String.append_left_inj] at same
    simp only [String.append_assoc, String.append_right_inj] at same
    exact .refused (by rw [String.append_assoc, String.append_assoc, same])
  -- These may begin alike, since a tag can be any text, but they do not end alike.
  case stripped.refused | refused.stripped => exact absurd (end_alike same) (by decide)
  all_goals
    simp only [String.append_assoc] at same
    exact absurd (begin_alike same) (by decide)

theorem message_eq_iff {record record' : Record} :
    record.message = record'.message ↔ Alike record record' := by
  refine ⟨alike_of_message_eq, fun alike => ?_⟩
  cases alike <;> unfold message <;> dsimp only
  case disallowed same => rw [same]
  case misplaced same =>
    simp only [String.append_assoc, String.append_right_inj]
    simpa only [String.append_assoc] using same
  case refused same =>
    rw [String.append_left_inj]
    simpa only [String.append_assoc, String.append_right_inj] using same

end Audit.Record

namespace Policy

/-! ## Judged elements -/

/-- No element that encloses the occurrence has a tag that vanishes. -/
def IsReached (policy : Policy) (items : List Value) (path : Path) : Prop :=
  ∀ outer tag, Encloses outer path → tagAt? items outer = some tag → tag ∉ policy.strip

/-- At the path there is an element that a verdict is given on. -/
def IsJudged (policy : Policy) (items : List Value) (path : Path) : Prop :=
  (∃ node, occurrence? items path = some node ∧ node.kind = .element) ∧ policy.IsReached items path

variable {policy : Policy} {enclosing : List String} {items : List Value} {node : Node}

theorem isReached_cons {i : Nat} {path : Path} :
    policy.IsReached items (i :: path) ↔
      ∀ outer tag, Encloses outer path → tagAt? items (i :: outer) = some tag →
        tag ∉ policy.strip := by
  constructor
  · intro reached outer tag below
    exact reached (i :: outer) tag (encloses_cons_cons.2 ⟨rfl, below⟩)
  · intro reached outer tag below tagged
    cases outer with
    | nil => exact nomatch tagAt?_nil.symm.trans tagged
    | cons j outer =>
      obtain ⟨rfl, inner⟩ := encloses_cons_cons.1 below
      exact reached outer tag inner tagged

theorem isLocal_isJudged : IsLocal policy.IsJudged where
  not_nil := fun ⟨⟨_, occurs, _⟩, _⟩ => ne_nil_of_occurrence? occurs rfl
  lt_length := fun ⟨⟨_, occurs, _⟩, _⟩ => lt_length_of_occurrence? occurs
  congr := fun h => by
    simp only [IsJudged, isReached_cons, occurrence?_congr h, tagAt?_congr h]

theorem isReached_below {path : Path} (ne : path ≠ []) :
    policy.IsReached [.node node] (0 :: path) ↔
      policy.Spares node ∧ policy.IsReached node.items path := by
  rw [isReached_cons]
  constructor
  · intro reached
    refine ⟨fun tag tagged => reached [] tag (encloses_nil_left.2 ne) (tagAt?_top.trans tagged), ?_⟩
    intro outer tag below tagged
    cases outer with
    | nil => exact nomatch tagAt?_nil.symm.trans tagged
    | cons j outer => exact reached _ tag below ((tagAt?_below (List.cons_ne_nil _ _)).trans tagged)
  · rintro ⟨spared, reached⟩ outer tag below tagged
    cases outer with
    | nil => exact spared tag (tagAt?_top.symm.trans tagged)
    | cons j outer =>
      exact reached _ tag below ((tagAt?_below (List.cons_ne_nil _ _)).symm.trans tagged)

theorem isJudged_node_iff {path : Path} :
    policy.IsJudged [.node node] path ↔
      (path = [0] ∧ node.kind = .element) ∨
        ∃ rest, (policy.Spares node ∧ policy.IsJudged node.items rest) ∧ 0 :: rest = path := by
  constructor
  · intro judged
    obtain ⟨rest, rfl⟩ := isLocal_isJudged.exists_cons judged
    obtain ⟨⟨found, occurs, isElement⟩, reached⟩ := judged
    cases rest with
    | nil =>
      obtain rfl := Option.some.inj (occurrence?_top.symm.trans occurs)
      exact .inl ⟨rfl, isElement⟩
    | cons j rest =>
      obtain ⟨spared, inner⟩ := (isReached_below (List.cons_ne_nil j rest)).1 reached
      rw [occurrence?_below rfl (List.cons_ne_nil j rest)] at occurs
      exact .inr ⟨j :: rest, ⟨spared, ⟨found, occurs, isElement⟩, inner⟩, rfl⟩
  · rintro (⟨rfl, isElement⟩ | ⟨rest, ⟨spared, judged⟩, rfl⟩)
    · refine ⟨⟨node, occurrence?_top, isElement⟩, isReached_cons.2 fun outer tag below => ?_⟩
      exact absurd below not_encloses_nil
    · have ne : rest ≠ [] := fun e => isLocal_isJudged.not_nil (e ▸ judged)
      obtain ⟨⟨found, occurs, isElement⟩, reached⟩ := judged
      exact ⟨⟨found, (occurrence?_below rfl ne).trans occurs, isElement⟩,
        (isReached_below ne).2 ⟨spared, reached⟩⟩

theorem IsJudged.isOccupied {path : Path} (judged : policy.IsJudged items path) :
    IsOccupied items path :=
  ⟨judged.1.choose, judged.1.choose_spec.1⟩

theorem not_isJudged_leaf (leaf : node.items = []) (noElement : node.kind ≠ .element)
    {path : Path} : ¬ policy.IsJudged [.node node] path := by
  rw [isJudged_node_iff, leaf]
  rintro (⟨-, isElement⟩ | ⟨rest, ⟨-, judged⟩, -⟩)
  · exact noElement isElement
  · exact isLocal_isJudged.not_empty judged

/-! ## What is put on record about an element -/

/-- The entry is that of a property which may stand on the tag but whose value is refused, and this
is the record of it. -/
def Refuses (policy : Policy) (tag : String) (entry : Value × Value) (record : Audit.Record) :
    Prop :=
  ∃ name, entry.1 = .str name ∧ policy.allowsAttribute tag name = true ∧
    policy.sanitizeValue name entry.2 = none ∧ record = .refused tag name

/-- The rule of the tag asks for something, and no kept element around the occurrence has a tag that
it asks for. -/
structure IsUnmet (policy : Policy) (enclosing : List String) (items : List Value) (path : Path)
    (tag : String) : Prop where
  asks : policy.requiredAncestors tag ≠ ∅
  outside : ∀ outer ∈ enclosing, outer ∉ policy.requiredAncestors tag
  inside : ∀ way outer, Encloses way path → policy.Keeps enclosing items way outer →
    outer ∉ policy.requiredAncestors tag

/-- The records about the element at the path, inside elements with the tags `enclosing`. -/
inductive Reports (policy : Policy) (enclosing : List String) (items : List Value) (path : Path) :
    List Audit.Record → Prop
  | stripped {name : String} {properties children data position : Value} :
      occurrence? items path = some (.element (.str name) properties children data position) →
      name ∈ policy.strip → policy.Reports enclosing items path [.stripped name]
  | disallowed {tag properties children data position : Value} :
      occurrence? items path = some (.element tag properties children data position) →
      policy.isStripped tag = false → policy.allowsTag tag = false →
      policy.Reports enclosing items path [.disallowed tag]
  | misplaced {name : String} {properties children data position : Value} :
      occurrence? items path = some (.element (.str name) properties children data position) →
      name ∉ policy.strip → policy.allowsTag (.str name) = true →
      policy.IsUnmet enclosing items path name →
      policy.Reports enclosing items path [.misplaced name (policy.requiredAncestors name)]
  | kept {name : String} {properties children data position : Value}
      {records : List Audit.Record} :
      occurrence? items path = some (.element (.str name) properties children data position) →
      policy.Keeps enclosing items path name →
      Picks (policy.Refuses name) (properties.entries?.getD []) records →
      policy.Reports enclosing items path records

theorem IsUnmet.congr {items' : List Value} {i j : Nat} (h : items[i]? = items'[j]?)
    {path : Path} {tag : String} (unmet : policy.IsUnmet enclosing items (i :: path) tag) :
    policy.IsUnmet enclosing items' (j :: path) tag where
  asks := unmet.asks
  outside := unmet.outside
  inside := by
    intro way outer encloses keeps
    cases way with
    | nil => exact absurd keeps not_keeps_nil
    | cons k way =>
      obtain ⟨rfl, below⟩ := encloses_cons_cons.1 encloses
      exact unmet.inside (i :: way) outer (encloses_cons_cons.2 ⟨rfl, below⟩)
        (keeps.congr h.symm rfl)

theorem isUnmet_top {tag : String}
    (misplaced : policy.allowsPlace tag (enclosing.map .str) = false) :
    policy.IsUnmet enclosing [.node node] [0] tag := by
  obtain ⟨asks, none⟩ := Classical.not_imp.1 (mt allowsPlace_iff.2 (Bool.eq_false_iff.1 misplaced))
  refine ⟨asks, fun outer around met => none ⟨outer, around, met⟩, ?_⟩
  intro way outer encloses keeps
  cases way with
  | nil => exact absurd keeps not_keeps_nil
  | cons i way => exact absurd (encloses_cons_cons.1 encloses).2 not_encloses_nil

theorem Reports.congr {items' : List Value} {i j : Nat} (h : items[i]? = items'[j]?)
    {path : Path} {records : List Audit.Record}
    (reports : policy.Reports enclosing items (i :: path) records) :
    policy.Reports enclosing items' (j :: path) records := by
  cases reports with
  | stripped occurs vanishes => exact .stripped (occurrence?_congr h path ▸ occurs) vanishes
  | disallowed occurs lasts refused =>
    exact .disallowed (occurrence?_congr h path ▸ occurs) lasts refused
  | misplaced occurs lasts allowed unmet =>
    exact .misplaced (occurrence?_congr h path ▸ occurs) lasts allowed (unmet.congr h)
  | kept occurs keeps picked =>
    exact .kept (occurrence?_congr h path ▸ occurs) (keeps.congr h rfl) picked

theorem Reports.isOccupied {path : Path} {records : List Audit.Record}
    (reports : policy.Reports enclosing items path records) : IsOccupied items path := by
  cases reports with
  | stripped occurs _ => exact ⟨_, occurs⟩
  | disallowed occurs _ _ => exact ⟨_, occurs⟩
  | misplaced occurs _ _ _ => exact ⟨_, occurs⟩
  | kept occurs _ _ => exact ⟨_, occurs⟩

theorem isLocal_reports (records : List Audit.Record) :
    IsLocal fun items path => policy.Reports enclosing items path records where
  not_nil := fun reports => isLocal_isOccupied.not_nil reports.isOccupied
  lt_length := fun reports => isLocal_isOccupied.lt_length reports.isOccupied
  congr := fun h => ⟨Reports.congr h, Reports.congr h.symm⟩

section Below

/-! As for survival, the tags around the items of a node are those around the node and, if it is
kept, its own. -/

variable {inner : List String}

theorem IsUnmet.ascend (spared : policy.Spares node)
    (grown : ∀ tag, tag ∈ inner ↔ tag ∈ enclosing ∨ policy.Keeps enclosing [.node node] [0] tag)
    {path : Path} {tag : String} (unmet : policy.IsUnmet inner node.items path tag) :
    policy.IsUnmet enclosing [.node node] (0 :: path) tag where
  asks := unmet.asks
  outside := fun outer around => unmet.outside outer ((grown outer).2 (.inl around))
  inside := by
    intro way outer encloses keeps
    cases way with
    | nil => exact absurd keeps not_keeps_nil
    | cons i way =>
      obtain ⟨rfl, below⟩ := encloses_cons_cons.1 encloses
      cases way with
      | nil => exact unmet.outside outer ((grown outer).2 (.inr keeps))
      | cons j way =>
        exact unmet.inside (j :: way) outer below
          (keeps.descend spared grown rfl (List.cons_ne_nil j way))

theorem Reports.ascend (spared : policy.Spares node)
    (grown : ∀ tag, tag ∈ inner ↔ tag ∈ enclosing ∨ policy.Keeps enclosing [.node node] [0] tag)
    {path : Path} {records : List Audit.Record}
    (reports : policy.Reports inner node.items path records) :
    policy.Reports enclosing [.node node] (0 :: path) records := by
  have same : occurrence? [.node node] (0 :: path) = occurrence? node.items path :=
    occurrence?_below rfl fun e => isLocal_isOccupied.not_nil (e ▸ reports.isOccupied)
  cases reports with
  | stripped occurs vanishes => exact .stripped (same.trans occurs) vanishes
  | disallowed occurs lasts refused => exact .disallowed (same.trans occurs) lasts refused
  | misplaced occurs lasts allowed unmet =>
    exact .misplaced (same.trans occurs) lasts allowed (unmet.ascend spared grown)
  | kept occurs keeps picked => exact .kept (same.trans occurs) (keeps.ascend spared grown) picked

end Below

/-- An element survives only by being kept, under its own tag. -/
theorem Survives.exists_keeps {path : Path} {tag properties children data position : Value}
    (survives : policy.Survives enclosing items path)
    (occurs : occurrence? items path = some (.element tag properties children data position)) :
    ∃ name, tag = .str name ∧ policy.Keeps enclosing items path name := by
  cases survives with
  | root other _ => cases other.symm.trans occurs
  | text other _ => cases other.symm.trans occurs
  | element keeps =>
    obtain ⟨found, other, tagged⟩ := Option.bind_eq_some_iff.1 keeps.isCandidate.tagged
    cases other.symm.trans occurs
    exact ⟨_, tag?_element.1 tagged, keeps⟩

/-- An element that stays has no record of its own, and one that does not has exactly one. -/
theorem Reports.countP {path : Path} {records : List Audit.Record}
    (reports : policy.Reports enclosing items path records) :
    (policy.Survives enclosing items path ∧ records.countP Audit.Record.isOfElement = 0) ∨
      (¬ policy.Survives enclosing items path ∧ records.countP Audit.Record.isOfElement = 1) := by
  cases reports with
  | stripped occurs vanishes =>
    refine .inr ⟨fun survives => ?_, rfl⟩
    obtain ⟨name, same, keeps⟩ := survives.exists_keeps occurs
    cases same
    exact keeps.isCandidate.live path _ (List.prefix_refl path) keeps.isCandidate.tagged vanishes
  | disallowed occurs _ refused =>
    refine .inr ⟨fun survives => ?_, rfl⟩
    obtain ⟨name, rfl, keeps⟩ := survives.exists_keeps occurs
    exact Bool.false_ne_true (refused.symm.trans keeps.isCandidate.allowed)
  | misplaced occurs _ _ unmet =>
    refine .inr ⟨fun survives => ?_, rfl⟩
    obtain ⟨name, same, keeps⟩ := survives.exists_keeps occurs
    cases same
    cases keeps with
    | free _ none => exact unmet.asks none
    | outside _ around met => exact unmet.outside _ around met
    | inside _ encloses keeps met => exact unmet.inside _ _ encloses keeps met
  | kept occurs keeps picked =>
    refine .inl ⟨.element keeps, List.countP_eq_zero.2 fun record hrecord => ?_⟩
    obtain ⟨entry, -, name, -, -, -, rfl⟩ := picked.mem hrecord
    exact Bool.false_ne_true

theorem picks_refuses (policy : Policy) (tag : String) (properties : Value) :
    Picks (policy.Refuses tag) (properties.entries?.getD [])
      (policy.cleanProperties tag properties).2 :=
  ⟨policy.refusal tag, fun _ _ => refusal_eq_some_iff, refused_eq_filterMap policy tag _⟩

/-! ## Trails -/

/-- The trail is the list of the judged elements of the items, with the records about each, and
`records` is all that it holds. -/
structure Trails (policy : Policy) (enclosing : List String) (items : List Value)
    (records : List Audit.Record) (trail : List (Path × List Audit.Record)) : Prop where
  /-- The places are the judged elements, each once and in document order. -/
  places : Enumerates (policy.IsJudged items) (trail.map Prod.fst)
  /-- Beside each place stand the records about the element there. -/
  reports : ∀ entry ∈ trail, policy.Reports enclosing items entry.1 entry.2
  /-- Nothing else is on record, and the records stand in the order of the places. -/
  complete : records = trail.flatMap Prod.snd

namespace Trails

variable {records : List Audit.Record} {trail : List (Path × List Audit.Record)}

theorem nothing (none : ∀ path, ¬ policy.IsJudged items path) :
    policy.Trails enclosing items [] [] where
  places := .nothing none
  reports := fun _ h => absurd h List.not_mem_nil
  complete := rfl

theorem empty : policy.Trails enclosing [] [] [] :=
  nothing fun _ => isLocal_isJudged.not_empty

theorem append {xs ys : List Value} {recordsXs recordsYs : List Audit.Record}
    {first second : List (Path × List Audit.Record)}
    (hxs : policy.Trails enclosing xs recordsXs first)
    (hys : policy.Trails enclosing ys recordsYs second) :
    policy.Trails enclosing (xs ++ ys) (recordsXs ++ recordsYs)
      (first ++ second.map fun entry => (entry.1.bump xs.length, entry.2)) where
  places := by
    have joined := hxs.places.append isLocal_isJudged hys.places
    simpa only [List.map_append, List.map_map, Function.comp_def] using joined
  reports := by
    intro moved hmoved
    rcases List.mem_append.1 hmoved with he | he'
    · exact (isLocal_reports moved.2).append_left (hxs.reports moved he)
    · obtain ⟨entry, he, rfl⟩ := List.mem_map.1 he'
      exact (isLocal_reports entry.2).append_right (hys.reports entry he)
  complete := by
    rw [hxs.complete, hys.complete, List.flatMap_append, List.flatMap_map]

section Below

variable {inner : List String} (spared : policy.Spares node)
  (grown : ∀ tag, tag ∈ inner ↔ tag ∈ enclosing ∨ policy.Keeps enclosing [.node node] [0] tag)
  (h : policy.Trails inner node.items records trail)

include spared grown h

theorem below (noElement : node.kind ≠ .element) :
    policy.Trails enclosing [.node node] records
      (trail.map fun entry => (0 :: entry.1, entry.2)) where
  places := by
    have lifted := h.places.below (Q := policy.IsJudged [.node node]) fun path => by
      rw [isJudged_node_iff, or_iff_right fun top => noElement top.2]
      simp only [spared, true_and]
    simpa only [List.map_map, Function.comp_def] using lifted
  reports := by
    intro moved hmoved
    obtain ⟨entry, he, rfl⟩ := List.mem_map.1 hmoved
    exact (h.reports entry he).ascend spared grown
  complete := by
    rw [h.complete, List.flatMap_map]

theorem top (isElement : node.kind = .element) {own : List Audit.Record}
    (reports : policy.Reports enclosing [.node node] [0] own) :
    policy.Trails enclosing [.node node] (own ++ records)
      (([0], own) :: trail.map fun entry => (0 :: entry.1, entry.2)) where
  places := by
    have lifted := h.places.top (Q := policy.IsJudged [.node node]) isLocal_isJudged.not_nil
      fun path => by
        rw [isJudged_node_iff, and_iff_left isElement]
        simp only [spared, true_and]
    simpa only [List.map_cons, List.map_map, Function.comp_def] using lifted
  reports := by
    intro moved hmoved
    rcases List.mem_cons.1 hmoved with rfl | hm
    · exact reports
    · obtain ⟨entry, he, rfl⟩ := List.mem_map.1 hm
      exact (h.reports entry he).ascend spared grown
  complete := by
    rw [h.complete, List.flatMap_cons, List.flatMap_map]

end Below

/-- An element that vanishes: nothing below it is judged. -/
theorem alone (isElement : node.kind = .element) (vanishes : ¬ policy.Spares node)
    {own : List Audit.Record} (reports : policy.Reports enclosing [.node node] [0] own) :
    policy.Trails enclosing [.node node] own [([0], own)] where
  places := by
    refine ⟨List.pairwise_singleton _ _, fun path => ?_⟩
    rw [isJudged_node_iff, and_iff_left isElement]
    simp only [vanishes, false_and, exists_false, or_false, List.map_cons, List.map_nil,
      List.mem_singleton]
  reports := fun entry he => List.mem_singleton.1 he ▸ reports
  complete := (List.append_nil own).symm

end Trails

/-! ## The walk -/

section Element

variable {tag properties children data position : Value} {records : List Audit.Record}
  {trail : List (Path × List Audit.Record)}

theorem trails_stripped {name : String}
    (verdict : policy.judge (enclosing.map .str) tag = .stripped name) :
    policy.Trails enclosing [.node (.element tag properties children data position)]
      [.stripped name] [([0], [.stripped name])] := by
  obtain ⟨rfl, vanishes⟩ := judge_eq_stripped_iff.1 verdict
  exact .alone rfl (fun spared => spared name rfl vanishes) (.stripped occurrence?_top vanishes)

theorem trails_disallowed (verdict : policy.judge (enclosing.map .str) tag = .disallowed)
    (h : policy.Trails enclosing (children.items?.getD []) records trail) :
    policy.Trails enclosing [.node (.element tag properties children data position)]
      ([.disallowed tag] ++ records)
      (([0], [.disallowed tag]) :: trail.map fun entry => (0 :: entry.1, entry.2)) := by
  have notStripped : ∀ name, policy.judge (enclosing.map .str) tag ≠ .stripped name := by
    simp [verdict]
  obtain ⟨lasts, refused⟩ := judge_eq_disallowed verdict
  exact .top (spares_element notStripped) (grown_of_unwrapped (by simp [verdict])) h rfl
    (.disallowed occurrence?_top lasts refused)

theorem trails_misplaced {name : String}
    (verdict : policy.judge (enclosing.map .str) tag = .misplaced name)
    (h : policy.Trails enclosing (children.items?.getD []) records trail) :
    policy.Trails enclosing [.node (.element tag properties children data position)]
      ([.misplaced name (policy.requiredAncestors name)] ++ records)
      (([0], [.misplaced name (policy.requiredAncestors name)]) ::
        trail.map fun entry => (0 :: entry.1, entry.2)) := by
  have notStripped : ∀ other, policy.judge (enclosing.map .str) tag ≠ .stripped other := by
    simp [verdict]
  have notKept : ∀ other, policy.judge (enclosing.map .str) tag ≠ .kept other := by
    simp [verdict]
  obtain ⟨rfl, lasts, allowed, misplaced⟩ := judge_eq_misplaced verdict
  exact .top (spares_element notStripped) (grown_of_unwrapped notKept) h rfl
    (.misplaced occurrence?_top lasts allowed (isUnmet_top misplaced))

theorem trails_kept {name : String}
    (verdict : policy.judge (enclosing.map .str) tag = .kept name)
    (h : policy.Trails (enclosing ++ [name]) (children.items?.getD []) records trail) :
    policy.Trails enclosing [.node (.element tag properties children data position)]
      ((policy.cleanProperties name properties).2 ++ records)
      (([0], (policy.cleanProperties name properties).2) ::
        trail.map fun entry => (0 :: entry.1, entry.2)) := by
  have notStripped : ∀ other, policy.judge (enclosing.map .str) tag ≠ .stripped other := by
    simp [verdict]
  obtain ⟨rfl, -⟩ := judge_eq_kept_iff.1 verdict
  exact .top (spares_element notStripped) (grown_of_kept verdict) h rfl
    (.kept occurrence?_top (keeps_top_iff.2 ⟨rfl, verdict⟩) (picks_refuses policy name properties))

end Element

mutual

/-- The records of cleaning a node are those of its trail. -/
theorem clean_trails (policy : Policy) : ∀ (node : Node) (enclosing : List String),
    ∃ trail, policy.Trails enclosing [.node node]
      (policy.clean (enclosing.map .str) node).records trail
  | .root children data position, enclosing => by
    obtain ⟨trail, h⟩ := cleanChildren_trails policy children enclosing
    have spared : policy.Spares (.root children data position) := spares_of_untagged rfl
    exact ⟨_, .below spared (fun _ => (or_iff_left (not_keeps_of_untagged rfl)).symm) h
      Kind.noConfusion⟩
  | .element tag properties children data position, enclosing => by
    cases verdict : policy.judge (enclosing.map .str) tag with
    | stripped name =>
      rw [records_clean_stripped verdict]
      exact ⟨_, trails_stripped verdict⟩
    | disallowed =>
      obtain ⟨trail, h⟩ := cleanChildren_trails policy children enclosing
      rw [records_clean_disallowed verdict]
      exact ⟨_, trails_disallowed verdict h⟩
    | misplaced name =>
      obtain ⟨trail, h⟩ := cleanChildren_trails policy children enclosing
      rw [records_clean_misplaced verdict]
      exact ⟨_, trails_misplaced verdict h⟩
    | kept name =>
      obtain ⟨trail, h⟩ := cleanChildren_trails policy children (enclosing ++ [name])
      rw [List.map_append] at h
      rw [records_clean_kept verdict]
      exact ⟨_, trails_kept verdict h⟩
  | .text value data position, enclosing => by
    rw [records_clean_text]
    exact ⟨[], .nothing fun _ => not_isJudged_leaf rfl Kind.noConfusion⟩
  | .bare .., _ | .comment .., _ | .doctype .., _ | .raw .., _ | .unknown .., _ =>
    ⟨[], .nothing fun _ => not_isJudged_leaf rfl Kind.noConfusion⟩
termination_by structural node => node

theorem cleanChildren_trails (policy : Policy) : ∀ (children : Value) (enclosing : List String),
    ∃ trail, policy.Trails enclosing (children.items?.getD [])
      (policy.cleanChildren (enclosing.map .str) children).records trail
  | .list items, enclosing | .tuple items, enclosing => cleanItems_trails policy items enclosing
  | .null, _ | .bool _, _ | .int _, _ | .float _, _ | .str _, _ | .bytes _, _ | .set _, _
  | .map _, _ | .position _, _ | .node _, _ | .foreign, _ => ⟨[], .empty⟩
termination_by structural children => children

theorem cleanItems_trails (policy : Policy) : ∀ (items : List Value) (enclosing : List String),
    ∃ trail, policy.Trails enclosing items
      (policy.cleanItems (enclosing.map .str) items).records trail
  | [], _ => ⟨[], .empty⟩
  | item :: rest, enclosing => by
    obtain ⟨first, hfirst⟩ := cleanItem_trails policy item enclosing
    obtain ⟨second, hsecond⟩ := cleanItems_trails policy rest enclosing
    rw [cleanItems, Cleaned.records_append]
    exact ⟨_, hfirst.append hsecond⟩
termination_by structural items => items

theorem cleanItem_trails (policy : Policy) : ∀ (item : Value) (enclosing : List String),
    ∃ trail, policy.Trails enclosing [item]
      (policy.cleanItem (enclosing.map .str) item).records trail
  | .node node, enclosing => clean_trails policy node enclosing
  | .null, _ | .bool _, _ | .int _, _ | .float _, _ | .str _, _ | .bytes _, _ | .list _, _
  | .tuple _, _ | .set _, _ | .map _, _ | .position _, _ | .foreign, _ =>
    ⟨[], .nothing fun _ judged => not_isOccupied_of_node? rfl judged.isOccupied⟩
termination_by structural item => item

end

/-! ## What a reader sees -/

/-- Sanitizing a node leaves, for a reader who wants everything, the records of its trail: for each
element that no vanishing element encloses, in document order, what `Reports` says of it, and
nothing else.  Each of these elements is among the survivors with no record of its own, or is not
and has exactly one.  A reader at a coarser level sees no record and gets the same tree. -/
theorem sanitize_leaves_trail (policy : Policy) (node : Node) :
    ∃ trail moves out,
      policy.Trails [] [.node node] (policy.sanitizeAt .debug (.node node)).records trail ∧
      policy.sanitize (.node node) = Node.collapse out ∧
      policy.Transfers [] [.node node] (out.map .node) moves ∧
      (∀ entry ∈ trail,
        (entry.1 ∈ moves.map Prod.fst ∧ entry.2.countP Audit.Record.isOfElement = 0) ∨
        (entry.1 ∉ moves.map Prod.fst ∧ entry.2.countP Audit.Record.isOfElement = 1)) ∧
      (policy.sanitizeAt .info (.node node)).records = [] ∧
      ∀ level, (policy.sanitizeAt level (.node node)).node = policy.sanitize (.node node) := by
  obtain ⟨trail, trails⟩ := clean_trails policy node []
  obtain ⟨moves, transfers⟩ := clean_transfers policy node [] fun _ h => absurd h List.not_mem_nil
  refine ⟨trail, moves, _, trails, sanitize_node policy node, transfers, ?_, rfl, fun _ => rfl⟩
  intro entry he
  rw [transfers.sources.2]
  exact (trails.reports entry he).countP

/-- An item outside of a list, around a link with an address that is refused, an element with a
number for its tag, and a script. -/
example :
    let link : Node := .element (.str "a") (.map [(.str "href", .str "javascript:0")])
      (.tuple []) .null .null
    let script : Node := .element (.str "script") (.map []) (.list [.node link]) .null .null
    let odd : Node := .element (.int 7) .null .null .null .null
    let item : Node := .element (.str "li") .null (.list [.node link, .node odd, .node script])
      .null .null
    (standard.sanitizeAt .debug (.node item)).records.map Audit.Record.message =
      ["Unwrapping <li> outside of ol/ul", "Dropping a[href]: rejected value",
        "Unwrapping disallowed element 7", "Dropping <script> and its subtree"] :=
  rfl

end Policy

end SafeMarkup
