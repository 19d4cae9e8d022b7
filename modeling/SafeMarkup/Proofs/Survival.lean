/-
# What survives cleaning

`Policy.Survives` says of each occurrence in a tree whether it is still there when the tree has been
cleaned, and it says so path by path, without the walk: an occurrence is live if no tag from it
outwards vanishes, and a live element is kept if its tag may stay and its rule is met by the tag of
a kept element around it.

The lemmas below take survival apart the way the walk goes.  Survival is local, so it can be asked
of the items of a list one by one; and below a node that does not vanish it is survival among the
items of that node (`survives_below_iff`).  What the walk carries along, the tags of the kept
elements, enters as the tags around the items: below a node they grow by the tag of that node if and
only if the node is kept.

It is a specification, and it can be read without knowing how cleaning proceeds.  The recursion
that it needs is in one place: whether an element is kept may depend on whether an element around
it is kept, so `Policy.Keeps` is defined by recursion on the path, from the outside to the inside.
That what cleaning leaves is in fact what survives is proved in `Proofs/Transfer.lean`.
-/
import SafeMarkup.Proofs.Cleaning
import SafeMarkup.Proofs.Occurrence

namespace SafeMarkup

/-! ## Surviving occurrences -/

/-- The tag of an element, if it is a text. -/
def Node.tag? : Node → Option String
  | element (.str tag) .. => some tag
  | _ => none

/-- The tag of the element that occurs at a path. -/
def tagAt? (items : List Value) (path : Path) : Option String :=
  (occurrence? items path).bind Node.tag?

namespace Policy

/-- Neither the occurrence nor an element that encloses it has a tag that vanishes. -/
def IsLive (policy : Policy) (items : List Value) (path : Path) : Prop :=
  ∀ outer tag, outer <+: path → tagAt? items outer = some tag → tag ∉ policy.strip

/-- At the path there is a live element whose tag may stay. -/
structure IsCandidate (policy : Policy) (items : List Value) (path : Path) (tag : String) :
    Prop where
  tagged : tagAt? items path = some tag
  live : policy.IsLive items path
  allowed : policy.allowsTag (.str tag) = true

/-- At the path there is an element with this tag that is kept inside elements with the tags
`enclosing`: its rule asks for nothing, or for one of these tags, or for the tag of an element in
the tree that encloses it and is itself kept. -/
inductive Keeps (policy : Policy) (enclosing : List String) (items : List Value) :
    Path → String → Prop
  | free {path : Path} {tag : String} : policy.IsCandidate items path tag →
      policy.requiredAncestors tag = ∅ → policy.Keeps enclosing items path tag
  | outside {path : Path} {tag outer : String} : policy.IsCandidate items path tag →
      outer ∈ enclosing → outer ∈ policy.requiredAncestors tag →
      policy.Keeps enclosing items path tag
  | inside {path way : Path} {tag outer : String} : policy.IsCandidate items path tag →
      Encloses way path → policy.Keeps enclosing items way outer →
      outer ∈ policy.requiredAncestors tag → policy.Keeps enclosing items path tag

/-- What occurs at the path survives: a live root, a live text that is a text, a kept element. -/
inductive Survives (policy : Policy) (enclosing : List String) (items : List Value)
    (path : Path) : Prop
  | root {children data position : Value} :
      occurrence? items path = some (.root children data position) →
      policy.IsLive items path → policy.Survives enclosing items path
  | text {s : String} {data position : Value} :
      occurrence? items path = some (.text (.str s) data position) →
      policy.IsLive items path → policy.Survives enclosing items path
  | element {tag : String} : policy.Keeps enclosing items path tag →
      policy.Survives enclosing items path

variable {policy : Policy} {enclosing : List String} {items : List Value}

/-! ## Survival is local -/

theorem tagAt?_nil : tagAt? items [] = none := by
  rw [tagAt?, occurrence?_nil]
  rfl

theorem tagAt?_congr {items' : List Value} {i j : Nat} (h : items[i]? = items'[j]?) (path : Path) :
    tagAt? items (i :: path) = tagAt? items' (j :: path) := by
  rw [tagAt?, tagAt?, occurrence?_congr h]

theorem isLive_cons {i : Nat} {path : Path} :
    policy.IsLive items (i :: path) ↔
      ∀ outer tag, outer <+: path → tagAt? items (i :: outer) = some tag → tag ∉ policy.strip := by
  constructor
  · intro live outer tag le tagged
    exact live (i :: outer) tag (List.cons_prefix_cons.2 ⟨rfl, le⟩) tagged
  · intro live outer tag le tagged
    cases outer with
    | nil =>
      rw [tagAt?_nil] at tagged
      cases tagged
    | cons j outer =>
      obtain ⟨rfl, inner⟩ := List.cons_prefix_cons.1 le
      exact live outer tag inner tagged

theorem isLive_congr {items' : List Value} {i j : Nat} (h : items[i]? = items'[j]?)
    {path : Path} : policy.IsLive items (i :: path) ↔ policy.IsLive items' (j :: path) := by
  rw [isLive_cons, isLive_cons]
  simp only [tagAt?_congr h]

theorem IsCandidate.congr {items' : List Value} {i j : Nat} (h : items[i]? = items'[j]?)
    {path : Path} {tag : String} (candidate : policy.IsCandidate items (i :: path) tag) :
    policy.IsCandidate items' (j :: path) tag :=
  ⟨tagAt?_congr h path ▸ candidate.tagged, (isLive_congr h).1 candidate.live, candidate.allowed⟩

theorem IsCandidate.ne_nil {path : Path} {tag : String}
    (candidate : policy.IsCandidate items path tag) : path ≠ [] := by
  rintro rfl
  have tagged := candidate.tagged
  rw [tagAt?_nil] at tagged
  cases tagged

theorem Keeps.isCandidate {path : Path} {tag : String} (h : policy.Keeps enclosing items path tag) :
    policy.IsCandidate items path tag := by
  cases h with
  | free candidate _ => exact candidate
  | outside candidate _ _ => exact candidate
  | inside candidate _ _ _ => exact candidate

theorem not_keeps_nil {tag : String} : ¬ policy.Keeps enclosing items [] tag :=
  fun h => h.isCandidate.ne_nil rfl

theorem Keeps.congr {items' : List Value} {i j : Nat} (h : items[i]? = items'[j]?)
    {whole path : Path} {tag : String} (keeps : policy.Keeps enclosing items whole tag)
    (e : whole = i :: path) : policy.Keeps enclosing items' (j :: path) tag := by
  induction keeps generalizing path with
  | free candidate none =>
    subst e
    exact .free (candidate.congr h) none
  | outside candidate around met =>
    subst e
    exact .outside (candidate.congr h) around met
  | @inside _ way _ _ candidate encloses keeps met ih =>
    subst e
    cases way with
    | nil => exact absurd keeps not_keeps_nil
    | cons k way =>
      obtain ⟨rfl, inner⟩ := encloses_cons_cons.1 encloses
      exact .inside (candidate.congr h) (encloses_cons_cons.2 ⟨rfl, inner⟩) (ih rfl) met

theorem Survives.congr {items' : List Value} {i j : Nat} (h : items[i]? = items'[j]?)
    {path : Path} (survives : policy.Survives enclosing items (i :: path)) :
    policy.Survives enclosing items' (j :: path) := by
  cases survives with
  | root occurs live => exact .root (occurrence?_congr h path ▸ occurs) ((isLive_congr h).1 live)
  | text occurs live => exact .text (occurrence?_congr h path ▸ occurs) ((isLive_congr h).1 live)
  | element keeps => exact .element (keeps.congr h rfl)

theorem Survives.isOccupied {path : Path} (h : policy.Survives enclosing items path) :
    IsOccupied items path := by
  cases h with
  | root occurs _ => exact ⟨_, occurs⟩
  | text occurs _ => exact ⟨_, occurs⟩
  | element keeps =>
    obtain ⟨node, occurs, -⟩ := Option.bind_eq_some_iff.1 keeps.isCandidate.tagged
    exact ⟨node, occurs⟩

theorem Survives.isLive {path : Path} (h : policy.Survives enclosing items path) :
    policy.IsLive items path := by
  cases h with
  | root _ live => exact live
  | text _ live => exact live
  | element keeps => exact keeps.isCandidate.live

theorem isLocal_survives : IsLocal (policy.Survives enclosing) where
  not_nil := fun h => isLocal_isOccupied.not_nil h.isOccupied
  lt_length := fun h => isLocal_isOccupied.lt_length h.isOccupied
  congr := fun h => ⟨Survives.congr h, Survives.congr h.symm⟩

/-! ## Survival below a node -/

/-- The node is no element with a tag that vanishes. -/
def Spares (policy : Policy) (node : Node) : Prop :=
  ∀ tag, node.tag? = some tag → tag ∉ policy.strip

variable {node : Node}

theorem tagAt?_top : tagAt? [.node node] [0] = node.tag? := by
  rw [tagAt?, occurrence?_top]
  rfl

theorem tagAt?_below {path : Path} (ne : path ≠ []) :
    tagAt? [.node node] (0 :: path) = tagAt? node.items path := by
  rw [tagAt?, tagAt?, occurrence?_below rfl ne]

theorem isLive_top : policy.IsLive [.node node] [0] ↔ policy.Spares node := by
  rw [isLive_cons]
  constructor
  · intro live tag tagged
    exact live [] tag List.nil_prefix (tagAt?_top.trans tagged)
  · intro spared outer tag le tagged
    obtain rfl := List.prefix_nil.1 le
    exact spared tag (tagAt?_top.symm.trans tagged)

theorem isLive_below {path : Path} :
    policy.IsLive [.node node] (0 :: path) ↔
      policy.Spares node ∧ policy.IsLive node.items path := by
  rw [isLive_cons]
  constructor
  · intro live
    refine ⟨fun tag tagged => live [] tag List.nil_prefix (tagAt?_top.trans tagged), ?_⟩
    intro outer tag le tagged
    cases outer with
    | nil =>
      rw [tagAt?_nil] at tagged
      cases tagged
    | cons j outer => exact live _ tag le ((tagAt?_below (List.cons_ne_nil _ _)).trans tagged)
  · rintro ⟨spared, live⟩ outer tag le tagged
    cases outer with
    | nil => exact spared tag (tagAt?_top.symm.trans tagged)
    | cons j outer =>
      exact live _ tag le ((tagAt?_below (List.cons_ne_nil _ _)).symm.trans tagged)

theorem isCandidate_below {path : Path} {tag : String} (ne : path ≠ [])
    (spared : policy.Spares node) :
    policy.IsCandidate [.node node] (0 :: path) tag ↔ policy.IsCandidate node.items path tag := by
  constructor
  · rintro ⟨tagged, live, allowed⟩
    exact ⟨(tagAt?_below ne).symm.trans tagged, (isLive_below.1 live).2, allowed⟩
  · rintro ⟨tagged, live, allowed⟩
    exact ⟨(tagAt?_below ne).trans tagged, isLive_below.2 ⟨spared, live⟩, allowed⟩

theorem keeps_top_iff {tag : String} :
    policy.Keeps enclosing [.node node] [0] tag ↔
      node.tag? = some tag ∧ policy.judge (enclosing.map .str) (.str tag) = .kept tag := by
  rw [judge_eq_kept_iff, allowsPlace_iff]
  constructor
  · intro keeps
    have tagged : node.tag? = some tag := tagAt?_top.symm.trans keeps.isCandidate.tagged
    refine ⟨tagged, rfl, isLive_top.1 keeps.isCandidate.live tag tagged,
      keeps.isCandidate.allowed, fun bound => ?_⟩
    cases keeps with
    | free _ none => exact absurd none bound
    | outside _ around met => exact ⟨_, around, met⟩
    | @inside _ way _ _ _ encloses keeps _ =>
      cases way with
      | nil => exact absurd keeps not_keeps_nil
      | cons j way => exact absurd (encloses_cons_cons.1 encloses).2 not_encloses_nil
  · rintro ⟨tagged, -, lasts, allowed, placed⟩
    have candidate : policy.IsCandidate [.node node] [0] tag := by
      refine ⟨tagAt?_top.trans tagged, isLive_top.2 fun other e => ?_, allowed⟩
      exact Option.some.inj (tagged.symm.trans e) ▸ lasts
    by_cases none : policy.requiredAncestors tag = ∅
    · exact .free candidate none
    · obtain ⟨outer, around, met⟩ := placed none
      exact .outside candidate around met

theorem spares_of_untagged (untagged : node.tag? = none) : policy.Spares node :=
  fun _ tagged => nomatch untagged.symm.trans tagged

theorem not_keeps_of_untagged (untagged : node.tag? = none) {tag : String} :
    ¬ policy.Keeps enclosing [.node node] [0] tag :=
  fun keeps => nomatch untagged.symm.trans (keeps_top_iff.1 keeps).1

/-- Nothing survives at or below an element with a tag that vanishes. -/
theorem Survives.spares {path : Path} (h : policy.Survives enclosing [.node node] path) :
    policy.Spares node := by
  obtain ⟨rest, rfl⟩ := isLocal_survives.exists_cons h
  exact (isLive_below.1 h.isLive).1

/-- A node that survives itself is a root, a text or an element that the verdict keeps. -/
theorem Survives.top_cases (h : policy.Survives enclosing [.node node] [0]) :
    (∃ children data position, node = .root children data position) ∨
    (∃ s data position, node = .text (.str s) data position) ∨
    ∃ tag, node.tag? = some tag ∧ policy.judge (enclosing.map .str) (.str tag) = .kept tag := by
  cases h with
  | root occurs _ =>
    exact .inl ⟨_, _, _, Option.some.inj (occurrence?_top.symm.trans occurs)⟩
  | text occurs _ =>
    exact .inr (.inl ⟨_, _, _, Option.some.inj (occurrence?_top.symm.trans occurs)⟩)
  | element keeps => exact .inr (.inr ⟨_, keeps_top_iff.1 keeps⟩)

section Below

/-! The tags around the items of a node are those around the node and, if it is kept, its own. -/

variable {inner : List String}

theorem Keeps.ascend (spared : policy.Spares node)
    (grown : ∀ tag, tag ∈ inner ↔ tag ∈ enclosing ∨ policy.Keeps enclosing [.node node] [0] tag)
    {path : Path} {tag : String} (keeps : policy.Keeps inner node.items path tag) :
    policy.Keeps enclosing [.node node] (0 :: path) tag := by
  induction keeps with
  | free candidate none =>
    exact .free ((isCandidate_below candidate.ne_nil spared).2 candidate) none
  | @outside path _ outer candidate around met =>
    have candidate' := (isCandidate_below candidate.ne_nil spared).2 candidate
    rcases (grown outer).1 around with around | keeps
    · exact .outside candidate' around met
    · -- The tag that is met is that of the node itself.
      have below : Encloses [0] (0 :: path) :=
        encloses_cons_cons.2 ⟨rfl, encloses_nil_left.2 candidate.ne_nil⟩
      exact .inside candidate' below keeps met
  | inside candidate encloses _ met ih =>
    exact .inside ((isCandidate_below candidate.ne_nil spared).2 candidate)
      (encloses_cons_cons.2 ⟨rfl, encloses⟩) ih met

theorem Keeps.descend (spared : policy.Spares node)
    (grown : ∀ tag, tag ∈ inner ↔ tag ∈ enclosing ∨ policy.Keeps enclosing [.node node] [0] tag)
    {whole path : Path} {tag : String} (keeps : policy.Keeps enclosing [.node node] whole tag)
    (e : whole = 0 :: path) (ne : path ≠ []) : policy.Keeps inner node.items path tag := by
  induction keeps generalizing path with
  | free candidate none =>
    subst e
    exact .free ((isCandidate_below ne spared).1 candidate) none
  | @outside _ _ outer candidate around met =>
    subst e
    exact .outside ((isCandidate_below ne spared).1 candidate) ((grown outer).2 (.inl around)) met
  | @inside _ way _ outer candidate encloses keeps met ih =>
    subst e
    have candidate' := (isCandidate_below ne spared).1 candidate
    cases way with
    | nil => exact absurd keeps not_keeps_nil
    | cons j way =>
      obtain ⟨rfl, further⟩ := encloses_cons_cons.1 encloses
      cases way with
      | nil => exact .outside candidate' ((grown outer).2 (.inr keeps)) met
      | cons k way => exact .inside candidate' further (ih rfl (List.cons_ne_nil _ _)) met

theorem survives_below_iff (spared : policy.Spares node)
    (grown : ∀ tag, tag ∈ inner ↔ tag ∈ enclosing ∨ policy.Keeps enclosing [.node node] [0] tag)
    {path : Path} (ne : path ≠ []) :
    policy.Survives enclosing [.node node] (0 :: path) ↔ policy.Survives inner node.items path := by
  have same : occurrence? [.node node] (0 :: path) = occurrence? node.items path :=
    occurrence?_below rfl ne
  constructor
  · intro survives
    cases survives with
    | root occurs live => exact .root (same.symm.trans occurs) (isLive_below.1 live).2
    | text occurs live => exact .text (same.symm.trans occurs) (isLive_below.1 live).2
    | element keeps => exact .element (keeps.descend spared grown rfl ne)
  · intro survives
    cases survives with
    | root occurs live => exact .root (same.trans occurs) (isLive_below.2 ⟨spared, live⟩)
    | text occurs live => exact .text (same.trans occurs) (isLive_below.2 ⟨spared, live⟩)
    | element keeps => exact .element (keeps.ascend spared grown)

/-- What survives of a node and below it: the node itself, if it does, and what survives among its
items. -/
theorem survives_node_iff (spared : policy.Spares node)
    (grown : ∀ tag, tag ∈ inner ↔ tag ∈ enclosing ∨ policy.Keeps enclosing [.node node] [0] tag)
    {path : Path} :
    policy.Survives enclosing [.node node] path ↔
      (path = [0] ∧ policy.Survives enclosing [.node node] [0]) ∨
        ∃ rest, policy.Survives inner node.items rest ∧ 0 :: rest = path := by
  constructor
  · intro survives
    obtain ⟨rest, rfl⟩ := isLocal_survives.exists_cons survives
    cases rest with
    | nil => exact .inl ⟨rfl, survives⟩
    | cons j rest =>
      have below := (survives_below_iff spared grown (List.cons_ne_nil j rest)).1 survives
      exact .inr ⟨j :: rest, below, rfl⟩
  · rintro (⟨rfl, survives⟩ | ⟨rest, survives, rfl⟩)
    · exact survives
    · have ne : rest ≠ [] := fun e => isLocal_survives.not_nil (e ▸ survives)
      exact (survives_below_iff spared grown ne).2 survives

end Below

end Policy

end SafeMarkup
