/-
# The tags around a tree

Cleaning is begun inside some tags and adds to them on the way down.  It asks two things of them.
An element is judged by whether one of the tags that its own needs is among them, in whatever place;
and a text goes if the nearest of them is one that vanishes.  `Policy.SeesAlike` relates two lists
of tags that answer both questions alike, and cleaning a tree inside the one or the other gives the
same nodes and the same records (`clean_seesAlike`).

The walk hands the relation on.  A root and an element that is unwrapped leave the tags as they are,
so a text below them is still seen inside the tag that was nearest at the beginning.  An element
that stays puts its own tag last on both sides: from there on the nearest tag is the same.

So the order of the tags around a tree and their repetition make no difference, and tags that no
rule asks for can be added anywhere but at the end (`clean_sameTags`).

The order of tags looks as if it mattered, since they are carried as a list with the nearest one
last, and a walk that asked for the parent of an element would depend on it.  This one does not,
and a caller who knows only which tags are around a fragment, but not how they are nested, can
still clean it in the right way, provided that the nearest one is put last.
-/
import SafeMarkup.Proofs.Cleaning

namespace SafeMarkup.Policy

variable {policy : Policy} {around other : List Value}

/-! ## What is asked of the tags around -/

/-- The nearest of the tags is one that vanishes. -/
def endsInStrip (policy : Policy) (around : List Value) : Bool :=
  (around.getLast?.map policy.isStripped).getD false

/-- What the walk asks of the tags around a node has the same answers for both lists. -/
structure SeesAlike (policy : Policy) (around other : List Value) : Prop where
  places : ∀ name, policy.allowsPlace name around = policy.allowsPlace name other
  nearest : policy.endsInStrip around = policy.endsInStrip other

theorem allowsPlace_append (name : String) (around inner : List Value) :
    policy.allowsPlace name (around ++ inner) =
      (policy.allowsPlace name around || encloses (policy.requiredAncestors name) inner) := by
  rw [allowsPlace, allowsPlace, encloses, List.any_append, Bool.or_assoc]
  rfl

theorem endsInStrip_concat (around : List Value) (tag : Value) :
    policy.endsInStrip (around ++ [tag]) = policy.isStripped tag := by
  rw [endsInStrip, List.getLast?_concat]
  rfl

/-- A tag that is put last on both sides is all that is seen of the nearest tag. -/
theorem SeesAlike.concat (alike : policy.SeesAlike around other) (tag : Value) :
    policy.SeesAlike (around ++ [tag]) (other ++ [tag]) where
  places := by
    intro name
    rw [allowsPlace_append, allowsPlace_append, alike.places]
  nearest := by
    rw [endsInStrip_concat, endsInStrip_concat]

theorem SeesAlike.judge_eq (alike : policy.SeesAlike around other) (tag : Value) :
    policy.judge around tag = policy.judge other tag := by
  cases tag with
  | str name => rw [judge, judge, alike.places]
  | _ => rfl

theorem SeesAlike.cleanText_eq (alike : policy.SeesAlike around other)
    (value data position : Value) :
    policy.cleanText around value data position = policy.cleanText other value data position := by
  have nearest := alike.nearest
  unfold endsInStrip at nearest
  cases value with
  | str s => rw [cleanText, cleanText, nearest]
  | _ => rfl

/-! ## The walk -/

mutual

/-- Inside tags that answer alike, cleaning a node leaves the same and records the same. -/
theorem clean_seesAlike (policy : Policy) : ∀ (node : Node) (around other : List Value),
    policy.SeesAlike around other → policy.clean around node = policy.clean other node
  | .root children data position, around, other, alike => by
    rw [clean, clean, cleanChildren_seesAlike policy children around other alike]
  | .element tag properties children data position, around, other, alike => by
    have verdicts : policy.judge around tag = policy.judge other tag := alike.judge_eq tag
    have moved := cleanChildren_seesAlike policy children around other alike
    rw [clean, clean, verdicts]
    cases policy.judge other tag with
    | stripped name => rfl
    | kept name =>
      have inside := cleanChildren_seesAlike policy children (around ++ [.str name])
        (other ++ [.str name]) (alike.concat (.str name))
      simp only [inside]
    | _ =>
      -- The element is unwrapped: both walks go on inside the tags they were begun with.
      simp only [moved]
  | .text value data position, _, _, alike => alike.cleanText_eq value data position
  | .bare .., _, _, _ | .comment .., _, _, _ | .doctype .., _, _, _ | .raw .., _, _, _
  | .unknown .., _, _, _ => rfl
termination_by structural node => node

theorem cleanChildren_seesAlike (policy : Policy) :
    ∀ (children : Value) (around other : List Value), policy.SeesAlike around other →
    policy.cleanChildren around children = policy.cleanChildren other children
  | .list items, around, other, alike | .tuple items, around, other, alike =>
    cleanItems_seesAlike policy items around other alike
  | .null, _, _, _ | .bool _, _, _, _ | .int _, _, _, _ | .float _, _, _, _ | .str _, _, _, _
  | .bytes _, _, _, _ | .set _, _, _, _ | .map _, _, _, _ | .position _, _, _, _
  | .node _, _, _, _ | .foreign, _, _, _ => rfl
termination_by structural children => children

theorem cleanItems_seesAlike (policy : Policy) :
    ∀ (items : List Value) (around other : List Value), policy.SeesAlike around other →
    policy.cleanItems around items = policy.cleanItems other items
  | [], _, _, _ => rfl
  | item :: rest, around, other, alike => by
    rw [cleanItems, cleanItems, cleanItem_seesAlike policy item around other alike,
      cleanItems_seesAlike policy rest around other alike]
termination_by structural items => items

theorem cleanItem_seesAlike (policy : Policy) :
    ∀ (item : Value) (around other : List Value), policy.SeesAlike around other →
    policy.cleanItem around item = policy.cleanItem other item
  | .node node, around, other, alike => clean_seesAlike policy node around other alike
  | .null, _, _, _ | .bool _, _, _, _ | .int _, _, _, _ | .float _, _, _, _ | .str _, _, _, _
  | .bytes _, _, _, _ | .list _, _, _, _ | .tuple _, _, _, _ | .set _, _, _, _ | .map _, _, _, _
  | .position _, _, _, _ | .foreign, _, _, _ => rfl
termination_by structural item => item

end

/-! ## Texts as tags

A caller may begin the walk inside any texts.  They can all be keys, so no rule fails to look beyond
one of them. -/

section Texts

variable {enclosing others : List String}

theorem asksPlace_texts (policy : Policy) (name : String) (enclosing : List String) :
    ∃ met, policy.asksPlace (.str name) (enclosing.map .str) = .ok met := by
  have scanned (required : NameSet) (tags : List String) :
      ∃ met, scanPlace required (tags.map .str) = .ok met := by
    induction tags with
    | nil => exact ⟨false, rfl⟩
    | cons tag rest ih =>
      rw [List.map_cons, scanPlace]
      split
      · exact ⟨true, rfl⟩
      · exact ih
  show ∃ met, (if (policy.requiredAncestors name).isEmpty then .ok true
    else scanPlace (policy.requiredAncestors name) (enclosing.map .str)) = .ok met
  split
  · exact ⟨true, rfl⟩
  · exact scanned _ enclosing

theorem cleanInside_texts (policy : Policy) (node : Node) (enclosing : List String) :
    policy.cleanInside (enclosing.map .str) (.node node) =
      .ok (policy.clean (enclosing.map .str) node) := by
  rw [cleanInside]
  induction policy.placedTags node with
  | nil => rfl
  | cons tag rest ih =>
    obtain ⟨met, asked⟩ := asksPlace_texts policy tag enclosing
    rw [List.forIn_cons, asked]
    exact ih

/-- Texts are seen alike if the same required tags are among them and the nearest of both vanishes,
or that of neither. -/
theorem seesAlike_of_required
    (same : ∀ rule, ∀ tag ∈ policy.requiredAncestors rule, tag ∈ enclosing ↔ tag ∈ others)
    (nearest : (∃ tag ∈ enclosing.getLast?, tag ∈ policy.strip) ↔
      ∃ tag ∈ others.getLast?, tag ∈ policy.strip) :
    policy.SeesAlike (enclosing.map .str) (others.map .str) where
  places := by
    intro name
    rw [Bool.eq_iff_iff, allowsPlace_iff, allowsPlace_iff]
    refine imp_congr_right fun _ => exists_congr fun tag => ?_
    exact and_congr_left fun required => same name tag required
  nearest := by
    have ends (tags : List String) : policy.endsInStrip (tags.map .str) = true ↔
        ∃ tag ∈ tags.getLast?, tag ∈ policy.strip := by
      rw [endsInStrip, List.getLast?_map]
      cases tags.getLast? with
      | none => simp
      | some tag => simp [isStripped]
    rw [Bool.eq_iff_iff, ends, ends, nearest]

end Texts

/-! ## Only the set of tags matters -/

/-- What a tree is cleaned to inside texts is the same for any other texts with the same members,
in whatever order and however often each, provided that the nearest of both vanishes or that of
neither; and texts that no rule asks for can be added in any places before the last one. -/
theorem clean_sameTags (policy : Policy) (node : Node) :
    (∀ enclosing : List String, policy.cleanInside (enclosing.map .str) (.node node) =
      .ok (policy.clean (enclosing.map .str) node)) ∧
    (∀ enclosing others : List String, (∀ tag, tag ∈ enclosing ↔ tag ∈ others) →
      ((∃ tag ∈ enclosing.getLast?, tag ∈ policy.strip) ↔
        ∃ tag ∈ others.getLast?, tag ∈ policy.strip) →
      policy.clean (enclosing.map .str) node = policy.clean (others.map .str) node) ∧
    ∀ (front more : List String) (last : String), front.Sublist more →
      (∀ tag ∈ more, tag ∈ front ∨ ∀ rule, tag ∉ policy.requiredAncestors rule) →
      policy.clean ((more ++ [last]).map .str) node =
        policy.clean ((front ++ [last]).map .str) node := by
  refine ⟨cleanInside_texts policy node, ?members, ?inserted⟩
  case members =>
    intro enclosing others same nearest
    refine clean_seesAlike policy node _ _ (seesAlike_of_required ?_ nearest)
    intro _ tag _
    exact same tag
  case inserted =>
    intro front more last within added
    refine clean_seesAlike policy node _ _ (seesAlike_of_required ?_ ?_)
    · intro rule tag required
      rw [List.mem_append, List.mem_append]
      refine or_congr_left ⟨fun member => ?_, fun member => within.subset member⟩
      rcases added tag member with old | unasked
      · exact old
      · exact absurd required (unasked rule)
    · rw [List.getLast?_concat, List.getLast?_concat]

/-- List items stand in lists, and scripts vanish. -/
def listing : Policy where
  tagNames := .ofList ["ul", "ol", "li"]
  ancestors := .ofEntries [("li", .ofList ["ul", "ol"])]

/-- Directly inside a script a text goes, but the text of an item that stays is seen inside the
item. -/
theorem clean_sameTags_listing :
    let item (text : String) : Value :=
      .node (.element (.str "li") .null (.list [.node (.textOf text)]) .null .null)
    let node : Node := .root (.list [.node (.textOf "loose"), item "one"]) .null .null
    let kept : Node := .element (.str "li") (.map []) (.tuple [.node (.textOf "one")]) .null .null
    (listing.clean [.str "ul", .str "script"] node).nodes = [.rootOf [kept]] ∧
      listing.clean [.str "script", .str "ul", .str "ul", .str "script"] node =
        listing.clean [.str "ul", .str "script"] node ∧
      listing.clean [.str "div", .str "ul", .str "nav", .str "script"] node =
        listing.clean [.str "ul", .str "script"] node := by
  intro item node kept
  obtain ⟨-, members, inserted⟩ := clean_sameTags listing node
  have asked (rule tag : String) (required : tag ∈ listing.requiredAncestors rule) :
      tag = "ul" ∨ tag = "ol" := by
    rw [requiredAncestors, NameMap.get, listing,
      NameMap.get?_ofEntries (List.pairwise_singleton ..), NameMap.lookup] at required
    split at required
    · simpa using NameSet.mem_ofList.1 required
    · cases required
  refine ⟨rfl, ?_, ?_⟩
  · refine members ["script", "ul", "ul", "script"] ["ul", "script"] ?_ Iff.rfl
    have fewer : ["script", "ul", "ul", "script"] ⊆ ["ul", "script"] := by decide
    have more : ["ul", "script"] ⊆ ["script", "ul", "ul", "script"] := by decide
    exact fun tag => ⟨fun member => fewer member, fun member => more member⟩
  · refine inserted ["ul"] ["div", "ul", "nav"] "script" (by decide) ?_
    have unasked (tag : String) (named : tag = "div" ∨ tag = "nav") (rule : String) :
        tag ∉ listing.requiredAncestors rule := by
      intro required
      rcases asked rule tag required with rfl | rfl <;> exact absurd named (by decide)
    rintro tag (_ | ⟨_, _ | ⟨_, _ | ⟨_, member⟩⟩⟩)
    · exact .inr (unasked _ (.inl rfl))
    · exact .inl (.head _)
    · exact .inr (unasked _ (.inr rfl))
    · cases member

end SafeMarkup.Policy
