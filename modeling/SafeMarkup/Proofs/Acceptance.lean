/-
# Which configurations are accepted

A mapping is accepted as a configuration if what it gives for each part has the shape that the part
needs, `Part.Admits`, and then the policy holds just what was given (`Policy.Configured`).  If not,
there is one fault, that of the first part in the order of `Part.all` whose shape is wrong
(`ofValue_accepts_shaped`).

A fault arises at three levels in the same way: parts, the entries of a map of names and the items
of a collection are gone through in their order, and the first that is not sound is reported.
`FirstFault` says so once for all three; each reader is compared with it by peeling off one item
(`firstFault_cons`).

Where a key occurs several times in a mapping, the last entry counts, and the two spellings of a
part's key are one key.  `Value.lastUnder` is what counts.  It is all that reading sees of the
mapping, so the order of entries that name different parts, and entries that name none, make no
difference.

A fault of configuration shows the value that is wrong.  If that value holds an integer with too
many digits it cannot be shown, and what comes out is the fault that says so (`Part.IsMute`).  This
is the one exception to the rule that the answer is a policy or a fault of configuration, and it is
stated exactly: it arises if and only if the first thing that is wrong, over all parts, cannot be
shown.  `not_forall_fault_of_configuration` is the least integer for which it does.
-/
import Mathlib.Data.List.Induction
import Mathlib.Data.List.Pairwise
import SafeMarkup.Proofs.Configuration

namespace SafeMarkup

/-! ## What a mapping gives -/

namespace Value

variable {entries others : List (Value × Value)} {named : Value → Bool}

/-- What stands in the last of the entries with such a key. -/
def lastUnder (named : Value → Bool) (entries : List (Value × Value)) : Option Value :=
  (entries.reverse.find? fun entry => named entry.1).map Prod.snd

theorem lastUnder_eq_some_iff {value : Value}
    (once : entries.Pairwise fun one other => ¬ (named one.1 = true ∧ named other.1 = true)) :
    lastUnder named entries = some value ↔
      ∃ entry ∈ entries, named entry.1 = true ∧ entry.2 = value := by
  have : Std.Symm fun one other : Value × Value =>
      ¬ (named one.1 = true ∧ named other.1 = true) := ⟨fun _ _ apart both => apart both.symm⟩
  rw [lastUnder, Option.map_eq_some_iff]
  constructor
  · rintro ⟨entry, found, rfl⟩
    have key := List.find?_some found
    exact ⟨entry, List.mem_reverse.1 (List.mem_of_find?_eq_some found), key, rfl⟩
  · rintro ⟨entry, member, key, rfl⟩
    cases found : entries.reverse.find? fun entry => named entry.1 with
    | none => exact absurd key (List.find?_eq_none.1 found entry (List.mem_reverse.2 member))
    | some other =>
      have member' := List.mem_reverse.1 (List.mem_of_find?_eq_some found)
      have key' := List.find?_some found
      by_cases same : other = entry
      · exact ⟨other, rfl, same ▸ rfl⟩
      · exact absurd ⟨key', key⟩ (once.forall member' member same)

/-- Entries in another order give the same if only one of them has such a key. -/
theorem lastUnder_perm (perm : entries.Perm others)
    (once : entries.Pairwise fun one other => ¬ (named one.1 = true ∧ named other.1 = true)) :
    lastUnder named others = lastUnder named entries := by
  have once' := (perm.pairwise_iff fun {_ _} apart both => apart both.symm).1 once
  refine Option.ext fun value => ?_
  rw [lastUnder_eq_some_iff once, lastUnder_eq_some_iff once']
  simp only [perm.mem_iff]

theorem lastUnder_filter {kept : Value → Bool} (keep : ∀ key, named key = true → kept key = true) :
    lastUnder named (entries.filter fun entry => kept entry.1) = lastUnder named entries := by
  have both (entry : Value × Value) :
      decide (kept entry.1 = true ∧ named entry.1 = true) = named entry.1 := by
    cases key : named entry.1 with
    | false => simp
    | true => simp [keep entry.1 key]
  simp only [lastUnder, ← List.filter_reverse, List.find?_filter, both]

end Value

/-! ## Sets of names -/

namespace Value

variable {key : String} {value : Value} {fault : Fault}

def IsName (item : Value) : Prop :=
  ∃ name, item = .str name

/-- The value can be walked through and yields texts only, and is itself neither a text nor a byte
string. -/
def IsNames (value : Value) : Prop :=
  (∀ s, value ≠ .str s) ∧ (∀ s, value ≠ .bytes s) ∧
    ∃ items, value.walk? = some items ∧ ∀ item ∈ items, item.IsName

theorem collection?_eq_some_iff {items : List Value} :
    value.collection? = some items ↔
      (∀ s, value ≠ .str s) ∧ (∀ s, value ≠ .bytes s) ∧ value.walk? = some items := by
  cases value <;> simp [collection?, walk?]

theorem exists_lists_iff : (∃ set, value.Lists set) ↔ value.IsNames := by
  constructor
  · rintro ⟨set, items, collection, texts, -⟩
    obtain ⟨noText, noBytes, walk⟩ := collection?_eq_some_iff.1 collection
    exact ⟨noText, noBytes, items, walk, texts⟩
  · rintro ⟨noText, noBytes, items, walk, texts⟩
    obtain ⟨names, rfl⟩ := exists_names texts
    refine ⟨.ofList names, _, collection?_eq_some_iff.2 ⟨noText, noBytes, walk⟩, texts, ?_⟩
    intro name
    rw [NameSet.mem_ofList, mem_map_str]

/-- What is wrong with an item that should be a name. -/
def ItemFault (key : String) (item : Value) (fault : Fault) : Prop :=
  ¬ item.IsName ∧ fault = item.refusal key .notNameEntry

/-- What is wrong with a value that should stand for a set of names. -/
def SetFault (key : String) (value : Value) (fault : Fault) : Prop :=
  value.collection? = none ∧ fault = .configuration key (.notCollection value.typeName) ∨
    ∃ items, value.collection? = some items ∧ FirstFault IsName (ItemFault key) items fault

/-- The item is no name, and it cannot be shown to say so. -/
def IsMute (item : Value) : Prop :=
  ¬ item.IsName ∧ ∃ n ∈ item.shownInts, ¬ DigitLimit.standard.Admits n

/-- The first item that is no name cannot be shown. -/
def SetIsMute (value : Value) : Prop :=
  ∃ items, value.collection? = some items ∧ FirstIs IsName IsMute items

theorem refusal_cases (key : String) (flaw : String → String → ShapeFlaw) (value : Value) :
    (∀ n ∈ value.shownInts, DigitLimit.standard.Admits n) ∧
      value.refusal key flaw = .configuration key (flaw value.typeName value.shown) ∨
    (∃ n ∈ value.shownInts, ¬ DigitLimit.standard.Admits n) ∧
      value.refusal key flaw = .tooManyDigits := by
  unfold refusal worded
  by_cases short : ∀ n ∈ value.shownInts, DigitLimit.standard.Admits n
  · rw [DigitLimit.guard_eq_ok short]
    exact .inl ⟨short, rfl⟩
  · rw [DigitLimit.guard_eq_error short]
    push Not at short
    exact .inr ⟨short, rfl⟩

theorem refusal_eq_tooManyDigits_iff {flaw : String → String → ShapeFlaw} :
    .tooManyDigits = value.refusal key flaw ↔
      ∃ n ∈ value.shownInts, ¬ DigitLimit.standard.Admits n := by
  rcases refusal_cases key flaw value with ⟨short, same⟩ | ⟨long, same⟩
  · rw [same]
    refine iff_of_false nofun ?_
    rintro ⟨n, hn, long⟩
    exact long (short n hn)
  · exact iff_of_true same.symm long

theorem refusal_flaw (key : String) (flaw : String → String → ShapeFlaw) (value : Value) :
    (∃ flaw', value.refusal key flaw = .configuration key flaw') ∨
      value.refusal key flaw = .tooManyDigits := by
  rcases refusal_cases key flaw value with ⟨-, same⟩ | ⟨-, same⟩
  · exact .inl ⟨_, same⟩
  · exact .inr same

theorem itemFault_tooManyDigits_iff {item : Value} :
    ItemFault key item .tooManyDigits ↔ item.IsMute :=
  and_congr_right fun _ => refusal_eq_tooManyDigits_iff

theorem setFault_tooManyDigits_iff : value.SetFault key .tooManyDigits ↔ value.SetIsMute := by
  unfold SetFault SetIsMute
  simp only [reduceCtorEq, and_false, false_or,
    firstFault_iff_firstIs fun _ => itemFault_tooManyDigits_iff]

theorem SetFault.flaw (h : value.SetFault key fault) :
    (∃ flaw, fault = .configuration key flaw) ∨ fault = .tooManyDigits := by
  rcases h with ⟨-, rfl⟩ | ⟨items, -, front, item, back, -, -, -, rfl⟩
  · exact .inl ⟨_, rfl⟩
  · exact refusal_flaw key _ item

theorem nameEntries_eq_error_iff {items : List Value} :
    nameEntries key items = .error fault ↔ FirstFault IsName (ItemFault key) items fault := by
  induction items with
  | nil => exact iff_of_false nofun not_firstFault_nil
  | cons item rest ih =>
    rw [firstFault_cons, ← ih]
    cases item with
    | str text => simp [nameEntries, str?, map_eq_error_iff, ItemFault, IsName]
    | _ =>
      rw [eq_comm]
      simp [nameEntries, str?, ItemFault, IsName]

theorem nameSet_eq_error_iff : nameSet key value = .error fault ↔ value.SetFault key fault := by
  unfold nameSet SetFault
  cases value.collection? with
  | none => simp [eq_comm]
  | some items => simp [map_eq_error_iff, nameEntries_eq_error_iff]

end Value

/-! ## Maps of names -/

namespace Value

variable {key : String} {value : Value} {fault : Fault}

/-- The entry stands for a name with a set of names. -/
def IsNamesEntry (entry : Value × Value) : Prop :=
  entry.1.IsName ∧ entry.2.IsNames

/-- The value is a mapping from names to collections of names. -/
def IsNameMap (value : Value) : Prop :=
  ∃ entries, value = .map entries ∧ ∀ entry ∈ entries, IsNamesEntry entry

/-- What is wrong with an entry of a map of names: its key is no name, or its set is at fault under
the key and the entry's own. -/
def EntryFault (key : String) (entry : Value × Value) (fault : Fault) : Prop :=
  ¬ entry.1.IsName ∧ fault = entry.1.refusal key .notNameKey ∨
    ∃ name, entry.1 = .str name ∧ entry.2.SetFault (key ++ "." ++ name) fault

/-- What is wrong with a value that should stand for a map of names. -/
def MapFault (key : String) (value : Value) (fault : Fault) : Prop :=
  (∀ entries, value ≠ .map entries) ∧ fault = .configuration key (.notMapping value.typeName) ∨
    ∃ entries, value = .map entries ∧ FirstFault IsNamesEntry (EntryFault key) entries fault

/-- The key of the entry cannot be shown, or it is a name and the set under it cannot be talked
about. -/
def EntryIsMute (entry : Value × Value) : Prop :=
  entry.1.IsMute ∨ entry.1.IsName ∧ entry.2.SetIsMute

/-- What is wrong with the first entry that is not well shaped cannot be shown. -/
def MapIsMute (value : Value) : Prop :=
  ∃ entries, value = .map entries ∧ FirstIs IsNamesEntry EntryIsMute entries

theorem entryFault_tooManyDigits_iff {entry : Value × Value} :
    EntryFault key entry .tooManyDigits ↔ EntryIsMute entry := by
  refine or_congr (and_congr_right fun _ => refusal_eq_tooManyDigits_iff) ?_
  simp only [setFault_tooManyDigits_iff, exists_and_right, IsName]

theorem mapFault_tooManyDigits_iff : value.MapFault key .tooManyDigits ↔ value.MapIsMute := by
  unfold MapFault MapIsMute
  simp only [reduceCtorEq, and_false, false_or,
    firstFault_iff_firstIs fun _ => entryFault_tooManyDigits_iff]

theorem MapFault.flaw (h : value.MapFault key fault) :
    (∃ key' flaw, fault = .configuration key' flaw ∧
      (key' = key ∨ ∃ name, key' = key ++ "." ++ name)) ∨ fault = .tooManyDigits := by
  rcases h with ⟨-, rfl⟩ | ⟨entries, -, front, entry, back, -, -, wrong⟩
  · exact .inl ⟨_, _, rfl, .inl rfl⟩
  · rcases wrong with ⟨-, rfl⟩ | ⟨name, -, inside⟩
    · exact (refusal_flaw key _ entry.1).imp_left fun ⟨flaw, same⟩ => ⟨key, flaw, same, .inl rfl⟩
    · exact inside.flaw.imp_left fun ⟨flaw, same⟩ => ⟨_, flaw, same, .inr ⟨name, rfl⟩⟩

theorem nameMapEntries_eq_error_iff {entries : List (Value × Value)} :
    nameMapEntries key entries = .error fault ↔
      FirstFault IsNamesEntry (EntryFault key) entries fault := by
  induction entries with
  | nil => exact iff_of_false nofun not_firstFault_nil
  | cons entry rest ih =>
    obtain ⟨found, value⟩ := entry
    rw [firstFault_cons, ← ih]
    cases found with
    | str name =>
      simp only [nameMapEntries, str?, bind_eq_error_iff, nameSet_eq_error_iff, nameSet_eq_ok_iff]
      simp [EntryFault, IsNamesEntry, IsName, ← exists_lists_iff, pure, Except.pure]
    | _ =>
      rw [eq_comm]
      simp [nameMapEntries, str?, EntryFault, IsNamesEntry, IsName]

theorem nameMap_eq_error_iff : nameMap key value = .error fault ↔ value.MapFault key fault := by
  unfold MapFault
  cases value with
  | map entries => simp [nameMap, entries?, map_eq_error_iff, nameMapEntries_eq_error_iff]
  | _ => simp [nameMap, entries?, eq_comm]

/-- The value is a mapping from names to collections of names, and the last collection under each
name stands in the map. -/
def ListsEach (value : Value) (map : NameMap) : Prop :=
  ∃ entries, value = .map entries ∧ (∀ entry ∈ entries, IsNamesEntry entry) ∧
    ∀ name, Option.Rel Lists (lastUnder (isText name) entries) (map.get? name)

theorem get?_ofEntries_last (owns : List (String × NameSet)) (name : String) :
    (NameMap.ofEntries owns).get? name =
      (owns.reverse.find? fun own => own.1 == name).map Prod.snd := by
  induction owns using List.reverseRecOn with
  | nil => rfl
  | append_singleton owns own ih =>
    have last : NameMap.ofEntries (owns ++ [own]) = (NameMap.ofEntries owns).put own.1 own.2 :=
      List.foldl_concat ..
    rw [last, NameMap.get?_put, List.reverse_concat, List.find?_cons, ih]
    cases same : own.1 == name with
    | false => rw [if_neg (Ne.symm (ne_of_beq_false same))]
    | true =>
      rw [if_pos (eq_of_beq same).symm]
      rfl

theorem lastUnder_listsEntries {entries : List (Value × Value)} {owns : List (String × NameSet)}
    (pairs : List.Forall₂ ListsEntry entries owns) (name : String) :
    Option.Rel Lists (lastUnder (isText name) entries) ((NameMap.ofEntries owns).get? name) := by
  rw [get?_ofEntries_last, lastUnder]
  have reversed := List.forall₂_reverse_iff.2 pairs
  generalize entries.reverse = es, owns.reverse = os at reversed
  induction reversed with
  | nil => exact .none
  | @cons entry own _ _ first _ ih =>
    obtain ⟨key, lists⟩ := first
    have same : isText name entry.1 = (own.1 == name) := by
      rw [key]
      rfl
    rw [List.find?_cons, List.find?_cons, same]
    split
    · exact .some lists
    · exact ih

theorem exists_listsEntries {entries : List (Value × Value)}
    (shaped : ∀ entry ∈ entries, IsNamesEntry entry) :
    ∃ owns, List.Forall₂ ListsEntry entries owns := by
  refine exists_forall₂ fun entry he => ?_
  obtain ⟨⟨name, key⟩, names⟩ := shaped entry he
  obtain ⟨set, lists⟩ := exists_lists_iff.2 names
  exact ⟨(name, set), key, lists⟩

theorem eq_of_rel_lists {given : Option Value} {held held' : Option NameSet}
    (h : Option.Rel Lists given held) (h' : Option.Rel Lists given held') : held = held' := by
  cases h with
  | none => cases h'; rfl
  | some lists =>
    cases h' with
    | some lists' => rw [lists.unique lists']

theorem nameMap_eq_ok_iff_listsEach {map : NameMap} :
    nameMap key value = .ok map ↔ value.ListsEach map := by
  cases value with
  | map entries =>
    simp only [nameMap, entries?, map_eq_ok_iff, nameMapEntries_eq_ok_iff]
    constructor
    · rintro ⟨owns, pairs, rfl⟩
      refine ⟨entries, rfl, ?_, lastUnder_listsEntries pairs⟩
      intro entry he
      obtain ⟨own, -, key, lists⟩ := exists_right_of_forall₂ pairs entry he
      exact ⟨⟨own.1, key⟩, exists_lists_iff.1 ⟨own.2, lists⟩⟩
    · rintro ⟨_, same, shaped, holds⟩
      cases same
      obtain ⟨owns, pairs⟩ := exists_listsEntries shaped
      refine ⟨owns, pairs, ?_⟩
      rw [NameMap.ext_iff]
      intro name
      exact eq_of_rel_lists (lastUnder_listsEntries pairs name) (holds name)
  | _ =>
    constructor
    · intro h
      cases h
    · rintro ⟨entries, h, -⟩
      cases h

theorem exists_listsEach_iff : (∃ map, value.ListsEach map) ↔ value.IsNameMap := by
  constructor
  · rintro ⟨map, entries, same, shaped, -⟩
    exact ⟨entries, same, shaped⟩
  · rintro ⟨entries, same, shaped⟩
    obtain ⟨owns, pairs⟩ := exists_listsEntries shaped
    exact ⟨.ofEntries owns, entries, same, shaped, lastUnder_listsEntries pairs⟩

end Value

/-! ## Parts -/

namespace Part

variable {given : Part → Option Value} {fault : Fault}

/-- The value is a key of some part. -/
def isKey (key : Value) : Bool :=
  all.any fun part => part.isKeyedBy key

theorem isKey_of_isKeyedBy {part : Part} {key : Value} (h : part.isKeyedBy key = true) :
    isKey key = true := by
  have listed : part ∈ all := by cases part <;> decide
  exact List.any_eq_true.2 ⟨part, listed, h⟩

theorem given?_eq_lastUnder (entries : List (Value × Value)) (part : Part) :
    given? entries part = Value.lastUnder part.isKeyedBy entries :=
  rfl

/-- The value has the shape that the part needs. -/
def Admits (part : Part) (value : Value) : Prop :=
  match part with
  | tagNames | clobber | strip => value.IsNames
  | attributes | protocols | ancestors => value.IsNameMap
  | clobberPrefix => value.IsName

/-- What is wrong with a value that is given for the part. -/
def Refuses (part : Part) (value : Value) (fault : Fault) : Prop :=
  match part with
  | tagNames | clobber | strip => value.SetFault part.key fault
  | attributes | protocols | ancestors => value.MapFault part.key fault
  | clobberPrefix =>
    ¬ value.IsName ∧ fault = .configuration part.key (.notText value.typeName)

/-- What is wrong with the value that is given for the part cannot be shown. -/
def Mutes (part : Part) (value : Value) : Prop :=
  match part with
  | tagNames | clobber | strip => value.SetIsMute
  | attributes | protocols | ancestors => value.MapIsMute
  | clobberPrefix => False

/-- What is given for the part, if anything, has the shape that the part needs. -/
def IsSound (given : Part → Option Value) (part : Part) : Prop :=
  ∀ value, given part = some value → part.Admits value

def HasFault (given : Part → Option Value) (part : Part) (fault : Fault) : Prop :=
  ∃ value, given part = some value ∧ part.Refuses value fault

def IsMute (given : Part → Option Value) (part : Part) : Prop :=
  ∃ value, given part = some value ∧ part.Mutes value

/-- The result is what the given value stands for, or the default if nothing is given. -/
def Holds {α : Type} (given : Part → Option Value) (part : Part) (standsFor : Value → α → Prop)
    (default result : α) : Prop :=
  match given part with
  | none => result = default
  | some value => standsFor value result

end Part

theorem Value.nameText_eq_ok_iff {key : String} {value : Value} {text : String} :
    nameText key value = .ok text ↔ value = .str text := by
  cases value <;> simp [nameText, str?]

theorem Value.nameText_eq_error_iff {key : String} {value : Value} {fault : Fault} :
    nameText key value = .error fault ↔
      ¬ value.IsName ∧ fault = .configuration key (.notText value.typeName) := by
  cases value <;> simp [nameText, str?, IsName, eq_comm]

theorem Part.not_admits_of_refuses {part : Part} {value : Value} {fault : Fault}
    (refuses : part.Refuses value fault) : ¬ part.Admits value := by
  have sets (fault : value.SetFault part.key fault) : ¬ value.IsNames := by
    rw [← Value.exists_lists_iff]
    rintro ⟨set, lists⟩
    cases (Value.nameSet_eq_error_iff.2 fault).symm.trans (Value.nameSet_eq_ok_iff.2 lists)
  have maps (fault : value.MapFault part.key fault) : ¬ value.IsNameMap := by
    rw [← Value.exists_listsEach_iff]
    rintro ⟨map, lists⟩
    cases (Value.nameMap_eq_error_iff.2 fault).symm.trans
      (Value.nameMap_eq_ok_iff_listsEach.2 lists)
  cases part with
  | tagNames | clobber | strip => exact sets refuses
  | attributes | protocols | ancestors => exact maps refuses
  | clobberPrefix => exact refuses.1

theorem Part.refuses_tooManyDigits_iff {part : Part} {value : Value} :
    part.Refuses value .tooManyDigits ↔ part.Mutes value := by
  cases part with
  | tagNames | clobber | strip => exact Value.setFault_tooManyDigits_iff
  | attributes | protocols | ancestors => exact Value.mapFault_tooManyDigits_iff
  | clobberPrefix => exact iff_of_false (fun h => nomatch h.2) not_false

theorem Part.hasFault_tooManyDigits_iff {given : Part → Option Value} {part : Part} :
    HasFault given part .tooManyDigits ↔ IsMute given part :=
  exists_congr fun _ => and_congr_right fun _ => refuses_tooManyDigits_iff

/-- A fault in what is given for a part is a fault of configuration, under the part's key or under
that of an entry in it, unless what is wrong cannot be shown. -/
theorem Part.flaw_of_refuses {part : Part} {value : Value} {fault : Fault}
    (refuses : part.Refuses value fault) :
    (∃ key flaw, fault = .configuration key flaw ∧
      (key = part.key ∨ ∃ name, key = part.key ++ "." ++ name)) ∨ fault = .tooManyDigits := by
  cases part with
  | tagNames | clobber | strip =>
    exact (Value.SetFault.flaw refuses).imp_left fun ⟨flaw, same⟩ => ⟨_, flaw, same, .inl rfl⟩
  | attributes | protocols | ancestors => exact Value.MapFault.flaw refuses
  | clobberPrefix => exact .inl ⟨_, _, refuses.2, .inl rfl⟩

theorem Part.not_isSound_of_hasFault {given : Part → Option Value} {part : Part} {fault : Fault}
    (h : HasFault given part fault) : ¬ IsSound given part := by
  obtain ⟨value, held, refuses⟩ := h
  exact fun sound => not_admits_of_refuses refuses (sound value held)

namespace Policy

variable {given : Part → Option Value} {fault : Fault} {policy : Policy}

section ReadPart

variable {α : Type} {part : Part} {read : String → Value → Except Fault α} {default : α}

theorem readPart_eq_error_iff :
    readPart given part read default = .error fault ↔
      ∃ value, given part = some value ∧ read part.key value = .error fault := by
  unfold readPart
  cases given part <;> simp

theorem readPart_holds_iff {standsFor : Value → α → Prop} {result : α}
    (reads : ∀ value, read part.key value = .ok result ↔ standsFor value result) :
    readPart given part read default = .ok result ↔
      part.Holds given standsFor default result := by
  unfold readPart Part.Holds
  cases given part with
  | none => simp [eq_comm]
  | some value => exact reads value

theorem exists_readPart_iff {admits : Value → Prop}
    (reads : ∀ value, (∃ result, read part.key value = .ok result) ↔ admits value) :
    (∃ result, readPart given part read default = .ok result) ↔
      ∀ value, given part = some value → admits value := by
  unfold readPart
  cases given part with
  | none => simp
  | some value => simp [reads]

end ReadPart

/-- What a policy holds that was configured from these values. -/
structure Configured (policy : Policy) (given : Part → Option Value) : Prop where
  tagNames : Part.tagNames.Holds given Value.Lists ∅ policy.tagNames
  attributes : Part.attributes.Holds given Value.ListsEach ∅ policy.attributes
  /-- URL schemes are taken in lower case. -/
  protocols : ∃ listed, Part.protocols.Holds given Value.ListsEach ∅ listed ∧
    ∀ name, policy.protocols.get? name = (listed.get? name).map (NameSet.map Text.lowercase)
  ancestors : Part.ancestors.Holds given Value.ListsEach ∅ policy.ancestors
  clobber : Part.clobber.Holds given Value.Lists (.ofList ["id", "name"]) policy.clobber
  strip : Part.strip.Holds given Value.Lists (.ofList ["script"]) policy.strip
  clobberPrefix :
    Part.clobberPrefix.Holds given (fun value s => value = .str s) "user-content-"
      policy.clobberPrefix

theorem configure_eq_ok_iff_configured :
    configure given = .ok policy ↔ policy.Configured given := by
  have sets {part default set} : readPart given part Value.nameSet default = .ok set ↔
      part.Holds given Value.Lists default set :=
    readPart_holds_iff fun _ => Value.nameSet_eq_ok_iff
  have maps {part default map} : readPart given part Value.nameMap default = .ok map ↔
      part.Holds given Value.ListsEach default map :=
    readPart_holds_iff fun _ => Value.nameMap_eq_ok_iff_listsEach
  have texts {part default text} : readPart given part Value.nameText default = .ok text ↔
      part.Holds given (fun value s => value = .str s) default text :=
    readPart_holds_iff fun _ => Value.nameText_eq_ok_iff
  have lowered (listed : NameMap) : listed.mapNames Text.lowercase = policy.protocols ↔
      ∀ name, policy.protocols.get? name =
        (listed.get? name).map (NameSet.map Text.lowercase) := by
    simp only [NameMap.ext_iff, NameMap.get?_mapNames, eq_comm]
  rw [configure_eq_ok_iff, sets, maps, maps, sets, sets, texts]
  simp only [maps, lowered]
  constructor
  · rintro ⟨tagNames, attributes, protocols, ancestors, clobber, strip, clobberPrefix⟩
    exact ⟨tagNames, attributes, protocols, ancestors, clobber, strip, clobberPrefix⟩
  · rintro ⟨tagNames, attributes, protocols, ancestors, clobber, strip, clobberPrefix⟩
    exact ⟨tagNames, attributes, protocols, ancestors, clobber, strip, clobberPrefix⟩

section

variable {part : Part}

theorem exists_readPart_nameSet_iff {default : NameSet} :
    (∃ set, readPart given part Value.nameSet default = .ok set) ↔
      ∀ value, given part = some value → value.IsNames :=
  exists_readPart_iff fun _ => by rw [← Value.exists_lists_iff]; simp [Value.nameSet_eq_ok_iff]

theorem exists_readPart_nameMap_iff {default : NameMap} :
    (∃ map, readPart given part Value.nameMap default = .ok map) ↔
      ∀ value, given part = some value → value.IsNameMap :=
  exists_readPart_iff fun _ => by
    simp [Value.nameMap_eq_ok_iff_listsEach, Value.exists_listsEach_iff]

theorem exists_readPart_nameText_iff {default : String} :
    (∃ text, readPart given part Value.nameText default = .ok text) ↔
      ∀ value, given part = some value → value.IsName :=
  exists_readPart_iff fun _ => by simp [Value.nameText_eq_ok_iff, Value.IsName]

end

/-- A policy is configured unless one of the values is at fault, and the fault is that of the first
part that has one. -/
theorem configure_eq_error_iff :
    configure given = .error fault ↔
      FirstFault (Part.IsSound given) (Part.HasFault given) Part.all fault := by
  simp only [configure, bind_eq_error_iff, readPart_eq_error_iff, Value.nameSet_eq_error_iff,
    Value.nameMap_eq_error_iff, Value.nameText_eq_error_iff, pure, Except.pure, reduceCtorEq,
    and_false, exists_false, or_false, exists_and_right, exists_readPart_nameSet_iff,
    exists_readPart_nameMap_iff, Part.all, firstFault_cons, not_firstFault_nil]
  rfl

theorem exists_configure_iff :
    (∃ policy, configure given = .ok policy) ↔ ∀ part, Part.IsSound given part := by
  constructor
  · rintro ⟨policy, done⟩
    obtain ⟨tagNames, attributes, ⟨_, protocols, -⟩, ancestors, clobber, strip, clobberPrefix⟩ :=
      configure_eq_ok_iff.1 done
    intro part
    cases part with
    | tagNames => exact exists_readPart_nameSet_iff.1 ⟨_, tagNames⟩
    | attributes => exact exists_readPart_nameMap_iff.1 ⟨_, attributes⟩
    | protocols => exact exists_readPart_nameMap_iff.1 ⟨_, protocols⟩
    | ancestors => exact exists_readPart_nameMap_iff.1 ⟨_, ancestors⟩
    | clobber => exact exists_readPart_nameSet_iff.1 ⟨_, clobber⟩
    | strip => exact exists_readPart_nameSet_iff.1 ⟨_, strip⟩
    | clobberPrefix => exact exists_readPart_nameText_iff.1 ⟨_, clobberPrefix⟩
  · intro sound
    cases done : configure given with
    | ok policy => exact ⟨policy, rfl⟩
    | error fault =>
      obtain ⟨part, -, unsound⟩ := (configure_eq_error_iff.1 done).exists_not_sound
        fun part => Part.not_isSound_of_hasFault
      exact absurd (sound part) unsound

/-! ## Configurations -/

/-- A value that is no mapping is refused as such.  A mapping describes a policy if it gives every
part in its shape, each key under either spelling and the last one counting; the policy then holds
what was given, and the defaults for what was not.  If not, the fault is that of the first part
whose shape is wrong, whatever the order of the entries, and entries that name no part do not
matter.

The answer is a policy or a fault of configuration, with one exception: the first thing that is
wrong has to be shown, and if it holds an integer that is too long, there is no such fault. -/
theorem ofValue_accepts_shaped (value : Value) :
    ((∀ entries, value ≠ .map entries) →
      ofValue value = .error (.configuration "schema" (.notMapping value.typeName))) ∧
    ∀ entries, value = .map entries →
      ((∃ policy, ofValue value = .ok policy) ↔
        ∀ part, Part.IsSound (Part.given? entries) part) ∧
      (∀ policy, ofValue value = .ok policy ↔ policy.Configured (Part.given? entries)) ∧
      (∀ fault, ofValue value = .error fault ↔
        FirstFault (Part.IsSound (Part.given? entries)) (Part.HasFault (Part.given? entries))
          Part.all fault) ∧
      (((∃ policy, ofValue value = .ok policy) ∨
          ∃ key flaw, ofValue value = .error (.configuration key flaw)) ↔
        ¬ FirstIs (Part.IsSound (Part.given? entries)) (Part.IsMute (Part.given? entries))
          Part.all) ∧
      (∀ fault, ofValue value = .error fault →
        (∃ key flaw, fault = .configuration key flaw) ∨ fault = .tooManyDigits) ∧
      ofValue (.map (entries.filter fun entry => Part.isKey entry.1)) = ofValue value ∧
      ∀ others, entries.Perm others →
        (entries.Pairwise fun one other => ∀ part : Part,
          ¬ (part.isKeyedBy one.1 = true ∧ part.isKeyedBy other.1 = true)) →
        ofValue (.map others) = ofValue value := by
  constructor
  · intro other
    cases value with
    | map entries => exact absurd rfl (other entries)
    | _ => rfl
  rintro entries rfl
  have flawed (fault : Fault) (failed : ofValue (.map entries) = .error fault) :
      (∃ key flaw, fault = .configuration key flaw) ∨ fault = .tooManyDigits := by
    obtain ⟨_, part, _, -, -, value, -, refuses⟩ := configure_eq_error_iff.1 failed
    exact (Part.flaw_of_refuses refuses).imp_left fun ⟨key, flaw, same, _⟩ => ⟨key, flaw, same⟩
  have mute : ofValue (.map entries) = .error .tooManyDigits ↔
      FirstIs (Part.IsSound (Part.given? entries)) (Part.IsMute (Part.given? entries)) Part.all :=
    configure_eq_error_iff.trans
      (firstFault_iff_firstIs fun _ => Part.hasFault_tooManyDigits_iff)
  refine ⟨exists_configure_iff, fun policy => configure_eq_ok_iff_configured,
    fun fault => configure_eq_error_iff, ?_, flawed, ?_, ?_⟩
  · rw [← mute]
    constructor
    · rintro (⟨policy, done⟩ | ⟨key, flaw, failed⟩) long
      · cases done.symm.trans long
      · cases failed.symm.trans long
    · intro short
      cases result : ofValue (.map entries) with
      | ok policy => exact .inl ⟨policy, rfl⟩
      | error fault =>
        rcases flawed fault result with ⟨key, flaw, rfl⟩ | rfl
        · exact .inr ⟨key, flaw, rfl⟩
        · exact absurd result short
  · refine congrArg configure (funext fun part => ?_)
    rw [Part.given?_eq_lastUnder, Part.given?_eq_lastUnder,
      Value.lastUnder_filter fun key => Part.isKey_of_isKeyedBy]
  · intro others perm apart
    refine congrArg configure (funext fun part => ?_)
    rw [Part.given?_eq_lastUnder, Part.given?_eq_lastUnder, Value.lastUnder_perm perm]
    exact apart.imp fun apart => apart part

/-- Whatever the order in which two faulty parts are given, the tag names are what is reported.  A
byte string is no mapping. -/
theorem ofValue_tagNames_before_strip :
    ofValue (.bytes "tagNames") = .error (.configuration "schema" (.notMapping "bytes")) ∧
    ofValue (.map [(.str "tag_names", .list [.str "p", .int 1]), (.str "strip", .str "script")]) =
      .error (.configuration "tagNames" (.notNameEntry "int" "1")) ∧
    ofValue (.map [(.str "strip", .str "script"), (.str "tag_names", .list [.str "p", .int 1])]) =
      .error (.configuration "tagNames" (.notNameEntry "int" "1")) := by
  have noMapping := (ofValue_accepts_shaped (.bytes "tagNames")).1 nofun
  obtain ⟨-, mappings⟩ := ofValue_accepts_shaped
    (.map [(.str "tag_names", .list [.str "p", .int 1]), (.str "strip", .str "script")])
  obtain ⟨-, -, -, -, -, -, permuted⟩ := mappings _ rfl
  have reported : ofValue (.map [(.str "tag_names", .list [.str "p", .int 1]),
      (.str "strip", .str "script")]) =
      .error (.configuration "tagNames" (.notNameEntry "int" "1")) := rfl
  refine ⟨noMapping, reported, ?_⟩
  rw [permuted _ (.swap _ _ []) ?_, reported]
  refine .cons ?_ (.cons nofun .nil)
  intro other member part
  rw [List.mem_singleton.1 member]
  cases part <;> decide

/-- The least integer that is too long to be shown, among the tag names.  It is no name, and the
fault that says so is not there. -/
theorem not_forall_fault_of_configuration :
    ¬ ∀ value fault, ofValue value = .error fault →
      ∃ key flaw, fault = .configuration key flaw := by
  intro holds
  have long : ¬ DigitLimit.standard.Admits (DigitLimit.leastRefused 4300) :=
    DigitLimit.not_admits_leastRefused (by decide)
  have mute : (Value.int (DigitLimit.leastRefused 4300)).refusal "tagNames" .notNameEntry =
      .tooManyDigits :=
    (Value.refusal_eq_tooManyDigits_iff.2 ⟨_, .head _, long⟩).symm
  have failed : ofValue (.map [(.str "tagNames", .list [.int (DigitLimit.leastRefused 4300)])]) =
      .error .tooManyDigits :=
    congrArg Except.error mute
  obtain ⟨key, flaw, same⟩ := holds _ _ failed
  cases same

end Policy

end SafeMarkup
