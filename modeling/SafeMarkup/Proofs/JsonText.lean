/-
# JSON texts are read back

A value with a JSON form whose integers are none of them too long has a JSON text, whatever the
layout (`exists_text`).  Reading the text under the same limit gives the value back, with the
entries in the order of their keys (`read_write`).  The text does not depend on the order of the
entries of mappings, and neither does the fault where an integer is too long
(`writeAt_rearranged`).

`ScansTo` is what the induction over the value proves of its text: scanning it gives the value,
whatever follows, as long as it does not go on a number, and with any fuel that exceeds twice the
length of the text.  The texts between brackets are scanned by a second induction, over the list of
parts that they are joined from; it needs that no part begins with a blank or a closing bracket,
which holds of whatever is scanned as a value (`begins_of_scanValue`).

The order of keys has to be talked about in one place only.  Members are sorted by the texts of
their keys, which are distinct, so there is one sorted order and it does not matter which entry
order one comes from (`inOrder_perm`); and the sorted members are those of the entries in some
order (`exists_sorted`), which is all that reading back has to know.
-/
import Mathlib.Data.List.Nodup
import SafeMarkup.Interchange.Text
import SafeMarkup.Proofs.JsonNumber
import SafeMarkup.Proofs.JsonString
import SafeMarkup.Proofs.Pairing
import SafeMarkup.Proofs.Rearranged

namespace SafeMarkup

theorem Value.ofPairs_eq {pairs : List (Value × Value)}
    (named : ∀ pair ∈ pairs, ∃ name, pair.1 = .str name)
    (distinct : (pairs.map Prod.fst).Nodup) : ofPairs pairs = pairs := by
  have last {key : String} {value : Value} {entries : List (Value × Value)}
      (absent : Value.str key ∉ entries.map Prod.fst) :
      put (.str key) value entries = entries ++ [(.str key, value)] := by
    induction entries with
    | nil => rfl
    | cons entry rest ih =>
      rw [List.map_cons, List.mem_cons, not_or] at absent
      have elsewhere : ¬ sameKey (.str key) entry.1 = true := by
        intro same
        obtain ⟨other, _⟩ := entry
        cases other with
        | str t => exact absent.1 (congrArg Value.str (sameKey_str_str.1 same).symm)
        | _ => cases same
      rw [put, if_neg elsewhere, ih absent.2]
      rfl
  have step : ∀ entries : List (Value × Value),
      ((entries ++ pairs).map Prod.fst).Nodup →
      pairs.foldl (fun entries pair => put pair.1 pair.2 entries) entries = entries ++ pairs := by
    clear distinct
    induction pairs with
    | nil => exact fun entries _ => (List.append_nil entries).symm
    | cons pair rest ih =>
      intro entries distinct
      obtain ⟨name, key⟩ := named pair (.head _)
      obtain ⟨_, value⟩ := pair
      cases key
      have absent : Value.str name ∉ entries.map Prod.fst := by
        rw [List.map_append, List.nodup_append] at distinct
        exact fun here => distinct.2.2 _ here _ (.head _) rfl
      rw [List.foldl_cons, last absent, ih (fun pair hp => named pair (.tail _ hp)),
        List.append_assoc]
      · rfl
      · rwa [List.append_assoc]
  exact step [] distinct

namespace Json

/-! ## Blanks -/

def AllBlank (text : List Char) : Prop :=
  ∀ c ∈ text, isBlank c = true

variable {limit : DigitLimit} {gap post rest : List Char}

theorem skipBlanks_append (h : AllBlank gap) {c : Char} (solid : isBlank c = false) :
    skipBlanks (gap ++ c :: rest) = c :: rest := by
  rw [skipBlanks, List.dropWhile_append_of_pos h]
  exact List.dropWhile_cons_of_neg (by simp [solid])

theorem skipBlanks_cons {c : Char} (solid : isBlank c = false) :
    skipBlanks (c :: rest) = c :: rest := by
  have none : AllBlank [] := nofun
  exact skipBlanks_append none solid

theorem endsNumber_cons {c : Char} (closes : c = ',' ∨ c = ']' ∨ c = '\x7d') :
    EndsNumber (c :: rest) := by
  intro first hfirst
  cases hfirst
  rcases closes with rfl | rfl | rfl <;> decide

theorem endsNumber_append (h : AllBlank post) {c : Char}
    (closes : c = ',' ∨ c = ']' ∨ c = '\x7d') : EndsNumber (post ++ c :: rest) := by
  cases post with
  | nil => exact endsNumber_cons closes
  | cons b _ =>
    intro first hfirst
    cases hfirst
    have blank := h b (.head _)
    simp only [isBlank, Bool.or_eq_true, beq_iff_eq] at blank
    rcases blank with ((rfl | rfl) | rfl) | rfl <;> decide

theorem allBlank_lineStart (blanks level : Nat) : AllBlank (lineStart blanks level).toList := by
  intro c hc
  rw [lineStart, String.toList_ofList] at hc
  rcases List.mem_cons.1 hc with rfl | hc
  · rfl
  · rw [List.eq_of_mem_replicate hc]
    rfl

/-- Items in brackets are set with a comma and blanks between them, and blanks around them. -/
theorem toList_enclose (layout : Layout) (level : Nat) (opening closing : String) :
    ∃ pre gap post, AllBlank pre ∧ AllBlank gap ∧ AllBlank post ∧
      ∀ items : List String, items ≠ [] →
        (layout.enclose level opening closing items).toList = opening.toList ++ (pre ++
          ((',' :: gap).intercalate (items.map String.toList) ++ (post ++ closing.toList))) := by
  cases layout with
  | line =>
    refine ⟨[], [' '], [], nofun, ?_, nofun, fun items ne => ?_⟩
    · intro c hc
      rw [List.mem_singleton.1 hc]
      rfl
    · cases items with
      | nil => exact absurd rfl ne
      | cons item rest =>
        show (opening ++ String.intercalate ", " (item :: rest) ++ closing).toList = _
        rw [String.toList_append, String.toList_append, String.toList_intercalate,
          List.append_assoc]
        rfl
  | block blanks =>
    refine ⟨_, _, _, allBlank_lineStart blanks level, allBlank_lineStart blanks level,
      allBlank_lineStart blanks (level - 1), fun items ne => ?_⟩
    cases items with
    | nil => exact absurd rfl ne
    | cons item rest =>
      show (opening ++ lineStart blanks level ++
        String.intercalate ("," ++ lineStart blanks level) (item :: rest) ++
        lineStart blanks (level - 1) ++ closing).toList = _
      simp only [String.toList_append, String.toList_intercalate, List.append_assoc]
      rfl

theorem toList_enclose_nil (layout : Layout) (level : Nat) (opening closing : String) :
    (layout.enclose level opening closing []).toList = opening.toList ++ closing.toList := by
  cases layout <;> exact String.toList_append

/-! ## Scanning -/

/-- The text is scanned as the value, whatever follows it. -/
def ScansTo (limit : DigitLimit) (text : List Char) (value : Value) : Prop :=
  ∀ fuel rest, 2 * text.length < fuel → EndsNumber rest →
    scanValue limit fuel (text ++ rest) = .ok (value, rest)

theorem begins_of_scanValue {fuel : Nat} {text : List Char} {found : Value × List Char}
    (h : scanValue limit fuel text = .ok found) :
    ∃ c others, text = c :: others ∧ isBlank c = false ∧ c ≠ ']' := by
  cases fuel with
  | zero => cases h
  | succ fuel =>
    have digit {negative : Bool} {text : List Char}
        (h : scanNumber limit negative text = .ok found) :
        ∃ c others, text = c :: others ∧ isBlank c = false ∧ c ≠ ']' := by
      obtain ⟨c, others, rfl, digit⟩ := exists_digit_of_scanNumber h
      refine ⟨c, others, rfl, ?_, fun e => ?_⟩
      · have notBlank : ¬ isBlank c = true := by
          intro blank
          simp only [isBlank, Bool.or_eq_true, beq_iff_eq] at blank
          rcases blank with ((rfl | rfl) | rfl) | rfl <;> cases digit
        exact Bool.eq_false_iff.2 notBlank
      · subst e
        cases digit
    unfold scanValue at h
    split at h
    case h_11 => exact digit h
    all_goals exact ⟨_, _, rfl, rfl, by decide⟩

theorem exists_intercalate_cons (sep : List Char) {c : Char} (front tail : List Char)
    (others : List (List Char)) :
    ∃ back, sep.intercalate ((c :: front) :: others) ++ tail = c :: back := by
  cases others with
  | nil => exact ⟨front ++ tail, by rw [List.intercalate_singleton, List.cons_append]⟩
  | cons second others =>
    rw [List.intercalate_cons_cons, List.append_assoc, List.append_assoc, List.cons_append]
    exact ⟨_, rfl⟩

theorem ScansTo.begins {text : List Char} {value : Value} (h : ScansTo limit text value) :
    ∃ c others, text = c :: others ∧ isBlank c = false ∧ c ≠ ']' := by
  have scanned := h (2 * text.length + 1) [] (Nat.lt_succ_self _) nofun
  rw [List.append_nil] at scanned
  exact begins_of_scanValue scanned

/-- Items that are scanned one by one are scanned together, up to the closing bracket. -/
theorem scanItems_joined (blank : AllBlank gap) (blank' : AllBlank post) {texts : List (List Char)}
    {values : List Value} (h : List.Forall₂ (ScansTo limit) texts values) (ne : texts ≠ []) :
    ∀ fuel rest, 2 * (((',' :: gap).intercalate texts).length + 1) ≤ fuel →
      scanItems limit fuel ((',' :: gap).intercalate texts ++ (post ++ ']' :: rest)) =
        .ok (values, rest) := by
  induction h with
  | nil => exact absurd rfl ne
  | @cons text value texts values first others ih =>
    intro fuel rest enough
    obtain ⟨fuel, rfl⟩ : ∃ n, fuel = n + 1 := ⟨fuel - 1, by omega⟩
    cases others with
    | nil =>
      rw [List.intercalate_singleton] at enough ⊢
      have scanned := first fuel (post ++ ']' :: rest) (by omega)
        (endsNumber_append blank' (by decide))
      simp only [scanItems, scanned, bind, Except.bind]
      rw [skipBlanks_append blank' rfl]
      rfl
    | @cons second _ rest' _ here there =>
      obtain ⟨c, front, rfl, solid, -⟩ := here.begins
      have after := ih (List.cons_ne_nil _ _) fuel rest
      obtain ⟨back, begins⟩ :=
        exists_intercalate_cons (',' :: gap) front (post ++ ']' :: rest) rest'
      rw [List.intercalate_cons_cons] at enough ⊢
      simp only [List.length_append, List.length_cons] at enough
      rw [begins] at after
      rw [List.append_assoc, List.append_assoc, begins]
      have scanned := first fuel (',' :: (gap ++ c :: back)) (by omega)
        (endsNumber_cons (by decide))
      simp only [scanItems, List.cons_append, scanned, bind, Except.bind]
      rw [skipBlanks_cons rfl]
      simp only [skipBlanks_append blank solid, after (by omega)]
      rfl

/-- The text of a member of an object. -/
def memberText (member : String × List Char) : List Char :=
  (quoted member.1).toList ++ (':' :: ' ' :: member.2)

theorem memberText_eq (key : String) (text : List Char) : memberText (key, text) =
    '"' :: (key.toList.flatMap escaped ++ '"' :: ':' :: ' ' :: text) := by
  simp only [memberText, toList_quoted, List.append_assoc, List.cons_append, List.nil_append]

section Member

variable {key : String} {text tail : List Char} {value : Value} {fuel : Nat}
  (scans : ScansTo limit text value) (enough : 2 * text.length < fuel) (ends : EndsNumber tail)

include scans

theorem skipBlanks_value : skipBlanks (' ' :: (text ++ tail)) = text ++ tail := by
  obtain ⟨c, front, rfl, solid, -⟩ := scans.begins
  have gap : AllBlank [' '] := fun c hc => List.mem_singleton.1 hc ▸ rfl
  exact skipBlanks_append gap solid

include enough ends

theorem scanMembers_last (closes : skipBlanks tail = '\x7d' :: rest) :
    scanMembers limit (fuel + 1) (memberText (key, text) ++ tail) =
      .ok ([(.str key, value)], rest) := by
  rw [memberText_eq, List.cons_append, List.append_assoc, scanMembers]
  simp only [List.cons_append, scanText_quoted, bind, Except.bind]
  rw [skipBlanks_cons rfl]
  simp only [skipBlanks_value scans, scans fuel tail enough ends, closes]
  rfl

theorem scanMembers_next (goesOn : skipBlanks tail = ',' :: rest) {members : List (Value × Value)}
    {left : List Char} (others : scanMembers limit fuel (skipBlanks rest) = .ok (members, left)) :
    scanMembers limit (fuel + 1) (memberText (key, text) ++ tail) =
      .ok ((.str key, value) :: members, left) := by
  rw [memberText_eq, List.cons_append, List.append_assoc, scanMembers]
  simp only [List.cons_append, scanText_quoted, bind, Except.bind]
  rw [skipBlanks_cons rfl]
  simp only [skipBlanks_value scans, scans fuel tail enough ends, goesOn, others]
  rfl

end Member

theorem scanMembers_joined (blank : AllBlank gap) (blank' : AllBlank post)
    {members : List (String × List Char)} {entries : List (Value × Value)}
    (h : List.Forall₂ (fun member entry => entry.1 = .str member.1 ∧ ScansTo limit member.2 entry.2)
      members entries) (ne : members ≠ []) :
    ∀ fuel rest, 2 * (((',' :: gap).intercalate (members.map memberText)).length + 1) ≤ fuel →
      scanMembers limit fuel
          ((',' :: gap).intercalate (members.map memberText) ++ (post ++ '\x7d' :: rest)) =
        .ok (entries, rest) := by
  induction h with
  | nil => exact absurd rfl ne
  | @cons member entry members entries first others ih =>
    intro fuel rest enough
    obtain ⟨fuel, rfl⟩ : ∃ n, fuel = n + 1 := ⟨fuel - 1, by omega⟩
    obtain ⟨key, text⟩ := member
    obtain ⟨_, value⟩ := entry
    obtain ⟨rfl, scans⟩ := first
    change ScansTo limit text value at scans
    have short : text.length ≤ (memberText (key, text)).length := by
      simp only [memberText, List.length_append, List.length_cons]
      omega
    cases others with
    | nil =>
      rw [List.map_singleton, List.intercalate_singleton] at enough ⊢
      exact scanMembers_last scans (by omega) (endsNumber_append blank' (by decide))
        (skipBlanks_append blank' rfl)
    | @cons second _ rest' _ here there =>
      have after := ih (List.cons_ne_nil _ _) fuel rest
      obtain ⟨key', text'⟩ := second
      obtain ⟨back, begins⟩ := exists_intercalate_cons (',' :: gap)
        (key'.toList.flatMap escaped ++ '"' :: ':' :: ' ' :: text') (post ++ '\x7d' :: rest)
        (rest'.map memberText)
      rw [← memberText_eq] at begins
      rw [List.map_cons, begins] at after
      rw [List.map_cons, List.map_cons, List.intercalate_cons_cons] at enough ⊢
      simp only [List.length_append, List.length_cons] at enough
      rw [List.append_assoc, List.append_assoc, begins]
      refine scanMembers_next scans (by omega) (endsNumber_cons (by decide))
        (skipBlanks_cons rfl) ?_
      rw [List.append_eq, skipBlanks_append blank rfl]
      exact after (by omega)

/-! ## Arrays and objects -/

theorem scanValue_array {fuel : Nat} {tail back : List Char} {c : Char} {values : List Value}
    (opens : skipBlanks tail = c :: back) (notEmpty : c ≠ ']')
    (items : scanItems limit fuel (c :: back) = .ok (values, rest)) :
    scanValue limit (fuel + 1) ('[' :: tail) = .ok (.list values, rest) := by
  rw [scanValue, opens]
  split
  · next e =>
    cases e
    exact absurd rfl notEmpty
  · rw [items]
    rfl

theorem scanValue_object {fuel : Nat} {tail back : List Char} {entries : List (Value × Value)}
    (opens : skipBlanks tail = '"' :: back)
    (members : scanMembers limit fuel ('"' :: back) = .ok (entries, rest)) :
    scanValue limit (fuel + 1) ('\x7b' :: tail) = .ok (.map (Value.ofPairs entries), rest) := by
  rw [scanValue, opens]
  split
  · next e => cases e
  · rw [members]
    rfl

theorem scansTo_array (layout : Layout) (level : Nat) {items : List String} {values : List Value}
    (h : List.Forall₂ (ScansTo limit) (items.map String.toList) values) :
    ScansTo limit (layout.enclose level "[" "]" items).toList (.list values) := by
  intro fuel rest enough ends
  obtain ⟨fuel, rfl⟩ : ∃ n, fuel = n + 1 := ⟨fuel - 1, by omega⟩
  cases items with
  | nil =>
    cases h
    rw [toList_enclose_nil]
    show scanValue limit (fuel + 1) ('[' :: ']' :: rest) = _
    rw [scanValue, skipBlanks_cons rfl]
    rfl
  | cons item others =>
    obtain ⟨pre, gap, post, blank, blank', blank'', text⟩ := toList_enclose layout level "[" "]"
    have joined := text (item :: others) (List.cons_ne_nil _ _)
    obtain ⟨c, front, e, solid, notEmpty⟩ : ∃ c others, item.toList = c :: others ∧
        isBlank c = false ∧ c ≠ ']' := by
      cases h with
      | cons first _ => exact first.begins
    obtain ⟨back, begins⟩ := exists_intercalate_cons (',' :: gap) front (post ++ ']' :: rest)
      (others.map String.toList)
    rw [← e] at begins
    rw [joined] at enough ⊢
    simp only [List.length_append] at enough
    have inside := scanItems_joined blank' blank'' h (List.cons_ne_nil _ _) fuel rest (by
      have one : "[".toList.length = 1 := rfl
      omega)
    rw [List.map_cons, begins] at inside
    rw [List.append_assoc, List.append_assoc, List.append_assoc, List.append_assoc, List.map_cons]
    refine scanValue_array ?_ notEmpty inside
    show skipBlanks (pre ++ ((',' :: gap).intercalate (item.toList :: others.map String.toList) ++
      (post ++ ']' :: rest))) = c :: back
    rw [begins]
    exact skipBlanks_append blank solid

theorem scansTo_object (layout : Layout) (level : Nat) {members : List (String × String)}
    {entries : List (Value × Value)}
    (h : List.Forall₂ (fun member entry => entry.1 = .str member.1 ∧
      ScansTo limit member.2.toList entry.2) members entries)
    (distinct : (entries.map Prod.fst).Nodup) :
    ScansTo limit (layout.enclose level "\x7b" "\x7d"
      (members.map fun member => quoted member.1 ++ ": " ++ member.2)).toList (.map entries) := by
  intro fuel rest enough ends
  obtain ⟨fuel, rfl⟩ : ∃ n, fuel = n + 1 := ⟨fuel - 1, by omega⟩
  have named : ∀ entry ∈ entries, ∃ name, entry.1 = .str name := by
    intro entry he
    obtain ⟨member, -, key, -⟩ := exists_left_of_forall₂ h entry he
    exact ⟨member.1, key⟩
  have texts : (members.map fun member => quoted member.1 ++ ": " ++ member.2).map
      String.toList = (members.map fun member => (member.1, member.2.toList)).map memberText := by
    rw [List.map_map, List.map_map]
    refine List.map_congr_left fun member _ => ?_
    simp only [Function.comp, String.toList_append, memberText, List.append_assoc]
    rfl
  cases members with
  | nil =>
    cases h
    rw [List.map_nil, toList_enclose_nil]
    show scanValue limit (fuel + 1) ('\x7b' :: '\x7d' :: rest) = _
    rw [scanValue, skipBlanks_cons rfl]
    rfl
  | cons member others =>
    obtain ⟨pre, gap, post, blank, blank', blank'', text⟩ :=
      toList_enclose layout level "\x7b" "\x7d"
    have joined := text ((member :: others).map fun member => quoted member.1 ++ ": " ++ member.2)
      (List.cons_ne_nil _ _)
    rw [texts] at joined
    rw [joined] at enough ⊢
    simp only [List.length_append] at enough
    have pairs : List.Forall₂ (fun member entry => entry.1 = .str member.1 ∧
        ScansTo limit member.2 entry.2)
        ((member :: others).map fun member => (member.1, member.2.toList)) entries :=
      List.forall₂_map_left_iff.2 h
    have inside := scanMembers_joined blank' blank'' pairs (List.cons_ne_nil _ _) fuel rest (by
      have one : "\x7b".toList.length = 1 := rfl
      omega)
    obtain ⟨back, begins⟩ := exists_intercalate_cons (',' :: gap)
      (member.1.toList.flatMap escaped ++ '"' :: ':' :: ' ' :: member.2.toList)
      (post ++ '\x7d' :: rest)
      ((others.map fun member => (member.1, member.2.toList)).map memberText)
    rw [← memberText_eq] at begins
    rw [List.map_cons, List.map_cons, begins] at inside
    rw [List.append_assoc, List.append_assoc, List.append_assoc, List.append_assoc, List.map_cons,
      List.map_cons]
    have scanned : scanValue limit (fuel + 1) ('\x7b' :: (pre ++ '"' :: back)) =
        .ok (.map (Value.ofPairs entries), rest) :=
      scanValue_object (skipBlanks_append blank rfl) inside
    rw [Value.ofPairs_eq named distinct, ← begins] at scanned
    exact scanned

/-! ## Writing -/

section Writing

variable {layout : Layout} {level : Nat} {entries : List (Value × Value)}

/-- The text that a value has, if it has one. -/
def textAt (limit : DigitLimit) (layout : Layout) (level : Nat) (value : Value) : String :=
  match writeAt limit layout level value with
  | .ok text => text
  | .error _ => ""

theorem writeAt_textAt {value : Value} (h : ∃ text, writeAt limit layout level value = .ok text) :
    writeAt limit layout level value = .ok (textAt limit layout level value) := by
  obtain ⟨text, written⟩ := h
  rw [textAt, written]

theorem writeItems_eq {items : List Value}
    (h : ∀ item ∈ items, ∃ text, writeAt limit layout level item = .ok text) :
    writeItems limit layout level items = .ok (items.map (textAt limit layout level)) := by
  induction items with
  | nil => rfl
  | cons item rest ih =>
    simp only [writeItems, writeAt_textAt (h item (.head _)),
      ih fun item hi => h item (.tail _ hi), bind, Except.bind]
    rfl

theorem writeMembers_eq (entries : List (Value × Value)) :
    writeMembers limit layout level entries =
      entries.map fun entry => (entry.1, writeAt limit layout level entry.2) := by
  induction entries with
  | nil => rfl
  | cons entry rest ih => rw [writeMembers, ih, List.map_cons]

/-- The key of an entry as a text, and what comes of writing its value. -/
def memberAt (limit : DigitLimit) (layout : Layout) (level : Nat) (entry : Value × Value) :
    String × Except Fault String :=
  (entry.1.str?.getD "", writeAt limit layout level entry.2)

/-- Members in the order of their keys. -/
def inOrder (members : List (String × Except Fault String)) :
    List (String × Except Fault String) :=
  members.mergeSort fun a b => a.1 ≤ b.1

/-- The texts of members whose keys are there. -/
def namedTexts (members : List (String × Except Fault String)) : Except Fault (List String) :=
  memberTexts (members.map fun member => (.ok member.1, member.2))

theorem writeAt_map (named : ∀ entry ∈ entries, ∃ name, entry.1 = .str name) :
    writeAt limit layout level (.map entries) =
      (namedTexts (inOrder (entries.map (memberAt limit layout (level + 1))))).map
        (layout.enclose (level + 1) "\x7b" "\x7d") := by
  have keys : (entries.map fun entry => (entry.1, writeAt limit layout (level + 1) entry.2)).mapM
      (fun member => member.1.str?.map fun key => (key, member.2)) =
        some (entries.map (memberAt limit layout (level + 1))) := by
    induction entries with
    | nil => rfl
    | cons entry rest ih =>
      obtain ⟨name, key⟩ := named entry (.head _)
      rw [List.map_cons, List.mapM_cons, ih fun entry he => named entry (.tail _ he), key,
        List.map_cons, memberAt, key]
      rfl
  simp only [writeAt, writeMembers_eq, arrange, keys, bind, Except.bind]
  rfl

theorem inOrder_perm {xs ys : List (String × Except Fault String)} (perm : xs.Perm ys)
    (distinct : (xs.map Prod.fst).Nodup) : inOrder xs = inOrder ys := by
  have sorted (zs : List (String × Except Fault String)) :
      (inOrder zs).Pairwise fun a b => decide (a.1 ≤ b.1) = true := by
    refine List.pairwise_mergeSort ?_ ?_ zs
    · intro a b c ab bc
      exact decide_eq_true (String.le_trans (of_decide_eq_true ab) (of_decide_eq_true bc))
    · intro a b
      rw [Bool.or_eq_true, decide_eq_true_eq, decide_eq_true_eq]
      exact String.le_total a.1 b.1
  have left : (inOrder xs).Perm xs := List.mergeSort_perm xs _
  have right : (inOrder ys).Perm ys := List.mergeSort_perm ys _
  refine List.Perm.eq_of_pairwise ?_ (sorted xs) (sorted ys)
    (left.trans (perm.trans right.symm))
  intro a b ha hb ab ba
  have same : a.1 = b.1 := String.le_antisymm (of_decide_eq_true ab) (of_decide_eq_true ba)
  have inside : b ∈ xs := perm.mem_iff.2 (right.mem_iff.1 hb)
  exact List.inj_on_of_nodup_map distinct (left.mem_iff.1 ha) inside same

theorem exists_sorted (entries : List (Value × Value)) (limit : DigitLimit) (layout : Layout)
    (level : Nat) :
    ∃ sorted : List (Value × Value), sorted.Perm entries ∧
      inOrder (entries.map (memberAt limit layout level)) =
        sorted.map (memberAt limit layout level) := by
  have same : ∀ a ∈ entries, ∀ b ∈ entries,
      decide (a.1.str?.getD "" ≤ b.1.str?.getD "") =
        decide ((memberAt limit layout level a).1 ≤ (memberAt limit layout level b).1) :=
    fun _ _ _ _ => rfl
  exact ⟨_, List.mergeSort_perm entries _, (List.map_mergeSort same).symm⟩

theorem namedTexts_eq
    (h : ∀ entry ∈ entries, ∃ text, writeAt limit layout level entry.2 = .ok text) :
    namedTexts (entries.map (memberAt limit layout level)) =
      .ok (entries.map fun entry =>
        quoted (entry.1.str?.getD "") ++ ": " ++ textAt limit layout level entry.2) := by
  induction entries with
  | nil => rfl
  | cons entry rest ih =>
    have others := ih fun entry he => h entry (.tail _ he)
    rw [namedTexts] at others
    simp only [List.map_cons, namedTexts, memberAt, memberTexts, writeAt_textAt (h entry (.head _)),
      bind, Except.bind]
    rw [others]
    rfl

theorem exists_writeAt_map (named : ∀ entry ∈ entries, ∃ name, entry.1 = .str name)
    (h : ∀ entry ∈ entries, ∃ text, writeAt limit layout (level + 1) entry.2 = .ok text) :
    ∃ sorted : List (Value × Value), sorted.Perm entries ∧
      writeAt limit layout level (.map entries) =
        .ok (layout.enclose (level + 1) "\x7b" "\x7d" (sorted.map fun entry =>
          quoted (entry.1.str?.getD "") ++ ": " ++ textAt limit layout (level + 1) entry.2)) := by
  obtain ⟨sorted, perm, members⟩ := exists_sorted entries limit layout (level + 1)
  refine ⟨sorted, perm, ?_⟩
  rw [writeAt_map named, members, namedTexts_eq fun entry he => h entry (perm.mem_iff.1 he)]
  rfl

theorem memberAt_distinct (named : ∀ entry ∈ entries, ∃ name, entry.1 = .str name)
    (distinct : (entries.map Prod.fst).Nodup) :
    ((entries.map (memberAt limit layout level)).map Prod.fst).Nodup := by
  have keys : (entries.map (memberAt limit layout level)).map Prod.fst =
      (entries.map Prod.fst).map fun key => key.str?.getD "" := by
    rw [List.map_map, List.map_map]
    rfl
  rw [keys]
  refine distinct.map_on ?_
  intro key hkey other hother same
  obtain ⟨entry, he, rfl⟩ := List.mem_map.1 hkey
  obtain ⟨entry', he', rfl⟩ := List.mem_map.1 hother
  obtain ⟨name, hname⟩ := named entry he
  obtain ⟨name', hname'⟩ := named entry' he'
  rw [hname, hname'] at same ⊢
  exact congrArg Value.str same

/-- A value with a JSON form has a JSON text, if none of its integers is too long. -/
theorem exists_text (layout : Layout) {value : Value} (ok : value.IsJson limit.Admits) :
    ∀ level, ∃ text, writeAt limit layout level value = .ok text := by
  induction ok with
  | null => exact fun _ => ⟨_, rfl⟩
  | bool => exact fun _ => ⟨_, rfl⟩
  | int short => exact fun _ => ⟨_, DigitLimit.text_eq_ok short⟩
  | float => exact fun _ => ⟨_, rfl⟩
  | str => exact fun _ => ⟨_, rfl⟩
  | list _ ih =>
    intro level
    rw [writeAt, writeItems_eq fun item hi => ih item hi (level + 1)]
    exact ⟨_, rfl⟩
  | map named _ _ ih =>
    intro level
    obtain ⟨sorted, -, written⟩ := exists_writeAt_map named fun entry he => ih entry he (level + 1)
    exact ⟨_, written⟩

/-- The text, or the fault, does not depend on the order of the entries of mappings. -/
theorem writeAt_rearranged {whole : Int → Prop} {v w : Value} (h : v.Rearranged w)
    (ok : v.IsJson whole) :
    ∀ level, writeAt limit layout level v = writeAt limit layout level w := by
  induction h with
  | refl => exact fun _ => rfl
  | tuple => cases ok
  | node => cases ok
  | list length _ ih =>
    intro level
    cases ok with
    | list inside =>
      have same : List.Forall₂ (fun v w => writeAt limit layout (level + 1) v =
          writeAt limit layout (level + 1) w) _ _ :=
        forall₂_of_zip length fun pair hp =>
          ih pair hp (inside _ (List.of_mem_zip hp).1) (level + 1)
      have items {vs ws : List Value} (same : List.Forall₂ (fun v w =>
          writeAt limit layout (level + 1) v = writeAt limit layout (level + 1) w) vs ws) :
          writeItems limit layout (level + 1) vs = writeItems limit layout (level + 1) ws := by
        induction same with
        | nil => rfl
        | cons first _ ih => simp only [writeItems, first, ih]
      rw [writeAt, writeAt, items same]
  | @map es us fs perm length keys _ ih =>
    intro level
    cases ok with
    | map named distinct inside =>
      have same : List.Forall₂ (fun e f => e.1 = f.1 ∧
          writeAt limit layout (level + 1) e.2 = writeAt limit layout (level + 1) f.2) us fs :=
        forall₂_of_zip length fun pair hp => ⟨keys pair hp, ih pair hp
          (inside _ (perm.mem_iff.2 (List.of_mem_zip hp).1)) (level + 1)⟩
      have members : us.map (memberAt limit layout (level + 1)) =
          fs.map (memberAt limit layout (level + 1)) := by
        refine List.forall₂_eq_eq_eq ▸ ?_
        refine List.forall₂_map_left_iff.2 (List.forall₂_map_right_iff.2 (same.imp ?_))
        rintro e f ⟨key, text⟩
        rw [memberAt, memberAt, key, text]
      have namedAgain : ∀ f ∈ fs, ∃ name, f.1 = .str name := by
        intro f hf
        obtain ⟨e, he, key, -⟩ := exists_left_of_forall₂ same f hf
        exact key ▸ named e (perm.mem_iff.2 he)
      rw [writeAt_map named, writeAt_map namedAgain,
        inOrder_perm (perm.map _) (memberAt_distinct named distinct), members]

end Writing

/-! ## Reading back -/

section Reading

variable {layout : Layout} {level : Nat}

theorem exists_scansTo_plain {text : String} {value : Value}
    (h : ∀ fuel rest, EndsNumber rest →
      scanValue limit (fuel + 1) (text.toList ++ rest) = .ok (value, rest)) :
    ∃ back, value.Rearranged back ∧ ScansTo limit text.toList back := by
  refine ⟨value, .refl _, fun fuel rest enough ends => ?_⟩
  obtain ⟨fuel, rfl⟩ : ∃ n, fuel = n + 1 := ⟨fuel - 1, by omega⟩
  exact h fuel rest ends

theorem exists_scansTo_list {items : List Value}
    (texts : ∀ item ∈ items, ∃ text, writeAt limit layout (level + 1) item = .ok text)
    (h : ∀ item ∈ items, ∃ back, item.Rearranged back ∧
      ScansTo limit (textAt limit layout (level + 1) item).toList back) :
    ∃ back, (Value.list items).Rearranged back ∧
      ScansTo limit (textAt limit layout level (.list items)).toList back := by
  obtain ⟨backs, pairs⟩ := exists_forall₂ h
  have text : textAt limit layout level (.list items) =
      layout.enclose (level + 1) "[" "]" (items.map (textAt limit layout (level + 1))) := by
    rw [textAt, writeAt, writeItems_eq texts]
    rfl
  rw [text]
  refine ⟨.list backs, .of_listItems (pairs.imp fun _ _ pair => pair.1),
    scansTo_array layout (level + 1) ?_⟩
  rw [List.map_map]
  exact List.forall₂_map_left_iff.2 (pairs.imp fun _ _ pair => pair.2)

theorem exists_scansTo_map {entries : List (Value × Value)}
    (named : ∀ entry ∈ entries, ∃ name, entry.1 = .str name)
    (distinct : (entries.map Prod.fst).Nodup)
    (texts : ∀ entry ∈ entries, ∃ text, writeAt limit layout (level + 1) entry.2 = .ok text)
    (h : ∀ entry ∈ entries, ∃ back, entry.2.Rearranged back ∧
      ScansTo limit (textAt limit layout (level + 1) entry.2).toList back) :
    ∃ back, (Value.map entries).Rearranged back ∧
      ScansTo limit (textAt limit layout level (.map entries)).toList back := by
  obtain ⟨sorted, perm, written⟩ := exists_writeAt_map named texts
  have found : ∀ entry ∈ sorted, ∃ back : Value × Value,
      (entry.1 = back.1 ∧ entry.2.Rearranged back.2) ∧
      back.1 = .str (entry.1.str?.getD "") ∧
      ScansTo limit (textAt limit layout (level + 1) entry.2).toList back.2 := by
    intro entry he
    have here := perm.mem_iff.1 he
    obtain ⟨value, related, scans⟩ := h entry here
    obtain ⟨name, key⟩ := named entry here
    refine ⟨(entry.1, value), ⟨rfl, related⟩, ?_, scans⟩
    rw [key]
    rfl
  obtain ⟨backs, pairs⟩ := exists_forall₂ found
  have text : textAt limit layout level (.map entries) =
      layout.enclose (level + 1) "\x7b" "\x7d"
        ((sorted.map fun entry =>
          (entry.1.str?.getD "", textAt limit layout (level + 1) entry.2)).map fun member =>
            quoted member.1 ++ ": " ++ member.2) := by
    rw [textAt, written, List.map_map]
    rfl
  have entriesBack : List.Forall₂ Value.Rearranged.Entry sorted backs :=
    pairs.imp fun _ _ pair => pair.1
  have keys : sorted.map Prod.fst = backs.map Prod.fst := by
    refine List.forall₂_eq_eq_eq ▸ ?_
    exact List.forall₂_map_left_iff.2
      (List.forall₂_map_right_iff.2 (entriesBack.imp fun _ _ pair => pair.1))
  rw [text]
  refine ⟨.map backs, .of_entries perm.symm entriesBack,
    scansTo_object layout (level + 1) ?_ ?_⟩
  · exact List.forall₂_map_left_iff.2 (pairs.imp fun _ _ pair => pair.2)
  · rw [← keys]
    exact ((perm.map Prod.fst).nodup_iff).2 distinct

end Reading

/-- The text of a value with a JSON form is scanned as the value, rearranged. -/
theorem exists_scansTo {value : Value} (ok : value.IsJson limit.Admits) (layout : Layout) :
    ∀ level, ∃ back, value.Rearranged back ∧
      ScansTo limit (textAt limit layout level value).toList back := by
  induction ok with
  | null =>
    refine fun _ => exists_scansTo_plain fun fuel rest _ => ?_
    show scanValue limit (fuel + 1) ("null".toList ++ rest) = _
    rfl
  | @bool b =>
    refine fun _ => exists_scansTo_plain fun fuel rest _ => ?_
    show scanValue limit (fuel + 1) ((if b then "true" else "false").toList ++ rest) = _
    cases b <;> rfl
  | @int n few =>
    refine fun _ => exists_scansTo_plain fun fuel rest ends => ?_
    rw [textAt, writeAt, DigitLimit.text_eq_ok few]
    exact scanValue_int fuel few ends
  | @float x => exact fun _ => exists_scansTo_plain fun fuel _ ends => scanValue_float fuel x ends
  | @str s =>
    refine fun _ => exists_scansTo_plain fun fuel rest _ => ?_
    show scanValue limit (fuel + 1) ((quoted s).toList ++ rest) = _
    rw [toList_quoted, List.cons_append, List.append_assoc, scanValue]
    show (scanText (s.toList.flatMap escaped ++ '"' :: rest)).map _ = _
    rw [scanText_quoted]
    rfl
  | list inside ih =>
    intro level
    exact exists_scansTo_list (fun item hi => exists_text layout (inside item hi) (level + 1))
      fun item hi => ih item hi (level + 1)
  | map named distinct inside ih =>
    intro level
    exact exists_scansTo_map named distinct
      (fun entry he => exists_text layout (inside entry he) (level + 1))
      fun entry he => ih entry he (level + 1)

/-- What is written is read back, up to the order of the entries of mappings. -/
theorem read_write {value : Value} (ok : value.IsJson limit.Admits) {layout : Layout}
    {text : String}
    (written : write layout value limit = .ok text) :
    ∃ back, read text limit = .ok back ∧ value.Rearranged back := by
  obtain ⟨back, related, scans⟩ := exists_scansTo ok layout 0
  have same : textAt limit layout 0 value = text := by
    have here : writeAt limit layout 0 value = .ok text := written
    rw [textAt, here]
  rw [same] at scans
  obtain ⟨c, front, begins, solid, -⟩ := scans.begins
  have scanned := scans (2 * text.toList.length + 1) [] (Nat.lt_succ_self _) nofun
  have start : skipBlanks text.toList = text.toList := by
    rw [begins]
    exact skipBlanks_cons solid
  rw [List.append_nil] at scanned
  refine ⟨back, ?_, related⟩
  simp only [read, start, scanned, bind, Except.bind]
  rfl

end Json

end SafeMarkup
