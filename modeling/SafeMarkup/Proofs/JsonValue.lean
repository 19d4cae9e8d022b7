/-
# Values with a JSON form

`Value.IsJson` says which values JSON texts stand for: the absent value, truth values, numbers,
texts, lists, and mappings under distinct keys that are texts.  Which integers count is a
parameter, `whole`: those of any length, or those that a limit on digits admits
(`DigitLimit.Admits`).  A reader and a writer that go by the same limit refuse the same integers.

Whatever is read from a text is such a value (`isJson_of_read`): an object with a repeated key is
read into a mapping that has the key once.

The relation serves both directions.  For the writer it is the assumption under which there is a
text at all, and for the reader it is what is known of the result, so that the values which pass
from the one to the other need no further conditions.  Sets, byte strings, tuples and nodes are not
among them: a tuple is written like a list, and so would not come back as it was.

The proof about the scanners is one induction on the fuel, with a structure (`ScansJson`) for what
it says of values, items and members at once.
-/
import SafeMarkup.Json.Reader
import SafeMarkup.Proofs.Steps
import SafeMarkup.Proofs.TextKeys

namespace SafeMarkup

namespace Value

/-- The value has a JSON form, with integers of which `whole` holds. -/
inductive IsJson (whole : Int → Prop) : Value → Prop
  | null : IsJson whole .null
  | bool {b : Bool} : IsJson whole (.bool b)
  | int {n : Int} : whole n → IsJson whole (.int n)
  | float {x : Binary64} : IsJson whole (.float x)
  | str {s : String} : IsJson whole (.str s)
  | list {items : List Value} : (∀ item ∈ items, IsJson whole item) → IsJson whole (.list items)
  | map {entries : List (Value × Value)} : (∀ entry ∈ entries, ∃ name, entry.1 = .str name) →
      (entries.map Prod.fst).Nodup → (∀ entry ∈ entries, IsJson whole entry.2) →
      IsJson whole (.map entries)

variable {whole whole' : Int → Prop}

theorem IsJson.mono (weaker : ∀ n, whole n → whole' n) {value : Value} (h : value.IsJson whole) :
    value.IsJson whole' := by
  induction h with
  | null => exact .null
  | bool => exact .bool
  | int ok => exact .int (weaker _ ok)
  | float => exact .float
  | str => exact .str
  | list _ ih => exact .list ih
  | map named distinct _ ih => exact .map named distinct ih

/-! ## Filling a mapping -/

theorem isJson_ofPairs {pairs : List (Value × Value)}
    (h : ∀ pair ∈ pairs, (∃ name, pair.1 = .str name) ∧ pair.2.IsJson whole) :
    (Value.map (ofPairs pairs)).IsJson whole := by
  have step : ∀ entries : List (Value × Value), (Value.map entries).IsJson whole →
      (Value.map (pairs.foldl (fun entries pair => put pair.1 pair.2 entries) entries)).IsJson
        whole := by
    induction pairs with
    | nil => exact fun _ ok => ok
    | cons pair rest ih =>
      intro entries ok
      refine ih (fun other ho => h other (.tail _ ho)) _ ?_
      obtain ⟨⟨name, key⟩, inside⟩ := h pair (.head _)
      cases ok with
      | map named distinct values =>
        show (Value.map (put pair.1 pair.2 entries)).IsJson whole
        rw [key]
        have keyed := HasTextKeys.put ⟨named, distinct⟩ name pair.2
        refine .map keyed.texts keyed.distinct fun entry he => ?_
        rcases mem_put he with e | e
        · exact e ▸ inside
        · exact values entry e
  exact step [] (.map (by simp) List.nodup_nil (by simp))

end Value

/-! ## What is read -/

namespace Json

variable {limit : DigitLimit}

theorem decimalValue_lt {digits : List Char} (h : ∀ c ∈ digits, isDigit c = true) :
    decimalValue digits < Nat.pow 10 digits.length := by
  induction digits with
  | nil => decide
  | cons c rest ih =>
    have size : c.toNat - '0'.toNat ≤ 9 := by
      have digit := h c (.head _)
      simp only [isDigit, Bool.and_eq_true, decide_eq_true_eq, Char.le_def, UInt32.le_iff_toNat_le]
        at digit
      exact Nat.sub_le_of_le_add digit.2
    have step : decimalValue (c :: rest) =
        10 ^ rest.length * (c.toNat - '0'.toNat) + decimalValue rest := by
      show Nat.ofDigitChars 10 (c :: rest) 0 = _
      rw [Nat.ofDigitChars_cons, Nat.ofDigitChars_eq_ofDigitChars_zero, Nat.mul_zero, Nat.zero_add]
      rfl
    have small := ih fun d hd => h d (.tail _ hd)
    have most := Nat.mul_le_mul_left (10 ^ rest.length) size
    rw [step, List.length_cons]
    show _ < 10 ^ (rest.length + 1)
    change decimalValue rest < 10 ^ rest.length at small
    rw [Nat.pow_succ]
    omega

theorem admits_of_digits {digits : List Char} (ne : digits ≠ [])
    (h : ∀ c ∈ digits, isDigit c = true) (few : limit.Allows digits.length) (negative : Bool) :
    limit.Admits (if negative then -(decimalValue digits : Int) else decimalValue digits) := by
  have size : (if negative then -(decimalValue digits : Int) else decimalValue digits).natAbs =
      decimalValue digits := by
    split
    · rw [Int.natAbs_neg, Int.natAbs_natCast]
    · rw [Int.natAbs_natCast]
  have short : (Nat.toDigits 10 (decimalValue digits)).length ≤ digits.length :=
    (Nat.length_toDigits_le_iff (by decide) (List.length_pos_iff.2 ne)).2 (decimalValue_lt h)
  rw [DigitLimit.Admits, size]
  exact few.mono short

theorem isJson_of_scanNumber {negative : Bool} {text rest : List Char} {value : Value}
    (h : scanNumber limit negative text = .ok (value, rest)) : value.IsJson limit.Admits := by
  unfold scanNumber at h
  extract_lets whole at h
  have digits : ∀ c ∈ whole, isDigit c = true := by
    intro c hc
    simp only [whole] at hc
    split at hc
    · obtain rfl := List.mem_singleton.1 hc
      decide
    · exact List.all_eq_true.1 List.all_takeWhile c hc
  split at h
  · cases h
  · next filled =>
    split at h
    split at h
    split at h
    · split at h
      · next few =>
        cases h
        have ne : whole ≠ [] := fun e => filled (List.isEmpty_iff.2 e)
        exact .int (admits_of_digits ne digits few negative)
      · cases h
    · cases h
      exact .float

theorem of_map_eq_ok {α β : Type} (wrap : α → β) {scanned : Except Fault (α × List Char)}
    {result : β} {rest : List Char}
    (h : (scanned.map fun (found, rest) => (wrap found, rest)) = .ok (result, rest)) :
    ∃ found, scanned = .ok (found, rest) ∧ result = wrap found := by
  obtain ⟨⟨found, _⟩, rfl, same⟩ := map_eq_ok_iff.1 h
  cases same
  exact ⟨found, rfl, rfl⟩

/-- Every value, item and member that is scanned with this fuel has a JSON form. -/
structure ScansJson (limit : DigitLimit) (fuel : Nat) : Prop where
  value : ∀ text value rest, scanValue limit fuel text = .ok (value, rest) →
    value.IsJson limit.Admits
  items : ∀ text items rest, scanItems limit fuel text = .ok (items, rest) →
    ∀ item ∈ items, item.IsJson limit.Admits
  members : ∀ text members rest, scanMembers limit fuel text = .ok (members, rest) →
    ∀ member ∈ members, (∃ name, member.1 = .str name) ∧ member.2.IsJson limit.Admits

namespace ScansJson

variable {fuel : Nat} {text rest : List Char} (less : ScansJson limit fuel)

include less

theorem value_succ {value : Value} (h : scanValue limit (fuel + 1) text = .ok (value, rest)) :
    value.IsJson limit.Admits := by
  unfold scanValue at h
  split at h
  · obtain ⟨s, -, rfl⟩ := of_map_eq_ok Value.str h
    exact .str
  · split at h
    · cases h
      exact .list (by simp)
    · obtain ⟨items, scanned, rfl⟩ := of_map_eq_ok Value.list h
      exact .list (less.items _ _ _ scanned)
  · split at h
    · cases h
      exact .map (by simp) List.nodup_nil (by simp)
    · obtain ⟨members, scanned, rfl⟩ :=
        of_map_eq_ok (fun members => Value.map (Value.ofPairs members)) h
      exact Value.isJson_ofPairs (less.members _ _ _ scanned)
  · cases h
    exact .null
  · cases h
    exact .bool
  · cases h
    exact .bool
  · cases h
    exact .float
  · cases h
    exact .float
  · cases h
    exact .float
  · exact isJson_of_scanNumber h
  · exact isJson_of_scanNumber h

theorem items_succ {items : List Value} (h : scanItems limit (fuel + 1) text = .ok (items, rest)) :
    ∀ item ∈ items, item.IsJson limit.Admits := by
  rw [scanItems, bind_eq_ok_iff] at h
  obtain ⟨⟨first, after⟩, scanned, h⟩ := h
  dsimp only at h
  have ok := less.value _ _ _ scanned
  split at h
  · cases h
    intro item hitem
    obtain rfl := List.mem_singleton.1 hitem
    exact ok
  · obtain ⟨⟨others, _⟩, scanned', same⟩ := bind_eq_ok_iff.1 h
    cases same
    exact List.forall_mem_cons.2 ⟨ok, less.items _ _ _ scanned'⟩
  · cases h

theorem members_succ {members : List (Value × Value)}
    (h : scanMembers limit (fuel + 1) text = .ok (members, rest)) :
    ∀ member ∈ members, (∃ name, member.1 = .str name) ∧ member.2.IsJson limit.Admits := by
  unfold scanMembers at h
  split at h
  · obtain ⟨⟨key, after⟩, -, h⟩ := bind_eq_ok_iff.1 h
    dsimp only at h
    split at h
    · obtain ⟨⟨value, after⟩, scanned, h⟩ := bind_eq_ok_iff.1 h
      dsimp only at h
      have ok := less.value _ _ _ scanned
      split at h
      · cases h
        intro member hmember
        obtain rfl := List.mem_singleton.1 hmember
        exact ⟨⟨key, rfl⟩, ok⟩
      · obtain ⟨⟨others, _⟩, scanned', same⟩ := bind_eq_ok_iff.1 h
        cases same
        exact List.forall_mem_cons.2 ⟨⟨⟨key, rfl⟩, ok⟩, less.members _ _ _ scanned'⟩
      · cases h
    · cases h
  · cases h

end ScansJson

/-- Without fuel nothing is scanned, and one more call leads to calls with one less. -/
theorem scansJson (limit : DigitLimit) (fuel : Nat) : ScansJson limit fuel := by
  induction fuel with
  | zero =>
    refine ⟨?_, ?_, ?_⟩ <;>
    · intro text found rest h
      cases h
  | succ fuel less =>
    exact ⟨fun _ _ _ => less.value_succ, fun _ _ _ => less.items_succ,
      fun _ _ _ => less.members_succ⟩

/-- What is read from a text has a JSON form. -/
theorem isJson_of_read {text : String} {value : Value} (h : read text limit = .ok value) :
    value.IsJson limit.Admits := by
  rw [read, bind_eq_ok_iff] at h
  obtain ⟨⟨found, left⟩, scanned, h⟩ := h
  dsimp only at h
  split at h
  · cases h
    exact (scansJson _ _).value _ _ _ scanned
  · cases h

end Json

end SafeMarkup
