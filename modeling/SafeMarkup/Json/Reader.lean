/-
# Reading JSON

The reader takes the standard grammar and the three literals `NaN`, `Infinity` and `-Infinity`.
Blanks are the space, the tab, the line feed and the carriage return, and nothing else.  A number
without a fraction and an exponent is an integer of any size up to a bound on its digits, and every
other number is the nearest floating-point number.  In an object a repeated key keeps its first
place and takes its last value.

Every scanner returns what it has read together with the text that it leaves.

A text is read in one pass from left to right, and the first thing that is out of place ends it.
There is one fault for whatever the grammar does not allow, and one of its own for an integer that
is longer than the limit admits; which of the two is reported depends on which comes first in the
text.

The recursion is on a count of calls that is fixed beforehand by the length of the text, so that it
can be opened in proofs.  It is never used up: `Proofs/JsonText.lean` proves of every text that the
writer makes that scanning it succeeds with any count above twice its length.  That whatever is
read has a JSON form again is `Json.isJson_of_read` in `Proofs/JsonValue.lean`.
-/
import SafeMarkup.Number.Digits
import SafeMarkup.Value.Key

namespace SafeMarkup.Json

/-! ## Blanks and digits -/

/-- Passed over between tokens. -/
def isBlank (c : Char) : Bool :=
  c == ' ' || c == '\t' || c == '\n' || c == '\r'

/-- The text from its first character on that is not blank. -/
def skipBlanks (text : List Char) : List Char :=
  text.dropWhile isBlank

def isDigit (c : Char) : Bool := '0' ≤ c && c ≤ '9'

def decimalValue (digits : List Char) : Nat :=
  digits.foldl (fun value c => 10 * value + (c.toNat - '0'.toNat)) 0

def hexDigit? (c : Char) : Option Nat :=
  if isDigit c then some (c.toNat - '0'.toNat)
  else if 'a' ≤ c ∧ c ≤ 'f' then some (c.toNat - 'a'.toNat + 10)
  else if 'A' ≤ c ∧ c ≤ 'F' then some (c.toNat - 'A'.toNat + 10)
  else none

/-! ## Texts

A text is scanned into UTF-16 units, since an escape may give half of a character; a character
that stands in the text as it is counts as one unit, whatever its number.  Then the halves are
joined. -/

/-- The first half of a character. -/
def isHigh (unit : Nat) : Bool := 0xD800 ≤ unit && unit < 0xDC00

/-- The second half of a character. -/
def isLow (unit : Nat) : Bool := 0xDC00 ≤ unit && unit < 0xE000

/-- The character of a single unit; half a character is replaced. -/
def ofUnit (unit : Nat) : Char :=
  if isHigh unit || isLow unit then '\uFFFD' else Char.ofNat unit

def joinUnits : List Nat → List Char
  | [] => []
  | [unit] => [ofUnit unit]
  | first :: second :: rest =>
    if isHigh first && isLow second then
      Char.ofNat (0x10000 + (first - 0xD800) * 0x400 + (second - 0xDC00)) :: joinUnits rest
    else ofUnit first :: joinUnits (second :: rest)

def shortEscape? : Char → Option Char
  | '"' => some '"'
  | '\\' => some '\\'
  | '/' => some '/'
  | 'b' => some '\x08'
  | 'f' => some '\x0c'
  | 'n' => some '\n'
  | 'r' => some '\r'
  | 't' => some '\t'
  | _ => none

def unitOf? (a b c d : Char) : Option Nat := do
  let a ← hexDigit? a
  let b ← hexDigit? b
  let c ← hexDigit? c
  let d ← hexDigit? d
  some (((a * 16 + b) * 16 + c) * 16 + d)

/-- Reads the units up to the closing quotation mark. -/
def scanUnits : List Char → Except Fault (List Nat × List Char)
  | [] => .error .syntaxFlaw
  | '"' :: rest => .ok ([], rest)
  | '\\' :: 'u' :: a :: b :: c :: d :: rest =>
    match unitOf? a b c d with
    | none => .error .syntaxFlaw
    | some unit => (scanUnits rest).map fun (units, rest) => (unit :: units, rest)
  | '\\' :: c :: rest =>
    match shortEscape? c with
    | none => .error .syntaxFlaw
    | some c => (scanUnits rest).map fun (units, rest) => (c.toNat :: units, rest)
  | c :: rest =>
    if c.toNat < 0x20 then .error .syntaxFlaw
    else (scanUnits rest).map fun (units, rest) => (c.toNat :: units, rest)

/-- Reads a text, its opening quotation mark having been read. -/
def scanText (text : List Char) : Except Fault (String × List Char) :=
  (scanUnits text).map fun (units, rest) => (String.ofList (joinUnits units), rest)

/-! ## Numbers -/

/-- The digits of a fraction, if a fraction begins here. -/
def scanFraction (text : List Char) : List Char × List Char :=
  match text with
  | '.' :: rest =>
    match rest.takeWhile isDigit with
    | [] => ([], text)
    | digits => (digits, rest.dropWhile isDigit)
  | _ => ([], text)

def scanExponent (text : List Char) : Option Int × List Char :=
  let digitsOf (negative : Bool) (rest : List Char) : Option Int × List Char :=
    match rest.takeWhile isDigit with
    | [] => (none, text)
    | digits =>
      let size : Int := decimalValue digits
      (some (if negative then -size else size), rest.dropWhile isDigit)
  match text with
  | 'e' :: '-' :: rest | 'E' :: '-' :: rest => digitsOf true rest
  | 'e' :: '+' :: rest | 'E' :: '+' :: rest => digitsOf false rest
  | 'e' :: rest | 'E' :: rest => digitsOf false rest
  | _ => (none, text)

/-- Reads a number, its sign having been read.  A whole part of more than one digit does not begin
with a zero. -/
def scanNumber (limit : DigitLimit) (negative : Bool) (text : List Char) :
    Except Fault (Value × List Char) :=
  let whole :=
    match text with
    | '0' :: _ => ['0']
    | text => text.takeWhile isDigit
  if whole.isEmpty then .error .syntaxFlaw
  else
    let (fraction, rest) := scanFraction (text.drop whole.length)
    let (exponent, rest) := scanExponent rest
    if fraction.isEmpty && exponent.isNone then
      if limit.Allows whole.length then
        let size : Int := decimalValue whole
        .ok (.int (if negative then -size else size), rest)
      else .error .tooManyDigits
    else
      .ok (.float (Binary64.ofDecimal negative (decimalValue (whole ++ fraction))
        (exponent.getD 0 - fraction.length)), rest)

/-! ## Values

`fuel` bounds the count of nested calls.  A call for a value reads at least one character before
it calls for an item, and one for an item or a member reads at least one before it calls for the
next, so twice the length of the text is enough. -/

mutual

def scanValue (limit : DigitLimit) : Nat → List Char → Except Fault (Value × List Char)
  | 0, _ => .error .syntaxFlaw
  | fuel + 1, text =>
    match text with
    | '"' :: rest => (scanText rest).map fun (s, rest) => (.str s, rest)
    | '[' :: rest =>
      match skipBlanks rest with
      | ']' :: rest => .ok (.list [], rest)
      | rest => (scanItems limit fuel rest).map fun (items, rest) => (.list items, rest)
    | '\x7b' :: rest =>
      match skipBlanks rest with
      | '\x7d' :: rest => .ok (.map [], rest)
      | rest =>
        (scanMembers limit fuel rest).map fun (members, rest) =>
          (.map (Value.ofPairs members), rest)
    | 'n' :: 'u' :: 'l' :: 'l' :: rest => .ok (.null, rest)
    | 't' :: 'r' :: 'u' :: 'e' :: rest => .ok (.bool true, rest)
    | 'f' :: 'a' :: 'l' :: 's' :: 'e' :: rest => .ok (.bool false, rest)
    | 'N' :: 'a' :: 'N' :: rest => .ok (.float .nan, rest)
    | 'I' :: 'n' :: 'f' :: 'i' :: 'n' :: 'i' :: 't' :: 'y' :: rest =>
      .ok (.float (.infinite false), rest)
    | '-' :: 'I' :: 'n' :: 'f' :: 'i' :: 'n' :: 'i' :: 't' :: 'y' :: rest =>
      .ok (.float (.infinite true), rest)
    | '-' :: rest => scanNumber limit true rest
    | text => scanNumber limit false text

/-- Reads the items of an array from the first one on, and the closing bracket. -/
def scanItems (limit : DigitLimit) : Nat → List Char → Except Fault (List Value × List Char)
  | 0, _ => .error .syntaxFlaw
  | fuel + 1, text => do
    let (item, rest) ← scanValue limit fuel text
    match skipBlanks rest with
    | ']' :: rest => return ([item], rest)
    | ',' :: rest =>
      let (items, rest) ← scanItems limit fuel (skipBlanks rest)
      return (item :: items, rest)
    | _ => throw .syntaxFlaw

/-- Reads the members of an object from the first one on, and the closing bracket. -/
def scanMembers (limit : DigitLimit) :
    Nat → List Char → Except Fault (List (Value × Value) × List Char)
  | 0, _ => .error .syntaxFlaw
  | fuel + 1, text =>
    match text with
    | '"' :: rest => do
      let (key, rest) ← scanText rest
      match skipBlanks rest with
      | ':' :: rest =>
        let (value, rest) ← scanValue limit fuel (skipBlanks rest)
        match skipBlanks rest with
        | '\x7d' :: rest => return ([(.str key, value)], rest)
        | ',' :: rest =>
          let (members, rest) ← scanMembers limit fuel (skipBlanks rest)
          return ((.str key, value) :: members, rest)
        | _ => throw .syntaxFlaw
      | _ => throw .syntaxFlaw
    | _ => .error .syntaxFlaw

end

/-- Reads a text.  Its integers may have as many digits as the limit allows. -/
def read (text : String) (limit : DigitLimit := .standard) : Except Fault Value := do
  let chars := text.toList
  let (value, rest) ← scanValue limit (2 * chars.length + 1) (skipBlanks chars)
  if (skipBlanks rest).isEmpty then return value else throw .syntaxFlaw

end SafeMarkup.Json
