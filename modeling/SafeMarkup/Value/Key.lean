/-
# Values as keys

Which values can be keys of a mapping, and when two of them are the same key.  A value that could
change, a list or a mapping, is no key, and neither is anything that holds one.

Numbers are the same key when they are equal as numbers, whatever their types: `1`, `1.0` and
`true` are one key, and so are the two zeros.  A not-a-number is no other key's equal, not even
its own.

Sameness of keys is not equality, then: it relates values of different types, and it is not
reflexive.  A mapping that has a not-a-number for a key gets another entry each time, and nothing
is ever found under it.

The operations on entries are generic in what stands under the keys, since drafts keep sets of
names under unchecked keys.  A key that is a text is the same as no other value, and mappings whose
keys are texts behave as one expects; the lemmas for them are in `Proofs/TextKeys.lean`.
-/
import SafeMarkup.Value.Basic

namespace SafeMarkup.Value

/-! ## Fitness -/

mutual

def isKey : Value → Bool
  | list _ | map _ => false
  | tuple items => areKeys items
  | node n => isKeyNode n
  | _ => true
termination_by structural v => v

def areKeys : List Value → Bool
  | [] => true
  | v :: rest => isKey v && areKeys rest
termination_by structural vs => vs

/-- Every field of the node can be a key. -/
def isKeyNode : Node → Bool
  | .bare data place => isKey data && isKey place
  | .root children data place => isKey children && isKey data && isKey place
  | .element tagName properties children data place =>
    isKey tagName && isKey properties && isKey children && isKey data && isKey place
  | .text value data place | .comment value data place | .doctype value data place
  | .raw value data place => isKey value && isKey data && isKey place
  | .unknown typeName value data place =>
    isKey typeName && isKey value && isKey data && isKey place
termination_by structural n => n

end

/-! ## Sameness -/

/-- The integer that a number or a truth value is equal to. -/
def integer? : Value → Option Int
  | bool b => some (if b then 1 else 0)
  | int n => some n
  | float x => x.toInt?
  | _ => none

mutual

/-- The two values are the same key. -/
def sameKey : Value → Value → Bool
  | null, w => w.isNull
  | bool b, w => w.integer? == some (if b then 1 else 0)
  | int n, w => w.integer? == some n
  | float x, w =>
    match x.toInt?, w with
    | some n, w => w.integer? == some n
    | none, float y => x != .nan && x == y
    | none, _ => false
  | str s, w => w.isText s
  | bytes s, bytes t => s == t
  | tuple vs, tuple ws => sameKeys vs ws
  | set vs, set ws => vs.length == ws.length && keysAmong vs ws
  | position p, position q => p == q
  | node n, node m => sameNode n m
  | _, _ => false
termination_by structural v => v

/-- The two lists are the same key by key. -/
def sameKeys : List Value → List Value → Bool
  | [], [] => true
  | v :: vs, w :: ws => sameKey v w && sameKeys vs ws
  | _, _ => false
termination_by structural vs => vs

/-- Each of the first values is the same key as one of the second. -/
def keysAmong : List Value → List Value → Bool
  | [], _ => true
  | v :: vs, ws => ws.any (fun w => sameKey v w) && keysAmong vs ws
termination_by structural vs => vs

/-- The two nodes are of one kind and their fields are the same key by key. -/
def sameNode : Node → Node → Bool
  | .bare d p, .bare d' p' => sameKey d d' && sameKey p p'
  | .root c d p, .root c' d' p' => sameKey c c' && sameKey d d' && sameKey p p'
  | .element t a c d p, .element t' a' c' d' p' =>
    sameKey t t' && sameKey a a' && sameKey c c' && sameKey d d' && sameKey p p'
  | .text v d p, .text v' d' p' | .comment v d p, .comment v' d' p'
  | .doctype v d p, .doctype v' d' p' | .raw v d p, .raw v' d' p' =>
    sameKey v v' && sameKey d d' && sameKey p p'
  | .unknown t v d p, .unknown t' v' d' p' =>
    sameKey t t' && sameKey v v' && sameKey d d' && sameKey p p'
  | _, _ => false
termination_by structural n => n

end

/-! ## Entries -/

/-- The entries after `value` has been put under `key`: a key that is there keeps its place and
takes the new value, a new one comes last. -/
def put {α : Type} (key : Value) (value : α) : List (Value × α) → List (Value × α)
  | [] => [(key, value)]
  | entry :: rest =>
    if sameKey key entry.1 then (entry.1, value) :: rest else entry :: put key value rest

def find? {α : Type} (key : Value) : List (Value × α) → Option α
  | [] => none
  | entry :: rest => if sameKey key entry.1 then some entry.2 else find? key rest

def remove {α : Type} (key : Value) : List (Value × α) → List (Value × α)
  | [] => []
  | entry :: rest => if sameKey key entry.1 then rest else entry :: remove key rest

/-- What stands under a key that is a text. -/
def field? (name : String) : List (Value × Value) → Option Value
  | [] => none
  | entry :: rest => if entry.1.isText name then some entry.2 else field? name rest

/-- What stands under a key that is a text, or the absent value. -/
def field (name : String) (entries : List (Value × Value)) : Value :=
  (field? name entries).getD .null

/-- The entries put one after the other into an empty mapping. -/
def ofPairs (pairs : List (Value × Value)) : List (Value × Value) :=
  pairs.foldl (fun entries pair => put pair.1 pair.2 entries) []

def distinct (items : List Value) : List Value :=
  items.foldl (fun kept v => if kept.any (fun w => sameKey v w) then kept else kept ++ [v]) []

end SafeMarkup.Value
