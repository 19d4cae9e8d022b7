/-
# Values of properties

A property that may stand on its tag still has its value sanitized, in three steps: what is
neither a primitive nor a list of primitives is refused; a text whose URL scheme the property does
not accept is refused; and the text of a property that could shadow a name of the page gets a
prefix, unless it has it already.

Lists are sanitized item by item.  What is refused is left out, and a list that has become empty
stays, as an empty one.

The steps are in this order, and it matters.  The scheme is looked for in the text as it was given,
and the prefix is put on afterwards; so if a property is both checked and given the prefix, what
comes out need not have an accepted scheme, or any.  The policies for which it does are singled out
in `Proofs/SchemeSafety.lean`, and `Proofs/SchemePrefix.lean` says which prefixes do no harm.

Where the steps do not meet in one property, sanitizing a value twice is sanitizing it once
(`Policy.sanitizeValue_emitted` in `Proofs/PropertyValue.lean`).
-/
import SafeMarkup.Policy.Basic
import SafeMarkup.Url.Scheme

namespace SafeMarkup

/-! ## Coercion -/

namespace Value

def isPrimitive : Value → Bool
  | str _ | int _ | float _ | bool _ => true
  | _ => false

/-- The primitive itself, or the tuple of the primitives in a list or tuple; nothing else is a
value of a property. -/
def coerce? (value : Value) : Option Value :=
  if value.isPrimitive then some value
  else value.items?.map fun items => tuple (items.filter isPrimitive)

end Value

/-! ## Sanitizing -/

namespace Policy

/-- The property accepts the URL scheme of the text, or is not checked. -/
def acceptsUrl (policy : Policy) (name text : String) : Bool :=
  match policy.protocolsFor name with
  | none => true
  | some allowed => Url.hasAllowedScheme text allowed.names

/-- The text with the prefix, if the property needs it and the text has it not. -/
def guardName (policy : Policy) (name text : String) : String :=
  if policy.isClobbered name && !policy.clobberPrefix.toList.isPrefixOf text.toList then
    policy.clobberPrefix ++ text
  else text

/-- What a primitive becomes as the value of a property. -/
def sanitizePrimitive (policy : Policy) (name : String) (value : Value) : Option Value :=
  match value with
  | .str text =>
    if policy.acceptsUrl name text then some (.str (policy.guardName name text)) else none
  | value => some value

/-- What a value becomes as the value of a property; nothing if the property has to go. -/
def sanitizeValue (policy : Policy) (name : String) (value : Value) : Option Value :=
  match value.coerce? with
  | none => none
  | some (.tuple items) => some (.tuple (items.filterMap (policy.sanitizePrimitive name)))
  | some value => policy.sanitizePrimitive name value

end Policy

end SafeMarkup
