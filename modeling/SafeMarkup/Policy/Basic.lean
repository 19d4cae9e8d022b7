/-
# Policies

A policy says what may stay in a tree.  It is an allow-list: what it does not mention is not
permitted, and no question about it fails.

Two names are special.  Under `"*"` stand the properties that every tag may carry, and the entry
`"data*"` among the properties of a tag allows every property whose name begins with `data`, in
any letter case, and goes on after it.

A policy is plain data, and two policies are equal if they answer alike: sets and maps keep their
names in order, and nothing remembers how they were filled.  The defaults of the fields are those
of a policy about which nothing was said.  They permit no tag at all, but let `script` vanish with
its content and put the prefix on ids and names, since a policy that somebody wrote in a hurry
should err on that side.

Questions are put here with texts.  The same questions with unchecked arguments are in
`Policy/Query.lean`, and how a policy comes about is in `Policy/Configuration.lean` and
`Policy/Draft.lean`.
-/
import SafeMarkup.Names.NameMap
import SafeMarkup.Text.Lowercase
import SafeMarkup.Value.Key

namespace SafeMarkup

/-- What may stay in a tree. -/
structure Policy where
  tagNames : NameSet := ∅
  /-- Tag, or `"*"` for every tag, to the names of the properties that it may carry. -/
  attributes : NameMap := ∅
  /-- Property to the URL schemes that it accepts, in lower case.  A property without an entry is
  not checked. -/
  protocols : NameMap := ∅
  /-- Tag to the tags of which one has to enclose it. -/
  ancestors : NameMap := ∅
  /-- The properties whose values get the prefix. -/
  clobber : NameSet := .ofList ["id", "name"]
  /-- Keeps the values of such properties apart from the names that a page itself uses. -/
  clobberPrefix : String := "user-content-"
  /-- The tags that vanish together with all that they enclose. -/
  strip : NameSet := .ofList ["script"]
deriving DecidableEq

namespace Policy

instance : Inhabited Policy := ⟨{}⟩

/-- The key for every tag; it is no tag itself. -/
def wildcard : String := "*"

/-- The entry for every property whose name begins with `data`. -/
def dataWildcard : String := "data*"

/-! ## Tags -/

def allowsName (policy : Policy) (tag : String) : Bool :=
  !tag.isEmpty && tag != wildcard && policy.tagNames.contains tag

/-- The value is the name of a tag that may stay. -/
def allowsTag (policy : Policy) (tag : Value) : Bool :=
  match tag with
  | .str tag => policy.allowsName tag
  | _ => false

/-- The value is the name of a tag that vanishes with all that it encloses. -/
def isStripped (policy : Policy) (tag : Value) : Bool :=
  match tag with
  | .str tag => policy.strip.contains tag
  | _ => false

/-- The tags of which one has to enclose this one; when there are none, there is no rule. -/
def requiredAncestors (policy : Policy) (tag : String) : NameSet :=
  policy.ancestors.get tag

/-- One of the values is the name of a tag in the set. -/
def encloses (required : NameSet) (enclosing : List Value) : Bool :=
  enclosing.any fun tag =>
    match tag with
    | .str tag => required.contains tag
    | _ => false

/-- The rule of the tag is met inside these tags, whatever their order. -/
def allowsPlace (policy : Policy) (tag : String) (enclosing : List Value) : Bool :=
  (policy.requiredAncestors tag).isEmpty || encloses (policy.requiredAncestors tag) enclosing

/-! ## Properties -/

/-- The name begins with `data`, in any letter case, and has more to it. -/
def isDataName (name : String) : Bool :=
  4 < name.length && Text.lowercase (String.ofList (name.toList.take 4)) == "data"

/-- A property with this name may stand on the tag: by the tag's own entry or by that of every
tag, by its own name or as a `data` property. -/
def allowsAttribute (policy : Policy) (tag name : String) : Bool :=
  let own := policy.attributes.get tag
  let every := policy.attributes.get wildcard
  own.contains name || every.contains name
    || (isDataName name && (own.contains dataWildcard || every.contains dataWildcard))

/-- The URL schemes that the property accepts, if it is checked at all. -/
def protocolsFor (policy : Policy) (name : String) : Option NameSet :=
  policy.protocols.get? name

def isClobbered (policy : Policy) (name : String) : Bool :=
  policy.clobber.contains name

/-! ## Export -/

def nameList (set : NameSet) : Value :=
  .list (set.names.map .str)

/-- A map of names as a mapping to sorted lists, sorted by key. -/
def nameLists (map : NameMap) : Value :=
  .map (map.entries.map fun entry => (.str entry.1, nameList entry.2))

/-- The policy as a mapping, under the keys that a configuration is read from. -/
def toValue (policy : Policy) : Value :=
  .map [
    (.str "tagNames", nameList policy.tagNames),
    (.str "attributes", nameLists policy.attributes),
    (.str "protocols", nameLists policy.protocols),
    (.str "ancestors", nameLists policy.ancestors),
    (.str "clobber", nameList policy.clobber),
    (.str "clobberPrefix", .str policy.clobberPrefix),
    (.str "strip", nameList policy.strip)]

end Policy

end SafeMarkup
