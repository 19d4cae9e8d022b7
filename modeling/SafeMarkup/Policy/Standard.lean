/-
# The standard policy

It follows what large sites allow in what their users write: prose, lists, tables, links and
images; no scripts, no styles, no event handlers; ids and names are kept apart from those of the
page.  Other policies are best drafted from it.

Under it a link may lead to a web or a mail address and an image may come from a web address, or
either may be named relative to the page.  List items and the parts of tables have to stand in
lists and tables.  Most properties may stand on every tag, those that hold an address only where
they are meant to, and there is no entry for `data` properties.

It keeps the two conditions that some theorems ask of a policy: no property is both given the
prefix and checked for its URL scheme, and all accepted schemes are names that can be schemes.  The
witnesses of these theorems are therefore about this policy.
-/
import SafeMarkup.Policy.Basic

namespace SafeMarkup.Policy

/-- The tags of prose, lists, tables, links, images, ruby annotations and task lists. -/
def standardTags : NameSet := .ofList [
  "h1", "h2", "h3", "h4", "h5", "h6",
  "br", "b", "i", "strong", "em", "tt", "ins", "del", "sup", "sub", "kbd", "q", "samp", "var",
  "s", "strike",
  "a", "img",
  "pre", "code", "div", "p", "blockquote", "hr",
  "ol", "ul", "li", "dl", "dt", "dd",
  "table", "thead", "tbody", "tfoot", "tr", "td", "th",
  "ruby", "rt", "rp",
  "summary", "details",
  "input"]

/-- The properties that every tag may carry. -/
def standardAttributes : NameSet := .ofList [
  "abbr", "accept", "acceptCharset", "accessKey", "action", "align", "alt", "axis", "border",
  "cellPadding", "cellSpacing", "char", "charOff", "charSet", "checked", "clear", "cols",
  "colSpan", "color", "compact", "coords", "dateTime", "dir", "disabled", "encType", "htmlFor",
  "frame", "headers", "height", "hrefLang", "hSpace", "isMap", "id", "label", "lang",
  "maxLength", "media", "method", "multiple", "name", "noHref", "noShade", "noWrap", "open",
  "prompt", "readOnly", "rel", "rev", "rows", "rowSpan", "rules", "scope", "selected", "shape",
  "size", "span", "start", "summary", "tabIndex", "target", "title", "type", "useMap", "vAlign",
  "value", "vSpace", "width", "itemProp"]

/-- The policy that holds where no other is given. -/
def standard : Policy where
  tagNames := standardTags
  attributes := .ofEntries [
    ("a", .ofList ["href"]),
    ("img", .ofList ["src", "longDesc"]),
    ("div", .ofList ["itemScope", "itemType"]),
    ("blockquote", .ofList ["cite"]),
    ("del", .ofList ["cite"]),
    ("ins", .ofList ["cite"]),
    ("q", .ofList ["cite"]),
    (wildcard, standardAttributes)]
  protocols := .ofEntries [
    ("href", .ofList ["http", "https", "mailto"]),
    ("cite", .ofList ["http", "https"]),
    ("src", .ofList ["http", "https"]),
    ("longDesc", .ofList ["http", "https"])]
  ancestors := .ofEntries [
    ("li", .ofList ["ol", "ul"]),
    ("tbody", .ofList ["table"]),
    ("tfoot", .ofList ["table"]),
    ("thead", .ofList ["table"]),
    ("td", .ofList ["table"]),
    ("th", .ofList ["table"]),
    ("tr", .ofList ["table"])]

end SafeMarkup.Policy
