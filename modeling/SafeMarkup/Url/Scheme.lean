/-
# URL schemes

The scheme of a URL stands before its first colon, provided that no slash, question mark or number
sign comes sooner: `example.com?foo:bar` is a relative reference, `javascript:alert(1)` is not.
White space at the beginning is passed over, and so are the two Unicode separators of lines and
paragraphs, because browsers pass over them too.

The scheme is not checked for being one that a URL can have.  Whatever stands before the colon is
compared in lower case with the schemes that are accepted, so an odd one is refused because nobody
accepts it.  A text without a scheme is always accepted: it is a reference within the page or the
site.

The definition follows the text once.  `Proofs/SchemeGrammar.lean` says the same as a grammar, by
which parts a text falls into; `Proofs/BrowserScheme.lean` compares it with how a browser finds a
scheme, after deleting tabs and line breaks, and `Proofs/LetterCase.lean` is about letter case.
-/
import SafeMarkup.Text.Lowercase

namespace SafeMarkup.Url

/-- Passed over at the beginning of a URL. -/
def isIgnorable (c : Char) : Bool :=
  c == ' ' || c == '\t' || c == '\n' || c == '\x0c' || c == '\r' || c == '\u2028'
    || c == '\u2029'

/-- Ends whatever stands at the beginning of a URL. -/
def isDelimiter (c : Char) : Bool :=
  c == ':' || c == '/' || c == '?' || c == '#'

/-- The scheme of a URL, as it is written; a relative reference has none. -/
def scheme? (url : String) : Option String :=
  let rest := url.toList.dropWhile isIgnorable
  match rest.dropWhile (fun c => !isDelimiter c) with
  | ':' :: _ => some (String.ofList (rest.takeWhile fun c => !isDelimiter c))
  | _ => none

/-- The URL is a relative reference, or its scheme in lower case is one of these. -/
def hasAllowedScheme (url : String) (allowed : List String) : Bool :=
  match scheme? url with
  | none => true
  | some scheme => allowed.contains (Text.lowercase scheme)

end SafeMarkup.Url
