/-
# Trees as JSON text

The JSON text of a tree is that of its dict form; a text is read back strictly.

Neither direction adds anything to its two halves: `toJson` fails if the tree has no dict form or
the dict form no text, and `ofJson` if the text is no JSON or what stands in it no tree.  Since the
keys of every object are sorted, the text of a tree does not depend on the order in which its
mappings were filled, and since the strict reader stops at the first fault, neither does what is
reported about a text.

The limit on the digits of integers is handed through to both halves.  The round trip that is
proved of them, with sanitizing in between, is `Policy.sanitize_toJson` in `Proofs/Pipeline.lean`;
that the order of keys leaves no trace is `Policy.sanitize_sameText` in `Proofs/KeyOrder.lean`.
-/
import SafeMarkup.Interchange.Reader
import SafeMarkup.Interchange.Writer
import SafeMarkup.Json.Reader
import SafeMarkup.Json.Writer

namespace SafeMarkup.Node

def toJson (layout : Json.Layout) (node : Node) (limit : DigitLimit := .standard) :
    Except Fault String := do
  let value ← node.toValue
  Json.write layout value limit

def ofJson (text : String) (limit : DigitLimit := .standard) : Except Fault Node := do
  let value ← Json.read text limit
  ofValue value

end SafeMarkup.Node
