/-
A sample header, and a summary of the options that a header gives.
-/
import MarkupCatalog.Header
import MarkupCatalog.Options.View
import MarkupCatalog.Text.Lines
import MarkupCatalog.Value.Literal

namespace MarkupCatalog.Header

/-- A header with a path, a name and a wrap. -/
def sample : Header := read
  "<!-- extract:content/element.html name:Button wrap:<div class=\"demo\">:</div> -->".toText

/-- The path, the name and the wrap of a header, a line each. -/
def summary (h : Header) : Text :=
  let v := Options.View.ofOptions (h.options .empty)
  let shown (s : Option Text) : Text := s.getD (Value.literal .null)
  Text.unlines
    ["✓ Annotation parsed successfully:".toText,
     "  Extract: ".toText ++ shown v.extract,
     "  Name: ".toText ++ shown v.label,
     "  Wrap: ".toText ++ v.wrap.literal,
     []]

end MarkupCatalog.Header
