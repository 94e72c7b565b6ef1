/-!
# HTML text

`Html.escape` makes a text safe to stand between tags and inside quoted attributes.
-/

namespace PenPlot.Html

/-- Every `c` of a text replaced. -/
def substitute (c : Char) (replacement cs : List Char) : List Char :=
  cs.flatMap fun d => if d = c then replacement else [d]

/-- The ampersand goes first, so that those of the other replacements stay. -/
def escape (s : String) : String :=
  String.ofList
    (substitute '"' "&quot;".toList
      (substitute '>' "&gt;".toList
        (substitute '<' "&lt;".toList
          (substitute '&' "&amp;".toList s.toList))))

end PenPlot.Html
