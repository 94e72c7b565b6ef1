import PenPlot.Html

/-!
# The gallery page

One HTML page with a card for each drawing: its name, its source, and next to it the drawing or the report of
what went wrong. All text is escaped; the drawing is SVG and goes in as it is.
-/

namespace PenPlot

/-- A drawing for the gallery, or the report that stands in its place. -/
structure Card where
  name : String
  source : String
  output : Except String String

namespace Card

def failed (card : Card) : Bool :=
  match card.output with
  | .ok _ => false
  | .error _ => true

def body (card : Card) : String :=
  match card.output with
  | .ok svg => "<div class=\"svg-container\">" ++ svg ++ "</div>"
  | .error report => "<div class=\"error\">" ++ Html.escape report ++ "</div>"

def text (card : Card) : String :=
  "\n<div class=\"card\" id=\"" ++ Html.escape card.name ++ "\">\n"
    ++ "    <div class=\"card-header\">" ++ Html.escape card.name ++ "</div>\n"
    ++ "    <div class=\"card-body\">\n"
    ++ "        <div class=\"source\">" ++ Html.escape card.source ++ "</div>\n"
    ++ "        " ++ card.body ++ "\n"
    ++ "    </div>\n"
    ++ "</div>\n"

end Card

namespace Gallery

/-- One rule of the style sheet. -/
def rule (selector declarations : String) : String :=
  "        " ++ selector ++ " \x7b " ++ declarations ++ " \x7d\n"

def style : String :=
  "    <style>\n"
    ++ rule "body"
      "font-family: system-ui, sans-serif; margin: 0; background: #eee; color: #333;"
    ++ rule ".page" "max-width: 1000px; margin: 0 auto; padding: 24px;"
    ++ rule "h1" "font-weight: 600; font-size: 20px; margin: 0 0 24px 0;"
    ++ rule ".card"
      ("background: white; border-radius: 8px; box-shadow: 0 1px 3px rgba(0,0,0,0.08); "
        ++ "margin-bottom: 16px; overflow: hidden;")
    ++ rule ".card-header"
      ("padding: 12px 16px; border-bottom: 1px solid #eee; background: #fafafa; font-weight: 600; "
        ++ "font-size: 13px;")
    ++ rule ".card-body"
      "display: grid; grid-template-columns: 1fr 2fr; gap: 12px; padding: 12px 16px;"
    ++ rule ".source"
      ("background: #f8f8f8; border: 1px solid #e0e0e0; padding: 8px 10px; font-family: monospace; "
        ++ "font-size: 11px; white-space: pre-wrap; border-radius: 4px;")
    ++ rule ".svg-container svg" "max-width: 100%; height: auto; border: 1px solid #e5e5e5;"
    ++ rule ".error"
      ("color: #991b1b; font-family: monospace; font-size: 11px; white-space: pre-wrap; "
        ++ "background: #fef2f2; padding: 12px;")
    ++ "    </style>\n"

def head : String :=
  "<!DOCTYPE html>\n<html>\n<head>\n"
    ++ "    <meta charset=\"UTF-8\">\n"
    ++ "    <title>penscript gallery</title>\n"
    ++ style
    ++ "</head>\n<body>\n<div class=\"page\">\n"

def heading (cards : List Card) : String :=
  "<h1>" ++ cards.length.repr ++ " program(s), " ++ (cards.countP Card.failed).repr ++ " failed</h1>\n"

def page (cards : List Card) : String :=
  head ++ heading cards ++ String.join (cards.map Card.text) ++ "</div>\n</body></html>\n"

end Gallery

end PenPlot
