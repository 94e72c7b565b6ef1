/-!
# Lines of a text

`cutLines` cuts a text behind each line feed. A line leaves out its line feed and one carriage return right
before it; the last line needs no line feed, and none is made up behind the last line feed. `joinLines` puts
a line feed behind every line.
-/

namespace PenPlot.Text

def cutLines : List Char → List (List Char)
  | [] => []
  | '\n' :: cs => [] :: cutLines cs
  | '\r' :: '\n' :: cs => [] :: cutLines cs
  | c :: cs =>
    match cutLines cs with
    | [] => [[c]]
    | line :: lines => (c :: line) :: lines

def joinLines (lines : List (List Char)) : List Char :=
  lines.flatMap (· ++ ['\n'])

end PenPlot.Text
