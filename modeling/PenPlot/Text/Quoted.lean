import PenPlot.Text.Unshown

/-!
# Quoted text

`quote` writes a text between double quotes so that it shows on one line: the quote, the backslash and four
controls have an escape of their own, and every other unshown character is written by its code point.
-/

namespace PenPlot.Text

/-- The code point of `c` in lower-case hexadecimal, as `\u` and braces. -/
def codePointEscape (c : Char) : List Char :=
  ['\\', 'u', '\x7b'] ++ Nat.toDigits 16 c.toNat ++ ['\x7d']

/-- How one character is written inside quotes. -/
def escape (c : Char) : List Char :=
  if c = '"' then ['\\', '"']
  else if c = '\\' then ['\\', '\\']
  else if c = '\t' then ['\\', 't']
  else if c = '\n' then ['\\', 'n']
  else if c = '\r' then ['\\', 'r']
  else if c = '\x00' then ['\\', '0']
  else if isUnshown c then codePointEscape c
  else [c]

def quote (s : String) : String :=
  String.ofList ('"' :: s.toList.flatMap escape ++ ['"'])

end PenPlot.Text
