import Labyrinth.Text.Visible

/-!
# Characters in quotes

A character is shown between single quotes. Six characters have an escape of one letter or
sign; of the others, the visible ones are shown as themselves and the hidden ones by their
code point.
-/

namespace Labyrinth.Text

/-- How a character stands between quotes. -/
def escaped (c : Char) : String :=
  match c with
  | '\x00' => "\\0"
  | '\t' => "\\t"
  | '\n' => "\\n"
  | '\r' => "\\r"
  | '\'' => "\\'"
  | '\\' => "\\\\"
  | _ =>
    if isVisible c then c.toString
    else "\\u\x7b" ++ String.ofList (Nat.toDigits 16 c.toNat) ++ "\x7d"

/-- A character in single quotes. -/
def quoted (c : Char) : String := "'" ++ escaped c ++ "'"

end Labyrinth.Text
