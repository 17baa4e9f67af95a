/-!
# Written integers

An integer is written as an optional sign and at least one ASCII digit.
`readInt64?` accepts exactly those whose value fits a signed 64-bit word.
-/

namespace Labyrinth.Text

/-- The value of an ASCII digit. -/
def digit? (c : Char) : Option Nat := if c.isDigit then some (c.toNat - '0'.toNat) else none

/-- The value of a row of digits that follow the digits of `value`; nothing if a character
is no digit. -/
def digitsFrom? (value : Nat) : List Char → Option Nat
  | [] => some value
  | c :: rest => (digit? c).bind (fun d => digitsFrom? (10 * value + d) rest)

/-- The value of a number without sign; the empty row is no number. -/
def readNat? : List Char → Option Nat
  | [] => none
  | cs => digitsFrom? 0 cs

/-- The value of a number with an optional sign, of any size. -/
def readInt? : List Char → Option Int
  | '-' :: rest => (readNat? rest).map (fun n : Nat => -(n : Int))
  | '+' :: rest => (readNat? rest).map (fun n : Nat => (n : Int))
  | cs => (readNat? cs).map (fun n : Nat => (n : Int))

/-- The value of a written integer that fits a signed 64-bit word. -/
def readInt64? (s : String) : Option Int :=
  (readInt? s.toList).filter (fun n => -9223372036854775808 ≤ n && n ≤ 9223372036854775807)

end Labyrinth.Text
