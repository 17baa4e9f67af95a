import Labyrinth.Text.Blank
import Labyrinth.Text.Lowercase

/-!
# Tokens of program text

A text is cut at blanks; a brace or a semicolon is a token of its own; every other
character goes, in lower case, into the word it stands in. `tokenize` numbers the
words from 0. `length_tokenize` and `index_of_getElem?_tokenize` state the numbering.
-/

namespace Labyrinth.Language

/-- A word of the program text with its place among the words. -/
structure Token where
  /-- The number of tokens before this one. -/
  index : Nat
  /-- The word, in lower case. -/
  text : String
  deriving DecidableEq, Repr

/-- The characters that are tokens of their own. -/
def isDelimiter (c : Char) : Bool := c == '\x7b' || c == '\x7d' || c == ';'

/-- Ends the word being read: a word of no characters is no word. Both the word and the
words before it are held last first. -/
def flush (word : List Char) (words : List (List Char)) : List (List Char) :=
  if word.isEmpty then words else word.reverse :: words

/-- Reads on, with the word being read and the words before it held last first. -/
def splitFrom (word : List Char) (words : List (List Char)) : List Char → List (List Char)
  | [] => (flush word words).reverse
  | c :: rest =>
    if isDelimiter c then splitFrom [] ([c] :: flush word words) rest
    else if Text.isBlank c then splitFrom [] (flush word words) rest
    else splitFrom ((Text.lower c).reverse ++ word) words rest

/-- The words of a text, in order. -/
def split (cs : List Char) : List (List Char) := splitFrom [] [] cs

/-- The tokens of a text. -/
def tokenize (text : String) : List Token :=
  (split text.toList).mapIdx (fun i word => ⟨i, String.ofList word⟩)

/-- There is one token for every word. -/
theorem length_tokenize (text : String) :
    (tokenize text).length = (split text.toList).length := by
  simp [tokenize]

/-- The tokens are numbered 0, 1, 2, … in their order. -/
theorem index_of_getElem?_tokenize {text : String} {i : Nat} {t : Token}
    (h : (tokenize text)[i]? = some t) : t.index = i := by
  simp only [tokenize, List.getElem?_mapIdx, Option.map_eq_some_iff] at h
  obtain ⟨w, _, rfl⟩ := h
  rfl

end Labyrinth.Language
