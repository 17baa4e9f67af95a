import Labyrinth.Language.Writing

/-!
# Both ways of writing a program give the same text

What is written behind a text is the statements of the program, with a semicolon before the first
unless it is the first of all (`writeProgram_eq`). A statement is never empty, so it is seen by the
length of a text whether there is one.
-/

namespace Labyrinth.Language

theorem cutBack_append (s t : String) : cutBack (s ++ t) s.length = s := by
  rw [cutBack, String.toList_append, ← String.length_toList, List.take_left, String.ofList_toList]

/-- A text with something behind it is longer. -/
theorem length_append_ne {s t : String} (h : t ≠ "") : (s ++ t).length ≠ s.length := by
  have hpos : t.length ≠ 0 := by simpa using h
  rw [String.length_append]
  omega

/-- Statements behind a text, after a semicolon if they are not the first. -/
def continued (first : Bool) : List String → String
  | [] => ""
  | s :: ss => (if first then "" else "; ") ++ joinStatements (s :: ss)

/-- The first statement, and those after it. -/
theorem continued_cons (first : Bool) (s : String) (ss : List String) :
    continued first (s :: ss) = (if first then "" else "; ") ++ s ++ continued false ss := by
  cases ss with
  | nil => simp [joinStatements, continued]
  | cons t ts => simp [joinStatements, continued, String.append_assoc]

theorem statement?_ne_empty {i : Instruction} {s : String} (h : statement? i = some s) :
    s ≠ "" := by
  rintro rfl
  cases i with
  | move d => cases d <;> simp [statement?, Direction.keyword] at h
  | block header body =>
    obtain ⟨lead, -, hempty⟩ := Option.map_eq_some_iff.mp h
    simp at hempty
  | call | noop => cases h

theorem statements_ne_empty {p : Program} {s : String} (h : s ∈ statements p) : s ≠ "" := by
  induction p with
  | nil => cases h
  | cons i rest ih =>
    rw [statements] at h
    split at h
    next t ht =>
      rcases List.mem_cons.mp h with rfl | h
      · exact statement?_ne_empty ht
      · exact ih h
    next => exact ih h

/-- Braces are closed around the statements between them. -/
theorem closeBraces_eq {ss : List String} (h : ∀ s ∈ ss, s ≠ "") (before : String) :
    closeBraces before.length (before ++ "\x7b " ++ continued true ss) = before ++ braced ss := by
  have hopened : (before ++ "\x7b ").length = before.length + 2 := String.length_append _ _
  cases ss with
  | nil =>
    rw [closeBraces, continued, String.append_empty, if_pos hopened, cutBack_append, braced]
  | cons s ss =>
    have hfilled : continued true (s :: ss) ≠ "" := by
      rw [continued_cons]
      simp [h s List.mem_cons_self]
    rw [closeBraces, ← hopened, if_neg (length_append_ne hfilled), braced, continued, if_pos rfl,
      String.empty_append]
    simp only [String.append_assoc]

/-- An instruction that writes its statement, or nothing, is one more statement of a program. -/
theorem writeProgram_cons {i : Instruction} {rest : Program}
    (hi : ∀ text, writeInstruction text i = text ++ (statement? i).getD "")
    (hrest : ∀ text first, writeProgram text first rest = text ++ continued first (statements rest))
    (text : String) (first : Bool) :
    writeProgram text first (i :: rest) = text ++ continued first (statements (i :: rest)) := by
  rw [writeProgram, statements]
  cases hs : statement? i with
  | none =>
    have hback : cutBack (if first = true then text else text ++ "; ") text.length = text := by
      split
      · simpa using cutBack_append text ""
      · exact cutBack_append text "; "
    simp only [hi, hs, Option.getD_none, String.append_empty, if_true, hback, hrest]
  | some s =>
    have hlonger := length_append_ne (s := if first = true then text else text ++ "; ")
      (statement?_ne_empty hs)
    simp only [hi, hs, Option.getD_some, if_neg hlonger, hrest, continued_cons]
    cases first <;> simp [String.append_assoc]

/-- What is written behind a text is the statements of the program. -/
theorem writeProgram_eq (p : Program) (text : String) (first : Bool) :
    writeProgram text first p = text ++ continued first (statements p) := by
  induction p using Instruction.programInduction generalizing text first with
  | nil => exact String.append_empty.symm
  | block h body rest ihBody ih =>
    refine writeProgram_cons (fun text => ?_) ih text first
    rw [writeInstruction, statement?]
    cases headerSource? h with
    | none => exact String.append_empty.symm
    | some lead =>
      simp only [Option.map_some, Option.getD_some, ihBody]
      rw [closeBraces_eq fun s hs => statements_ne_empty hs, String.append_assoc]
  | move d rest ih => exact writeProgram_cons (fun _ => rfl) ih text first
  | call rest ih => exact writeProgram_cons (fun _ => String.append_empty.symm) ih text first
  | noop rest ih => exact writeProgram_cons (fun _ => String.append_empty.symm) ih text first

/-- A program written behind no text is its statements with a semicolon between each two. -/
theorem write_eq_source (p : Program) : write p = source p := by
  rw [write, writeProgram_eq, source, String.empty_append]
  cases h : statements p with
  | nil => rfl
  | cons s ss => rw [continued, if_pos rfl, String.empty_append]

end Labyrinth.Language
