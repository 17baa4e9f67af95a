import Labyrinth.Proofs.Instruction.Pruning
import Labyrinth.Proofs.Language.Grammar
import Labyrinth.Proofs.Language.Words
import Labyrinth.Proofs.Language.Writing

/-!
# Reading what was written

The text of a program is cut into words statement by statement, and these words are derived by the
grammar. The derivation gives the tree back without its reserved instructions, which have no
written form, at whatever level they stand; by `source_without` the text knows nothing of them.
-/

namespace Labyrinth.Language

open Instruction (isReserved)

/-- A text is read by its words. -/
theorem parse_eq (text : String) : parse text = parseWords (texts text) := rfl

/-- The words of texts with a space between them. -/
theorem texts_append_space (s t : String) : texts (s ++ " " ++ t) = texts s ++ texts t := by
  have hsplit := split_append_blank (c := ' ') (by decide) s.toList t.toList
  simp only [texts_eq, String.toList_append, String.append_assoc]
  rw [← List.map_append, ← hsplit]
  rfl

/-- The words of statements with a semicolon between them. -/
theorem texts_append_semicolon (s t : String) :
    texts (s ++ "; " ++ t) = texts s ++ ";" :: texts t := by
  have hblank := split_append_blank (c := ' ') (by decide) [] t.toList
  have hsplit := split_append_delimiter (c := ';') (by decide) s.toList (' ' :: t.toList)
  rw [List.nil_append] at hblank
  rw [hblank] at hsplit
  have htext : (s ++ "; " ++ t).toList = s.toList ++ ';' :: ' ' :: t.toList := by
    simp [String.toList_append]
  rw [texts_eq, texts_eq, texts_eq, htext, hsplit]
  simp [split, splitFrom, flush]

/-- The words of statements in braces. -/
theorem texts_braced (ss : List String) :
    texts (braced ss) = "\x7b" :: texts (joinStatements ss) ++ ["\x7d"] := by
  cases ss with
  | nil => decide +kernel
  | cons s ss =>
    have hbraces : texts "\x7b" = ["\x7b"] ∧ texts "\x7d" = ["\x7d"] := by decide +kernel
    have htext (inner : String) :
        "\x7b " ++ inner ++ " \x7d" = "\x7b" ++ " " ++ (inner ++ " " ++ "\x7d") := by
      rw [← String.toList_inj]
      simp [String.toList_append]
    rw [braced, htext, texts_append_space, texts_append_space, hbraces.1, hbraces.2]
    rfl

/-- A move is written as a statement. -/
theorem isStatement_move (d : Direction) :
    IsStatement (texts ("move " ++ d.keyword)) [.move d] := by
  have hwords : texts ("move " ++ d.keyword) = ["move", d.keyword] := by
    cases d <;> decide +kernel
  rw [hwords]
  exact .move d

/-- A count at the end of a text is one more word. -/
theorem texts_append_count (lead : String) (n : UInt32) :
    texts (lead ++ " " ++ toString n.toNat) = texts lead ++ [toString n.toNat] := by
  have hsplit : split (toString n.toNat).toList = [(toString n.toNat).toList] :=
    split_toString_int n.toNat
  have hword : texts (toString n.toNat) = [toString n.toNat] := by
    rw [texts_eq, hsplit, List.map_singleton, String.ofList_toList]
  rw [texts_append_space, hword]

/-- What stands before the braces of a block is its header. -/
theorem isHeader_texts {h : Header} {lead : String} (e : headerSource? h = some lead) :
    IsHeader (texts lead) h := by
  cases h with
  | times n =>
    cases e
    have hlead : texts ("repeat" ++ " " ++ toString n.toNat) = ["repeat", toString n.toNat] := by
      rw [texts_append_count, show texts "repeat" = ["repeat"] by decide +kernel]
      rfl
    have hheader := IsHeader.times (Text.isInt64_toString_toNat n)
    rwa [clampCount_of_toNat, ← hlead] at hheader
  | atLeast n =>
    cases e
    have hlead : texts ("if strawberries >=" ++ " " ++ toString n.toNat) =
        ["if", "strawberries", ">=", toString n.toNat] := by
      rw [texts_append_count,
        show texts "if strawberries >=" = ["if", "strawberries", ">="] by decide +kernel]
      rfl
    have hheader := IsHeader.atLeast (Text.isInt64_toString_toNat n)
    rwa [clampCount_of_toNat, ← hlead] at hheader
  | untilGoal | whileHolding | function => cases e

/-- A header has a written form exactly if it is not reserved. -/
theorem headerSource?_eq_none_iff {h : Header} : headerSource? h = none ↔ h.isReserved = true := by
  cases h <;> simp [headerSource?, Header.isReserved]

/-- A block is written as a statement if its body is written as a program. -/
theorem isStatement_block {h : Header} {lead : String} {body q : Program}
    (e : headerSource? h = some lead) (hbody : IsProgram (texts (source body)) q) :
    IsStatement (texts (lead ++ " " ++ braced (statements body))) [.block h q] := by
  rw [texts_append_space, texts_braced, ← source]
  have hblock := IsStatement.block (isHeader_texts e) hbody
  simpa only [List.append_assoc, List.cons_append, List.nil_append] using hblock

/-- One more statement, and a semicolon if there are others, before a written program. -/
theorem isProgram_joinStatements_cons {s : String} {ss : List String} {i : Instruction}
    {q : Program} (hs : IsStatement (texts s) [i]) (hq : IsProgram (texts (joinStatements ss)) q) :
    IsProgram (texts (joinStatements (s :: ss))) (i :: q) := by
  cases ss with
  | nil =>
    have hcons := IsProgram.cons hs hq
    rw [joinStatements, String.intercalate_singleton]
    rwa [show texts (joinStatements []) = [] from rfl, List.append_nil] at hcons
  | cons t ts =>
    rw [joinStatements, String.intercalate_cons_cons, texts_append_semicolon]
    exact .cons hs (.cons .empty hq)

/-- The words of the text of a program are derived by the grammar, and the tree of the derivation
is the program without its reserved instructions. -/
theorem isProgram_source (p : Program) :
    IsProgram (texts (source p)) (p.without isReserved) := by
  induction p using Instruction.programInduction with
  | nil => exact .nil
  | move d rest ih => exact isProgram_joinStatements_cons (isStatement_move d) ih
  | block h body rest ihBody ih =>
    cases e : headerSource? h with
    | none =>
      rw [Program.without_cons_of_pos (headerSource?_eq_none_iff.mp e), source, statements,
        statement?, e]
      exact ih
    | some lead =>
      have hkept : (Instruction.block h body).isReserved = false := by
        cases hr : h.isReserved with
        | false => exact hr
        | true =>
          rw [headerSource?_eq_none_iff.mpr hr] at e
          cases e
      rw [Program.without_cons_of_neg hkept, source, statements, statement?, e]
      exact isProgram_joinStatements_cons (isStatement_block e ihBody) ih
  | call rest ih => exact ih
  | noop rest ih => exact ih

/-- The statements of a program are those of its instructions that are not reserved. -/
theorem statements_without (p : Program) : statements (p.without isReserved) = statements p := by
  induction p using Instruction.programInduction with
  | nil => rfl
  | move d rest ih =>
    rw [Program.without_cons_of_neg rfl, Instruction.pruned, statements, statements, ih]
  | block h body rest ihBody ih =>
    cases hr : h.isReserved with
    | true =>
      rw [Program.without_cons_of_pos hr, ih, statements.eq_2, statement?,
        headerSource?_eq_none_iff.mpr hr]
      rfl
    | false =>
      rw [Program.without_cons_of_neg hr, Instruction.pruned, statements, statements, statement?,
        statement?, ihBody, ih]
  | call rest ih => exact ih
  | noop rest ih => exact ih

/-- Reserved instructions leave no trace in the text. -/
theorem source_without (p : Program) : source (p.without isReserved) = source p := by
  rw [source, source, statements_without]

example : source [.noop, .block (.times 3) [.call], .block .function [.move .up], .move .down] =
    "repeat 3 \x7b\x7d; move down" := by decide +kernel

/-- The text of a program, in whichever way it is written, is read as the program without its
reserved instructions, and these are all that is lost: the program left has the same text, it is the
program itself exactly if no reserved instruction occurs in that, and writing what was read gives
the text again. -/
theorem parse_source (p : Program) :
    write p = source p ∧
    parse (source p) = .ok (p.without isReserved) ∧
    source (p.without isReserved) = source p ∧
    (parse (source p) = .ok p ↔ p.Free isReserved) ∧
    (parse (source p)).map source = .ok (source p) := by
  have hread : parse (source p) = .ok (p.without isReserved) := by
    rw [parse_eq]
    exact parseWords_eq_ok_iff.mpr (isProgram_source p)
  refine ⟨write_eq_source p, hread, source_without p, ?_, ?_⟩
  · rw [hread, Except.ok.injEq, Program.without_eq_self_iff]
  · rw [hread, Except.map, source_without]

end Labyrinth.Language
