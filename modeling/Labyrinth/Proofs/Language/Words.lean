import Labyrinth.Language.Token
import Labyrinth.Proofs.Text.Numerals

/-!
# The words of joined texts

A blank character ends every word, and so does one that is a token of its own; what stands before
it and after it is cut into words on its own. This is `split_append_blank` and
`split_append_delimiter`, and by `split_intercalate` the words of texts with blanks between them
are those of each text. A row of characters that are neither blank nor tokens of their own and
have no other lower case is one word, as every numeral is.
-/

namespace Labyrinth.Language

/-- A character that goes into a word as it is. -/
structure Settled (c : Char) : Prop where
  /-- It is no token of its own. -/
  not_delimiter : ¬ isDelimiter c = true
  /-- It ends no word. -/
  not_blank : ¬ Text.isBlank c = true
  /-- It is its own lower case. -/
  lower : Text.lower c = [c]

theorem isDelimiter_iff {c : Char} : isDelimiter c = true ↔ c = '\x7b' ∨ c = '\x7d' ∨ c = ';' := by
  simp [isDelimiter, or_assoc]

/-- The words that are finished stand before all others. -/
theorem splitFrom_eq_append (word : List Char) (words : List (List Char)) (cs : List Char) :
    splitFrom word words cs = words.reverse ++ splitFrom word [] cs := by
  have hflush (word : List Char) (words : List (List Char)) :
      flush word words = flush word [] ++ words := by
    unfold flush
    split <;> simp
  induction cs generalizing word words with
  | nil => simp [splitFrom, hflush word words]
  | cons c cs ih =>
    rw [splitFrom, splitFrom]
    split
    · rw [ih, ih [] ([c] :: flush word []), hflush word words]
      simp
    split
    · rw [ih, ih [] (flush word []), hflush word words]
      simp
    · exact ih _ _

/-- A character that ends words ends the word before it; if it is a token it is a word of its own,
and the words after it are cut on their own. -/
theorem splitFrom_append_break {c : Char} (hc : isDelimiter c = true ∨ Text.isBlank c = true)
    (word : List Char) (words : List (List Char)) (xs ys : List Char) :
    splitFrom word words (xs ++ c :: ys) =
      splitFrom word words xs ++ ((if isDelimiter c = true then [[c]] else []) ++ split ys) := by
  induction xs generalizing word words with
  | nil =>
    rw [List.nil_append, splitFrom.eq_2]
    by_cases hd : isDelimiter c = true
    · rw [if_pos hd, if_pos hd, splitFrom_eq_append]
      simp [splitFrom, split]
    · rw [if_neg hd, if_neg hd, if_pos (hc.resolve_left hd), splitFrom_eq_append]
      rfl
  | cons x xs ih =>
    rw [List.cons_append, splitFrom, splitFrom]
    split
    · exact ih _ _
    split
    · exact ih _ _
    · exact ih _ _

/-- The words on both sides of a character that is a token of its own. -/
theorem split_append_delimiter {c : Char} (hc : isDelimiter c = true) (xs ys : List Char) :
    split (xs ++ c :: ys) = split xs ++ [c] :: split ys := by
  have h := splitFrom_append_break (.inl hc) [] [] xs ys
  rwa [if_pos hc] at h

/-- The words on both sides of a blank character. -/
theorem split_append_blank {c : Char} (hc : Text.isBlank c = true) (xs ys : List Char) :
    split (xs ++ c :: ys) = split xs ++ split ys := by
  have hd : ¬ isDelimiter c = true := by
    rw [isDelimiter_iff]
    rintro (rfl | rfl | rfl) <;> revert hc <;> decide
  have h := splitFrom_append_break (.inr hc) [] [] xs ys
  rwa [if_neg hd] at h

/-- The words of texts with a space between each two. -/
theorem split_intercalate (ss : List String) :
    split (String.intercalate " " ss).toList = ss.flatMap (fun s => split s.toList) := by
  induction ss with
  | nil => rfl
  | cons s ss ih =>
    cases ss with
    | nil => rw [String.intercalate_singleton, List.flatMap_singleton]
    | cons t ts =>
      rw [String.intercalate_cons_cons, String.toList_append, String.toList_append,
        List.append_assoc, List.flatMap_cons, ← ih]
      exact split_append_blank (by decide) s.toList _

/-- Texts that are one word each are the words of the text that they are joined to. -/
theorem split_intercalate_of_forall {ws : List String}
    (h : ∀ w ∈ ws, split w.toList = [w.toList]) :
    (split (String.intercalate " " ws).toList).map String.ofList = ws := by
  rw [split_intercalate]
  induction ws with
  | nil => rfl
  | cons w ws ih =>
    obtain ⟨hw, hws⟩ := List.forall_mem_cons.mp h
    rw [List.flatMap_cons, List.map_append, ih hws, hw]
    simp

/-- Characters that end no word lengthen the word being read by their lower case. -/
theorem splitFrom_of_plain {cs : List Char}
    (h : ∀ c ∈ cs, ¬ isDelimiter c = true ∧ ¬ Text.isBlank c = true) (word : List Char) :
    splitFrom word [] cs = (flush ((cs.flatMap Text.lower).reverse ++ word) []).reverse := by
  induction cs generalizing word with
  | nil => rfl
  | cons c cs ih =>
    obtain ⟨⟨hdelimiter, hblank⟩, hcs⟩ := List.forall_mem_cons.mp h
    rw [splitFrom, if_neg hdelimiter, if_neg hblank, ih hcs]
    simp

/-- Characters that end no word make one word, in lower case. -/
theorem split_of_plain {cs : List Char} (hne : cs ≠ [])
    (h : ∀ c ∈ cs, ¬ isDelimiter c = true ∧ ¬ Text.isBlank c = true) :
    split cs = [cs.flatMap Text.lower] := by
  have hlower : cs.flatMap Text.lower ≠ [] := by
    obtain ⟨c, hc⟩ := List.exists_mem_of_ne_nil cs hne
    intro hnil
    exact Text.lower_ne_nil c (List.flatMap_eq_nil_iff.mp hnil c hc)
  rw [split, splitFrom_of_plain h, List.append_nil, flush, if_neg (by simpa using hlower)]
  simp

/-- Characters that go into a word as they are make one word. -/
theorem split_of_settled {cs : List Char} (hne : cs ≠ []) (h : ∀ c ∈ cs, Settled c) :
    split cs = [cs] := by
  have hlower : cs.flatMap Text.lower = cs.flatMap fun c => [c] := by
    rw [List.flatMap_def, List.flatMap_def]
    exact congrArg List.flatten (List.map_congr_left fun c hc => (h c hc).lower)
  rw [split_of_plain hne fun c hc => ⟨(h c hc).not_delimiter, (h c hc).not_blank⟩, hlower,
    List.flatMap_singleton']

/-- A digit goes into a word as it is. -/
theorem settled_of_isDigit {c : Char} (hc : c.isDigit = true) : Settled c := by
  have hrange : 48 ≤ c.toNat ∧ c.toNat ≤ 57 := Char.isDigit_iff_toNat.mp hc
  refine ⟨?_, ?_, ?_⟩
  · rw [isDelimiter_iff]
    rintro (rfl | rfl | rfl) <;> revert hc <;> decide
  · simp only [Text.isBlank, Text.inRanges, Text.blankRanges, List.any_cons, List.any_nil,
      Bool.or_false, Bool.or_eq_true, Bool.and_eq_true, decide_eq_true_eq, not_or, not_and,
      Nat.not_le]
    omega
  · rw [Text.lower, if_neg, Text.lowerOne_eq_self_of_lt (by omega)]
    rintro rfl
    revert hc
    decide

/-- The characters of a numeral go into a word as they are. -/
theorem settled_of_isNumeral {cs : List Char} {n : Int} (h : Text.IsNumeral cs n) :
    ∀ c ∈ cs, Settled c := by
  have hdecimal {ds : List Char} {k : Nat} (hds : Text.IsDecimal ds k) : ∀ c ∈ ds, Settled c :=
    fun c hc => settled_of_isDigit (hds.isDigit c hc)
  cases h with
  | plain hds => exact hdecimal hds
  | plus hds =>
    refine List.forall_mem_cons.mpr ⟨⟨?_, ?_, ?_⟩, hdecimal hds⟩ <;> decide
  | minus hds =>
    refine List.forall_mem_cons.mpr ⟨⟨?_, ?_, ?_⟩, hdecimal hds⟩ <;> decide

/-- An integer is written as one word. -/
theorem split_toString_int (n : Int) : split (toString n).toList = [(toString n).toList] := by
  have h := Text.isNumeral_toString n
  refine split_of_settled ?_ (settled_of_isNumeral h)
  intro hnil
  rw [hnil] at h
  cases h with
  | plain hds => exact hds.ne_nil rfl

/-- The texts of the tokens of a text. -/
def texts (s : String) : List String := (tokenize s).map Token.text

/-- They are its words. -/
theorem texts_eq (s : String) : texts s = (split s.toList).map String.ofList := by
  apply List.ext_getElem
  · simp [texts, tokenize]
  · intro i _ _
    simp [texts, tokenize]

end Labyrinth.Language
