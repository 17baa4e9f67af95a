import Labyrinth.Proofs.Language.Words
import Labyrinth.Proofs.Text.SmallLetters

/-!
# Tokens lose nothing but blanks

The words of a text are made of the lower case of its characters, in their order, and of nothing
else; only the blank ones are gone. Each word is either a character that is a token of its own or a
row of characters that end no word and are their own lower case, so it is read again as the same
word, and so is the whole row of words with spaces between them.
-/

namespace Labyrinth.Language

/-- The code points of the characters that are tokens of their own. -/
def delimiterRanges : List (Nat × Nat) := [(0x3B, 0x3B), (0x7B, 0x7B), (0x7D, 0x7D)]

theorem isDelimiter_eq_inRanges (c : Char) :
    isDelimiter c = Text.inRanges delimiterRanges c.toNat := by
  rw [Bool.eq_iff_iff, isDelimiter_iff, ← Char.toNat_inj, ← Char.toNat_inj, ← Char.toNat_inj]
  have hopen : '\x7b'.toNat = 0x7B := rfl
  have hclose : '\x7d'.toNat = 0x7D := rfl
  have hsemicolon : ';'.toNat = 0x3B := rfl
  simp only [hopen, hclose, hsemicolon, Text.inRanges, delimiterRanges, List.any_cons,
    List.any_nil, Bool.or_false, Bool.or_eq_true, Bool.and_eq_true, decide_eq_true_eq]
  omega

theorem not_isBlank_of_isDelimiter {c : Char} (hc : isDelimiter c = true) :
    ¬ Text.isBlank c = true := by
  rw [isDelimiter_iff] at hc
  rcases hc with rfl | rfl | rfl <;> decide

theorem lower_of_isDelimiter {c : Char} (hc : isDelimiter c = true) : Text.lower c = [c] := by
  rw [isDelimiter_iff] at hc
  rcases hc with rfl | rfl | rfl <;> decide +kernel

/-- The lower case of a character that ends no word goes into a word as it is. -/
theorem settled_of_mem_lower {c d : Char} (hdelimiter : ¬ isDelimiter c = true)
    (hblank : ¬ Text.isBlank c = true) (hd : d ∈ Text.lower c) : Settled d := by
  rw [Bool.not_eq_true] at hdelimiter hblank
  refine ⟨?_, ?_, Text.lower_of_mem_lower hd⟩
  · rw [isDelimiter_eq_inRanges] at hdelimiter ⊢
    rw [Text.not_inRanges_of_mem_lower (by decide +kernel) (by decide +kernel) hdelimiter hd]
    decide
  · rw [Text.isBlank_of_mem_lower hblank hd]
    decide

/-- A row of characters that is read as one word, which it is. -/
inductive IsWord : List Char → Prop
  /-- A character that is a token of its own. -/
  | delimiter {c : Char} (hc : isDelimiter c = true) : IsWord [c]
  /-- Characters that go into a word as they are. -/
  | settled {cs : List Char} (hne : cs ≠ []) (h : ∀ c ∈ cs, Settled c) : IsWord cs

theorem IsWord.split_eq {w : List Char} (h : IsWord w) : split w = [w] := by
  cases h with
  | delimiter hc => exact split_append_delimiter hc [] []
  | settled hne h => exact split_of_settled hne h

/-- A word that is ended is a word, if its characters go into it as they are. -/
theorem isWord_of_mem_flush {word w : List Char} {words : List (List Char)}
    (hword : ∀ c ∈ word, Settled c) (hwords : ∀ v ∈ words, IsWord v) (hw : w ∈ flush word words) :
    IsWord w := by
  unfold flush at hw
  split at hw
  · exact hwords w hw
  · rename_i hne
    rcases List.mem_cons.mp hw with rfl | hw
    · refine .settled (by simpa using hne) fun c hc => hword c (List.mem_reverse.mp hc)
    · exact hwords w hw

/-- Reading on makes words, with a word begun of characters that go into it as they are. -/
theorem isWord_of_mem_splitFrom {word w : List Char} {words : List (List Char)} {cs : List Char}
    (hword : ∀ c ∈ word, Settled c) (hwords : ∀ v ∈ words, IsWord v)
    (hw : w ∈ splitFrom word words cs) : IsWord w := by
  induction cs generalizing word words with
  | nil => exact isWord_of_mem_flush hword hwords (List.mem_reverse.mp hw)
  | cons c cs ih =>
    have hflush : ∀ v ∈ flush word words, IsWord v :=
      fun v hv => isWord_of_mem_flush hword hwords hv
    rw [splitFrom] at hw
    split at hw
    · rename_i hc
      exact ih (List.forall_mem_nil _) (List.forall_mem_cons.mpr ⟨.delimiter hc, hflush⟩) hw
    split at hw
    · exact ih (List.forall_mem_nil _) hflush hw
    · rename_i hdelimiter hblank
      refine ih (fun d hd => ?_) hwords hw
      rcases List.mem_append.mp hd with hd | hd
      · exact settled_of_mem_lower hdelimiter hblank (List.mem_reverse.mp hd)
      · exact hword d hd

theorem isWord_of_mem_split {w cs : List Char} (hw : w ∈ split cs) : IsWord w :=
  isWord_of_mem_splitFrom (List.forall_mem_nil _) (List.forall_mem_nil _) hw

/-- What is left of a text: all but its blanks, in lower case. -/
def residue (cs : List Char) : List Char :=
  (cs.filter fun c => !Text.isBlank c).flatMap Text.lower

theorem residue_cons (c : Char) (cs : List Char) :
    residue (c :: cs) = (if Text.isBlank c = true then [] else Text.lower c) ++ residue cs := by
  unfold residue
  by_cases hc : Text.isBlank c = true <;> simp [hc]

theorem flatten_reverse_flush (word : List Char) (words : List (List Char)) :
    (flush word words).reverse.flatten = words.reverse.flatten ++ word.reverse := by
  unfold flush
  split
  · rename_i hnil
    simp [List.isEmpty_iff.mp hnil]
  · simp

/-- The words joined are what was read before, and then what is left of the rest. -/
theorem flatten_splitFrom (word : List Char) (words : List (List Char)) (cs : List Char) :
    (splitFrom word words cs).flatten =
      words.reverse.flatten ++ word.reverse ++ residue cs := by
  induction cs generalizing word words with
  | nil =>
    rw [splitFrom, flatten_reverse_flush]
    exact (List.append_nil _).symm
  | cons c cs ih =>
    rw [splitFrom, residue_cons]
    split
    · rename_i hc
      rw [ih, if_neg (not_isBlank_of_isDelimiter hc), lower_of_isDelimiter hc, List.reverse_cons,
        List.flatten_append, flatten_reverse_flush]
      simp
    split
    · rw [ih, flatten_reverse_flush]
      simp
    · rw [ih]
      simp

/-- The words of a text with a space between each two are the words of the text. -/
theorem split_intercalate_split (cs : List Char) :
    split (String.intercalate " " ((split cs).map String.ofList)).toList = split cs := by
  have hwords : ∀ w ∈ (split cs).map String.ofList, split w.toList = [w.toList] := by
    intro w hw
    obtain ⟨cs', hcs', rfl⟩ := List.mem_map.mp hw
    rw [String.toList_ofList]
    exact (isWord_of_mem_split hcs').split_eq
  have hinj : ∀ v w : List Char, String.ofList v = String.ofList w → v = w :=
    fun _ _ => String.ofList_inj.mp
  exact (List.map_inj_right hinj).mp (split_intercalate_of_forall hwords)

/-- The tokens of a text around a blank character are those before it and those after it, and around
a character that is a token of its own they have this one in between. Where neither occurs, a text
that is not empty is one token, in lower case. Tokens are numbered 0, 1, 2, and so on. Joined they
give the text without its blanks, in lower case; and joined by spaces they are read as the same
tokens again. -/
theorem tokenize_loses_blanks_only (a b : String) :
    (∀ c, Text.isBlank c = true → texts (a ++ String.singleton c ++ b) = texts a ++ texts b) ∧
    (∀ c, isDelimiter c = true →
      texts (a ++ String.singleton c ++ b) = texts a ++ String.singleton c :: texts b) ∧
    (a ≠ "" → (∀ c ∈ a.toList, ¬ isDelimiter c = true ∧ ¬ Text.isBlank c = true) →
      texts a = [String.ofList (a.toList.flatMap Text.lower)]) ∧
    (tokenize a).map Token.index = List.range (tokenize a).length ∧
    (String.join (texts a)).toList =
      (a.toList.filter fun c => !Text.isBlank c).flatMap Text.lower ∧
    tokenize (String.intercalate " " (texts a)) = tokenize a := by
  refine ⟨fun c hc => ?_, fun c hc => ?_, fun hne hplain => ?_, ?_, ?_, ?_⟩
  · simp [texts_eq, split_append_blank hc]
  · simp [texts_eq, split_append_delimiter hc]
  · have hne : a.toList ≠ [] := by simpa using hne
    rw [texts_eq, split_of_plain hne hplain, List.map_singleton]
  · apply List.ext_getElem
    · simp
    · intro i _ _
      simp [tokenize]
  · rw [texts_eq, String.toList_join, List.flatMap_map]
    simp only [String.toList_ofList, List.flatMap_id']
    exact flatten_splitFrom [] [] a.toList
  · rw [tokenize, texts_eq, split_intercalate_split, tokenize]

/-- A capital that becomes two characters, and blanks and braces in a row. -/
example : texts "Up\x7b \x7d\tİ" = ["up", "\x7b", "\x7d", "i\u0307"] := by decide +kernel

end Labyrinth.Language
