import Labyrinth.Text.Integer

/-!
# Which words are integers

A numeral is a row of ASCII digits, perhaps with a sign before it, and has its value in base
ten. `readInt64?_eq_some_iff` says that exactly the numerals of 64-bit values are read, with
that value, `isInt64_toString` that every 64-bit integer is read back as it was written, and
`isInt64_toString_toNat` that every count is.
-/

namespace Labyrinth.Text

/-- At least one ASCII digit, with the value in base ten. -/
structure IsDecimal (ds : List Char) (n : Nat) : Prop where
  /-- There is a digit. -/
  ne_nil : ds ≠ []
  /-- There is nothing else. -/
  isDigit : ∀ c ∈ ds, c.isDigit = true
  /-- The digits have this value. -/
  value : Nat.ofDigitChars 10 ds 0 = n

/-- Digits with an optional sign before them, and their value. -/
inductive IsNumeral : List Char → Int → Prop
  /-- No sign. -/
  | plain {ds : List Char} {n : Nat} (h : IsDecimal ds n) : IsNumeral ds n
  /-- A plus sign changes nothing. -/
  | plus {ds : List Char} {n : Nat} (h : IsDecimal ds n) : IsNumeral ('+' :: ds) n
  /-- A minus sign. -/
  | minus {ds : List Char} {n : Nat} (h : IsDecimal ds n) : IsNumeral ('-' :: ds) (-n)

/-- A word that is a numeral, of a value that fits a signed 64-bit word. -/
structure IsInt64 (w : String) (n : Int) : Prop where
  /-- The word is a numeral of this value. -/
  numeral : IsNumeral w.toList n
  /-- The value is not too small. -/
  lower : -9223372036854775808 ≤ n
  /-- The value is not too large. -/
  upper : n ≤ 9223372036854775807

/-- A row of characters has a value exactly if all of them are digits. -/
theorem digitsFrom?_eq_some_iff {value n : Nat} {cs : List Char} :
    digitsFrom? value cs = some n ↔
      (∀ c ∈ cs, c.isDigit = true) ∧ Nat.ofDigitChars 10 cs value = n := by
  induction cs generalizing value with
  | nil => simp [digitsFrom?]
  | cons c cs ih =>
    rw [digitsFrom?, digit?]
    cases hc : c.isDigit with
    | false => simp [hc]
    | true =>
      simp only [if_true, Option.bind_some, ih, Nat.ofDigitChars_cons, List.forall_mem_cons, hc,
        true_and]

/-- The numbers without sign that are read are the rows of digits. -/
theorem readNat?_eq_some_iff {cs : List Char} {n : Nat} :
    readNat? cs = some n ↔ IsDecimal cs n := by
  cases cs with
  | nil =>
    constructor
    · intro h
      cases h
    · intro h
      exact absurd rfl h.ne_nil
  | cons c cs =>
    rw [readNat?, digitsFrom?_eq_some_iff]
    · exact ⟨fun h => ⟨by simp, h.1, h.2⟩, fun h => ⟨h.isDigit, h.value⟩⟩
    · simp

/-- A row of digits begins with no sign. -/
theorem IsDecimal.head_ne {ds cs : List Char} {n : Nat} {c : Char} (h : IsDecimal ds n)
    (hc : c.isDigit = false) : ds ≠ c :: cs := by
  rintro rfl
  rw [h.isDigit c List.mem_cons_self] at hc
  cases hc

/-- The numbers that are read are the numerals. -/
theorem readInt?_eq_some_iff {cs : List Char} {n : Int} :
    readInt? cs = some n ↔ IsNumeral cs n := by
  constructor
  · intro h
    unfold readInt? at h
    split at h <;> obtain ⟨m, hm, rfl⟩ := Option.map_eq_some_iff.mp h <;>
      rw [readNat?_eq_some_iff] at hm
    · exact .minus hm
    · exact .plus hm
    · exact .plain hm
  · intro h
    cases h with
    | plain h =>
      rw [readInt?.eq_3 cs (fun rest => h.head_ne rfl) (fun rest => h.head_ne rfl),
        readNat?_eq_some_iff.mpr h]
      rfl
    | plus h =>
      rw [readInt?, readNat?_eq_some_iff.mpr h]
      rfl
    | minus h =>
      rw [readInt?, readNat?_eq_some_iff.mpr h]
      rfl

/-- The words that are read are the numerals of 64-bit values. -/
theorem readInt64?_eq_some_iff {w : String} {n : Int} :
    readInt64? w = some n ↔ IsInt64 w n := by
  rw [readInt64?, Option.filter_eq_some_iff, readInt?_eq_some_iff]
  simp only [Bool.and_eq_true, decide_eq_true_eq]
  exact ⟨fun h => ⟨h.1, h.2.1, h.2.2⟩, fun h => ⟨h.numeral, h.lower, h.upper⟩⟩

/-- A natural number is written with digits of its value. -/
theorem isDecimal_toDigits (n : Nat) : IsDecimal (Nat.toDigits 10 n) n where
  ne_nil := Nat.toDigits_ne_nil
  isDigit _ hc := Nat.isDigit_of_mem_toDigits (by decide) (by decide) hc
  value := Nat.ofDigitChars_ten_toDigits

/-- An integer is written as a numeral of its value. -/
theorem isNumeral_toString (n : Int) : IsNumeral (toString n).toList n := by
  cases n with
  | ofNat n =>
    rw [show toString (Int.ofNat n) = Nat.repr n from rfl, Nat.toList_repr]
    exact .plain (isDecimal_toDigits n)
  | negSucc n =>
    rw [show toString (Int.negSucc n) = "-" ++ Nat.repr (n + 1) from rfl, String.toList_append,
      Nat.toList_repr]
    exact .minus (isDecimal_toDigits (n + 1))

/-- Every 64-bit integer is written as a word that is read back. -/
theorem isInt64_toString (n : Int64) : IsInt64 (toString n.toInt) n.toInt :=
  ⟨isNumeral_toString n.toInt, n.le_toInt, n.toInt_le⟩

/-- Every count is written as a word that is read back. -/
theorem isInt64_toString_toNat (n : UInt32) : IsInt64 (toString n.toNat) n.toNat := by
  have hlt : n.toNat < 4294967296 := n.toNat_lt
  refine ⟨isNumeral_toString n.toNat, ?_, ?_⟩ <;> omega

end Labyrinth.Text
