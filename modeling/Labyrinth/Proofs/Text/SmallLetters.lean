import Labyrinth.Text.Blank
import Labyrinth.Text.Lowercase

/-!
# Small letters

A code point that the table of capitals moves is moved by the distance of one run, and comes to lie
between the small letters of the first and the last capital of that run. So what is to be known of
all small letters is known from the ends of the runs, which are few enough to be looked through: no
small letter is a capital again, and none is blank. Hence lower case is its own lower case.
-/

namespace Labyrinth.Text

namespace CapitalRun

variable {r q : CapitalRun} {n : Nat}

/-- A code point is one of the capitals of the run. -/
def Has (r : CapitalRun) (n : Nat) : Prop := r.first ≤ n ∧ r.covers n = true

/-- The code point at the distance from a capital to its small letter. -/
def small (r : CapitalRun) (n : Nat) : Nat := (n + r.offset).toNat

/-- The small letters of the run lie outside some ranges. -/
def avoids (r : CapitalRun) (ranges : List (Nat × Nat)) : Bool :=
  ranges.all (fun s => (r.small r.last).blt s.1 || s.2.blt (r.small r.first))

/-- The small letters of `r` and the capitals of `q` take turns. -/
def alternates (r q : CapitalRun) : Bool :=
  q.stride == 2 && (r.stride == 2 || r.first == r.last) && (r.small r.first + q.first) % 2 == 1

/-- The small letters of a run are no capitals of ascending runs: every run up to those that only
begin after them has ended before them, or takes turns with them. -/
def staysOff (r : CapitalRun) : List CapitalRun → Bool
  | [] => true
  | q :: runs =>
    (r.small r.last).blt q.first ||
      ((q.last.blt (r.small r.first) || r.alternates q) && r.staysOff runs)

/-- The small letters of a run lie between those of its first and its last capital. -/
theorem Has.small_between (h : r.Has n) :
    r.small r.first ≤ r.small n ∧ r.small n ≤ r.small r.last := by
  obtain ⟨hfirst, hcovers⟩ := h
  simp only [covers, Bool.and_eq_true, decide_eq_true_eq] at hcovers
  simp only [small]
  omega

theorem Has.not_inRanges (h : r.Has n) {ranges : List (Nat × Nat)} (hr : r.avoids ranges = true) :
    inRanges ranges (r.small n) = false := by
  rw [inRanges, List.any_eq_false]
  intro s hs
  have hbetween := h.small_between
  have hside := List.all_eq_true.mp hr s hs
  simp only [Bool.or_eq_true, Nat.blt_eq] at hside
  simp only [Bool.and_eq_true, decide_eq_true_eq]
  omega

/-- No small letter is a capital of a run that takes turns with the small letters. -/
theorem Has.not_covers_small (h : r.Has n) (hq : r.alternates q = true)
    (hoffset : 0 ≤ r.first + r.offset) (hfirst : q.first ≤ r.small n) :
    q.covers (r.small n) = false := by
  obtain ⟨hn, hcovers⟩ := h
  simp only [covers, Bool.and_eq_true, decide_eq_true_eq, beq_iff_eq] at hcovers
  simp only [alternates, Bool.and_eq_true, Bool.or_eq_true, beq_iff_eq] at hq
  obtain ⟨⟨hturns, hstep⟩, hodd⟩ := hq
  -- The distances from the first capital are even on both sides, and the first ones differ.
  have heven : (n - r.first) % 2 = 0 := by
    rcases hstep with hstep | hone
    · rw [← hstep]
      exact hcovers.2
    · omega
  have hsmall : r.small n = r.small r.first + (n - r.first) := by
    simp only [small]
    omega
  have hne : (r.small n - q.first) % q.stride ≠ 0 := by
    rw [hturns]
    omega
  simp [covers, hne]

/-- Small letters stay as they are among runs that they stay off. -/
theorem Has.lowerIn_small (h : r.Has n) (hoffset : 0 ≤ r.first + r.offset)
    {runs : List CapitalRun} (hruns : r.staysOff runs = true) :
    lowerIn runs (r.small n) = r.small n := by
  have hbetween := h.small_between
  induction runs with
  | nil => rfl
  | cons q runs ih =>
    simp only [staysOff, Bool.or_eq_true, Bool.and_eq_true, Nat.blt_eq] at hruns
    rw [lowerIn]
    split
    · rfl
    rename_i hfirst
    rcases hruns with hafter | ⟨hbefore, hruns⟩
    · omega
    have hcovers : q.covers (r.small n) = false := by
      rcases hbefore with hbefore | hturns
      · have hpast : ¬ r.small n ≤ q.last := by omega
        simp [covers, hpast]
      · exact h.not_covers_small hturns hoffset (Nat.not_lt.mp hfirst)
    rw [if_neg (by simp [hcovers])]
    exact ih hruns

end CapitalRun

/-- A code point stays as it is, or a run has it and it becomes its small letter there. -/
theorem lowerIn_cases (runs : List CapitalRun) (n : Nat) :
    lowerIn runs n = n ∨ ∃ r ∈ runs, r.Has n ∧ lowerIn runs n = r.small n := by
  fun_induction lowerIn runs n with
  | case1 => exact .inl rfl
  | case2 => exact .inl rfl
  | case3 r runs n hfirst hcovers =>
    exact .inr ⟨r, List.mem_cons_self, ⟨Nat.not_lt.mp hfirst, hcovers⟩, rfl⟩
  | case4 r runs n hfirst hcovers ih =>
    refine ih.imp_right ?_
    rintro ⟨q, hq, hhas, heq⟩
    exact ⟨q, List.mem_cons_of_mem _ hq, hhas, heq⟩

/-- The code points of no characters. -/
def surrogates : List (Nat × Nat) := [(0xD800, 0xDFFF)]

/-- The small letters of a run are characters, and the table moves none of them. -/
structure CapitalRun.Clear (r : CapitalRun) : Prop where
  /-- The distance leads to code points. -/
  offset : 0 ≤ r.first + r.offset
  /-- They are not too great for characters. -/
  last : r.small r.last < 0x110000
  /-- They are no surrogates. -/
  characters : r.avoids surrogates = true
  /-- They are no capitals. -/
  small : r.staysOff capitalRuns = true

theorem clear_capitalRuns :
    (capitalRuns.all fun r => decide (0 ≤ r.first + r.offset) &&
      (r.small r.last).blt 0x110000 && r.avoids surrogates && r.staysOff capitalRuns) = true := by
  decide +kernel

theorem CapitalRun.clear_of_mem {r : CapitalRun} (hr : r ∈ capitalRuns) : r.Clear := by
  have h := List.all_eq_true.mp clear_capitalRuns r hr
  simp only [Bool.and_eq_true, decide_eq_true_eq, Nat.blt_eq] at h
  obtain ⟨⟨⟨hoffset, hlast⟩, hcharacters⟩, hsmall⟩ := h
  exact ⟨hoffset, hlast, hcharacters, hsmall⟩

/-- A character is its own lower case by the table, or has the small letter of a run. -/
theorem lowerOne_cases (c : Char) :
    lowerOne c = c ∨
      ∃ r ∈ capitalRuns, r.Has c.toNat ∧ (lowerOne c).toNat = r.small c.toNat := by
  rcases lowerIn_cases capitalRuns c.toNat with hself | ⟨r, hr, hhas, heq⟩
  · exact .inl (by rw [lowerOne, hself, Char.ofNat_toNat])
  · refine .inr ⟨r, hr, hhas, ?_⟩
    have hclear := CapitalRun.clear_of_mem hr
    have hvalid : (r.small c.toNat).isValidChar := by
      have hoff := hhas.not_inRanges hclear.characters
      have hlast := hclear.last
      have hbetween := hhas.small_between
      simp only [surrogates, inRanges, List.any_cons, List.any_nil, Bool.or_false,
        Bool.and_eq_false_iff, decide_eq_false_iff_not] at hoff
      simp only [Nat.isValidChar]
      omega
    rw [lowerOne, heq, Char.ofNat, dif_pos hvalid]
    rfl

/-- Lower case by the table is its own lower case. -/
theorem lowerOne_lowerOne (c : Char) : lowerOne (lowerOne c) = lowerOne c := by
  rcases lowerOne_cases c with hself | ⟨r, hr, hhas, heq⟩
  · rw [hself, hself]
  · have hclear := CapitalRun.clear_of_mem hr
    rw [lowerOne, heq, hhas.lowerIn_small hclear.offset hclear.small, ← heq, Char.ofNat_toNat]

/-- A character outside some ranges that all runs avoid has its lower case outside them. -/
theorem not_inRanges_lowerOne {ranges : List (Nat × Nat)} {c : Char}
    (hruns : capitalRuns.all (·.avoids ranges) = true) (hc : inRanges ranges c.toNat = false) :
    inRanges ranges (lowerOne c).toNat = false := by
  rcases lowerOne_cases c with hself | ⟨r, hr, hhas, heq⟩
  · rwa [hself]
  · rw [heq]
    exact hhas.not_inRanges (List.all_eq_true.mp hruns r hr)

/-- The lower case of a capital I with a dot above is a small one and a dot. -/
theorem mem_lower {c d : Char} :
    d ∈ lower c ↔ if c = '\u0130' then d = 'i' ∨ d = '\u0307' else d = lowerOne c := by
  unfold lower
  split <;> simp

/-- A character outside some ranges that all runs avoid has its lower case outside them, if the two
letters of the exception are. -/
theorem not_inRanges_of_mem_lower {ranges : List (Nat × Nat)} {c d : Char}
    (hruns : capitalRuns.all (·.avoids ranges) = true)
    (hdotted : (lower '\u0130').all (fun e => !inRanges ranges e.toNat) = true)
    (hc : inRanges ranges c.toNat = false) (hd : d ∈ lower c) :
    inRanges ranges d.toNat = false := by
  by_cases hc' : c = '\u0130'
  · subst hc'
    simpa using List.all_eq_true.mp hdotted d hd
  · rw [mem_lower, if_neg hc'] at hd
    rw [hd]
    exact not_inRanges_lowerOne hruns hc

/-- The lower case of a character that is not blank is not blank. -/
theorem isBlank_of_mem_lower {c d : Char} (hc : isBlank c = false) (hd : d ∈ lower c) :
    isBlank d = false :=
  not_inRanges_of_mem_lower (by decide +kernel) (by decide +kernel) hc hd

/-- Lower case is its own lower case. -/
theorem lower_of_mem_lower {c d : Char} (hd : d ∈ lower c) : lower d = [d] := by
  by_cases hc : c = '\u0130'
  · rw [mem_lower, if_pos hc] at hd
    rcases hd with rfl | rfl <;> decide +kernel
  · have hd' : d ≠ '\u0130' := by
      rintro rfl
      have hc' : inRanges [(0x130, 0x130)] c.toNat = false := by
        have hne : c.toNat ≠ 0x130 := fun h => hc (Char.toNat_inj.mp h)
        simp only [inRanges, List.any_cons, List.any_nil, Bool.or_false, Bool.and_eq_false_iff,
          decide_eq_false_iff_not]
        omega
      have := not_inRanges_of_mem_lower (by decide +kernel) (by decide +kernel) hc' hd
      revert this
      decide
    rw [mem_lower, if_neg hc] at hd
    rw [lower, if_neg hd', hd, lowerOne_lowerOne]

end Labyrinth.Text
