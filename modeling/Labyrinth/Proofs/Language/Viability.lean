import Labyrinth.Proofs.Language.Grammar

/-!
# Where reading stops

Words are viable if some words after them make a program of them. Whatever the reader asks
for, there are words that give it and close all blocks, so the words taken so far are always
viable; and no words after one that cannot be taken help. Hence an error stands at the first
word that cannot continue any program, or at the end of words that want more.
-/

namespace Labyrinth.Language

/-- Some words after these make a program of them. -/
def Viable (ws : List String) : Prop := ∃ vs p, IsProgram (ws ++ vs) p

/-- As many blocks are closed in some words as are opened. -/
def Balanced (ws : List String) : Prop := ws.count "\x7b" = ws.count "\x7d"

namespace SyntaxFault

/-- The message says that there is something after the end of the program. -/
def SaysTrailing (f : SyntaxFault) : Prop :=
  "unexpected tokens at end".toList <+: f.message.toList

/-- How the message of any other fault begins. -/
theorem toList_message (f : SyntaxFault) :
    (∃ found, f = .trailing found) ∨
      ∃ rest, f.message.toList = "expected ".toList ++ rest ∨
        f.message.toList = "unknown ".toList ++ rest := by
  have hstart (lead rest : String) : (lead ++ rest).toList = lead.toList ++ rest.toList :=
    String.toList_append
  cases f with
  | trailing found => exact .inl ⟨found, rfl⟩
  | missing expected found =>
    refine .inr ?_
    cases found with
    | none =>
      refine ⟨(expected.text ++ ", found end of input").toList, .inl ?_⟩
      rw [← hstart, ← String.append_assoc]
      rfl
    | some found =>
      refine ⟨(expected.text ++ (", found '" ++ (found ++ "'"))).toList, .inl ?_⟩
      rw [← hstart, ← String.append_assoc, ← String.append_assoc, ← String.append_assoc]
      rfl
  | unknownDirection found =>
    refine .inr ⟨("direction '" ++ (found ++ "'")).toList, .inr ?_⟩
    rw [← hstart, ← String.append_assoc, ← String.append_assoc]
    rfl
  | unknownKeyword found =>
    refine .inr ⟨("keyword '" ++ (found ++ "'")).toList, .inr ?_⟩
    rw [← hstart, ← String.append_assoc, ← String.append_assoc]
    rfl

/-- Only of a closing brace without a block it is said to be after the end. -/
theorem saysTrailing_iff {f : SyntaxFault} : f.SaysTrailing ↔ ∃ found, f = .trailing found := by
  unfold SaysTrailing
  constructor
  · intro h
    rcases f.toList_message with htrailing | ⟨rest, hrest | hrest⟩
    · exact htrailing
    · rw [hrest] at h
      simp at h
    · rw [hrest] at h
      simp at h
  · rintro ⟨found, rfl⟩
    refine ⟨", starting with '".toList ++ (found.toList ++ "'".toList), ?_⟩
    rw [← String.toList_append, ← String.toList_append, ← String.toList_append,
      ← String.append_assoc, ← String.append_assoc]
    rfl

end SyntaxFault

/-- A header opens and closes no block. -/
theorem IsHeader.count_eq_zero {hs : List String} {h : Header} (hh : IsHeader hs h) :
    hs.count "\x7b" = 0 ∧ hs.count "\x7d" = 0 := by
  have hnumeral {w : String} {k : Int} (hw : Text.IsInt64 w k) : w ≠ "\x7b" ∧ w ≠ "\x7d" := by
    rw [← Text.readInt64?_eq_some_iff] at hw
    constructor
    · rintro rfl
      cases hw
    · rintro rfl
      cases hw
  cases hh with
  | times hw => simp [hnumeral hw]
  | atLeast hw => simp [hnumeral hw]

mutual

/-- In a program every block that is opened is closed. -/
theorem IsProgram.balanced {ws : List String} {p : Program} : IsProgram ws p → Balanced ws
  | .nil => rfl
  | .cons first rest => by
    rw [Balanced, List.count_append, List.count_append, first.balanced, rest.balanced]

/-- In a statement every block that is opened is closed. -/
theorem IsStatement.balanced {ws : List String} {is : Program} : IsStatement ws is → Balanced ws
  | .move d => by cases d <;> rfl
  | .block header body => by
    obtain ⟨hopening, hclosing⟩ := header.count_eq_zero
    have hbody : _ = _ := body.balanced
    simp [Balanced, hopening, hclosing, hbody]
  | .empty => rfl

end

namespace Reading

variable {r next : Reading} {ws : List String} {w : String} {f : SyntaxFault}

/-- As many closing braces as there are open blocks close all of them. -/
theorem exists_takeAll_braces (body : List Instruction) (layers : List Layer) :
    ∃ m p, takeAll ⟨⟨body, layers⟩, .statement⟩ (List.replicate layers.length "\x7d") =
      .ok ⟨m, .statement⟩ ∧ m.finished? = some p := by
  induction layers generalizing body with
  | nil => exact ⟨_, _, rfl, rfl⟩
  | cons l ls ih =>
    obtain ⟨m, p, hm, hp⟩ := ih (.block l.header body.reverse :: l.before)
    refine ⟨m, p, ?_, hp⟩
    rw [List.length_cons, List.replicate_succ, (Takes.leave rfl).takeAll_cons, hm]

/-- Whatever is asked for, some words give it. -/
theorem exists_takeAll_statement (r : Reading) : ∃ ws n, r.takeAll ws = .ok ⟨n, .statement⟩ := by
  obtain ⟨n, a⟩ := r
  have hzero : Text.IsInt64 "0" 0 := Text.readInt64?_eq_some_iff.mp (by decide)
  have hbrace (h : Header) : takeAll ⟨n, .brace h⟩ ["\x7b"] = .ok ⟨n.enter h, .statement⟩ := by
    rw [(Takes.enter h).takeAll_cons, takeAll_nil]
  have hadvance {a b : Awaiting} {w : String} {vs : List String} (h : a.Advances w b) :
      takeAll ⟨n, a⟩ (w :: vs) = takeAll ⟨n, b⟩ vs :=
    (Takes.advance h).takeAll_cons vs
  cases a with
  | statement => exact ⟨[], n, rfl⟩
  | direction => exact ⟨["up"], _, (Takes.move .up).takeAll_cons []⟩
  | count => exact ⟨["0", "\x7b"], _, (hadvance (.count hzero)).trans (hbrace _)⟩
  | subject =>
    exact ⟨["strawberries", ">=", "0", "\x7b"], _, (hadvance .subject).trans
      ((hadvance .comparison).trans ((hadvance (.threshold hzero)).trans (hbrace _)))⟩
  | comparison =>
    exact ⟨[">=", "0", "\x7b"], _, (hadvance .comparison).trans
      ((hadvance (.threshold hzero)).trans (hbrace _))⟩
  | threshold => exact ⟨["0", "\x7b"], _, (hadvance (.threshold hzero)).trans (hbrace _)⟩
  | brace h => exact ⟨["\x7b"], _, hbrace h⟩

/-- Words that are all taken are viable. -/
theorem viable_of_takeAll (h : start.takeAll ws = .ok r) : Viable ws := by
  obtain ⟨us, ⟨body, layers⟩, hus⟩ := r.exists_takeAll_statement
  obtain ⟨m, p, hm, hp⟩ := exists_takeAll_braces body layers
  refine ⟨us ++ List.replicate layers.length "\x7d", p, parseWords_eq_ok_iff.mp ?_⟩
  refine readFrom_eq_ok_iff.mpr ⟨⟨m, .statement⟩, ?_, finish_eq_ok_iff.mpr ⟨rfl, hp⟩⟩
  rw [takeAll_append h, takeAll_append hus, hm]

/-- Words with one that cannot be taken are not viable. -/
theorem not_viable_of_take (h : start.takeAll ws = .ok r) (hw : r.take w = .error f) :
    ¬ Viable (ws ++ [w]) := by
  rintro ⟨vs, p, hp⟩
  have hall := hp.takeAll .empty
  rw [List.append_assoc, List.singleton_append] at hall
  have hstop : start.takeAll (ws ++ w :: vs) = r.takeAll (w :: vs) := takeAll_append h
  rw [takeAll, hw] at hstop
  have hboth : Except.error f = .ok _ := hstop.symm.trans hall
  cases hboth

/-- Words that are all taken are a program exactly if no statement is begun and no block open. -/
theorem exists_isProgram_iff (h : start.takeAll ws = .ok r) :
    (∃ p, IsProgram ws p) ↔ r.awaiting = .statement ∧ r.nest.layers = [] := by
  obtain ⟨⟨body, layers⟩, a⟩ := r
  have hfinished : (∃ p, Nest.finished? ⟨body, layers⟩ = some p) ↔ layers = [] := by
    cases layers <;> simp [Nest.finished?]
  simp only [← parseWords_eq_ok_iff, parseWords, readFrom_eq_ok_iff, h, Except.ok.injEq,
    exists_eq_left', finish_eq_ok_iff, exists_and_left, hfinished]

/-- A word is found to be after the end exactly if it is a closing brace, no statement is begun and
no block open. -/
theorem eq_trailing_iff (h : r.take w = .error f) :
    (∃ found, f = .trailing found) ↔ w = "\x7d" ∧ r.awaiting = .statement ∧ r.nest.layers = [] := by
  obtain ⟨⟨body, layers⟩, a⟩ := r
  cases a with
  | statement =>
    rw [take, takeKeyword] at h
    by_cases hw : w = "\x7d"
    · cases layers with
      | nil =>
        simp only [hw, if_true, Nest.leave?, Except.error.injEq] at h
        simp [hw, ← h]
      | cons l ls => simp [hw, Nest.leave?] at h
    · simp only [if_neg hw] at h
      repeat' split at h
      all_goals cases h
      simp [hw]
  | direction =>
    simp only [take, takeDirection] at h
    split at h <;> cases h
    simp
  | count | threshold =>
    simp only [take, takeInteger] at h
    split at h <;> cases h
    simp
  | subject | comparison =>
    simp only [take, takeWord] at h
    split at h <;> cases h
    simp
  | brace header =>
    simp only [take] at h
    split at h <;> cases h
    simp

/-- At the end of words nothing is found to be after the end. -/
theorem ne_trailing_of_finish (h : r.finish = .error f) : ¬ ∃ found, f = .trailing found := by
  obtain ⟨n, a⟩ := r
  rintro ⟨found, rfl⟩
  cases a with
  | statement => cases hn : n.finished? <;> simp [finish, hn] at h
  | _ => simp [finish] at h

end Reading

/-- An error stands where the text can no longer become a program. The words before it are viable;
it stands at a word with which they are not, or at the end of words that are viable but no program
yet. Its message says that something is after the end of the program exactly if the word is a
closing brace after a whole program, and then no block is open before it. -/
theorem parse_error_at_first_misfit {text : String} {e : SyntaxError} (h : parse text = .error e) :
    let ws := (tokenize text).map Token.text
    e.index ≤ ws.length ∧ Viable (ws.take e.index) ∧
      ((e.index < ws.length ∧ ¬ Viable (ws.take (e.index + 1))) ∨
        (e.index = ws.length ∧ Viable ws ∧ ¬ ∃ p, IsProgram ws p)) ∧
      (e.fault.SaysTrailing ↔
        ws[e.index]? = some "\x7d" ∧ ∃ p, IsProgram (ws.take e.index) p) ∧
      (e.fault.SaysTrailing → Balanced (ws.take e.index)) := by
  intro ws
  have hread : Reading.start.readFrom 0 ws = .error e := h
  rcases Reading.readFrom_cases .start 0 ws with
    ⟨r, hall, hend⟩ | ⟨us, w, vs, r, f, hws, hall, hw, hend⟩
  · -- All words were taken, and what is asked for after them is missing.
    rw [hread] at hend
    cases hfinish : r.finish with
    | ok p =>
      rw [hfinish] at hend
      cases hend
    | error f =>
      rw [hfinish, Nat.zero_add] at hend
      obtain rfl : e = ⟨ws.length, f⟩ := Except.error.inj hend
      have hnot : ¬ ∃ p, IsProgram ws p := by
        rintro ⟨p, hp⟩
        rw [← parseWords_eq_ok_iff] at hp
        exact nomatch hread.symm.trans hp
      have hfault : ¬ f.SaysTrailing := by
        rw [SyntaxFault.saysTrailing_iff]
        exact Reading.ne_trailing_of_finish hfinish
      have hviable := Reading.viable_of_takeAll hall
      rw [List.take_length, List.getElem?_eq_none (Nat.le_refl _)]
      refine ⟨Nat.le_refl _, hviable, .inr ⟨rfl, hviable, hnot⟩, ?_, fun ht => absurd ht hfault⟩
      exact ⟨fun ht => absurd ht hfault, fun hp => absurd hp.2 hnot⟩
  · -- The word `w` could not be taken after the words `us`.
    rw [hread, Nat.zero_add] at hend
    obtain rfl : e = ⟨us.length, f⟩ := Except.error.inj hend
    have hlt : us.length < ws.length := by simp [hws]
    have hbefore : ws.take us.length = us := by simp [hws]
    have hupto : ws.take (us.length + 1) = us ++ [w] := by
      rw [hws, List.take_length_add_append, List.take_succ_cons, List.take_zero]
    have hat : ws[us.length]? = some w := by simp [hws]
    have hfault : f.SaysTrailing ↔ w = "\x7d" ∧ ∃ p, IsProgram us p := by
      rw [SyntaxFault.saysTrailing_iff, Reading.eq_trailing_iff hw,
        Reading.exists_isProgram_iff hall]
    rw [hbefore, hupto, hat, Option.some.injEq]
    refine ⟨Nat.le_of_lt hlt, Reading.viable_of_takeAll hall,
      .inl ⟨hlt, Reading.not_viable_of_take hall hw⟩, hfault, ?_⟩
    intro ht
    obtain ⟨-, p, hp⟩ := hfault.mp ht
    exact hp.balanced

/-- The brace after the block is one too many. -/
theorem parse_error_of_stray_brace :
    parse "repeat 2 \x7b move up \x7d \x7d" = .error ⟨6, .trailing "\x7d"⟩ ∧
      ¬ Viable (((tokenize "repeat 2 \x7b move up \x7d \x7d").map Token.text).take 7) := by
  have h : parse "repeat 2 \x7b move up \x7d \x7d" = .error ⟨6, .trailing "\x7d"⟩ := by
    have hwords : (tokenize "repeat 2 \x7b move up \x7d \x7d").map Token.text =
        ["repeat", "2", "\x7b", "move", "up", "\x7d", "\x7d"] := by
      decide +kernel
    rw [parse, hwords]
    rfl
  obtain ⟨-, -, (⟨-, hnot⟩ | ⟨hend, -⟩), -⟩ := parse_error_at_first_misfit h
  · exact ⟨h, hnot⟩
  · exact absurd hend (by decide +kernel)

end Labyrinth.Language
