import Labyrinth.Language.Parse
import Labyrinth.Proofs.Text.Numerals

/-!
# The grammar of program text

A program is any number of statements; a statement is a move, an empty statement, or a block
with a program in braces. `IsProgram` is this grammar over rows of words, with the tree that a
derivation gives. The reader keeps no derivation but a nest and the demand of the statement
begun. `Reading.Reads` says which words lead to such a reading, every word taken keeps it, and
`parseWords_eq_ok_iff` says that the reader accepts the words of the grammar with their trees.
-/

namespace Labyrinth.Language

/-- The words that stand before the brace of a block, and the header that they give. -/
inductive IsHeader : List String → Header → Prop
  /-- A loop with a count, brought into range. -/
  | times {w : String} {n : Int} (h : Text.IsInt64 w n) :
    IsHeader ["repeat", w] (.times (clampCount n))
  /-- A condition with a threshold, brought into range. -/
  | atLeast {w : String} {n : Int} (h : Text.IsInt64 w n) :
    IsHeader ["if", "strawberries", ">=", w] (.atLeast (clampCount n))

mutual

/-- The rows of words that are programs, and their trees. -/
inductive IsProgram : List String → Program → Prop
  /-- No words are the empty program. -/
  | nil : IsProgram [] []
  /-- A program may begin with a statement. -/
  | cons {us vs : List String} {is p : Program} (first : IsStatement us is)
    (rest : IsProgram vs p) : IsProgram (us ++ vs) (is ++ p)

/-- The rows of words that are one statement, and the instructions that it gives. -/
inductive IsStatement : List String → Program → Prop
  /-- A move with its direction. -/
  | move (d : Direction) : IsStatement ["move", d.keyword] [.move d]
  /-- A block: a header and a program in braces. -/
  | block {hs ws : List String} {h : Header} {p : Program} (header : IsHeader hs h)
    (body : IsProgram ws p) :
    IsStatement (hs ++ ["\x7b"] ++ ws ++ ["\x7d"]) [.block h p]
  /-- The empty statement gives no instruction. -/
  | empty : IsStatement [";"] []

end

/-- Programs one after the other are a program. -/
theorem IsProgram.append {us vs : List String} {p q : Program} :
    IsProgram us p → IsProgram vs q → IsProgram (us ++ vs) (p ++ q)
  | .nil, h => h
  | .cons first rest, h => by
    rw [List.append_assoc, List.append_assoc]
    exact .cons first (rest.append h)

/-- A statement alone is a program. -/
theorem IsStatement.isProgram {ws : List String} {is : Program} (h : IsStatement ws is) :
    IsProgram ws is := by
  simpa only [List.append_nil] using IsProgram.cons h .nil

namespace Nest

/-- The nest with a program appended to the innermost one. -/
def extend (n : Nest) (p : Program) : Nest := { n with body := p.reverse ++ n.body }

@[simp] theorem extend_nil (n : Nest) : n.extend [] = n := rfl

@[simp] theorem extend_singleton (n : Nest) (i : Instruction) : n.extend [i] = n.append i := rfl

theorem extend_append (n : Nest) (p q : Program) : n.extend (p ++ q) = (n.extend p).extend q := by
  simp [extend]

/-- A block that is filled and closed is appended as a whole. -/
theorem leave?_extend_enter (n : Nest) (h : Header) (p : Program) :
    ((n.enter h).extend p).leave? = some (h, n.append (.block h p)) := by
  simp [leave?, extend, enter, append]

/-- The words that lead into the innermost of some open blocks. -/
inductive Opened : List Layer → List String → Prop
  /-- No block is open. -/
  | nil : Opened [] []
  /-- A program and then the beginning of one more block. -/
  | cons {l : Layer} {ls : List Layer} {us vs hs : List String} (outer : Opened ls us)
    (before : IsProgram vs l.before.reverse) (header : IsHeader hs l.header) :
    Opened (l :: ls) (us ++ (vs ++ (hs ++ ["\x7b"])))

/-- The words that lead to a nest. -/
inductive Reads : Nest → List String → Prop
  /-- The words of the open blocks, and then a program. -/
  | intro {n : Nest} {us vs : List String} (outer : Opened n.layers us)
    (inner : IsProgram vs n.body.reverse) : Reads n (us ++ vs)

variable {n m : Nest} {ws : List String}

theorem Reads.empty : Reads .empty [] := show Reads .empty ([] ++ []) from .intro .nil .nil

/-- The words of a statement lead on to a nest with its instructions. -/
theorem Reads.statement {vs : List String} {is : Program} (h : n.Reads ws)
    (hs : IsStatement vs is) : (n.extend is).Reads (ws ++ vs) := by
  obtain ⟨outer, inner⟩ := h
  rw [List.append_assoc]
  refine .intro outer ?_
  rw [extend, List.reverse_append, List.reverse_reverse]
  exact inner.append hs.isProgram

/-- A header and a brace lead into one more block. -/
theorem Reads.enter {hs : List String} {h : Header} (hn : n.Reads ws) (hh : IsHeader hs h) :
    (n.enter h).Reads (ws ++ hs ++ ["\x7b"]) := by
  obtain ⟨outer, inner⟩ := hn
  have hopen : Opened (n.enter h).layers _ := .cons outer inner hh
  simpa only [List.append_nil, List.append_assoc] using Reads.intro hopen .nil

/-- A closing brace leads out of the innermost block. -/
theorem Reads.leave {h : Header} (hn : n.Reads ws) (hm : n.leave? = some (h, m)) :
    m.Reads (ws ++ ["\x7d"]) := by
  obtain ⟨body, layers⟩ := n
  obtain ⟨outer, inner⟩ := hn
  cases outer with
  | nil => simp [leave?] at hm
  | cons outer before header =>
    simp only [leave?, Option.some.injEq, Prod.mk.injEq] at hm
    obtain ⟨-, rfl⟩ := hm
    have hblock := before.append (IsStatement.block header inner).isProgram
    simp only [List.append_assoc] at hblock ⊢
    refine .intro outer ?_
    simpa only [List.reverse_cons] using hblock

/-- The words that lead to a nest in which nothing is open are its program. -/
theorem Reads.finished {p : Program} (hn : n.Reads ws) (hp : n.finished? = some p) :
    IsProgram ws p := by
  obtain ⟨body, layers⟩ := n
  obtain ⟨outer, inner⟩ := hn
  cases outer with
  | nil =>
    obtain rfl : body.reverse = p := by simpa [finished?] using hp
    exact inner
  | cons outer before header => simp [finished?] at hp

end Nest

namespace Awaiting

/-- The words of a statement that has been begun, by what it asks for next. -/
inductive Begun : Awaiting → List String → Prop
  /-- None is begun. -/
  | statement : Begun .statement []
  /-- A move. -/
  | direction : Begun .direction ["move"]
  /-- A loop. -/
  | count : Begun .count ["repeat"]
  /-- A condition. -/
  | subject : Begun .subject ["if"]
  /-- A condition on strawberries. -/
  | comparison : Begun .comparison ["if", "strawberries"]
  /-- A condition on a number of strawberries. -/
  | threshold : Begun .threshold ["if", "strawberries", ">="]
  /-- A whole header. -/
  | brace {h : Header} {hs : List String} (header : IsHeader hs h) : Begun (.brace h) hs

/-- The words that only lead on in a statement. -/
inductive Advances : Awaiting → String → Awaiting → Prop
  /-- A move begins. -/
  | move : Advances .statement "move" .direction
  /-- A loop begins. -/
  | loop : Advances .statement "repeat" .count
  /-- A condition begins. -/
  | condition : Advances .statement "if" .subject
  /-- The count of a loop. -/
  | count {w : String} {k : Int} (h : Text.IsInt64 w k) :
    Advances .count w (.brace (.times (clampCount k)))
  /-- What a condition counts. -/
  | subject : Advances .subject "strawberries" .comparison
  /-- The comparison of a condition. -/
  | comparison : Advances .comparison ">=" .threshold
  /-- The threshold of a condition. -/
  | threshold {w : String} {k : Int} (h : Text.IsInt64 w k) :
    Advances .threshold w (.brace (.atLeast (clampCount k)))

/-- A word that leads on is one more word of the statement begun. -/
theorem Begun.advance {a b : Awaiting} {ws : List String} {w : String} (h : a.Begun ws)
    (hw : a.Advances w b) : b.Begun (ws ++ [w]) := by
  cases hw with
  | move => cases h; exact .direction
  | loop => cases h; exact .count
  | condition => cases h; exact .subject
  | count hk => cases h; exact .brace (.times hk)
  | subject => cases h; exact .comparison
  | comparison => cases h; exact .threshold
  | threshold hk => cases h; exact .brace (.atLeast hk)

end Awaiting

namespace Reading

/-- What a word can do to a reading. -/
inductive Takes : Reading → String → Reading → Prop
  /-- It leads on in the statement begun. -/
  | advance {n : Nest} {a b : Awaiting} {w : String} (h : a.Advances w b) : Takes ⟨n, a⟩ w ⟨n, b⟩
  /-- It completes a move. -/
  | move {n : Nest} (d : Direction) :
    Takes ⟨n, .direction⟩ d.keyword ⟨n.append (.move d), .statement⟩
  /-- It opens the block of the header before it. -/
  | enter {n : Nest} (h : Header) : Takes ⟨n, .brace h⟩ "\x7b" ⟨n.enter h, .statement⟩
  /-- It closes a block. -/
  | leave {n m : Nest} {h : Header} (hm : n.leave? = some (h, m)) :
    Takes ⟨n, .statement⟩ "\x7d" ⟨m, .statement⟩
  /-- It is the empty statement. -/
  | empty {n : Nest} : Takes ⟨n, .statement⟩ ";" ⟨n, .statement⟩

variable {r next : Reading} {ws : List String} {w : String}

theorem takes_of_takeKeyword {n : Nest} (h : takeKeyword ⟨n, .statement⟩ w = .ok next) :
    Takes ⟨n, .statement⟩ w next := by
  unfold takeKeyword at h
  split at h
  next hw =>
    subst hw
    cases hleave : n.leave? with
    | none => simp [hleave] at h
    | some left =>
      simp only [hleave, Except.ok.injEq] at h
      subst h
      exact .leave hleave
  split at h
  next hw => cases h; exact hw ▸ .empty
  split at h
  next hw => cases h; exact hw ▸ .advance .move
  split at h
  next hw => cases h; exact hw ▸ .advance .loop
  split at h
  next hw => cases h; exact hw ▸ .advance .condition
  cases h

theorem takes_of_takeInteger {n : Nest} {a : Awaiting} {header : UInt32 → Header}
    (h : takeInteger ⟨n, a⟩ w header = .ok next)
    (ha : ∀ k, Text.IsInt64 w k → a.Advances w (.brace (header (clampCount k)))) :
    Takes ⟨n, a⟩ w next := by
  unfold takeInteger at h
  split at h
  next k hk =>
    cases h
    exact .advance (ha k (Text.readInt64?_eq_some_iff.mp hk))
  cases h

theorem takes_of_takeWord {n : Nest} {a b : Awaiting} {expected : String}
    (h : takeWord ⟨n, a⟩ expected w b = .ok next) (ha : a.Advances expected b) :
    Takes ⟨n, a⟩ w next := by
  unfold takeWord at h
  split at h
  next hw =>
    cases h
    exact hw ▸ .advance ha
  cases h

/-- A word is taken exactly if it can do something. -/
theorem take_eq_ok_iff : r.take w = .ok next ↔ Takes r w next := by
  constructor
  · obtain ⟨n, a⟩ := r
    intro h
    cases a with
    | statement => exact takes_of_takeKeyword h
    | direction =>
      simp only [take, takeDirection] at h
      split at h
      next d hd =>
        cases h
        exact Direction.ofKeyword?_eq_some_iff.mp hd ▸ .move d
      cases h
    | count => exact takes_of_takeInteger h fun k hk => .count hk
    | subject => exact takes_of_takeWord h .subject
    | comparison => exact takes_of_takeWord h .comparison
    | threshold => exact takes_of_takeInteger h fun k hk => .threshold hk
    | brace header =>
      simp only [take] at h
      split at h
      next hw =>
        cases h
        exact hw ▸ .enter header
      cases h
  · intro h
    cases h with
    | advance ha =>
      cases ha with
      | count hk | threshold hk => simp [take, takeInteger, Text.readInt64?_eq_some_iff.mpr hk]
      | _ => rfl
    | move d => simp [take, takeDirection, Direction.ofKeyword?_eq_some_iff.mpr rfl]
    | leave hm => simp [take, takeKeyword, hm]
    | enter | empty => rfl

/-- The words that lead to a reading. -/
inductive Reads : Reading → List String → Prop
  /-- Those that lead to the nest, and those of the statement begun. -/
  | intro {r : Reading} {us vs : List String} (nest : r.nest.Reads us)
    (begun : r.awaiting.Begun vs) : Reads r (us ++ vs)

theorem reads_start : Reads start [] :=
  show Reads start ([] ++ []) from .intro .empty .statement

/-- Words that lead to a reading with no statement begun lead to its nest. -/
theorem reads_statement_iff {n : Nest} : Reads ⟨n, .statement⟩ ws ↔ n.Reads ws := by
  constructor
  · rintro ⟨hn, ⟨⟩⟩
    simpa only [List.append_nil] using hn
  · intro hn
    simpa only [List.append_nil] using Reads.intro (r := ⟨n, .statement⟩) hn .statement

/-- Every word taken leads on. -/
theorem Reads.take (h : r.Reads ws) (hw : r.take w = .ok next) : next.Reads (ws ++ [w]) := by
  cases take_eq_ok_iff.mp hw with
  | advance ha =>
    obtain ⟨hn, hbegun⟩ := h
    rw [List.append_assoc]
    exact .intro hn (hbegun.advance ha)
  | move d =>
    obtain ⟨hn, ⟨⟩⟩ := h
    rw [reads_statement_iff, List.append_assoc]
    exact hn.statement (.move d)
  | enter header =>
    obtain ⟨hn, hbegun⟩ := h
    cases hbegun with
    | brace hheader => exact reads_statement_iff.mpr (hn.enter hheader)
  | leave hm => exact reads_statement_iff.mpr ((reads_statement_iff.mp h).leave hm)
  | empty => exact reads_statement_iff.mpr ((reads_statement_iff.mp h).statement .empty)

/-- Takes words up to the first that cannot be taken. -/
def takeAll (r : Reading) : List String → Except SyntaxFault Reading
  | [] => .ok r
  | w :: ws =>
    match r.take w with
    | .ok next => next.takeAll ws
    | .error f => .error f

@[simp] theorem takeAll_nil : r.takeAll [] = .ok r := rfl

theorem takeAll_cons (h : r.take w = .ok next) : r.takeAll (w :: ws) = next.takeAll ws := by
  rw [takeAll, h]

/-- A word that can do something does it first. -/
theorem Takes.takeAll_cons (h : Takes r w next) (ws : List String) :
    r.takeAll (w :: ws) = next.takeAll ws :=
  Reading.takeAll_cons (take_eq_ok_iff.mpr h)

theorem takeAll_append {us : List String} (h : r.takeAll us = .ok next) :
    r.takeAll (us ++ ws) = next.takeAll ws := by
  induction us generalizing r with
  | nil =>
    cases h
    rfl
  | cons u us ih =>
    rw [takeAll] at h
    rw [List.cons_append, takeAll]
    split at h
    · exact ih h
    · cases h

/-- Words that are all taken are passed over. -/
theorem readFrom_append {us : List String} (h : r.takeAll us = .ok next) (index : Nat)
    (ws : List String) : r.readFrom index (us ++ ws) = next.readFrom (index + us.length) ws := by
  induction us generalizing r index with
  | nil =>
    cases h
    rfl
  | cons u us ih =>
    rw [takeAll] at h
    rw [List.cons_append, readFrom]
    cases hu : r.take u with
    | error f =>
      rw [hu] at h
      cases h
    | ok middle =>
      rw [hu] at h
      dsimp only at h ⊢
      rw [ih h, List.length_cons, Nat.add_assoc, Nat.add_comm 1]

/-- All words taken lead on. -/
theorem Reads.takeAll {us : List String} (h : r.Reads us) (hw : r.takeAll ws = .ok next) :
    next.Reads (us ++ ws) := by
  induction ws generalizing r us with
  | nil =>
    cases hw
    simpa only [List.append_nil] using h
  | cons w ws ih =>
    rw [Reading.takeAll] at hw
    split at hw
    next middle hmiddle =>
      simpa only [List.append_assoc, List.singleton_append] using ih (h.take hmiddle) hw
    cases hw

/-- Either all words are taken or there is a first that cannot be. -/
theorem takeAll_cases (r : Reading) (ws : List String) :
    (∃ next, r.takeAll ws = .ok next) ∨
    (∃ us w vs next f, ws = us ++ w :: vs ∧ r.takeAll us = .ok next ∧ next.take w = .error f) := by
  induction ws generalizing r with
  | nil => exact .inl ⟨r, rfl⟩
  | cons w ws ih =>
    cases hw : r.take w with
    | error f => exact .inr ⟨[], w, ws, r, f, rfl, rfl, hw⟩
    | ok middle =>
      rcases ih middle with ⟨next, hall⟩ | ⟨us, v, vs, next, f, rfl, hall, hv⟩
      · exact .inl ⟨next, (takeAll_cons hw).trans hall⟩
      · exact .inr ⟨w :: us, v, vs, next, f, rfl, (takeAll_cons hw).trans hall, hv⟩

/-- Reading on either takes all words and then asks whether they are enough, or stops at the first
word that cannot be taken. -/
theorem readFrom_cases (r : Reading) (index : Nat) (ws : List String) :
    (∃ next, r.takeAll ws = .ok next ∧
      r.readFrom index ws = next.finish.mapError (fun f => ⟨index + ws.length, f⟩)) ∨
    (∃ us w vs next f, ws = us ++ w :: vs ∧ r.takeAll us = .ok next ∧ next.take w = .error f ∧
      r.readFrom index ws = .error ⟨index + us.length, f⟩) := by
  rcases takeAll_cases r ws with ⟨next, hall⟩ | ⟨us, w, vs, next, f, rfl, hall, hw⟩
  · have hread := readFrom_append hall index []
    rw [List.append_nil] at hread
    exact .inl ⟨next, hall, hread⟩
  · have hread := readFrom_append hall index (w :: vs)
    rw [readFrom, hw] at hread
    exact .inr ⟨us, w, vs, next, f, rfl, hall, hw, hread⟩

/-- A reading is finished exactly if no statement is begun and no block open. -/
theorem finish_eq_ok_iff {p : Program} :
    r.finish = .ok p ↔ r.awaiting = .statement ∧ r.nest.finished? = some p := by
  obtain ⟨n, a⟩ := r
  cases a with
  | statement => cases h : n.finished? <;> simp [finish, h]
  | _ => simp [finish]

/-- Reading succeeds exactly if all words are taken and enough. -/
theorem readFrom_eq_ok_iff {index : Nat} {p : Program} :
    r.readFrom index ws = .ok p ↔ ∃ next, r.takeAll ws = .ok next ∧ next.finish = .ok p := by
  rcases readFrom_cases r index ws with
    ⟨next, hall, hread⟩ | ⟨us, w, vs, next, f, rfl, hall, hw, hread⟩
  · have hmap {g : SyntaxFault → SyntaxError} :
        next.finish.mapError g = .ok p ↔ next.finish = .ok p := by
      cases next.finish with
      | error f => exact ⟨nofun, nofun⟩
      | ok q =>
        constructor <;> intro h <;> cases h <;> rfl
    rw [hread, hall, hmap]
    simp
  · rw [hread, takeAll_append hall, takeAll, hw]
    simp

end Reading

/-- The reader takes the words of a header. -/
theorem IsHeader.takeAll {hs : List String} {h : Header} (hh : IsHeader hs h) (n : Nest) :
    Reading.takeAll ⟨n, .statement⟩ hs = .ok ⟨n, .brace h⟩ := by
  have hstep {a b : Awaiting} {w : String} (hw : a.Advances w b) (ws : List String) :
      Reading.takeAll ⟨n, a⟩ (w :: ws) = Reading.takeAll ⟨n, b⟩ ws :=
    (Reading.Takes.advance hw).takeAll_cons ws
  cases hh with
  | times hk => rw [hstep .loop, hstep (.count hk), Reading.takeAll_nil]
  | atLeast hk =>
    rw [hstep .condition, hstep .subject, hstep .comparison, hstep (.threshold hk),
      Reading.takeAll_nil]

/-- A header and its brace open a block. -/
theorem IsHeader.takeAll_brace {hs : List String} {h : Header} (hh : IsHeader hs h) (n : Nest) :
    Reading.takeAll ⟨n, .statement⟩ (hs ++ ["\x7b"]) = .ok ⟨n.enter h, .statement⟩ := by
  rw [Reading.takeAll_append (hh.takeAll n), (Reading.Takes.enter h).takeAll_cons,
    Reading.takeAll_nil]

mutual

/-- The reader takes the words of a program and appends it. -/
theorem IsProgram.takeAll {ws : List String} {p : Program} :
    IsProgram ws p → ∀ n : Nest,
      Reading.takeAll ⟨n, .statement⟩ ws = .ok ⟨n.extend p, .statement⟩
  | .nil, n => rfl
  | .cons first rest, n => by
    rw [Reading.takeAll_append (first.takeAll n), rest.takeAll, Nest.extend_append]

/-- The reader takes the words of a statement and appends its instructions. -/
theorem IsStatement.takeAll {ws : List String} {is : Program} :
    IsStatement ws is → ∀ n : Nest,
      Reading.takeAll ⟨n, .statement⟩ ws = .ok ⟨n.extend is, .statement⟩
  | .move d, n => by
    rw [(Reading.Takes.advance .move).takeAll_cons, (Reading.Takes.move d).takeAll_cons,
      Reading.takeAll_nil, Nest.extend_singleton]
  | .block (h := h) (p := p) header body, n => by
    have hleave := Reading.Takes.leave (n.leave?_extend_enter h p)
    rw [List.append_assoc, Reading.takeAll_append (header.takeAll_brace n),
      Reading.takeAll_append (body.takeAll _), hleave.takeAll_cons, Reading.takeAll_nil,
      Nest.extend_singleton]
  | .empty, n => by
    rw [Reading.Takes.empty.takeAll_cons, Reading.takeAll_nil, Nest.extend_nil]

end

/-- The rows of words that the reader accepts are the programs of the grammar. -/
theorem parseWords_eq_ok_iff {ws : List String} {p : Program} :
    parseWords ws = .ok p ↔ IsProgram ws p := by
  rw [parseWords, Reading.readFrom_eq_ok_iff]
  constructor
  · rintro ⟨next, hall, hfinish⟩
    obtain ⟨n, a⟩ := next
    obtain ⟨rfl, hp⟩ := Reading.finish_eq_ok_iff.mp hfinish
    have hreads := Reading.reads_start.takeAll hall
    rw [List.nil_append, Reading.reads_statement_iff] at hreads
    exact hreads.finished hp
  · intro h
    refine ⟨_, h.takeAll .empty, Reading.finish_eq_ok_iff.mpr ⟨rfl, ?_⟩⟩
    simp [Nest.finished?, Nest.extend, Nest.empty]

/-- A text is read as a program exactly if its words are derived by the grammar, and the tree is
that of the derivation. -/
theorem parse_eq_ok_iff (text : String) (p : Program) :
    parse text = .ok p ↔ IsProgram ((tokenize text).map Token.text) p :=
  parseWords_eq_ok_iff

end Labyrinth.Language
