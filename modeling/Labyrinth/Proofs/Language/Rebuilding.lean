import Labyrinth.Proofs.Instruction.Pruning
import Labyrinth.Proofs.Language.Building
import Labyrinth.Proofs.Language.Grammar

/-!
# Building what was taken apart

The tokens of a program are all taken as long as no function begins inside a function;
`Builder.fares` follows the tree and says that the builder gets to the end of a program or stops at
such a beginning. The other way round, every token taken is the next token of the program being
built, apart from counts out of range (`Builder.tokens_of_pushAll`), so nothing is lost, doubled or
moved.
-/

namespace Labyrinth

namespace Program

/-- A function stands in the program. -/
def HasFunction (p : Program) : Prop := ∃ body, (Instruction.block .function body).OccursIn p

/-- A function stands in the program with a function inside it, directly or inside other blocks. -/
def NestsFunctions (p : Program) : Prop :=
  ∃ body, (Instruction.block .function body).OccursIn p ∧ HasFunction body

/-- A function begins inside a function: one in the program, or one that the whole program stands
inside. -/
def Clashes (inside : Prop) (p : Program) : Prop := p.NestsFunctions ∨ inside ∧ p.HasFunction

variable {inside : Prop} {i : Instruction} {header : Header} {body rest : Program}

theorem not_clashes_nil : ¬ Clashes inside [] := by
  rintro (⟨_, h, -⟩ | ⟨-, _, h⟩) <;> exact Instruction.not_occursIn_nil h

theorem hasFunction_block :
    HasFunction (.block header body :: rest) ↔
      header = .function ∨ HasFunction body ∨ HasFunction rest := by
  simp only [HasFunction, Instruction.occursIn_block, Instruction.block.injEq, exists_or]
  refine or_congr ⟨?_, ?_⟩ Iff.rfl
  · rintro ⟨_, h, -⟩
    exact h.symm
  · rintro rfl
    exact ⟨body, rfl, rfl⟩

theorem nestsFunctions_block :
    NestsFunctions (.block header body :: rest) ↔
      (header = .function ∧ HasFunction body) ∨ NestsFunctions body ∨ NestsFunctions rest := by
  simp only [NestsFunctions, Instruction.occursIn_block, Instruction.block.injEq, or_and_right,
    exists_or]
  refine or_congr ⟨?_, ?_⟩ Iff.rfl
  · rintro ⟨_, ⟨h, rfl⟩, hbody⟩
    exact ⟨h.symm, hbody⟩
  · rintro ⟨rfl, hbody⟩
    exact ⟨body, ⟨rfl, rfl⟩, hbody⟩

/-- A block begins a function inside a function, or its body does, or what follows. -/
theorem clashes_block :
    Clashes inside (.block header body :: rest) ↔
      (inside ∧ header = .function) ∨ Clashes (header = .function ∨ inside) body ∨
        Clashes inside rest := by
  simp only [Clashes, hasFunction_block, nestsFunctions_block]
  grind

/-- An instruction that is no block begins no function. -/
theorem clashes_cons (hi : i.body? = none) : Clashes inside (i :: rest) ↔ Clashes inside rest := by
  have hne (body : Program) : Instruction.block .function body ≠ i := by
    rintro rfl
    cases hi
  simp only [Clashes, NestsFunctions, HasFunction, Instruction.occursIn_cons hi, hne, false_or]

end Program

namespace Language

open Instruction (isNoop)

/-! ## The tokens of a program -/

/-- The tokens of a program are followed by those that come after it. -/
theorem programBlocks_eq (p : Program) (ts : List BlockToken) :
    programBlocks p ts = blocks p ++ ts := by
  induction p using Instruction.programInduction generalizing ts with
  | nil => rfl
  | block h body rest ihBody ih =>
    simp only [blocks, programBlocks, instructionBlocks]
    simp only [ih, ihBody, List.cons_append, List.append_assoc, List.append_nil]
  | move d rest ih =>
    simp only [blocks, programBlocks, instructionBlocks]
    simp only [ih, List.cons_append, List.append_nil]
  | call rest ih =>
    simp only [blocks, programBlocks, instructionBlocks]
    simp only [ih, List.cons_append, List.append_nil]
  | noop rest ih => exact ih ts

@[simp] theorem blocks_nil : blocks [] = [] := rfl

/-- The tokens of a block stand around those of its body. -/
theorem blocks_block (h : Header) (body rest : Program) :
    blocks (.block h body :: rest) =
      (delimiters h).1 :: (blocks body ++ (delimiters h).2 :: blocks rest) := by
  rw [blocks, programBlocks, instructionBlocks, programBlocks_eq body]
  rfl

/-- The tokens of programs one after the other. -/
theorem blocks_append (p q : Program) : blocks (p ++ q) = blocks p ++ blocks q := by
  have happend (ts : List BlockToken) :
      programBlocks (p ++ q) ts = programBlocks p (programBlocks q ts) := by
    induction p with
    | nil => rfl
    | cons i p ih => rw [List.cons_append, programBlocks, programBlocks, ih]
  rw [blocks, happend, programBlocks_eq, ← blocks]

namespace Builder

variable {b next : Builder} {ts us : List BlockToken} {h : Header} {n : Nest}

/-- A token that opens an ordinary block is taken. -/
theorem takes_opener {o : Opener} (e : (delimiters h).1 = .opener o) :
    b.Takes (delimiters h).1 (b.nest.enter h) := by
  rw [e, ← header_of_delimiters e]
  exact .opener o

/-- The token that opens a block is taken, unless it begins a function inside a function. -/
theorem takes_begin (hb : h = .function → b.inFunction = false) :
    b.Takes (delimiters h).1 (b.nest.enter h) := by
  cases h with
  | function => exact .functionStart (hb rfl)
  | times | atLeast | untilGoal | whileHolding => exact takes_opener rfl

/-- The token that closes a block is taken where the block is the innermost one. -/
theorem takes_end (hn : b.nest.leave? = some (h, n)) : b.Takes (delimiters h).2 n := by
  cases h with
  | function => exact .functionEnd hn
  | times | atLeast | untilGoal | whileHolding => exact .close hn nofun

/-- The builder takes some of the tokens, and then comes to the beginning of a function inside a
function. -/
def Stops (b : Builder) (ts : List BlockToken) : Prop :=
  ∃ us vs next, ts = us ++ .functionStart :: vs ∧ b.pushAll us = .ok next ∧
    next.inFunction = true

theorem Stops.of_pushAll (hs : next.Stops ts) (h : b.pushAll us = .ok next) :
    b.Stops (us ++ ts) := by
  obtain ⟨vs, ws, last, rfl, hvs, hlast⟩ := hs
  refine ⟨us ++ vs, ws, last, (List.append_assoc ..).symm, ?_, hlast⟩
  rw [pushAll_append h, hvs]

theorem Stops.append (hs : b.Stops ts) (us : List BlockToken) : b.Stops (ts ++ us) := by
  obtain ⟨vs, ws, last, rfl, hvs, hlast⟩ := hs
  exact ⟨vs, ws ++ us, last, List.append_assoc .., hvs, hlast⟩

/-- How a builder fares with the tokens of a program. -/
inductive Fares (b : Builder) (p : Program) : Prop
  /-- It takes them all and appends the program without the instructions that have no token. -/
  | through {k : Nat} (hp : ¬ p.Clashes (b.inFunction = true))
    (h : b.pushAll (blocks p) = .ok ⟨b.nest.extend (p.without isNoop), k⟩)
  /-- A function begins inside a function, and there it stops. -/
  | stops (hp : p.Clashes (b.inFunction = true)) (h : b.Stops (blocks p))

/-- A first instruction whose tokens are all taken is followed by the rest of the program. -/
theorem Fares.cons {i : Instruction} {rest : Program} {k : Nat} (ts : List BlockToken)
    (hblocks : blocks (i :: rest) = ts ++ blocks rest)
    (hts : b.pushAll ts = .ok ⟨b.nest.extend (Program.without isNoop [i]), k⟩)
    (hclashes : Program.Clashes (b.inFunction = true) (i :: rest) ↔
      Program.Clashes (b.inFunction = true) rest)
    (ih : ∀ b : Builder, b.Fares rest) : b.Fares (i :: rest) := by
  cases ih ⟨b.nest.extend (Program.without isNoop [i]), k⟩ with
  | @through k' hp hrest =>
    refine .through (k := k') (mt hclashes.mp hp) ?_
    rw [hblocks, pushAll_append hts, hrest, ← Nest.extend_append, ← Program.without_append]
    rfl
  | stops hp hs => exact .stops (hclashes.mpr hp) (hblocks ▸ hs.of_pushAll hts)

/-- The builder takes the tokens of a program up to the first that begins a function inside a
function. -/
theorem fares (p : Program) (b : Builder) : b.Fares p := by
  induction p using Instruction.programInduction generalizing b with
  | nil => exact .through Program.not_clashes_nil rfl
  | move d rest ih =>
    exact .cons [.move d] rfl ((Takes.move d).pushAll_cons []) (Program.clashes_cons rfl) ih
  | call rest ih =>
    exact .cons [.call] rfl (Takes.call.pushAll_cons []) (Program.clashes_cons rfl) ih
  | noop rest ih => exact .cons [] rfl rfl (Program.clashes_cons rfl) ih
  | block h body rest ihBody ih =>
    by_cases hnested : h = .function ∧ b.inFunction = true
    · refine .stops (Program.clashes_block.mpr (.inl hnested.symm)) ?_
      rw [blocks_block, hnested.1]
      exact ⟨[], _, b, rfl, rfl, hnested.2⟩
    have hbegin : b.Takes (delimiters h).1 (b.nest.enter h) :=
      takes_begin fun hh => by simpa [hh] using hnested
    -- The body of a function stands inside one, whether the builder did or not.
    have hinside : (b.accept (b.nest.enter h)).inFunction = true ↔
        h = .function ∨ b.inFunction = true := by
      simp [inFunction, accept, Nest.enter]
    cases ihBody (b.accept (b.nest.enter h)) with
    | stops hp hs =>
      rw [hinside] at hp
      refine .stops (Program.clashes_block.mpr (.inr (.inl hp))) ?_
      rw [blocks_block]
      exact (hs.append _).of_pushAll (hbegin.pushAll_cons [])
    | @through k hp hbody =>
      rw [hinside] at hp
      have hend := takes_end (b := ⟨_, k⟩)
        (b.nest.leave?_extend_enter h (body.without isNoop))
      have hfirst : ¬ (b.inFunction = true ∧ h = .function) := fun hb => hnested hb.symm
      refine .cons (k := k + 1) ((delimiters h).1 :: (blocks body ++ [(delimiters h).2]))
        ?_ ?_ ?_ ih
      · rw [blocks_block]
        simp
      · rw [hbegin.pushAll_cons, pushAll_append hbody]
        exact hend.pushAll_cons []
      · rw [Program.clashes_block, or_iff_right hfirst, or_iff_right hp]

/-- A program is finished exactly if its nest is. -/
theorem finish_eq_ok_iff {p : Program} : b.finish = .ok p ↔ b.nest.finished? = some p := by
  obtain ⟨⟨body, layers⟩, k⟩ := b
  cases layers with
  | nil => simp [finish, openBlocks, Nest.finished?]
  | cons l ls =>
    simp only [finish, Nest.finished?, reduceCtorEq, iff_false]
    split <;> simp

/-- The program built from tokens that are all taken is that of the nest. -/
theorem build_of_pushAll {b : Builder} {ts : List BlockToken} (h : empty.pushAll ts = .ok b) :
    build ts = b.finish := by
  rw [build, h]

end Builder

/-- The token number `k` begins a function, and a function that began before it has not ended. -/
structure NestsAt (ts : List BlockToken) (k : Nat) : Prop where
  /-- A function begins. -/
  start : ts[k]? = some .functionStart
  /-- More functions have begun before than ended. -/
  inside : (ts.take k).count .functionEnd < (ts.take k).count .functionStart

/-- The token number `k` is the first that begins a function inside a function. -/
structure FirstNestsAt (ts : List BlockToken) (k : Nat) : Prop where
  /-- It does. -/
  nests : NestsAt ts k
  /-- None before it does. -/
  first : ∀ j < k, ¬ NestsAt ts j

/-- Where a builder stops is the first beginning of a function inside a function. -/
theorem Builder.Stops.exists_first {ts : List BlockToken} (h : Builder.empty.Stops ts) :
    ∃ k, build ts = .error (.nestedFunction k) ∧ FirstNestsAt ts k := by
  obtain ⟨us, vs, b, rfl, hus, hopen⟩ := h
  refine ⟨us.length, ?_, ⟨by simp, ?_⟩, ?_⟩
  · have hcount := Builder.accepted_of_pushAll hus
    rw [build, Builder.pushAll_append hus, Builder.pushAll, Builder.push, if_pos hopen, hcount]
    simp [Builder.empty]
  · rw [List.take_left]
    exact (Builder.inFunction_iff_of_pushAll hus).mp hopen
  · -- An earlier one would have been refused, but the tokens before `us.length` were all taken.
    rintro j hj ⟨hstart, hinside⟩
    rw [List.getElem?_append_left hj, List.getElem?_eq_getElem hj, Option.some.injEq] at hstart
    rw [List.take_append_of_le_length (Nat.le_of_lt hj)] at hinside
    rw [← List.take_append_drop j us, List.drop_eq_getElem_cons hj, hstart] at hus
    obtain ⟨middle, n, hmiddle, htakes⟩ := Builder.exists_takes_of_pushAll hus
    rw [← Builder.inFunction_iff_of_pushAll hmiddle] at hinside
    cases htakes with
    | functionStart hclosed =>
      rw [hclosed] at hinside
      cases hinside

/-- The tokens of a program without nested functions build the program without the instructions
that have no token. -/
theorem build_blocks_of_not_nests {p : Program} (h : ¬ p.NestsFunctions) :
    build (blocks p) = .ok (p.without isNoop) := by
  have hclashes : ¬ p.Clashes (Builder.empty.inFunction = true) := by
    rintro (hp | ⟨hopen, -⟩)
    · exact h hp
    · cases hopen
  cases Builder.fares p .empty with
  | through _ hall =>
    rw [Builder.build_of_pushAll hall, Builder.finish_eq_ok_iff]
    simp [Nest.finished?, Nest.extend, Builder.empty, Nest.empty]
  | stops hp => exact absurd hp hclashes

/-- The tokens of a program with nested functions are refused at the first function in a
function. -/
theorem exists_build_blocks_eq_error {p : Program} (h : p.NestsFunctions) :
    ∃ k, build (blocks p) = .error (.nestedFunction k) ∧ FirstNestsAt (blocks p) k := by
  cases Builder.fares p .empty with
  | through hp => exact absurd (.inl h) hp
  | stops _ hs => exact hs.exists_first

/-- A program is built again from its tokens, without the instructions that have none, unless a
function in it has another inside it; then the builder refuses the token that begins the first
such function. -/
theorem build_blocks (p : Program) :
    (¬ p.NestsFunctions ∧ build (blocks p) = .ok (p.without isNoop)) ∨
    (p.NestsFunctions ∧
      ∃ k, build (blocks p) = .error (.nestedFunction k) ∧ FirstNestsAt (blocks p) k) := by
  by_cases h : p.NestsFunctions
  · exact .inr ⟨h, exists_build_blocks_eq_error h⟩
  · exact .inl ⟨h, build_blocks_of_not_nests h⟩

example : build (blocks [.call, .block .function [.block .untilGoal [.block .function []]]]) =
    .error (.nestedFunction 3) := rfl

/-! ## The tokens that built a program -/

/-- The opener with its count brought into range. -/
def Opener.clamped : Opener → Opener
  | times n => times (clampCount n).toNat
  | atLeast n => atLeast (clampCount n).toNat
  | untilGoal => untilGoal
  | whileHolding => whileHolding

/-- The token with its count, if it has one, brought into range. -/
def BlockToken.clamped : BlockToken → BlockToken
  | opener o => opener o.clamped
  | move d => move d
  | close => close
  | functionStart => functionStart
  | functionEnd => functionEnd
  | call => call

/-- A count and the count brought into range give the same block. -/
theorem Opener.header_clamped (o : Opener) : o.clamped.header = o.header := by
  cases o <;> simp [clamped, header, clampCount_of_toNat]

/-- The block that an opener begins is written with its count in range. -/
theorem delimiters_header (o : Opener) :
    delimiters o.header = (.opener o.clamped, .close) := by
  cases o <;> rfl

namespace Nest

variable {n m : Nest} {h : Header}

/-- The tokens that lead into the innermost of some open blocks. -/
def opening : List Layer → List BlockToken
  | [] => []
  | l :: ls => opening ls ++ (blocks l.before.reverse ++ [(delimiters l.header).1])

/-- The tokens that lead to a nest, with counts in range. -/
def tokens (n : Nest) : List BlockToken := opening n.layers ++ blocks n.body.reverse

theorem tokens_append (n : Nest) (i : Instruction) :
    (n.append i).tokens = n.tokens ++ blocks [i] := by
  simp [tokens, append, blocks_append]

theorem tokens_enter (n : Nest) (h : Header) :
    (n.enter h).tokens = n.tokens ++ [(delimiters h).1] := by
  simp [tokens, enter, opening]

theorem tokens_leave? (e : n.leave? = some (h, m)) : m.tokens = n.tokens ++ [(delimiters h).2] := by
  obtain ⟨l, ls, hl, rfl, rfl⟩ := leave?_inv e
  simp [tokens, hl, opening, blocks_append, blocks_block]

theorem tokens_finished? {p : Program} (e : n.finished? = some p) : n.tokens = blocks p := by
  obtain ⟨body, layers⟩ := n
  cases layers with
  | nil =>
    cases e
    rfl
  | cons l ls => cases e

end Nest

namespace Builder

variable {b : Builder} {t : BlockToken} {ts : List BlockToken} {n : Nest}

/-- A token taken is the next of those that lead to the nest. -/
theorem Takes.tokens (h : b.Takes t n) : n.tokens = b.nest.tokens ++ [t.clamped] := by
  cases h with
  | move d => exact Nest.tokens_append _ _
  | call => exact Nest.tokens_append _ _
  | opener o =>
    rw [Nest.tokens_enter, delimiters_header]
    rfl
  | close hn hh =>
    rw [Nest.tokens_leave? hn]
    rename_i h
    cases h with
    | function => exact absurd rfl hh
    | times | atLeast | untilGoal | whileHolding => rfl
  | functionStart => exact Nest.tokens_enter _ _
  | functionEnd hn => exact Nest.tokens_leave? hn

/-- The tokens taken, with counts in range, are those that lead to the nest. -/
theorem tokens_of_pushAll (h : empty.pushAll ts = .ok b) :
    b.nest.tokens = ts.map BlockToken.clamped := by
  refine pushAll_induction (motive := fun ts b => b.nest.tokens = ts.map BlockToken.clamped)
    rfl ?_ h
  intro ts b t n hb hn
  rw [List.map_append, ← hb]
  exact hn.tokens

/-- A token does what it does with its count in range. -/
theorem push_clamped (b : Builder) (t : BlockToken) : b.push t.clamped = b.push t := by
  cases t with
  | opener o => rw [BlockToken.clamped, push, push, o.header_clamped]
  | move | close | functionStart | functionEnd | call => rfl

theorem pushAll_clamped (b : Builder) (ts : List BlockToken) :
    b.pushAll (ts.map BlockToken.clamped) = b.pushAll ts := by
  induction ts generalizing b with
  | nil => rfl
  | cons t ts ih => simp only [List.map_cons, pushAll, push_clamped, ih]

end Builder

/-- Tokens build what they build with counts in range. -/
theorem build_clamped (ts : List BlockToken) : build (ts.map BlockToken.clamped) = build ts := by
  rw [build, build, Builder.pushAll_clamped]

/-- A row of tokens that builds a program has just the tokens of the program, apart from counts out
of range. -/
theorem blocks_of_build {ts : List BlockToken} {p : Program} (h : build ts = .ok p) :
    blocks p = ts.map BlockToken.clamped := by
  rw [build] at h
  split at h
  next b hb =>
    rw [← Builder.tokens_of_pushAll hb,
      Nest.tokens_finished? (Builder.finish_eq_ok_iff.mp h)]
  · cases h

/-- A row of tokens builds a program exactly if they are the tokens of the program, apart from
counts out of range, and the program can be built at all: it has no instruction without a token, and
no function inside a function. So the rows that build one program are those that differ in nothing
but counts brought into range alike. -/
theorem build_eq_ok_iff_blocks (ts : List BlockToken) (p : Program) :
    (build ts = .ok p ↔
      blocks p = ts.map BlockToken.clamped ∧ p.Free isNoop ∧ ¬ p.NestsFunctions) ∧
    ∀ us, build ts = .ok p →
      (build us = .ok p ↔ us.map BlockToken.clamped = ts.map BlockToken.clamped) := by
  refine ⟨⟨fun h => ?_, ?_⟩, fun us h => ⟨fun hus => ?_, fun hmap => ?_⟩⟩
  · have hblocks := blocks_of_build h
    have hagain : build (blocks p) = .ok p := by rw [hblocks, build_clamped, h]
    have hnests : ¬ p.NestsFunctions := by
      intro hp
      obtain ⟨k, hk, -⟩ := exists_build_blocks_eq_error hp
      rw [hagain] at hk
      cases hk
    rw [build_blocks_of_not_nests hnests, Except.ok.injEq, Program.without_eq_self_iff] at hagain
    exact ⟨hblocks, hagain, hnests⟩
  · rintro ⟨hblocks, hfree, hnests⟩
    rw [← build_clamped, ← hblocks, build_blocks_of_not_nests hnests,
      Program.without_eq_self_iff.mpr hfree]
  · rw [← blocks_of_build hus, blocks_of_build h]
  · rw [← build_clamped, hmap, build_clamped, h]

/-- A loop with a count below zero and one with the count zero build the same program. -/
theorem build_negative_count :
    build [.opener (.times (-3)), .move .up, .close] = .ok [.block (.times 0) [.move .up]] ∧
    (build [.opener (.times 0), .move .up, .close] = .ok [.block (.times 0) [.move .up]] ↔
      [BlockToken.opener (.times 0), .move .up, .close].map BlockToken.clamped =
        [BlockToken.opener (.times (-3)), .move .up, .close].map BlockToken.clamped) :=
  ⟨rfl, (build_eq_ok_iff_blocks _ _).2 _ rfl⟩

end Language

end Labyrinth
