import Labyrinth.Language.Block
import Labyrinth.Proofs.Language.Viability
import Labyrinth.Proofs.Language.Words

/-!
# Blocks and text agree

Moves, loops, conditions and ends are blocks with a written form. The builder and the reader
keep the same nest: what one block does to the builder, its words do to the reader, as long as
no function is open. So a row of such blocks and its text give the same tree, or both fail: at
an end without a block, or after the last block, with blocks left open.
-/

namespace Labyrinth.Language

/-- A block token with a written form. -/
inductive WrittenBlock where
  /-- A move. -/
  | move (direction : Direction)
  /-- The beginning of a loop. -/
  | times (count : Int64)
  /-- The beginning of a condition. -/
  | atLeast (threshold : Int64)
  /-- The end of a block. -/
  | close
  deriving DecidableEq, Repr

namespace WrittenBlock

/-- The token in the block editor. -/
def token : WrittenBlock → BlockToken
  | move d => .move d
  | times n => .opener (.times n.toInt)
  | atLeast n => .opener (.atLeast n.toInt)
  | close => .close

/-- The words of the written form. -/
def words : WrittenBlock → List String
  | move d => ["move", d.keyword]
  | times n => ["repeat", toString n.toInt, "\x7b"]
  | atLeast n => ["if", "strawberries", ">=", toString n.toInt, "\x7b"]
  | close => ["\x7d"]

/-- The written form: the words with a space between each two. -/
def text (t : WrittenBlock) : String := String.intercalate " " t.words

end WrittenBlock

/-- The text of a row of blocks: their written forms with a space between each two. -/
def written (ts : List WrittenBlock) : String := String.intercalate " " (ts.map WrittenBlock.text)

example : written [.times (-3), .move .up, .close] = "repeat -3 \x7b move up \x7d" := by
  decide +kernel

/-- The words of a row of blocks. -/
def writtenWords (ts : List WrittenBlock) : List String := ts.flatMap WrittenBlock.words

/-- Every word of a written form is cut into itself. -/
theorem WrittenBlock.split_word (t : WrittenBlock) :
    ∀ w ∈ t.words, split w.toList = [w.toList] := by
  have hplain : ∀ w ∈ ["move", "up", "down", "left", "right", "repeat", "if", "strawberries", ">=",
      "\x7b", "\x7d"], split w.toList = [w.toList] := by
    decide +kernel
  simp only [List.forall_mem_cons] at hplain
  obtain ⟨hmove, hup, hdown, hleft, hright, hrepeat, hif, hsubject, hge, hopen, hclose, hnil⟩ :=
    hplain
  cases t with
  | move d =>
    refine List.forall_mem_cons.mpr ⟨hmove, List.forall_mem_cons.mpr ⟨?_, hnil⟩⟩
    cases d with
    | up => exact hup
    | down => exact hdown
    | left => exact hleft
    | right => exact hright
  | times n =>
    simp only [words, List.forall_mem_cons]
    exact ⟨hrepeat, split_toString_int n.toInt, hopen, hnil⟩
  | atLeast n =>
    simp only [words, List.forall_mem_cons]
    exact ⟨hif, hsubject, hge, split_toString_int n.toInt, hopen, hnil⟩
  | close => exact List.forall_mem_cons.mpr ⟨hclose, hnil⟩

/-- The text of a row of blocks has their words. -/
theorem texts_written (ts : List WrittenBlock) : texts (written ts) = writtenWords ts := by
  have hblock (t : WrittenBlock) : (split t.text.toList).map String.ofList = t.words :=
    split_intercalate_of_forall t.split_word
  rw [texts_eq, written, split_intercalate, writtenWords, List.flatMap_map, List.map_flatMap]
  simp only [hblock]

/-- There are as many tokens as words. -/
theorem length_tokenize_written (ts : List WrittenBlock) :
    (tokenize (written ts)).length = (writtenWords ts).length := by
  rw [← texts_written, texts, List.length_map]

/-- No function is open. -/
def Nest.NoFunction (n : Nest) : Prop := ∀ l ∈ n.layers, l.header ≠ .function

variable {n : Nest}

theorem Nest.NoFunction.enter (hn : n.NoFunction) {h : Header} (hh : h ≠ .function) :
    (n.enter h).NoFunction :=
  List.forall_mem_cons.mpr ⟨hh, hn⟩

/-- While no function is open, every open block is an open layer. -/
theorem openBlocks_eq (hn : n.NoFunction) (k : Nat) :
    (Builder.mk n k).openBlocks = n.layers.length := by
  rw [Builder.openBlocks, List.countP_eq_length]
  intro l hl
  simpa using hn l hl

/-- A block leads the builder and its words lead the reader to the same nest, unless it is an end
and no block is open. -/
theorem push_and_takeAll (hn : n.NoFunction) (k : Nat) (t : WrittenBlock) :
    (∃ m : Nest, m.NoFunction ∧ (Builder.mk n k).push t.token = .ok ⟨m, k + 1⟩ ∧
      Reading.takeAll ⟨n, .statement⟩ t.words = .ok ⟨m, .statement⟩) ∨
    (t = .close ∧ n.layers = []) := by
  cases t with
  | move d => exact .inl ⟨n.append (.move d), hn, rfl, (IsStatement.move d).takeAll n⟩
  | times c =>
    exact .inl ⟨_, hn.enter (by simp [Opener.header]), rfl,
      (IsHeader.times (Text.isInt64_toString c)).takeAll_brace n⟩
  | atLeast c =>
    exact .inl ⟨_, hn.enter (by simp [Opener.header]), rfl,
      (IsHeader.atLeast (Text.isInt64_toString c)).takeAll_brace n⟩
  | close =>
    obtain ⟨body, layers⟩ := n
    cases layers with
    | nil => exact .inr ⟨rfl, rfl⟩
    | cons l ls =>
      obtain ⟨hl, hls⟩ := List.forall_mem_cons.mp hn
      refine .inl ⟨⟨.block l.header body.reverse :: l.before, ls⟩, hls, ?_, ?_⟩
      · obtain ⟨header, before⟩ := l
        cases header with
        | function => exact absurd rfl hl
        | _ => rfl
      · exact (Reading.Takes.leave rfl).takeAll_cons []

/-- Where no block is open, the builder refuses an end. -/
theorem push_close_of_layers (hn : n.layers = []) (k : Nat) :
    (Builder.mk n k).push .close = .error (.unmatchedEnd k) := by
  simp [Builder.push, Nest.leave?, hn]

/-- Where no block is open, the reader refuses a closing brace. -/
theorem take_brace_of_layers (hn : n.layers = []) :
    Reading.take ⟨n, .statement⟩ "\x7d" = .error (.trailing "\x7d") := by
  simp [Reading.take, Reading.takeKeyword, Nest.leave?, hn]

/-- Either all blocks lead the builder and their words the reader to the same nest, or both stop at
an end with no block open. -/
theorem pushAll_and_takeAll (hn : n.NoFunction) (k : Nat) (ts : List WrittenBlock) :
    (∃ m : Nest, m.NoFunction ∧
      (Builder.mk n k).pushAll (ts.map WrittenBlock.token) = .ok ⟨m, k + ts.length⟩ ∧
      Reading.takeAll ⟨n, .statement⟩ (writtenWords ts) = .ok ⟨m, .statement⟩) ∨
    (∃ us vs, ∃ m : Nest, ts = us ++ .close :: vs ∧ m.layers = [] ∧
      (Builder.mk n k).pushAll (ts.map WrittenBlock.token) =
        .error (.unmatchedEnd (k + us.length)) ∧
      Reading.takeAll ⟨n, .statement⟩ (writtenWords us) = .ok ⟨m, .statement⟩) := by
  induction ts generalizing n k with
  | nil => exact .inl ⟨n, hn, rfl, rfl⟩
  | cons t ts ih =>
    rw [List.map_cons, Builder.pushAll]
    rcases push_and_takeAll hn k t with ⟨middle, hmiddle, hpush, htake⟩ | ⟨rfl, hlayers⟩
    · rw [hpush]
      dsimp only
      have hlength (us : List WrittenBlock) : k + 1 + us.length = k + (t :: us).length := by
        rw [List.length_cons]
        omega
      have hwords (us : List WrittenBlock) :
          Reading.takeAll ⟨n, .statement⟩ (writtenWords (t :: us)) =
            Reading.takeAll ⟨middle, .statement⟩ (writtenWords us) :=
        Reading.takeAll_append htake
      rcases ih hmiddle (k + 1) with ⟨m, hm, hbuild, hread⟩ | ⟨us, vs, m, rfl, hm, hbuild, hread⟩
      · exact .inl ⟨m, hm, hlength ts ▸ hbuild, (hwords ts).trans hread⟩
      · exact .inr ⟨t :: us, vs, m, rfl, hm, hlength us ▸ hbuild, (hwords us).trans hread⟩
    · rw [WrittenBlock.token, push_close_of_layers hlayers]
      exact .inr ⟨[], ts, n, rfl, hlayers, rfl, rfl⟩

/-- How a row of blocks and its words agree, in the tree or in the place and kind of the fault. -/
inductive Agree (ts : List WrittenBlock) :
    Except BuildError Program → Except SyntaxError Program → Prop
  /-- Both give the same program. -/
  | program (p : Program) : Agree ts (.ok p) (.ok p)
  /-- Both stop at the same end, which closes nothing. -/
  | stray {us vs : List WrittenBlock} (h : ts = us ++ .close :: vs) :
    Agree ts (.error (.unmatchedEnd us.length))
      (.error ⟨(writtenWords us).length, .trailing "\x7d"⟩)
  /-- Both find blocks open after the last. -/
  | unclosed (count : Nat) :
    Agree ts (.error (.unclosedBlocks count))
      (.error ⟨(writtenWords ts).length, .missing (.word "\x7d") none⟩)

/-- Where no function is open, the builder and the reader agree at the end. -/
theorem agree_finish (ts : List WrittenBlock) (hn : n.NoFunction) (k : Nat) :
    Agree ts (Builder.mk n k).finish
      (Reading.readFrom ⟨n, .statement⟩ (writtenWords ts).length []) := by
  have hopen := openBlocks_eq hn k
  obtain ⟨body, layers⟩ := n
  cases layers with
  | nil => exact .program body.reverse
  | cons l ls =>
    have hfinish : (Builder.mk ⟨body, l :: ls⟩ k).finish =
        .error (.unclosedBlocks (ls.length + 1)) := by
      rw [Builder.finish, hopen]
      rfl
    rw [hfinish]
    exact .unclosed (ls.length + 1)

/-- The builder and the reader agree on every row of blocks. -/
theorem agree (ts : List WrittenBlock) :
    Agree ts (build (ts.map WrittenBlock.token)) (parseWords (writtenWords ts)) := by
  have hempty : Nest.NoFunction .empty := by simp [Nest.NoFunction, Nest.empty]
  rw [build, parseWords, Builder.empty, Reading.start]
  rcases pushAll_and_takeAll hempty 0 ts with
    ⟨m, hm, hbuild, hread⟩ | ⟨us, vs, m, rfl, hm, hbuild, hread⟩
  · have hend := Reading.readFrom_append hread 0 []
    rw [List.append_nil, Nat.zero_add] at hend
    rw [hbuild, hend]
    exact agree_finish ts hm _
  · have hstop := Reading.readFrom_append hread 0 ("\x7d" :: writtenWords vs)
    have hwords : writtenWords (us ++ .close :: vs) =
        writtenWords us ++ "\x7d" :: writtenWords vs := by
      simp [writtenWords, WrittenBlock.words]
    rw [Nat.zero_add, Reading.readFrom, take_brace_of_layers hm] at hstop
    rw [hbuild, hwords, hstop, Nat.zero_add]
    exact .stray rfl

/-- More blocks have more words. -/
theorem length_writtenWords_take_lt {ts : List WrittenBlock} {i j : Nat} (hi : i < ts.length)
    (hij : i < j) :
    (writtenWords (ts.take i)).length < (writtenWords (ts.take j)).length := by
  have hpos (t : WrittenBlock) : 0 < t.words.length := by
    cases t <;> simp [WrittenBlock.words]
  have hsplit : ts.take j = ts.take i ++ ts[i] :: (ts.take j).drop (i + 1) := by
    have hcons := List.drop_eq_getElem_cons (l := ts.take j) (i := i) (by simp; omega)
    have hparts := List.take_append_drop i (ts.take j)
    rw [List.take_take, Nat.min_eq_left (by omega), hcons, List.getElem_take] at hparts
    exact hparts.symm
  have hfirst := hpos ts[i]
  rw [hsplit]
  simp only [writtenWords, List.flatMap_append, List.flatMap_cons, List.length_append]
  omega

/-- The number of words before a block tells how many blocks are before it. -/
theorem eq_length_of_words {us vs : List WrittenBlock} {t : WrittenBlock} {k : Nat}
    (h : (writtenWords ((us ++ t :: vs).take k)).length = (writtenWords us).length) :
    k = us.length := by
  have htake : (us ++ t :: vs).take us.length = us := by simp
  have hlength : us.length < (us ++ t :: vs).length := by simp
  rcases Nat.lt_trichotomy k us.length with hlt | heq | hgt
  · have hless := length_writtenWords_take_lt (Nat.lt_trans hlt hlength) hlt
    rw [htake] at hless
    omega
  · exact heq
  · have hless := length_writtenWords_take_lt hlength hgt
    rw [htake] at hless
    omega

/-- A row of blocks and its text agree. They give the same programs; an end that closes nothing is
found by the builder after so many blocks exactly if the reader finds the text to have ended after
the words of these; and the builder finds blocks open after the last exactly if the reader misses
a closing brace after the last word. -/
theorem build_agrees_with_parse (ts : List WrittenBlock) :
    (∀ p, build (ts.map WrittenBlock.token) = .ok p ↔ parse (written ts) = .ok p) ∧
    (∀ k, build (ts.map WrittenBlock.token) = .error (.unmatchedEnd k) ↔
      ∃ f : SyntaxFault, f.SaysTrailing ∧
        parse (written ts) = .error ⟨(tokenize (written (ts.take k))).length, f⟩) ∧
    ((∃ count, build (ts.map WrittenBlock.token) = .error (.unclosedBlocks count)) ↔
      parse (written ts) =
        .error ⟨(tokenize (written ts)).length, .missing (.word "\x7d") none⟩) := by
  have hmissing : ¬ SyntaxFault.SaysTrailing (.missing (.word "\x7d") none) := by
    simp [SyntaxFault.saysTrailing_iff]
  have htrailing : SyntaxFault.SaysTrailing (.trailing "\x7d") :=
    SyntaxFault.saysTrailing_iff.mpr ⟨_, rfl⟩
  simp only [length_tokenize_written]
  rw [parse, ← texts, texts_written]
  generalize hb : build (ts.map WrittenBlock.token) = built
  generalize hr : parseWords (writtenWords ts) = read
  have h : Agree ts built read := hb ▸ hr ▸ agree ts
  cases h with
  | program p => simp
  | @stray us vs hts =>
    subst hts
    refine ⟨by simp, fun k => ?_, by simp⟩
    constructor
    · intro hk
      cases hk
      exact ⟨_, htrailing, by simp⟩
    · rintro ⟨f, -, hf⟩
      simp only [Except.error.injEq, SyntaxError.mk.injEq] at hf
      rw [eq_length_of_words hf.1.symm]
  | unclosed count =>
    refine ⟨by simp, fun k => ?_, by simp⟩
    constructor
    · intro hk
      cases hk
    · rintro ⟨f, htrails, hf⟩
      simp only [Except.error.injEq, SyntaxError.mk.injEq] at hf
      exact absurd (hf.2 ▸ htrails) hmissing

end Labyrinth.Language
