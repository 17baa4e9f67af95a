import Labyrinth.Language.Assembly
import Labyrinth.Proofs.Language.Building
import Labyrinth.Proofs.Language.Grammar

/-!
# Building in place

An assembly is a builder that changes in place. `Assembly.builder` puts the function that is open
back among the blocks; a push in place then does what a push on that builder does, and where the
builder refuses a token the assembly is left as it was (`Assembly.Sound.agrees`).
-/

namespace Labyrinth.Language

namespace Nest

variable {n m : Nest} {h : Header}

/-- The number of open blocks that are no function. -/
def openBlocks (n : Nest) : Nat := n.layers.countP (fun l => l.header != .function)

theorem openBlocks_enter (n : Nest) (h : Header) :
    (n.enter h).openBlocks = n.openBlocks + if h = .function then 0 else 1 := by
  by_cases hh : h = .function <;> simp [openBlocks, enter, hh]

theorem openBlocks_leave? (e : n.leave? = some (h, m)) :
    n.openBlocks = m.openBlocks + if h = .function then 0 else 1 := by
  obtain ⟨l, ls, hl, rfl, rfl⟩ := leave?_inv e
  by_cases hh : l.header = .function <;> simp [openBlocks, hl, hh]

@[simp] theorem openBlocks_extend (n : Nest) (p : Program) :
    (n.extend p).openBlocks = n.openBlocks := rfl

@[simp] theorem functions_extend (n : Nest) (p : Program) :
    (n.extend p).functions = n.functions := rfl

end Nest

theorem Opener.header_ne_function (o : Opener) : o.header ≠ .function := by
  cases o <;> simp [Opener.header]

namespace Builder

variable {b : Builder}

theorem push_functionEnd_of_ne (h : ∀ n, b.nest.leave? ≠ some (.function, n)) :
    b.push .functionEnd = .error (if b.inFunction then .functionEndInsideBlock b.accepted
      else .unmatchedFunctionEnd b.accepted) := by
  rw [push]
  split
  next n hn => exact absurd hn (h n)
  · rfl

end Builder

namespace Assembly

/-- The nest with the function opened and filled inside it, if it began at this depth. -/
def enterFunction (depth : Nat) (n : Nest) : Option OpenFunction → Nest
  | some f => if f.base = depth then (n.enter .function).extend f.body else n
  | none => n

/-- The program under construction: the root and inside it the open blocks, each in front of the
function if that began inside it. -/
def nestOf (root : Program) (o : Option OpenFunction) : List OpenBlock → Nest
  | [] => enterFunction 0 (.extend .empty root) o
  | b :: bs =>
    enterFunction (bs.length + 1) (((nestOf root o bs).enter b.opener.header).extend b.body) o

/-- The builder with the function among the blocks. -/
def builder (a : Assembly) : Builder := ⟨nestOf a.root a.function a.blocks, a.next⟩

/-- The function began inside blocks that are still open. -/
def Sound (a : Assembly) : Prop := ∀ f ∈ a.function, f.base ≤ a.blocks.length

/-- Where the instruction that comes next belongs. -/
inductive Innermost (a : Assembly) : Prop
  /-- To the function. -/
  | function {f : OpenFunction} (hf : a.function = some f) (hbase : f.base = a.blocks.length)
  /-- To a block, and not to a function that began inside it. -/
  | block {b : OpenBlock} {bs : List OpenBlock} (hb : a.blocks = b :: bs)
    (hbase : ∀ f ∈ a.function, f.base ≤ bs.length)
  /-- To the program itself. -/
  | root (hb : a.blocks = []) (hf : a.function = none)

variable {a : Assembly} {root : Program} {f : OpenFunction} {o : Option OpenFunction}
  {b : OpenBlock} {bs : List OpenBlock} {i : Instruction} {t : BlockToken} {e : BuildError}
  {next : Builder}

theorem Sound.innermost (h : a.Sound) : a.Innermost := by
  obtain ⟨root, blocks, o, k⟩ := a
  have hcases : (∃ f, o = some f ∧ f.base = blocks.length) ∨ ∀ f ∈ o, f.base < blocks.length := by
    cases o with
    | none => exact .inr nofun
    | some f =>
      refine (Nat.eq_or_lt_of_le (h f rfl)).imp (fun hf => ⟨f, rfl, hf⟩) fun hf => ?_
      rintro _ ⟨⟩
      exact hf
  obtain ⟨f, hf, hbase⟩ | hbelow := hcases
  · exact .function hf hbase
  · cases blocks with
    | nil =>
      have hnone : ∀ f, f ∉ o := fun f hf => by simpa using hbelow f hf
      exact .root rfl (Option.eq_none_iff_forall_not_mem.mpr hnone)
    | cons b bs => exact .block rfl fun f hf => Nat.le_of_lt_succ (hbelow f hf)

theorem enterFunction_of_ne {depth : Nat} (h : ∀ f ∈ o, f.base ≠ depth) (n : Nest) :
    enterFunction depth n o = n := by
  cases o with
  | none => rfl
  | some f => exact if_neg (h f rfl)

/-- Outside the blocks in which the function began there is nothing of it. -/
theorem nestOf_of_lt (h : ∀ f ∈ o, bs.length < f.base) :
    nestOf root o bs = nestOf root none bs := by
  induction bs with
  | nil => exact enterFunction_of_ne (fun f hf => Nat.ne_of_gt (h f hf)) _
  | cons b bs ih =>
    rw [nestOf, nestOf, ih fun f hf => Nat.lt_of_succ_lt (h f hf)]
    exact enterFunction_of_ne (fun f hf => Nat.ne_of_gt (h f hf)) _

/-- A function that began inside the innermost block is the innermost layer. -/
theorem nestOf_of_eq (h : f.base = bs.length) :
    nestOf root (some f) bs = ((nestOf root none bs).enter .function).extend f.body := by
  cases bs with
  | nil => exact if_pos h
  | cons b bs =>
    have houter : ∀ g ∈ some f, bs.length < g.base := by
      rintro _ ⟨⟩
      exact h ▸ Nat.lt_succ_self _
    rw [nestOf, nestOf, nestOf_of_lt houter]
    exact if_pos h

/-- A block is the innermost layer unless a function began inside it. -/
theorem nestOf_of_le (h : ∀ f ∈ o, f.base ≤ bs.length) :
    nestOf root o (b :: bs) = ((nestOf root o bs).enter b.opener.header).extend b.body :=
  enterFunction_of_ne (fun f hf => Nat.ne_of_lt (Nat.lt_succ_of_le (h f hf))) _

theorem openBlocks_nestOf : (nestOf root o bs).openBlocks = bs.length := by
  have henter (depth : Nat) (n : Nest) :
      (enterFunction depth n o).openBlocks = n.openBlocks := by
    cases o with
    | none => rfl
    | some f =>
      rw [enterFunction]
      split
      · rw [Nest.openBlocks_extend, Nest.openBlocks_enter, if_pos rfl, Nat.add_zero]
      · rfl
  induction bs with
  | nil => exact henter _ _
  | cons b bs ih =>
    rw [nestOf, henter, Nest.openBlocks_extend, Nest.openBlocks_enter,
      if_neg b.opener.header_ne_function, ih, List.length_cons]

theorem functions_nestOf_none : (nestOf root none bs).functions = 0 := by
  induction bs with
  | nil => rfl
  | cons b bs ih =>
    rw [nestOf_of_le (by simp), Nest.functions_extend, Nest.functions_enter,
      if_neg b.opener.header_ne_function, ih]

theorem functions_nestOf_some (h : f.base ≤ bs.length) :
    (nestOf root (some f) bs).functions = 1 := by
  have hself {bs : List OpenBlock} (hbase : f.base = bs.length) :
      (nestOf root (some f) bs).functions = 1 := by
    rw [nestOf_of_eq hbase, Nest.functions_extend, Nest.functions_enter, if_pos rfl,
      functions_nestOf_none]
  induction bs with
  | nil => exact hself (Nat.le_zero.mp h)
  | cons b bs ih =>
    obtain hbase | hbelow := Nat.eq_or_lt_of_le h
    · exact hself hbase
    · have hle : f.base ≤ bs.length := Nat.le_of_lt_succ hbelow
      rw [nestOf_of_le (by simpa using hle), Nest.functions_extend, Nest.functions_enter,
        if_neg b.opener.header_ne_function, ih hle]

@[simp] theorem openBlocks_builder (a : Assembly) : a.builder.openBlocks = a.blocks.length :=
  openBlocks_nestOf

theorem inFunction_builder (h : a.Sound) : a.builder.inFunction = a.function.isSome := by
  rw [Bool.eq_iff_iff, Builder.inFunction_iff]
  cases hf : a.function with
  | none => simp [builder, hf, functions_nestOf_none]
  | some f => simp [builder, hf, functions_nestOf_some (h f hf)]

/-! ## One token -/

theorem innermostFunction_of_eq (hf : a.function = some f) (hbase : f.base = a.blocks.length) :
    a.innermostFunction = some f := by
  simpa [innermostFunction, hf] using hbase

theorem innermostFunction_of_le (hb : a.blocks = b :: bs)
    (hbase : ∀ f ∈ a.function, f.base ≤ bs.length) : a.innermostFunction = none := by
  simp only [innermostFunction, hb, List.length_cons, Option.filter_eq_none_iff, decide_eq_true_eq]
  exact fun f hf => Nat.ne_of_lt (Nat.lt_succ_of_le (hbase f hf))

/-- The innermost body is the one that grows. -/
theorem builder_append (h : a.Sound) (i : Instruction) :
    (a.append i).builder = ⟨a.builder.nest.append i, a.next⟩ ∧ (a.append i).Sound := by
  cases h.innermost with
  | @function f hf hbase =>
    simp only [append, innermostFunction_of_eq hf hbase, builder, hf]
    rw [nestOf_of_eq (f := { f with body := f.body ++ [i] }) hbase, nestOf_of_eq hbase,
      Nest.extend_append]
    exact ⟨rfl, by simpa [Sound] using Nat.le_of_eq hbase⟩
  | @block b bs hb hbase =>
    simp only [append, innermostFunction_of_le hb hbase, hb, builder]
    rw [nestOf_of_le hbase, nestOf_of_le hbase, Nest.extend_append]
    exact ⟨rfl, by simpa [Sound, hb] using h⟩
  | root hb hf =>
    have hnone : a.innermostFunction = none := by rw [innermostFunction, hf, Option.filter_none]
    simp only [append, hnone, hb, builder, hf, nestOf, enterFunction, Nest.extend_append]
    exact ⟨rfl, nofun⟩

/-- The assembly with one more token counted. -/
def counted (a : Assembly) : Assembly := { a with next := a.next + 1 }

theorem builder_counted_append (h : a.Sound) (i : Instruction) :
    (a.append i).counted.builder = a.builder.accept (a.builder.nest.append i) := by
  have happend := (builder_append h i).1
  simp only [builder, Builder.mk.injEq] at happend
  simp only [counted, builder, Builder.accept, happend.1, happend.2]

theorem push_move (a : Assembly) (d : Direction) :
    a.push (.move d) = (.ok (), (a.append (.move d)).counted) := rfl

theorem push_call (a : Assembly) : a.push .call = (.ok (), (a.append .call).counted) := rfl

theorem push_opener (a : Assembly) (o : Opener) :
    a.push (.opener o) =
      (.ok (), { a with blocks := ⟨o, []⟩ :: a.blocks, next := a.next + 1 }) := rfl

/-- What is read first is what the builder holds. -/
theorem run_get_bind (k : Assembly → ExceptT BuildError (StateM Assembly) Unit) (a : Assembly) :
    (get >>= k).run.run a = (k a).run.run a := rfl

theorem push_close_of_nil (hb : a.blocks = []) :
    a.push .close = (.error (.unmatchedEnd a.next), a) := by
  rw [push, take, run_get_bind]
  simp only [hb, if_true]
  rfl

theorem push_close_of_some (hb : a.blocks = b :: bs) (hf : a.innermostFunction.isSome) :
    a.push .close = (.error (.endCrossesFunction a.next), a) := by
  rw [push, take, run_get_bind]
  simp only [hb, hf, if_true, reduceCtorEq, if_false]
  rfl

theorem push_close_of_none (hb : a.blocks = b :: bs) (hf : a.innermostFunction = none) :
    a.push .close = (.ok (), (append b.instruction { a with blocks := bs }).counted) := by
  rw [push, take, run_get_bind]
  simp only [hb, hf, reduceCtorEq, if_false, Option.isSome_none, Bool.false_eq_true]
  rfl

theorem push_functionStart_of_some (hf : a.function = some f) :
    a.push .functionStart = (.error (.nestedFunction a.next), a) := by
  rw [push, take, run_get_bind]
  simp only [hf, Option.isSome_some, if_true]
  rfl

theorem push_functionStart_of_none (hf : a.function = none) :
    a.push .functionStart =
      (.ok (), counted { a with function := some ⟨a.blocks.length, []⟩ }) := by
  rw [push, take, run_get_bind]
  simp only [hf, Option.isSome_none, Bool.false_eq_true, if_false]
  rfl

theorem push_functionEnd_of_none (hf : a.function = none) :
    a.push .functionEnd = (.error (.unmatchedFunctionEnd a.next), a) := by
  rw [push, take, run_get_bind]
  simp only [hf]
  rfl

theorem push_functionEnd_of_lt (hf : a.function = some f) (hbase : f.base < a.blocks.length) :
    a.push .functionEnd = (.error (.functionEndInsideBlock a.next), a) := by
  rw [push, take, run_get_bind]
  simp only [hf, hbase, if_true]
  rfl

theorem push_functionEnd_of_le (hf : a.function = some f) (hbase : a.blocks.length ≤ f.base) :
    a.push .functionEnd =
      (.ok (), (append (.block .function f.body) { a with function := none }).counted) := by
  rw [push, take, run_get_bind]
  simp only [hf, Nat.not_lt.mpr hbase, if_false]
  rfl

/-- A push in place and a push on the builder come to the same. -/
inductive Agrees (a : Assembly) (t : BlockToken) : Prop
  /-- The token is taken. -/
  | ok {next : Assembly} (hpush : a.push t = (.ok (), next))
    (hbuilder : a.builder.push t = .ok next.builder) (hsound : next.Sound)
  /-- The token is refused, and nothing has changed. -/
  | error {e : BuildError} (hpush : a.push t = (.error e, a))
    (hbuilder : a.builder.push t = .error e)

/-- A token whose instruction is appended. -/
theorem Agrees.of_append (h : a.Sound) (hpush : a.push t = (.ok (), (a.append i).counted))
    (hbuilder : a.builder.push t = .ok (a.builder.accept (a.builder.nest.append i))) :
    a.Agrees t :=
  .ok hpush (by rw [hbuilder, builder_counted_append h]) (builder_append h i).2

theorem leave?_of_eq (hf : a.function = some f) (hbase : f.base = a.blocks.length) :
    a.builder.nest.leave? = some (.function,
      (builder { a with function := none }).nest.append (.block .function f.body)) := by
  rw [builder, hf, nestOf_of_eq hbase, Nest.leave?_extend_enter]
  rfl

theorem leave?_of_le (hb : a.blocks = b :: bs) (hbase : ∀ f ∈ a.function, f.base ≤ bs.length) :
    a.builder.nest.leave? = some (b.opener.header,
      (builder { a with blocks := bs }).nest.append b.instruction) := by
  rw [builder, hb, nestOf_of_le hbase, Nest.leave?_extend_enter]
  rfl

theorem leave?_of_nil (hb : a.blocks = []) (hf : a.function = none) :
    a.builder.nest.leave? = none := by
  rw [builder, hb, hf]
  rfl

theorem agrees_close (h : a.Sound) : a.Agrees .close := by
  cases h.innermost with
  | @function f hf hbase =>
    have hpush : a.builder.push .close = .error (if a.blocks.length = 0
        then .unmatchedEnd a.next else .endCrossesFunction a.next) := by
      simp only [Builder.push, leave?_of_eq hf hbase, openBlocks_builder]
      rfl
    cases hb : a.blocks with
    | nil => exact .error (push_close_of_nil hb) (by rw [hpush, hb]; rfl)
    | cons b bs =>
      have hsome : a.innermostFunction.isSome := by
        rw [innermostFunction_of_eq hf hbase, Option.isSome_some]
      exact .error (push_close_of_some hb hsome) (by rw [hpush, hb]; rfl)
  | @block b bs hb hbase =>
    have houter : Sound { a with blocks := bs } := hbase
    refine .ok (push_close_of_none hb (innermostFunction_of_le hb hbase)) ?_
      (builder_append houter _).2
    rw [(Builder.Takes.close (leave?_of_le hb hbase) b.opener.header_ne_function).push,
      builder_counted_append houter]
    rfl
  | root hb hf =>
    refine .error (push_close_of_nil hb) ?_
    rw [Builder.push, leave?_of_nil hb hf]
    rfl

theorem agrees_functionStart (h : a.Sound) : a.Agrees .functionStart := by
  have hinside := inFunction_builder h
  cases hf : a.function with
  | none =>
    rw [hf, Option.isSome_none] at hinside
    refine .ok (push_functionStart_of_none hf) ?_ (by simp [Sound, counted])
    rw [(Builder.Takes.functionStart hinside).push]
    simp only [builder, counted, nestOf_of_eq, hf]
    rfl
  | some f =>
    rw [hf, Option.isSome_some] at hinside
    refine .error (push_functionStart_of_some hf) ?_
    rw [Builder.push, if_pos hinside]
    rfl

theorem agrees_functionEnd (h : a.Sound) : a.Agrees .functionEnd := by
  have hinside := inFunction_builder h
  cases h.innermost with
  | @function f hf hbase =>
    have houter : Sound { a with function := none } := nofun
    refine .ok (push_functionEnd_of_le hf (Nat.le_of_eq hbase.symm)) ?_ (builder_append houter _).2
    rw [(Builder.Takes.functionEnd (leave?_of_eq hf hbase)).push, builder_counted_append houter]
    rfl
  | @block b bs hb hbase =>
    have hpush := Builder.push_functionEnd_of_ne (b := a.builder) <| by
      simp [leave?_of_le hb hbase, b.opener.header_ne_function]
    rw [hinside] at hpush
    cases hf : a.function with
    | none =>
      refine .error (push_functionEnd_of_none hf) ?_
      rw [hpush, hf]
      rfl
    | some f =>
      have hlt : f.base < a.blocks.length := by
        rw [hb]
        exact Nat.lt_succ_of_le (hbase f hf)
      refine .error (push_functionEnd_of_lt hf hlt) ?_
      rw [hpush, hf]
      rfl
  | root hb hf =>
    refine .error (push_functionEnd_of_none hf) ?_
    rw [Builder.push_functionEnd_of_ne (by simp [leave?_of_nil hb hf]), hinside, hf]
    rfl

/-- A push in place does what a push on the builder does. -/
theorem Sound.agrees (h : a.Sound) (t : BlockToken) : a.Agrees t := by
  cases t with
  | move d => exact .of_append h (push_move a d) rfl
  | call => exact .of_append h (push_call a) rfl
  | opener o =>
    refine .ok (push_opener a o) ?_ (fun f hf => Nat.le_succ_of_le (h f hf))
    simp only [builder, nestOf_of_le h]
    rfl
  | close => exact agrees_close h
  | functionStart => exact agrees_functionStart h
  | functionEnd => exact agrees_functionEnd h

/-- A program is finished in place exactly if the builder is, and with the same answer. -/
theorem Sound.finish (h : a.Sound) : a.finish = a.builder.finish := by
  rw [Assembly.finish, Builder.finish, openBlocks_builder]
  cases hb : a.blocks with
  | cons b bs => simp
  | nil =>
    cases hf : a.function with
    | none => simp [builder, hb, hf, nestOf, enterFunction, Nest.finished?, Nest.extend, Nest.empty]
    | some f =>
      have hbase : f.base = ([] : List OpenBlock).length := by simpa [hb] using h f hf
      simp [builder, hb, hf, nestOf_of_eq hbase, Nest.finished?, Nest.extend, Nest.enter]

end Assembly

end Labyrinth.Language
