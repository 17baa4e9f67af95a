import Labyrinth.Proofs.Language.InPlace
import Labyrinth.Proofs.Language.Rebuilding

/-!
# A builder that is offered anything

Tokens are pushed on a builder that changes in place, whether they fit or not
(`Assembly.refuses_dead_ends_only`). The ends of all open blocks and of the function, innermost
first, finish any program, so a refused token is one after which nothing could; and a builder that
was offered anything is one that was offered what it has taken.
-/

namespace Labyrinth.Language

/-- Some tokens after these make a program of them. -/
def Extendable (ts : List BlockToken) : Prop := ∃ us p, build (ts ++ us) = .ok p

/-- The token that an error is about. -/
def BuildError.index? : BuildError → Option Nat
  | unmatchedEnd i | nestedFunction i | unmatchedFunctionEnd i | functionEndInsideBlock i
  | endCrossesFunction i => some i
  | unclosedBlocks _ | unclosedFunction => none

/-- The token begins a block that an ordinary end closes. -/
def BlockToken.isOpener : BlockToken → Bool
  | opener _ => true
  | move _ | close | functionStart | functionEnd | call => false

namespace Builder

variable {b : Builder} {t : BlockToken} {ts : List BlockToken} {e : BuildError}

/-- The blocks that are open are those that have begun and not ended. -/
theorem openBlocks_of_pushAll (h : empty.pushAll ts = .ok b) :
    b.openBlocks + ts.count .close = ts.countP BlockToken.isOpener := by
  refine pushAll_induction
    (motive := fun ts b => b.nest.openBlocks + ts.count .close = ts.countP BlockToken.isOpener)
    rfl ?_ h
  intro ts b t n hb hn
  rw [List.count_append, List.countP_append]
  cases hn with
  | move d | call => exact hb
  | opener o =>
    rw [accept, Nest.openBlocks_enter, if_neg o.header_ne_function]
    simp only [List.count_singleton, List.countP_singleton, BlockToken.isOpener]
    simp
    omega
  | close hn hh =>
    have hleave := Nest.openBlocks_leave? hn
    rw [if_neg hh] at hleave
    simp [accept, BlockToken.isOpener]
    omega
  | functionStart =>
    simpa [accept, Nest.openBlocks_enter, BlockToken.isOpener] using hb
  | functionEnd hn =>
    have hleave := Nest.openBlocks_leave? hn
    simpa [accept, hleave, BlockToken.isOpener] using hb

/-- An error says which token it is about: the one after those accepted. -/
theorem index?_of_push (h : b.push t = .error e) : e.index? = some b.accepted := by
  cases t with
  | move | call | opener => cases h
  | close =>
    simp only [push] at h
    split at h
    · cases h
      rfl
    · cases h
      split <;> rfl
    · cases h
  | functionStart =>
    simp only [push] at h
    split at h
    · cases h
      rfl
    · cases h
  | functionEnd =>
    simp only [push] at h
    split at h
    · cases h
    · cases h
      split <;> rfl

/-- The ends of all that is open, innermost first, finish any program. -/
theorem exists_finish_of_ends (body : List Instruction) (layers : List Layer) (k : Nat) :
    ∃ next p, pushAll ⟨⟨body, layers⟩, k⟩ (layers.map fun l => (delimiters l.header).2) = .ok next ∧
      next.finish = .ok p := by
  induction layers generalizing body k with
  | nil => exact ⟨_, body.reverse, rfl, rfl⟩
  | cons l ls ih =>
    obtain ⟨next, p, hnext, hp⟩ := ih (.block l.header body.reverse :: l.before) (k + 1)
    refine ⟨next, p, ?_, hp⟩
    rw [List.map_cons, (takes_end rfl).pushAll_cons]
    exact hnext

/-- Tokens that are all taken can be extended to those of a program. -/
theorem extendable_of_pushAll (h : empty.pushAll ts = .ok b) : Extendable ts := by
  obtain ⟨⟨body, layers⟩, k⟩ := b
  obtain ⟨next, p, hnext, hp⟩ := exists_finish_of_ends body layers k
  exact ⟨_, p, (build_of_pushAll ((pushAll_append h _).trans hnext)).trans hp⟩

/-- A token is refused exactly if the tokens taken cannot be extended after it. -/
theorem exists_push_eq_error_iff (h : empty.pushAll ts = .ok b) :
    (∃ e, b.push t = .error e) ↔ ¬ Extendable (ts ++ [t]) := by
  have hall (us : List BlockToken) : empty.pushAll (ts ++ us) = b.pushAll us := pushAll_append h us
  cases ht : b.push t with
  | ok next =>
    have hnext : Extendable (ts ++ [t]) := extendable_of_pushAll (b := next) <| by
      simp only [hall, pushAll, ht]
    simp [hnext]
  | error e =>
    have hstop : ¬ Extendable (ts ++ [t]) := by
      rintro ⟨us, p, hp⟩
      simp only [build, List.append_assoc, hall, List.singleton_append, pushAll, ht] at hp
      cases hp
    simp [hstop]

end Builder

/-! ## Many tokens -/

namespace Assembly

variable {a : Assembly}

/-- What the builder holds after some tokens have been pushed, whatever the answers were. -/
def after (a : Assembly) (ts : List BlockToken) : Assembly := ts.foldl (fun a t => (a.push t).2) a

/-- Those of the tokens that are taken. -/
def taken (a : Assembly) : List BlockToken → List BlockToken
  | [] => []
  | t :: ts =>
    match a.push t with
    | (.ok _, next) => t :: next.taken ts
    | (.error _, next) => next.taken ts

/-- A builder that was offered anything is one that was offered what it has taken. -/
theorem Sound.after (h : a.Sound) (ts : List BlockToken) :
    a.builder.pushAll (a.taken ts) = .ok (a.after ts).builder ∧ (a.after ts).Sound := by
  induction ts generalizing a with
  | nil => exact ⟨rfl, h⟩
  | cons t ts ih =>
    cases h.agrees t with
    | @ok next hpush hbuilder hsound =>
      rw [taken, Assembly.after, List.foldl_cons, hpush]
      simp only [Builder.pushAll, hbuilder]
      exact ih hsound
    | error hpush hbuilder =>
      rw [taken, Assembly.after, List.foldl_cons, hpush]
      exact ih h

/-- Tokens are pushed on a new builder, whether they fit or not. A token is refused exactly if those
taken so far cannot become a program after it; what the builder holds is then what it held, and the
error is about the token after those taken. A function is open inside blocks that are still open. If
no more tokens come, the answer is that for the tokens taken alone: so many blocks are open as begun
and not ended, or else the function is, or else there is a program. -/
theorem refuses_dead_ends_only (ts : List BlockToken) (t : BlockToken) :
    let a := empty.after ts
    let taken := empty.taken ts
    ((∃ e, (a.push t).1 = .error e) ↔ ¬ Extendable (taken ++ [t])) ∧
    (∀ e, (a.push t).1 = .error e → (a.push t).2 = a ∧ e.index? = some taken.length) ∧
    (∀ f ∈ a.function, f.base ≤ a.blocks.length) ∧
    a.finish = build taken ∧
    taken.count .close ≤ taken.countP BlockToken.isOpener ∧
    a.finish =
      if taken.count .close < taken.countP BlockToken.isOpener then
        .error (.unclosedBlocks (taken.countP BlockToken.isOpener - taken.count .close))
      else if a.function.isSome then .error .unclosedFunction
      else .ok a.root := by
  intro a taken
  have hempty : empty.Sound := nofun
  obtain ⟨htaken, hsound⟩ : Builder.empty.pushAll taken = .ok a.builder ∧ a.Sound :=
    hempty.after ts
  have hopen : a.blocks.length + taken.count .close = taken.countP BlockToken.isOpener := by
    rw [← Builder.openBlocks_of_pushAll htaken, openBlocks_builder]
  have hnext : a.builder.accepted = taken.length := by
    rw [Builder.accepted_of_pushAll htaken]
    exact Nat.zero_add _
  refine ⟨?_, ?_, hsound, ?_, by omega, ?_⟩
  · rw [← Builder.exists_push_eq_error_iff htaken]
    cases hsound.agrees t with
    | ok hpush hbuilder => simp [hpush, hbuilder]
    | error hpush hbuilder => simp [hpush, hbuilder]
  · intro e he
    cases hsound.agrees t with
    | ok hpush =>
      rw [hpush] at he
      cases he
    | error hpush hbuilder =>
      rw [hpush] at he ⊢
      cases he
      exact ⟨rfl, by rw [Builder.index?_of_push hbuilder, hnext]⟩
  · rw [hsound.finish, Builder.build_of_pushAll htaken]
  · rw [Assembly.finish]
    by_cases hb : a.blocks = []
    · have hclosed : ¬ taken.count .close < taken.countP BlockToken.isOpener := by
        simp [← hopen, hb]
      rw [if_neg (fun hne => hne hb), if_neg hclosed]
    · have hlength : 0 < a.blocks.length := List.length_pos_iff.mpr hb
      have hopened : taken.count .close < taken.countP BlockToken.isOpener := by omega
      rw [if_pos hb, if_pos hopened, ← hopen, Nat.add_sub_cancel]

end Assembly

end Labyrinth.Language
