import Labyrinth.Language.Block

/-!
# What a builder does with tokens

A token fits where the builder does not refuse it, and `Builder.Takes` says what it then does to the
nest. `Builder.pushAll_induction` is the induction along the tokens taken; by it a function is open
exactly if more functions have begun than ended (`Builder.inFunction_iff_of_pushAll`).
-/

namespace Labyrinth.Language

namespace Builder

/-- What a token does to the nest of a builder, where it fits. -/
inductive Takes (b : Builder) : BlockToken → Nest → Prop
  /-- A move is appended. -/
  | move (d : Direction) : Takes b (.move d) (b.nest.append (.move d))
  /-- A call is appended. -/
  | call : Takes b .call (b.nest.append .call)
  /-- A block is opened. -/
  | opener (o : Opener) : Takes b (.opener o) (b.nest.enter o.header)
  /-- The innermost block is closed; it is no function. -/
  | close {h : Header} {n : Nest} (hn : b.nest.leave? = some (h, n)) (hh : h ≠ .function) :
    Takes b .close n
  /-- A function is opened; none is open. -/
  | functionStart (hb : b.inFunction = false) : Takes b .functionStart (b.nest.enter .function)
  /-- A function is closed; no block inside it is open. -/
  | functionEnd {n : Nest} (hn : b.nest.leave? = some (.function, n)) : Takes b .functionEnd n

variable {b next : Builder} {t : BlockToken} {ts us : List BlockToken} {n : Nest}

theorem Takes.push (h : b.Takes t n) : b.push t = .ok (b.accept n) := by
  cases h with
  | move | call | opener => rfl
  | close hn hh => simp [Builder.push, hn]
  | functionStart hb => simp [Builder.push, hb]
  | functionEnd hn => simp [Builder.push, hn]

/-- A token is taken exactly if it fits. -/
theorem push_eq_ok_iff : b.push t = .ok next ↔ ∃ n, b.Takes t n ∧ next = b.accept n := by
  constructor
  · intro h
    cases t with
    | move d => exact ⟨_, .move d, (Except.ok.inj h).symm⟩
    | call => exact ⟨_, .call, (Except.ok.inj h).symm⟩
    | opener o => exact ⟨_, .opener o, (Except.ok.inj h).symm⟩
    | close =>
      simp only [Builder.push] at h
      split at h
      · cases h
      · cases h
      next h' n hh hn => exact ⟨n, .close hn hh, (Except.ok.inj h).symm⟩
    | functionStart =>
      simp only [Builder.push] at h
      split at h
      · cases h
      next hb => exact ⟨_, .functionStart (by simpa using hb), (Except.ok.inj h).symm⟩
    | functionEnd =>
      simp only [Builder.push] at h
      split at h
      next n hn => exact ⟨n, .functionEnd hn, (Except.ok.inj h).symm⟩
      · cases h
  · rintro ⟨n, hn, rfl⟩
    exact hn.push

/-- A token that fits is taken first. -/
theorem Takes.pushAll_cons (h : b.Takes t n) (ts : List BlockToken) :
    b.pushAll (t :: ts) = (b.accept n).pushAll ts := by
  rw [pushAll, h.push]

/-- Tokens that are all taken are passed over. -/
theorem pushAll_append (h : b.pushAll ts = .ok next) (us : List BlockToken) :
    b.pushAll (ts ++ us) = next.pushAll us := by
  induction ts generalizing b with
  | nil =>
    cases h
    rfl
  | cons t ts ih =>
    rw [pushAll] at h
    rw [List.cons_append, pushAll]
    split at h
    · exact ih h
    · cases h

/-- A token among those that are all taken fits where it stands. -/
theorem exists_takes_of_pushAll (h : b.pushAll (us ++ t :: ts) = .ok next) :
    ∃ middle n, b.pushAll us = .ok middle ∧ middle.Takes t n := by
  induction us generalizing b with
  | nil =>
    rw [List.nil_append, pushAll] at h
    split at h
    next middle hmiddle =>
      obtain ⟨n, hn, -⟩ := push_eq_ok_iff.mp hmiddle
      exact ⟨b, n, rfl, hn⟩
    · cases h
  | cons u us ih =>
    rw [List.cons_append, pushAll] at h
    rw [pushAll]
    split at h
    · exact ih h
    · cases h

/-- What holds before the first token and is kept by every token taken holds after all of them. -/
theorem pushAll_induction {motive : List BlockToken → Builder → Prop} (nil : motive [] b)
    (concat : ∀ ts b t n, motive ts b → Takes b t n → motive (ts ++ [t]) (b.accept n))
    (h : b.pushAll ts = .ok next) : motive ts next := by
  suffices hgen : ∀ us b, motive us b → b.pushAll ts = .ok next → motive (us ++ ts) next from
    hgen [] b nil h
  clear h nil
  intro us b hus h
  induction ts generalizing b us with
  | nil =>
    cases h
    simpa only [List.append_nil] using hus
  | cons t ts ih =>
    rw [pushAll] at h
    split at h
    next middle hmiddle =>
      obtain ⟨n, hn, rfl⟩ := push_eq_ok_iff.mp hmiddle
      simpa only [List.append_assoc, List.singleton_append] using
        ih (us ++ [t]) (b.accept n) (concat us b t n hus hn) h
    · cases h

/-- Every token taken is counted. -/
theorem accepted_of_pushAll (h : b.pushAll ts = .ok next) :
    next.accepted = b.accepted + ts.length := by
  refine pushAll_induction (motive := fun ts next => next.accepted = b.accepted + ts.length) rfl
    ?_ h
  intro ts next t n hnext _
  rw [accept, hnext, List.length_append, List.length_singleton, Nat.add_assoc]

end Builder

/-! ## Functions that are open -/

namespace Nest

variable {n m : Nest} {h : Header}

/-- A block that can be closed is the innermost one. -/
theorem leave?_inv (e : n.leave? = some (h, m)) :
    ∃ l ls, n.layers = l :: ls ∧ l.header = h ∧
      m = ⟨.block h n.body.reverse :: l.before, ls⟩ := by
  obtain ⟨body, layers⟩ := n
  cases layers with
  | nil => cases e
  | cons l ls =>
    cases e
    exact ⟨l, ls, rfl, rfl, rfl⟩

/-- The number of open functions. -/
def functions (n : Nest) : Nat := n.layers.countP (fun l => l.header == .function)

theorem functions_enter (n : Nest) (h : Header) :
    (n.enter h).functions = n.functions + if h = .function then 1 else 0 := by
  simp [functions, enter, List.countP_cons]

theorem functions_leave? (e : n.leave? = some (h, m)) :
    n.functions = m.functions + if h = .function then 1 else 0 := by
  obtain ⟨l, ls, hl, rfl, rfl⟩ := leave?_inv e
  simp [functions, hl, List.countP_cons]

end Nest

namespace Builder

variable {b next : Builder} {t : BlockToken} {ts us : List BlockToken} {n : Nest}

theorem inFunction_iff : b.inFunction = true ↔ 0 < b.nest.functions := by
  simp [inFunction, Nest.functions, List.countP_pos_iff]

/-- The functions that are open are those that have begun and not ended. -/
theorem functions_of_pushAll (h : empty.pushAll ts = .ok b) :
    b.nest.functions + ts.count .functionEnd = ts.count .functionStart := by
  refine pushAll_induction
    (motive := fun ts b => b.nest.functions + ts.count .functionEnd = ts.count .functionStart)
    rfl ?_ h
  intro ts b t n hb hn
  rw [List.count_append, List.count_append]
  cases hn with
  | move d | call => exact hb
  | opener o =>
    have hheader : o.header ≠ .function := by cases o <;> simp [Opener.header]
    simpa [accept, Nest.functions_enter, hheader] using hb
  | close hn hh =>
    have hleave := Nest.functions_leave? hn
    rw [if_neg hh] at hleave
    simpa [accept, hleave] using hb
  | functionStart =>
    have hstart : [BlockToken.functionStart].count .functionStart = 1 := rfl
    have hend : [BlockToken.functionStart].count .functionEnd = 0 := rfl
    rw [accept, Nest.functions_enter, if_pos rfl, hstart, hend]
    omega
  | functionEnd hn =>
    have hstart : [BlockToken.functionEnd].count .functionStart = 0 := rfl
    have hend : [BlockToken.functionEnd].count .functionEnd = 1 := rfl
    have hleave := Nest.functions_leave? hn
    rw [if_pos rfl] at hleave
    simp only [accept, hstart, hend]
    omega

/-- A function is open exactly if more functions have begun than ended. -/
theorem inFunction_iff_of_pushAll (h : empty.pushAll ts = .ok b) :
    b.inFunction = true ↔ ts.count .functionEnd < ts.count .functionStart := by
  have hcount := functions_of_pushAll h
  rw [inFunction_iff]
  omega

end Builder

end Labyrinth.Language
