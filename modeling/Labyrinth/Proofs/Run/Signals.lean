import Labyrinth.Run.Signal

/-!
# What handles see of stop signals

A handle stays on its signal whatever is done to the board, and sees nothing but that signal:
raising another one changes nothing for it (`SignalBoard.isUp_raise`).
-/

namespace Labyrinth

namespace SignalBoard

variable {b : SignalBoard} {handle other signal n : Nat}

/-- Whether the signal of a handle has been raised. -/
def isUp (b : SignalBoard) (handle : Nat) : Bool := b.raised.getD (b.signal handle) false

/-- The handle exists and is on the signal. -/
def On (b : SignalBoard) (handle signal : Nat) : Prop := b.handles[handle]? = some signal

/-- What a handle sees among what all of them see. -/
theorem getElem?_view (h : b.On handle n) : b.view[handle]? = some (b.isUp handle) := by
  simp [view, isUp, SignalBoard.signal, List.getD_eq_getElem?_getD,
    show b.handles[handle]? = some n from h]

theorem On.signal_eq (h : b.On handle n) : b.signal handle = n := by
  rw [SignalBoard.signal, List.getD_eq_getElem?_getD, h, Option.getD_some]

theorem On.isUp_eq (h : b.On handle n) : b.isUp handle = b.raised.getD n false := by
  rw [isUp, h.signal_eq]

theorem On.fresh (h : b.On handle n) : b.fresh.On handle n := by
  rw [On, SignalBoard.fresh, List.getElem?_append_left (List.getElem?_eq_some_iff.mp h).1]
  exact h

theorem On.copy (h : b.On handle n) (other : Nat) : (b.copy other).On handle n := by
  rw [On, SignalBoard.copy, List.getElem?_append_left (List.getElem?_eq_some_iff.mp h).1]
  exact h

theorem On.raise (h : b.On handle n) (other : Nat) : (b.raise other).On handle n := h

/-- The new handle is on the new signal. -/
theorem on_fresh (b : SignalBoard) : b.fresh.On b.handles.length b.raised.length := by
  simp [On, SignalBoard.fresh]

/-- A copy of a handle is on its signal. -/
theorem on_copy (h : b.On handle n) : (b.copy handle).On b.handles.length n := by
  simp [On, SignalBoard.copy, h.signal_eq]

/-- Three handles on a new signal: a new one and two copies of it. -/
def issue (b : SignalBoard) : SignalBoard :=
  (b.fresh.copy b.handles.length).copy b.handles.length

@[simp] theorem raised_issue (b : SignalBoard) : b.issue.raised = b.raised ++ [false] := rfl

theorem On.issue (h : b.On handle n) : b.issue.On handle n := (h.fresh.copy _).copy _

theorem on_issue (b : SignalBoard) {k : Nat} (hk : k < 3) :
    b.issue.On (b.handles.length + k) b.raised.length := by
  have hfresh := b.on_fresh
  have hcopy : (b.fresh.copy b.handles.length).On (b.handles.length + 1) b.raised.length := by
    have hlength : b.fresh.handles.length = b.handles.length + 1 := by simp [SignalBoard.fresh]
    exact hlength ▸ on_copy hfresh
  have hagain : b.issue.On (b.handles.length + 2) b.raised.length := by
    have hlength : (b.fresh.copy b.handles.length).handles.length = b.handles.length + 2 := by
      simp [SignalBoard.fresh, SignalBoard.copy]
    exact hlength ▸ on_copy (hfresh.copy _)
  match k, hk with
  | 0, _ => exact (hfresh.copy _).copy _
  | 1, _ => exact hcopy.copy _
  | 2, _ => exact hagain

/-- A signal that has been raised stays raised. -/
theorem isUp_raise_of_isUp (h : b.isUp other = true) (handle : Nat) :
    (b.raise handle).isUp other = true := by
  simp only [isUp, SignalBoard.signal, SignalBoard.raise, List.length_set,
    List.getD_eq_getElem?_getD, List.getElem?_set] at h ⊢
  split
  · split
    · rfl
    next hsame hlength =>
      rw [List.getElem?_eq_none (by omega)] at h
      cases h
  · exact h

/-- A signal is raised for the handles on it, and for no others. -/
theorem isUp_raise {m : Nat} (h : b.On handle n) (ho : b.On other m) (hn : n < b.raised.length) :
    (b.raise handle).isUp other = (decide (m = n) || b.isUp other) := by
  rw [(ho.raise handle).isUp_eq, ho.isUp_eq, SignalBoard.raise, h.signal_eq]
  by_cases hmn : m = n
  · subst hmn
    simp [List.getD_eq_getElem?_getD, hn]
  · simp [List.getD_eq_getElem?_getD, List.getElem?_set_ne (Ne.symm hmn), hmn]

end SignalBoard

end Labyrinth
