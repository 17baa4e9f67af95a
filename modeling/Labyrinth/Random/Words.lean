/-!
# Drawing from a stream of words

A source of randomness delivers 32-bit words. Everything else is made of them: 64-bit
words, fractions, yes or no with a chance, and numbers below a bound. `below_lt` says
that a number below a bound is below it, whatever words are delivered.
-/

namespace Labyrinth

/-- The number of 32-bit words. -/
def wordSize : Nat := 4294967296

/-- A state from which 32-bit words are drawn. -/
class WordSource (σ : Type) where
  /-- The next word, and the state after it. -/
  next : σ → UInt32 × σ

namespace WordSource

variable {σ : Type} [WordSource σ]

/-- The next 64-bit word: its low half is drawn first. -/
def next64 (s : σ) : UInt64 × σ :=
  let (low, s) := next s
  let (high, s) := next s
  (high.toUInt64 <<< 32 ||| low.toUInt64, s)

/-- A fraction: one of 2^53 equal steps from 0 up to, and without, 1. -/
def fraction (s : σ) : Float × σ :=
  let (w, s) := next64 s
  ((w >>> 11).toFloat / 9007199254740992.0, s)

/-- Yes with a chance between 0 and 1, both excluded. -/
def chance (p : Float) (s : σ) : Bool × σ :=
  let (w, s) := next64 s
  (decide (w < (p * 18446744073709551616.0).toUInt64), s)

/-- A number below a bound of at most 2^32 - 1. A word is scaled to the bound; when its fraction
shows that the words after it may count, one more word is drawn and carried over. -/
def below (bound : Nat) (s : σ) : Nat × σ :=
  let (w, s) := next s
  let scaled := w.toNat * bound
  if wordSize - bound < scaled % wordSize then
    let (v, s) := next s
    ((scaled * wordSize + v.toNat * bound) / (wordSize * wordSize), s)
  else (scaled / wordSize, s)

/-- A number below a positive bound is below it. -/
theorem below_lt {bound : Nat} (h : 0 < bound) (s : σ) : (below bound s).1 < bound := by
  have hw : (next s).1.toNat < wordSize := (next s).1.toNat_lt
  unfold below
  simp only
  split
  · have hv : (next (next s).2).1.toNat < wordSize := (next (next s).2).1.toNat_lt
    have h1 : (next s).1.toNat * bound ≤ (wordSize - 1) * bound :=
      Nat.mul_le_mul_right _ (by omega)
    have h2 : (next (next s).2).1.toNat * bound < wordSize * bound :=
      Nat.mul_lt_mul_of_pos_right hv h
    simp only
    rw [Nat.div_lt_iff_lt_mul (by decide)]
    simp only [wordSize] at h1 h2 ⊢
    omega
  · simp only
    rw [Nat.div_lt_iff_lt_mul (by decide), Nat.mul_comm bound]
    exact Nat.mul_lt_mul_of_pos_right hw h

end WordSource

end Labyrinth
