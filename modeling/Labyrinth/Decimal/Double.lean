/-!
# Doubles by their bits

A double is kept as its 64 bits, so that a value which is no number keeps the bits it was
given with. Arithmetic is that of `Float`. `lesser_of_isNaN` and `lesser_of_not_le`
say which of two doubles is the smaller one.
-/

namespace Labyrinth

/-- A double, told apart from others by its bits. -/
structure Double where
  /-- Sign, exponent and significand. -/
  bits : UInt64
  deriving DecidableEq, Repr

namespace Double

/-- The bits of a number. -/
def ofFloat (x : Float) : Double := ⟨x.toBits⟩

/-- The number that the bits stand for. -/
def toFloat (d : Double) : Float := Float.ofBits d.bits

/-- The double nearest to a natural number. -/
def ofNat (n : Nat) : Double := ofFloat (Float.ofNat n)

instance : OfScientific Double where
  ofScientific m s e := ofFloat (OfScientific.ofScientific m s e)

instance : Add Double where
  add a b := ofFloat (a.toFloat + b.toFloat)

instance : Mul Double where
  mul a b := ofFloat (a.toFloat * b.toFloat)

/-- The smaller of two doubles. What is not a number gives way, and of two equal ones, such as the
two zeros, the second is taken. -/
def lesser (a b : Double) : Double :=
  if a.toFloat.isNaN || b.toFloat ≤ a.toFloat then b else a

/-- Something that is not a number gives way. -/
theorem lesser_of_isNaN {a : Double} (h : a.toFloat.isNaN = true) (b : Double) :
    lesser a b = b := by
  rw [lesser, h, Bool.true_or, if_pos rfl]

/-- A number stays when the other one is not at most as large. -/
theorem lesser_of_not_le {a b : Double} (h : a.toFloat.isNaN = false)
    (hab : ¬ b.toFloat ≤ a.toFloat) : lesser a b = a := by
  rw [lesser, h, Bool.false_or, if_neg (by simpa only [decide_eq_true_eq] using hab)]

end Double

end Labyrinth
