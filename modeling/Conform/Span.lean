/-!
# Spans

Where something stands in the source text: the offset of its first byte and the offset just after
its last one. Both bounds are 64-bit words, and nothing forces them to be in order, so a span whose
bounds are reversed is empty and has no length.
-/

namespace Conform

/-- A stretch of source text, from `start` up to but not including `stop`. -/
structure Span where
  start : UInt64
  stop : UInt64
deriving DecidableEq, Inhabited

namespace Span

/-- The number of bytes that the span covers: none when its bounds are reversed. -/
def length (s : Span) : UInt64 :=
  if s.start < s.stop then s.stop - s.start else 0

def isEmpty (s : Span) : Bool :=
  s.stop ≤ s.start

/-- In terms of natural numbers the length is the truncated difference of the bounds. -/
theorem toNat_length (s : Span) : s.length.toNat = s.stop.toNat - s.start.toNat := by
  unfold length
  split
  · next h =>
    have h' : s.start.toNat < s.stop.toNat := UInt64.lt_iff_toNat_lt.mp h
    exact UInt64.toNat_sub_of_le _ _ (UInt64.le_iff_toNat_le.mpr (Nat.le_of_lt h'))
  · next h =>
    have h' : ¬ s.start.toNat < s.stop.toNat := fun k => h (UInt64.lt_iff_toNat_lt.mpr k)
    simp only [UInt64.toNat_zero]
    omega

/-- A span is empty exactly when it has no length. -/
theorem isEmpty_iff (s : Span) : s.isEmpty = true ↔ s.length = 0 := by
  rw [← UInt64.toNat_inj, toNat_length]
  simp only [isEmpty, decide_eq_true_eq, UInt64.le_iff_toNat_le, UInt64.toNat_zero]
  omega

end Span

end Conform
