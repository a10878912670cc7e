import Mathlib
import Magnetofluid.Proofs.Exact.Arithmetic
import Magnetofluid.Text.Numeral

/-!
# Numerals of exact arithmetic

The real numbers as a number system whose numbers are read and written.  An integer and a decimal stand for the real
number that they denote.  Infinity and NaN are the quotients that they are elsewhere, and so zero; no real number is
infinite or NaN.  A text is that of the binary fraction that a number is, and that of NaN where it is none.
-/

namespace Magnetofluid

open Classical in
/-- A real number as an integer times a power of two, if it is one. -/
noncomputable def Binary.ofReal (x : ℝ) : Binary :=
  if h : ∃ p : ℕ × ℤ, |x| = p.1 * ((2 : ℕ) : ℝ) ^ p.2 then .finite (decide (x < 0)) h.choose.1 h.choose.2 else .nan

noncomputable instance : RealText ℝ where
  ofInteger? i := some i
  ofDecimal negative digits exponent := (if negative then -1 else 1) * digits * 10 ^ exponent
  infinity negative := if negative then -1 / 0 else 1 / 0
  nan := 0 / 0
  isNan _ := false
  isInfinite _ := false
  toBinary := Binary.ofReal
  truncate? x := some (if 0 ≤ x then ⌊x⌋ else ⌈x⌉)
  write x := (Binary.ofReal x).shortestText .plain
  scientific places x := (Binary.ofReal x).scientificText places

end Magnetofluid
