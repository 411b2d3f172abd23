import Mathlib.Algebra.Field.ZMod
import Mathlib.RingTheory.AdjoinRoot
import Mathlib.Tactic.LinearCombination
/-!
# Words as residues of binary polynomials

Bit `i` of a word is the coefficient of `X ^ i` of a polynomial over `ZMod 2`
(`poly`). Modulo `X ^ w + r` the words of width `w` are the residues
(`residue`): exclusive or adds them, a reduced shift multiplies by the root
(`residue_timesX`), and the shift-and-add loop multiplies (`residue_mul`).
-/

open Polynomial

namespace Binary
variable {w : ℕ}

noncomputable def poly (b : BitVec w) : (ZMod 2)[X] := ∑ i ∈ Finset.range w, if b.getLsbD i then X ^ i else 0

theorem coeff_poly (b : BitVec w) (i : ℕ) : (poly b).coeff i = if b.getLsbD i then 1 else 0 := by
  have hterm : ∀ j ∈ Finset.range w, (if b.getLsbD j then (X ^ j : (ZMod 2)[X]) else 0).coeff i =
      if j = i then (if b.getLsbD i then 1 else 0) else 0 := by
    intro j _
    by_cases hj : j = i
    · subst hj
      split <;> simp
    · split <;> simp [coeff_X_pow, Ne.symm hj]
  rw [poly, finsetSum_coeff, Finset.sum_congr rfl hterm, Finset.sum_ite_eq']
  by_cases hi : i < w
  · simp [hi]
  · simp [hi, BitVec.getLsbD_of_ge b i (by omega)]

theorem poly_injective : Function.Injective (poly (w := w)) := by
  intro a b h
  apply BitVec.eq_of_getLsbD_eq
  intro i _
  have hi := congrArg (fun p => p.coeff i) h
  simp only [coeff_poly] at hi
  have h01 : (0 : ZMod 2) ≠ 1 := by decide
  cases ha : a.getLsbD i <;> cases hb : b.getLsbD i <;> simp only [ha, hb, if_true] at hi ⊢
  · exact absurd hi h01
  · exact absurd hi h01.symm

@[simp] theorem poly_zero : poly (0 : BitVec w) = 0 := by
  ext i
  simp [coeff_poly]

theorem poly_one (hw : 0 < w) : poly (1 : BitVec w) = 1 := by
  ext i
  rw [coeff_poly, coeff_one]
  by_cases hi : i = 0
  · subst hi
    simp [hw]
  · rw [if_neg hi, if_neg]
    intro h
    have hbit : 0 < w ∧ i = 0 := by simpa using h
    exact hi hbit.2

theorem poly_xor (a b : BitVec w) : poly (a ^^^ b) = poly a + poly b := by
  have h2 : (1 : ZMod 2) + 1 = 0 := by decide
  ext i
  rw [coeff_add]
  cases ha : a.getLsbD i <;> cases hb : b.getLsbD i <;> simp [coeff_poly, ha, hb, h2]

/-- A shift drops the bit that leaves the word. -/
theorem poly_shiftLeft (b : BitVec w) : poly (b <<< 1) + (if b.msb then X ^ w else 0) = X * poly b := by
  ext i
  rw [coeff_add]
  rcases i with _ | i
  · rcases w with _ | w
    · simp [coeff_poly, BitVec.msb_eq_getLsbD_last]
    · split <;> simp [coeff_poly]
  · rw [coeff_X_mul, coeff_poly, coeff_poly, BitVec.getLsbD_shiftLeft]
    by_cases hw : i + 1 = w
    · subst hw
      have hmsb : b.getLsbD i = b.msb := by rw [BitVec.msb_eq_getLsbD_last, Nat.add_sub_cancel]
      have hout : (b <<< 1).getLsbD (i + 1) = false := BitVec.getLsbD_of_ge _ _ (le_refl _)
      rw [BitVec.getLsbD_shiftLeft] at hout
      rw [hout, hmsb]
      cases b.msb <;> simp
    · have hcoeff : (if b.msb then (X ^ w : (ZMod 2)[X]) else 0).coeff (i + 1) = 0 := by
        split <;> simp [coeff_X_pow, hw]
      rw [hcoeff, add_zero]
      by_cases hi : i + 1 < w
      · simp [hi]
      · simp [hi, BitVec.getLsbD_of_ge b i (by omega)]

/-! ## Residues -/

noncomputable def modulus (r : BitVec w) : (ZMod 2)[X] := X ^ w + poly r

theorem degree_poly_lt (b : BitVec w) : (poly b).degree < w := by
  rw [degree_lt_iff_coeff_zero]
  intro i hi
  simp [coeff_poly, BitVec.getLsbD_of_ge b i hi]

theorem degree_modulus (r : BitVec w) : (modulus r).degree = w := by
  rw [modulus, degree_add_eq_left_of_degree_lt, degree_X_pow]
  rw [degree_X_pow]
  exact degree_poly_lt r

/-- A word as an element of the ring of polynomials modulo `X ^ w + r`. -/
noncomputable def residue (r b : BitVec w) : AdjoinRoot (modulus r) := AdjoinRoot.mk _ (poly b)

variable (r : BitVec w)

/-- Words are reduced, so different ones are different residues. -/
theorem residue_injective : Function.Injective (residue r) := by
  intro a b h
  apply poly_injective
  have hdvd : modulus r ∣ poly a - poly b := AdjoinRoot.mk_eq_mk.1 h
  have hdeg : (poly a - poly b).degree < (modulus r).degree := by
    rw [degree_modulus]
    exact (degree_sub_le _ _).trans_lt (max_lt (degree_poly_lt a) (degree_poly_lt b))
  exact sub_eq_zero.1 (eq_zero_of_dvd_of_degree_lt hdvd hdeg)

@[simp] theorem residue_zero : residue r 0 = 0 := by
  rw [residue, poly_zero, map_zero]

theorem residue_one (hw : 0 < w) : residue r 1 = 1 := by
  rw [residue, poly_one hw, map_one]

theorem residue_xor (a b : BitVec w) : residue r (a ^^^ b) = residue r a + residue r b := by
  rw [residue, poly_xor, map_add]
  rfl

/-- The ring has characteristic two. -/
theorem two_eq_zero : (2 : AdjoinRoot (modulus r)) = 0 := by
  have h : (2 : (ZMod 2)[X]) = 0 := by
    rw [← C_ofNat]
    exact (congrArg C (by decide : (2 : ZMod 2) = 0)).trans C_0
  rw [← map_ofNat (AdjoinRoot.mk (modulus r)) 2, h, map_zero]

/-- The shift by one bit, reduced. -/
def timesX (b : BitVec w) : BitVec w := if b.msb then b <<< 1 ^^^ r else b <<< 1

theorem residue_timesX (b : BitVec w) : residue r (timesX r b) = AdjoinRoot.root (modulus r) * residue r b := by
  have hshift := congrArg (AdjoinRoot.mk (modulus r)) (poly_shiftLeft b)
  rw [map_mul, map_add, AdjoinRoot.mk_X] at hshift
  rw [timesX]
  split
  next hmsb =>
    have hr : AdjoinRoot.mk (modulus r) (X ^ w) = residue r r := by
      have h0 : AdjoinRoot.mk (modulus r) (X ^ w + poly r) = 0 := AdjoinRoot.mk_self
      rw [map_add, ← residue] at h0
      linear_combination h0 - residue r r * two_eq_zero r
    rw [if_pos hmsb, hr] at hshift
    rw [residue_xor]
    exact hshift
  next hmsb =>
    rw [if_neg hmsb, map_zero, add_zero] at hshift
    exact hshift

/-- One turn of the shift-and-add loop: the sum so far and the shifted factor. -/
def mulStep (m : BitVec w) (p : BitVec w × BitVec w) (i : ℕ) : BitVec w × BitVec w :=
  (if m.getLsbD i then p.1 ^^^ p.2 else p.1, timesX r p.2)

/-- After `n` turns the factor is shifted `n` times and the lowest `n` bits of
`m` are accounted for. -/
theorem residue_mulSteps (m b : BitVec w) (n : ℕ) :
    residue r ((List.range n).foldl (mulStep r m) (0, b)).1 =
        AdjoinRoot.mk (modulus r) (∑ i ∈ Finset.range n, if m.getLsbD i then X ^ i else 0) * residue r b ∧
      residue r ((List.range n).foldl (mulStep r m) (0, b)).2 = AdjoinRoot.root (modulus r) ^ n * residue r b := by
  induction n with
  | zero =>
    simp only [List.range_zero, List.foldl_nil, Finset.range_zero, Finset.sum_empty, map_zero, zero_mul, pow_zero,
      one_mul, and_true]
    exact residue_zero r
  | succ n ih =>
    obtain ⟨hsum, hshift⟩ := ih
    rw [List.range_succ, List.foldl_append, List.foldl_cons, List.foldl_nil, Finset.sum_range_succ, map_add, add_mul]
    constructor
    · rw [mulStep]
      split
      next hbit => rw [residue_xor, hsum, hshift, map_pow, AdjoinRoot.mk_X]
      next hbit => rw [hsum, map_zero, zero_mul, add_zero]
    · rw [mulStep, residue_timesX, hshift, pow_succ]
      ring

/-- The whole loop multiplies. -/
theorem residue_mul (m b : BitVec w) :
    residue r ((List.range w).foldl (mulStep r m) (0, b)).1 = residue r m * residue r b :=
  (residue_mulSteps r m b w).1

end Binary
