import Mathlib.Algebra.BigOperators.Group.Finset.Piecewise
import Mathlib.Algebra.Order.BigOperators.Group.Finset
import Mathlib.Data.Fintype.BigOperators
/-!
# A weight summed over a pool

`tally f t` is the sum of `f` over the members of a finite pool, where `t` says
what state each is in. A step of one member changes it by that member's
weight (`tally_update`), one of all by at most so much for each (`tally_le`).
-/

namespace Pool

variable {ι W : Type} [Fintype ι]

def tally (f : W → ℕ) (t : ι → W) : ℕ := ∑ i, f (t i)

theorem tally_update [DecidableEq ι] (f : W → ℕ) (t : ι → W) (i : ι) (w : W) :
    tally f (Function.update t i w) + f (t i) = tally f t + f w := by
  have hupdate : tally f (Function.update t i w) = ∑ j, Function.update (fun j => f (t j)) i (f w) j :=
    Finset.sum_congr rfl (fun j _ => by simp only [Function.update_apply]; split <;> rfl)
  have hsplit : tally f t = f (t i) + ∑ j ∈ Finset.univ \ {i}, f (t j) :=
    Finset.sum_eq_add_sum_sdiff_singleton_of_mem (Finset.mem_univ i) _
  rw [hupdate, Finset.sum_update_of_mem (Finset.mem_univ i), hsplit]
  omega

theorem tally_eq_zero {f : W → ℕ} {t : ι → W} (h : ∀ i, f (t i) = 0) : tally f t = 0 :=
  Finset.sum_eq_zero (fun i _ => h i)

theorem tally_le {f : W → ℕ} {t t' : ι → W} {k : ℕ} (h : ∀ i, f (t' i) ≤ f (t i) + k) :
    tally f t' ≤ tally f t + Fintype.card ι * k := by
  calc tally f t' ≤ ∑ i, (f (t i) + k) := Finset.sum_le_sum (fun i _ => h i)
    _ = tally f t + Fintype.card ι * k := by simp [tally, Finset.sum_add_distrib]

end Pool
