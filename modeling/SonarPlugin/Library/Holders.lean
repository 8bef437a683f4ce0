import SonarPlugin.Library.Ledger
import Mathlib.Algebra.BigOperators.Group.Finset.Piecewise

namespace SonarPlugin.Library

/-- The live handles of the ledger are shared out among `n` holders, save
those in `lost`, which nobody holds any more. -/
def Ledger.Shared (L : Ledger) (held : Nat → Multiset Nat) (n : Nat) (lost : Multiset Nat) : Prop :=
  L.Owns (lost + ∑ i ∈ Finset.range n, held i)

theorem sum_update_add {M : Type} [AddCommMonoid M] {n i : Nat} (hi : i < n) (f : Nat → M) (b : M) :
    ∑ j ∈ Finset.range n, Function.update f i b j + f i = ∑ j ∈ Finset.range n, f j + b := by
  have hmem := Finset.mem_range.mpr hi
  have hsum := Finset.sum_update_of_mem hmem f (f i)
  rw [Function.update_eq_self] at hsum
  rw [Finset.sum_update_of_mem hmem, hsum]
  abel

theorem sum_update_fresh {M : Type} [AddCommMonoid M] (n : Nat) (f : Nat → M) (b : M) :
    ∑ j ∈ Finset.range (n + 1), Function.update f n b j = ∑ j ∈ Finset.range n, f j + b := by
  have hsum : ∑ j ∈ Finset.range n, Function.update f n b j = ∑ j ∈ Finset.range n, f j := by
    apply Finset.sum_congr rfl
    intro j hj
    have hne : j ≠ n := Nat.ne_of_lt (Finset.mem_range.mp hj)
    simp [hne]
  rw [Finset.sum_range_succ, hsum, Function.update_self]

namespace Ledger.Shared

variable {L L' : Ledger} {held : Nat → Multiset Nat} {n i : Nat} {lost m : Multiset Nat}

theorem update (h : L.Shared held n lost) (hi : i < n)
    (hL : ∀ R, L.Owns (R + held i) → L'.Owns (R + m)) :
    L'.Shared (Function.update held i m) n lost := by
  have hzero := sum_update_add hi held 0
  have hm := sum_update_add hi (Function.update held i 0) m
  rw [Function.update_idem, Function.update_self, add_zero] at hm
  rw [add_zero] at hzero
  rw [Shared, ← hzero, ← add_assoc] at h
  rw [Shared, hm, ← add_assoc]
  exact hL _ h

theorem grow (h : L.Shared held n lost) (hL : ∀ R, L.Owns R → L'.Owns (R + m)) :
    L'.Shared (Function.update held n m) (n + 1) lost := by
  rw [Shared, sum_update_fresh, ← add_assoc]
  exact hL _ h

theorem drop (h : L.Shared held n lost) (hi : i < n) :
    L.Shared (Function.update held i 0) n (lost + held i) := by
  have hzero := sum_update_add hi held 0
  rw [add_zero] at hzero
  refine h.congr ?_
  rw [← hzero]
  abel

end Ledger.Shared

end SonarPlugin.Library
