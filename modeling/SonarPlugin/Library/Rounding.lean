import Mathlib.Data.Rat.Floor
import Mathlib.Data.Int.Log
import Mathlib.Algebra.Order.Field.Power
import Mathlib.Tactic.Linarith
import Mathlib.Tactic.NormNum

namespace SonarPlugin.Library

/-- The conversion of a rational to an integer that drops the fraction. -/
def truncate (q : ℚ) : Int := if 0 ≤ q then ⌊q⌋ else ⌈q⌉

/-- The nearest integer, and of two equally near the even one. -/
def halfEven (q : ℚ) : Int :=
  let rest := q - ⌊q⌋
  if rest < 1 / 2 then ⌊q⌋
  else if 1 / 2 < rest then ⌊q⌋ + 1
  else if 2 ∣ ⌊q⌋ then ⌊q⌋
  else ⌊q⌋ + 1

/-- A binary floating-point format: its finite numbers are the multiples of
`2 ^ emin` of at most `precision` bits and below `2 ^ emax`. -/
structure Format where
  precision : Nat
  emin : Int
  emax : Int

namespace Format

def single : Format := ⟨24, -149, 128⟩

def double : Format := ⟨53, -1074, 1024⟩

def ulp (F : Format) (q : ℚ) : ℚ := 2 ^ max (Int.log 2 |q| - (F.precision - 1)) F.emin

def round (F : Format) (q : ℚ) : ℚ := halfEven (q / F.ulp q) * F.ulp q

def overflows (F : Format) (q : ℚ) : Bool := (2 : ℚ) ^ F.emax ≤ |F.round q|

def Represents (F : Format) (q : ℚ) : Prop :=
  (∃ (m : Int) (k : Int), |m| < 2 ^ F.precision ∧ F.emin ≤ k ∧ q = m * 2 ^ k) ∧ |q| < 2 ^ F.emax

end Format

/-- How a computation with two floating-point types rounds its results to either. -/
structure Rounding where
  toDouble : ℚ → ℚ
  toFloat : ℚ → ℚ

namespace Rounding

def exact : Rounding := ⟨id, id⟩

def ieee : Rounding := ⟨Format.double.round, Format.single.round⟩

end Rounding

section

variable {q : ℚ} {n : Int} {F : Format}

theorem truncate_of_nonneg (hq : 0 ≤ q) : truncate q = ⌊q⌋ := if_pos hq

theorem truncate_nonpos (hq : q < 0) : truncate q ≤ 0 := by
  rw [truncate, if_neg (not_le.mpr hq)]
  apply Int.ceil_le.mpr
  simpa using hq.le

theorem le_truncate (hn : 0 < n) : n ≤ truncate q ↔ (n : ℚ) ≤ q := by
  have hn' : (0 : ℚ) < n := by exact_mod_cast hn
  by_cases hq : 0 ≤ q
  · rw [truncate_of_nonneg hq]
    exact Int.le_floor
  · have htr := truncate_nonpos (not_le.mp hq)
    constructor
    · intro h
      omega
    · intro h
      linarith

theorem truncate_lt (hn : 0 < n) : truncate q < n ↔ q < n := by
  have h := not_congr (le_truncate (q := q) hn)
  simpa only [not_le] using h

theorem halfEven_intCast (n : Int) : halfEven n = n := by
  simp [halfEven]

/-- The spacing around a number of the format divides it. -/
theorem Format.ulp_dvd {m k : Int} (hm : |m| < 2 ^ F.precision) (hk : F.emin ≤ k) :
    ∃ n : Int, (m : ℚ) * 2 ^ k = n * F.ulp (m * 2 ^ k) := by
  by_cases hzero : m = 0
  · subst hzero
    exact ⟨0, by simp⟩
  have hpos : 0 < |(m : ℚ) * 2 ^ k| := by positivity
  have hlt : |(m : ℚ) * 2 ^ k| < ((2 : Nat) : ℚ) ^ ((F.precision : Int) + k) := by
    have hm' : |(m : ℚ)| < 2 ^ F.precision := by exact_mod_cast hm
    have hk' : (0 : ℚ) < 2 ^ k := by positivity
    rw [abs_mul, abs_of_pos hk', Nat.cast_two, zpow_add₀ (by norm_num), zpow_natCast]
    exact mul_lt_mul_of_pos_right hm' hk'
  have hlog := (Int.lt_zpow_iff_log_lt (by norm_num) hpos).mp hlt
  have hj : ∃ j : Nat, k = max (Int.log 2 |(m : ℚ) * 2 ^ k| - (F.precision - 1)) F.emin + j :=
    Int.le.dest (by omega) |>.imp fun _ => Eq.symm
  obtain ⟨j, hj⟩ := hj
  refine ⟨m * 2 ^ j, ?_⟩
  nth_rewrite 1 [hj]
  rw [zpow_add₀ (by norm_num), zpow_natCast, Format.ulp]
  push_cast
  ring

theorem Format.round_of_represents (hq : F.Represents q) : F.round q = q := by
  obtain ⟨⟨m, k, hm, hk, rfl⟩, -⟩ := hq
  obtain ⟨n, hn⟩ := F.ulp_dvd hm hk
  have hulp : F.ulp ((m : ℚ) * 2 ^ k) ≠ 0 := by
    unfold Format.ulp
    positivity
  have hquot : (m : ℚ) * 2 ^ k / F.ulp (m * 2 ^ k) = n := by
    rw [div_eq_iff hulp]
    exact hn
  rw [Format.round, hquot, halfEven_intCast]
  exact hn.symm

theorem Format.not_overflows (hq : F.Represents q) : F.overflows q = false := by
  rw [overflows, round_of_represents hq]
  simpa using hq.2

end

end SonarPlugin.Library
