import Mathlib.Data.Int.Log
import Mathlib.Data.Rat.Floor
import Mathlib.Tactic.Linarith
import Mathlib.Tactic.LinearCombination
import Mathlib.Tactic.NormNum
import Mathlib.Tactic.Positivity
import Mathlib.Tactic.Ring

/-!
# Lib.Rounding

Rounding a rational to the grid of binary64: fifty-three significant bits, no grid finer than
`2 ^ (-1074)`, ties to the even multiple. The exponent is not bounded from above here: what
overflows is a matter of the number type, `Lib.Binary64`.
-/

namespace NolagCore
namespace Lib

/-! ## To a whole number -/

/-- The nearest whole number, the even one of two. -/
def roundEven (q : ℚ) : Int :=
  if q - ⌊q⌋ < 1 / 2 then ⌊q⌋
  else if 1 / 2 < q - ⌊q⌋ then ⌊q⌋ + 1
  else if ⌊q⌋ % 2 = 0 then ⌊q⌋
  else ⌊q⌋ + 1

theorem roundEven_error (q : ℚ) : |q - roundEven q| ≤ 1 / 2 := by
  have hle := Int.floor_le q
  have hlt := Int.lt_floor_add_one q
  rw [abs_le]
  unfold roundEven
  split
  · constructor <;> linarith
  · split
    · push_cast
      constructor <;> linarith
    · split
      · constructor <;> linarith
      · push_cast
        constructor <;> linarith

theorem roundEven_mono {q r : ℚ} (h : q ≤ r) : roundEven q ≤ roundEven r := by
  have hq := roundEven_error q
  have hr := roundEven_error r
  rw [abs_le] at hq hr
  by_contra hlt
  have hstep : roundEven r + 1 ≤ roundEven q := by omega
  have hcast : (roundEven r : ℚ) + 1 ≤ roundEven q := by exact_mod_cast hstep
  -- only a shared tie could give two answers, and one value has one answer
  have heq : q = r := by linarith
  subst heq
  omega

theorem roundEven_intCast (n : Int) : roundEven n = n := by
  unfold roundEven
  simp

/-- A value within half a unit of an even number rounds to it. -/
theorem roundEven_eq_of_even {q : ℚ} {n : Int} (heven : n % 2 = 0) (h : |q - n| ≤ 1 / 2) :
    roundEven q = n := by
  have hle := Int.floor_le q
  have hlt := Int.lt_floor_add_one q
  rw [abs_le] at h
  have hlow : n - 1 ≤ ⌊q⌋ := by
    rw [Int.le_floor]
    push_cast
    linarith
  have hhigh : ⌊q⌋ < n + 1 := by
    rw [Int.floor_lt]
    push_cast
    linarith
  rcases Int.lt_or_le ⌊q⌋ n with hbelow | habove
  · have hf : ⌊q⌋ = n - 1 := by omega
    have hodd : (n - 1) % 2 = 1 := by omega
    unfold roundEven
    rw [hf]
    push_cast
    rw [if_neg (by linarith)]
    split
    · omega
    · rw [if_neg (by omega)]
      omega
  · have hf : ⌊q⌋ = n := by omega
    unfold roundEven
    rw [hf]
    split
    · rfl
    · rw [if_neg (by linarith)]

/-! ## To the grid -/

/-- The exponent of the last place of a number of this size. -/
def lastPlace (x : ℚ) : Int := max (Int.log 2 |x| - 52) (-1074)

/-- The distance of neighbours on the grid about `x`. -/
def spacing (x : ℚ) : ℚ := 2 ^ lastPlace x

/-- Round to the grid. -/
def nearest (x : ℚ) : ℚ := roundEven (x / spacing x) * spacing x

theorem spacing_pos (x : ℚ) : 0 < spacing x := zpow_pos (by norm_num) (lastPlace x)

theorem lastPlace_ge (x : ℚ) : -1074 ≤ lastPlace x := le_max_right _ _

theorem log_le_lastPlace (x : ℚ) : Int.log 2 |x| ≤ lastPlace x + 52 := by
  have h := le_max_left (Int.log 2 |x| - 52) (-1074)
  unfold lastPlace
  omega

theorem two_zpow_mono {d e : Int} (h : d ≤ e) : (2 : ℚ) ^ d ≤ 2 ^ e :=
  zpow_le_zpow_right₀ (by norm_num) h

/-- No number has more than fifty-three bits before its last place. -/
theorem abs_lt_spacing (x : ℚ) : |x| < 2 ^ 53 * spacing x := by
  have hlog := Int.lt_zpow_succ_log_self (R := ℚ) (by norm_num : 1 < 2) |x|
  have hpow : (2 : ℚ) ^ (Int.log 2 |x| + 1) ≤ 2 ^ ((53 : Int) + lastPlace x) := by
    apply two_zpow_mono
    have := log_le_lastPlace x
    omega
  unfold spacing
  calc |x| < 2 ^ (Int.log 2 |x| + 1) := by exact_mod_cast hlog
    _ ≤ 2 ^ ((53 : Int) + lastPlace x) := hpow
    _ = 2 ^ 53 * 2 ^ lastPlace x := by
      rw [zpow_add₀ (by norm_num)]
      norm_num

/-- Where the grid is not the finest, a number has all of its fifty-three bits. -/
theorem spacing_le_of_normal {x : ℚ} (hx : x ≠ 0) (h : -1074 < lastPlace x) :
    2 ^ 52 * spacing x ≤ |x| := by
  have hlog := Int.zpow_log_le_self (R := ℚ) (by norm_num : 1 < 2) (abs_pos.2 hx)
  have hplace : lastPlace x = Int.log 2 |x| - 52 := by
    unfold lastPlace at h ⊢
    omega
  unfold spacing
  calc 2 ^ 52 * (2 : ℚ) ^ lastPlace x = 2 ^ ((52 : Int) + lastPlace x) := by
        rw [zpow_add₀ (by norm_num)]
        norm_num
    _ = 2 ^ Int.log 2 |x| := by
      rw [hplace]
      congr 1
      omega
    _ ≤ |x| := by exact_mod_cast hlog

theorem nearest_error (x : ℚ) : |x - nearest x| ≤ spacing x / 2 := by
  have hpos := spacing_pos x
  have herror := roundEven_error (x / spacing x)
  have hsplit : x - nearest x = (x / spacing x - roundEven (x / spacing x)) * spacing x := by
    unfold nearest
    rw [sub_mul, div_mul_cancel₀ _ hpos.ne']
  rw [hsplit, abs_mul, abs_of_pos hpos]
  calc |x / spacing x - roundEven (x / spacing x)| * spacing x
      ≤ 1 / 2 * spacing x := mul_le_mul_of_nonneg_right herror hpos.le
    _ = spacing x / 2 := by ring

theorem nearest_zero : nearest 0 = 0 := by
  have h := roundEven_intCast 0
  rw [Int.cast_zero] at h
  unfold nearest
  rw [zero_div, h, Int.cast_zero, zero_mul]

/-- A multiple of the last place is its own rounding. -/
theorem nearest_of_multiple {x : ℚ} {n : Int} (h : x = n * spacing x) : nearest x = x := by
  have hquot : x / spacing x = n := by
    rw [div_eq_iff (spacing_pos x).ne']
    exact h
  unfold nearest
  rw [hquot, roundEven_intCast]
  exact h.symm

/-! ## Order -/

/-- A bound that is a whole multiple of the spacing survives the rounding. -/
theorem nearest_le_of_multiple {x : ℚ} {n : Int} (h : x ≤ n * spacing x) :
    nearest x ≤ n * spacing x := by
  have hpos := spacing_pos x
  have hquot : x / spacing x ≤ n := by
    rw [div_le_iff₀ hpos]
    exact h
  have hround : roundEven (x / spacing x) ≤ n := by
    have := roundEven_mono hquot
    rwa [roundEven_intCast] at this
  unfold nearest
  exact mul_le_mul_of_nonneg_right (by exact_mod_cast hround) hpos.le

theorem le_nearest_of_multiple {x : ℚ} {n : Int} (h : n * spacing x ≤ x) :
    n * spacing x ≤ nearest x := by
  have hpos := spacing_pos x
  have hquot : (n : ℚ) ≤ x / spacing x := by
    rw [le_div_iff₀ hpos]
    exact h
  have hround : n ≤ roundEven (x / spacing x) := by
    have := roundEven_mono hquot
    rwa [roundEven_intCast] at this
  unfold nearest
  exact mul_le_mul_of_nonneg_right (by exact_mod_cast hround) hpos.le

theorem nearest_nonneg {x : ℚ} (h : 0 ≤ x) : 0 ≤ nearest x := by
  have hzero := le_nearest_of_multiple (x := x) (n := 0) (by simpa using h)
  simpa using hzero

/-- Rounding keeps the order: numbers of one spacing are rounded on one grid, and between numbers
of different spacings lies a power of two that is on both grids. -/
theorem nearest_mono {x y : ℚ} (hx : 0 ≤ x) (h : x ≤ y) : nearest x ≤ nearest y := by
  rcases hx.eq_or_lt with rfl | hx
  · rw [nearest_zero]
    exact nearest_nonneg h
  have hy : 0 < y := hx.trans_le h
  by_cases hsame : lastPlace x = lastPlace y
  · have hspacing : spacing x = spacing y := by
      unfold spacing
      rw [hsame]
    have hquot : x / spacing y ≤ y / spacing y := div_le_div_of_nonneg_right h (spacing_pos y).le
    unfold nearest
    rw [hspacing]
    exact mul_le_mul_of_nonneg_right (by exact_mod_cast roundEven_mono hquot) (spacing_pos y).le
  · have hlog : Int.log 2 |x| ≤ Int.log 2 |y| := by
      rw [abs_of_pos hx, abs_of_pos hy]
      exact Int.log_mono_right hx h
    have hplace : lastPlace x < lastPlace y := by
      unfold lastPlace at hsame ⊢
      omega
    have hnormal : 2 ^ 52 * spacing y ≤ |y| := by
      apply spacing_le_of_normal hy.ne'
      have := lastPlace_ge x
      omega
    rw [abs_of_pos hy] at hnormal
    have habove : 2 ^ 52 * spacing y ≤ nearest y := by
      have := le_nearest_of_multiple (x := y) (n := 2 ^ 52) (by exact_mod_cast hnormal)
      exact_mod_cast this
    have hbelow : nearest x ≤ 2 ^ 52 * spacing y := by
      -- the power of two as a multiple of the finer spacing
      obtain ⟨d, hd⟩ : ∃ d : Nat, lastPlace y = lastPlace x + (d + 1 : Nat) :=
        ⟨(lastPlace y - lastPlace x - 1).toNat, by omega⟩
      have hmultiple : 2 ^ 52 * spacing y = ((2 ^ (53 + d) : Int) : ℚ) * spacing x := by
        unfold spacing
        rw [hd, zpow_add₀ (by norm_num), zpow_natCast]
        push_cast
        ring
      have hlt := abs_lt_spacing x
      rw [abs_of_pos hx] at hlt
      rw [hmultiple]
      apply nearest_le_of_multiple
      have hpow : (2 : ℚ) ^ 53 ≤ 2 ^ (53 + d) := pow_le_pow_right₀ (by norm_num) (by omega)
      push_cast
      exact hlt.le.trans (mul_le_mul_of_nonneg_right hpow (spacing_pos x).le)
    exact hbelow.trans habove

/-- Only a number that is finer than the grid can round to zero. -/
theorem nearest_le_neg {x : ℚ} (h : x ≤ -2 ^ (-1074 : Int)) : nearest x ≤ -2 ^ (-1074 : Int) := by
  have hfinest : (0 : ℚ) < 2 ^ (-1074 : Int) := zpow_pos (by norm_num) _
  have hneg : x < 0 := by linarith
  have hspacing : 2 ^ (-1074 : Int) ≤ spacing x := two_zpow_mono (lastPlace_ge x)
  have hle : spacing x ≤ -x := by
    by_cases hnormal : -1074 < lastPlace x
    · have hmany := spacing_le_of_normal hneg.ne hnormal
      rw [abs_of_neg hneg] at hmany
      have hpos := spacing_pos x
      linarith
    · have hplace : lastPlace x = -1074 := by
        have := lastPlace_ge x
        omega
      unfold spacing
      rw [hplace]
      linarith
  have hround := nearest_le_of_multiple (x := x) (n := -1) (by push_cast; linarith)
  push_cast at hround
  linarith

/-- What is closer to a multiple than half the spacing rounds to it. -/
theorem nearest_of_close {x : ℚ} {n : Int} (h : |x - n * spacing x| < spacing x / 2) :
    nearest x = n * spacing x := by
  have hpos := spacing_pos x
  have herror := nearest_error x
  rw [abs_le] at herror
  rw [abs_lt] at h
  unfold nearest at herror ⊢
  have hlow : ((roundEven (x / spacing x) : ℚ) - n) * spacing x < 1 * spacing x := by linarith
  have hhigh : -1 * spacing x < ((roundEven (x / spacing x) : ℚ) - n) * spacing x := by linarith
  have hlow' := lt_of_mul_lt_mul_right hlow hpos.le
  have hhigh' := lt_of_mul_lt_mul_right hhigh hpos.le
  have heq : roundEven (x / spacing x) = n := by
    have h1 : (roundEven (x / spacing x) : ℚ) < n + 1 := by linarith
    have h2 : (n : ℚ) < roundEven (x / spacing x) + 1 := by linarith
    have h1' : roundEven (x / spacing x) < n + 1 := by exact_mod_cast h1
    have h2' : n < roundEven (x / spacing x) + 1 := by exact_mod_cast h2
    omega
  rw [heq]

/-! ## Whole numbers -/

/-- A number without a fraction. -/
def Whole (x : ℚ) : Prop := ∃ n : Int, x = n

theorem whole_spacing {x : ℚ} (h : 0 ≤ lastPlace x) :
    spacing x = ((2 ^ (lastPlace x).toNat : Int) : ℚ) := by
  obtain ⟨d, hd⟩ := Int.eq_ofNat_of_zero_le h
  unfold spacing
  rw [hd, Int.toNat_natCast, zpow_natCast]
  push_cast
  rfl

/-- The rounding is whole just where some whole number is within half the spacing. -/
theorem whole_nearest_iff (x : ℚ) : Whole (nearest x) ↔ ∃ n : Int, |x - n| ≤ spacing x / 2 := by
  constructor
  · rintro ⟨n, hn⟩
    refine ⟨n, ?_⟩
    rw [← hn]
    exact nearest_error x
  · rintro ⟨n, hn⟩
    rcases Int.lt_or_le (lastPlace x) 0 with hfine | hcoarse
    · -- the whole numbers are the even multiples of a spacing of at most a half
      obtain ⟨d, hd⟩ : ∃ d : Nat, lastPlace x = -((d + 1 : Nat) : Int) :=
        ⟨(-lastPlace x - 1).toNat, by omega⟩
      have hpos := spacing_pos x
      have hunit : spacing x * 2 ^ (d + 1) = 1 := by
        unfold spacing
        rw [hd, zpow_neg, zpow_natCast]
        exact inv_mul_cancel₀ (by positivity)
      have hquot : |x / spacing x - ((n * 2 ^ (d + 1) : Int) : ℚ)| ≤ 1 / 2 := by
        have hsplit : x / spacing x - ((n * 2 ^ (d + 1) : Int) : ℚ) = (x - n) / spacing x := by
          push_cast
          rw [eq_div_iff hpos.ne', sub_mul, div_mul_cancel₀ _ hpos.ne']
          linear_combination (-(n : ℚ)) * hunit
        rw [hsplit, abs_div, abs_of_pos hpos, div_le_iff₀ hpos]
        linarith
      have heven : (n * 2 ^ (d + 1)) % 2 = 0 := by
        rw [pow_succ, ← mul_assoc]
        omega
      refine ⟨n, ?_⟩
      unfold nearest
      rw [roundEven_eq_of_even heven hquot]
      push_cast
      linear_combination (n : ℚ) * hunit
    · refine ⟨roundEven (x / spacing x) * 2 ^ (lastPlace x).toNat, ?_⟩
      unfold nearest
      rw [whole_spacing hcoarse]
      push_cast
      rfl

theorem whole_nearest_of_whole {x : ℚ} (h : Whole x) : Whole (nearest x) := by
  obtain ⟨n, rfl⟩ := h
  refine (whole_nearest_iff _).2 ⟨n, ?_⟩
  rw [sub_self, abs_zero]
  have := spacing_pos n
  linarith

end Lib
end NolagCore
