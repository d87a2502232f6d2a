import NolagCore.Lib.Rounding

/-!
# Lib.Binary64

The numbers of JavaScript as exact rationals: `NaN`, the infinities, and the finite numbers with
the proof that they are on the grid. Each operation is the exact one followed by one rounding. The
two zeros are one here, as `==` has them.
-/

namespace NolagCore
namespace Lib

/-- At most fifty-three bits over a last place of at least `2 ^ (-1074)`, below `2 ^ 1024`. -/
def Representable (x : ℚ) : Prop :=
  ∃ m e : Int, |m| ≤ 2 ^ 53 ∧ -1074 ≤ e ∧ x = m * 2 ^ e ∧ |x| < 2 ^ 1024

theorem nearest_of_grid {m e : Int} (hm : |m| ≤ 2 ^ 53) (he : -1074 ≤ e) :
    nearest (m * 2 ^ e) = m * 2 ^ e := by
  by_cases hzero : m = 0
  · rw [hzero, Int.cast_zero, zero_mul]
    exact nearest_zero
  have hpow : (0 : ℚ) < 2 ^ e := zpow_pos (by norm_num) e
  have hne : (m : ℚ) * 2 ^ e ≠ 0 := mul_ne_zero (by exact_mod_cast hzero) hpow.ne'
  have hsize : |(m : ℚ) * 2 ^ e| = |(m : ℚ)| * 2 ^ e := by rw [abs_mul, abs_of_pos hpow]
  have hm' : |(m : ℚ)| ≤ 2 ^ 53 := by exact_mod_cast hm
  by_cases hplace : lastPlace (m * 2 ^ e) ≤ e
  · -- the last place is no coarser than the grid `m` is written on
    obtain ⟨d, hd⟩ := Int.eq_ofNat_of_zero_le (a := e - lastPlace (m * 2 ^ e)) (by omega)
    apply nearest_of_multiple (n := m * 2 ^ d)
    have hsplit : (2 : ℚ) ^ e = 2 ^ d * spacing (m * 2 ^ e) := by
      unfold spacing
      rw [← zpow_natCast, ← zpow_add₀ (by norm_num)]
      congr 1
      omega
    rw [show ((m * 2 ^ d : Int) : ℚ) = m * 2 ^ d by push_cast; rfl, mul_assoc, ← hsplit]
  · -- only `2 ^ 53` itself has a coarser one, by one place
    have hnormal := spacing_le_of_normal hne (by omega)
    obtain ⟨d, hd⟩ := Int.eq_ofNat_of_zero_le (a := lastPlace (m * 2 ^ e) - e - 1) (by omega)
    have hspacing : spacing (m * 2 ^ e) = 2 * 2 ^ d * 2 ^ e := by
      unfold spacing
      rw [show lastPlace (m * 2 ^ e) = 1 + ((d : Nat) : Int) + e by omega,
        zpow_add₀ (by norm_num), zpow_add₀ (by norm_num), zpow_natCast, zpow_one]
    rw [hsize, hspacing] at hnormal
    have hone : (1 : ℚ) ≤ 2 ^ d := one_le_pow₀ (by norm_num)
    have habs : 2 ^ 53 * 2 ^ d ≤ |(m : ℚ)| := by
      apply le_of_mul_le_mul_right _ hpow
      linarith
    have hd1 : (2 : ℚ) ^ d = 1 := by
      have : (2 : ℚ) ^ 53 * 2 ^ d ≤ 2 ^ 53 * 1 := by linarith
      have := le_of_mul_le_mul_left this (by norm_num)
      linarith
    have hfull : |m| = 2 ^ 53 := by
      apply le_antisymm hm
      rw [hd1] at habs
      exact_mod_cast (by linarith : (2 : ℚ) ^ 53 ≤ |(m : ℚ)|)
    have heven : m = m / 2 * 2 := by
      rcases abs_eq (by norm_num : (0 : Int) ≤ 2 ^ 53) |>.1 hfull with h | h <;> rw [h] <;> norm_num
    apply nearest_of_multiple (n := m / 2)
    rw [hspacing, hd1, mul_one, ← mul_assoc]
    congr 1
    exact_mod_cast heven

theorem nearest_of_representable {x : ℚ} (h : Representable x) : nearest x = x := by
  obtain ⟨m, e, hm, he, rfl, -⟩ := h
  exact nearest_of_grid hm he

theorem representable_nearest {x : ℚ} (h : |nearest x| < 2 ^ 1024) : Representable (nearest x) := by
  refine ⟨roundEven (x / spacing x), lastPlace x, ?_, lastPlace_ge x, rfl, h⟩
  have hpos := spacing_pos x
  have hlt : |x / spacing x| < 2 ^ 53 := by
    rw [abs_div, abs_of_pos hpos, div_lt_iff₀ hpos]
    exact abs_lt_spacing x
  rw [abs_lt] at hlt
  have hhigh := roundEven_mono (q := x / spacing x) (r := ((2 ^ 53 : Int) : ℚ))
    (by push_cast; exact hlt.2.le)
  have hlow := roundEven_mono (q := ((-2 ^ 53 : Int) : ℚ)) (r := x / spacing x)
    (by push_cast; exact hlt.1.le)
  rw [roundEven_intCast] at hhigh hlow
  exact abs_le.2 ⟨hlow, hhigh⟩

/-- The whole numbers that are counted exactly. -/
theorem representable_natCast {n : Nat} (h : n ≤ 2 ^ 53) : Representable n := by
  refine ⟨n, 0, ?_, by norm_num, by push_cast; ring, ?_⟩
  · rw [abs_of_nonneg (by omega)]
    exact_mod_cast h
  · rw [abs_of_nonneg (by positivity)]
    have hle : (n : ℚ) ≤ 2 ^ 53 := by exact_mod_cast h
    exact hle.trans_lt (pow_lt_pow_right₀ (by norm_num) (by norm_num))

theorem nearest_natCast {n : Nat} (h : n ≤ 2 ^ 53) : nearest n = n :=
  nearest_of_representable (representable_natCast h)

/-! ## Overflow -/

/-- Halfway between the largest finite number and `2 ^ 1024`. -/
def overflow : ℚ := 2 ^ 1024 - 2 ^ 970

theorem overflow_lt : overflow < 2 ^ 1024 := sub_lt_self _ (by positivity)

theorem overflow_nonneg : 0 ≤ overflow :=
  sub_nonneg.2 (pow_le_pow_right₀ (by norm_num) (by norm_num))

theorem nearest_overflow : nearest overflow = 2 ^ 1024 := by decide +kernel

theorem nearest_lt_iff {x : ℚ} (hx : 0 ≤ x) : nearest x < 2 ^ 1024 ↔ x < overflow := by
  constructor
  · intro h
    by_contra hge
    have hmono := nearest_mono overflow_nonneg (not_lt.1 hge)
    rw [nearest_overflow] at hmono
    exact absurd h (not_lt.2 hmono)
  · intro h
    have hspacing : spacing x ≤ 2 ^ 971 := by
      by_cases hzero : x = 0
      · rw [hzero]
        decide +kernel
      have hpos : 0 < x := lt_of_le_of_ne hx (Ne.symm hzero)
      have hlog : Int.log 2 |x| < 1024 := by
        rw [abs_of_pos hpos]
        refine (Int.lt_zpow_iff_log_lt (by norm_num) hpos).1 ?_
        exact_mod_cast h.trans overflow_lt
      have hplace : lastPlace x ≤ (971 : Nat) := by
        unfold lastPlace
        omega
      rw [← zpow_natCast]
      exact two_zpow_mono hplace
    have hhalf : spacing x / 2 ≤ 2 ^ 970 := by
      rw [div_le_iff₀' (by norm_num), ← pow_succ']
      exact hspacing
    have herror := (abs_le.1 (nearest_error x)).1
    calc nearest x ≤ x + spacing x / 2 := by linarith
      _ ≤ x + 2 ^ 970 := add_le_add_right hhalf x
      _ < 2 ^ 1024 := lt_sub_iff_add_lt.1 h

/-! ## Subtracting one -/

/-- Gradual underflow: a number below one is below it by at least the finest spacing. -/
theorem sub_one_le_neg {x : ℚ} (hx : Representable x) (h : x < 1) :
    x - 1 ≤ -2 ^ (-1074 : Int) := by
  obtain ⟨m, e, -, he, rfl, -⟩ := hx
  obtain ⟨d, hd⟩ := Int.eq_ofNat_of_zero_le (a := e + 1074) (by omega)
  obtain ⟨unit, hunit⟩ : ∃ unit : Int, (unit : ℚ) * 2 ^ (-1074 : Int) = 1 := by
    refine ⟨2 ^ 1074, ?_⟩
    rw [Int.cast_pow, Int.cast_ofNat, zpow_neg]
    exact mul_inv_cancel₀ (by positivity)
  have hfinest : (0 : ℚ) < 2 ^ (-1074 : Int) := zpow_pos (by norm_num) _
  have hgrid : (m : ℚ) * 2 ^ e = ((m * 2 ^ d : Int) : ℚ) * 2 ^ (-1074 : Int) := by
    rw [show e = ((d : Nat) : Int) + -1074 by omega, zpow_add₀ (by norm_num), zpow_natCast,
      Int.cast_mul, Int.cast_pow, Int.cast_ofNat, mul_assoc]
  rw [hgrid] at h ⊢
  have hlt : ((m * 2 ^ d : Int) : ℚ) < unit := by
    rw [← hunit] at h
    exact lt_of_mul_lt_mul_right h hfinest.le
  have hstep : ((m * 2 ^ d : Int) : ℚ) + 1 ≤ unit := by
    have hint : m * 2 ^ d < unit := by exact_mod_cast hlt
    exact_mod_cast Int.add_one_le_iff.2 hint
  have hscaled := mul_le_mul_of_nonneg_right hstep hfinest.le
  rw [add_mul, hunit, one_mul] at hscaled
  linarith

/-- From one on the difference is exact, or the number has no fraction. -/
theorem nearest_sub_one {x : ℚ} (hx : Representable x) (h : 1 ≤ x) :
    nearest (x - 1) = x - 1 ∨ Whole x := by
  obtain ⟨m, e, hm, he, rfl, -⟩ := hx
  rcases Int.lt_or_le e 0 with hfraction | hwhole
  · left
    obtain ⟨d, hd⟩ := Int.eq_ofNat_of_zero_le (a := -e) (by omega)
    have hpow : (0 : ℚ) < 2 ^ e := zpow_pos (by norm_num) e
    have hunit : (2 : ℚ) ^ d * 2 ^ e = 1 := by
      rw [← zpow_natCast, ← zpow_add₀ (by norm_num), show ((d : Nat) : Int) + e = 0 by omega,
        zpow_zero]
    have hgrid : (m : ℚ) * 2 ^ e - 1 = ((m - 2 ^ d : Int) : ℚ) * 2 ^ e := by
      push_cast
      rw [sub_mul, hunit]
    have hm1 : (2 ^ d : Int) ≤ m := by
      rw [← hunit] at h
      exact_mod_cast le_of_mul_le_mul_right h hpow
    have hd1 : (0 : Int) < 2 ^ d := by positivity
    rw [hgrid]
    refine nearest_of_grid ?_ he
    rw [abs_le] at hm ⊢
    omega
  · right
    obtain ⟨d, rfl⟩ := Int.eq_ofNat_of_zero_le hwhole
    exact ⟨m * 2 ^ d, by rw [zpow_natCast]; push_cast; rfl⟩

/-- Among the large numbers one is too little to be seen. -/
theorem nearest_sub_one_of_large {x : ℚ} (hx : Representable x) (h : 2 ^ 55 ≤ x) :
    nearest (x - 1) = x := by
  have hpos : 0 < x - 1 := by linarith
  have hplace : 2 ≤ lastPlace (x - 1) := by
    have hlog : 54 ≤ Int.log 2 |x - 1| := by
      rw [abs_of_pos hpos]
      refine (Int.zpow_le_iff_le_log (by norm_num) hpos).1 ?_
      norm_num
      linarith
    have := log_le_lastPlace (x - 1)
    omega
  have hfour : 4 ≤ spacing (x - 1) := by
    have := two_zpow_mono hplace
    unfold spacing
    norm_num at this
    exact this
  -- `x` is a multiple of its own spacing, hence of that of `x - 1`
  obtain ⟨n, hn⟩ : ∃ n : Int, x = n * spacing (x - 1) := by
    have hle : lastPlace (x - 1) ≤ lastPlace x := by
      have := Int.log_mono_right (b := 2) hpos (by linarith : x - 1 ≤ x)
      unfold lastPlace
      rw [abs_of_pos hpos, abs_of_pos (by linarith)]
      omega
    obtain ⟨d, hd⟩ := Int.eq_ofNat_of_zero_le (a := lastPlace x - lastPlace (x - 1)) (by omega)
    refine ⟨roundEven (x / spacing x) * 2 ^ d, ?_⟩
    have hspacing : spacing x = 2 ^ d * spacing (x - 1) := by
      unfold spacing
      rw [← zpow_natCast, ← zpow_add₀ (by norm_num)]
      congr 1
      omega
    have hself : x = roundEven (x / spacing x) * spacing x := (nearest_of_representable hx).symm
    calc x = roundEven (x / spacing x) * spacing x := hself
      _ = roundEven (x / spacing x) * (2 ^ d * spacing (x - 1)) := by rw [← hspacing]
      _ = ((roundEven (x / spacing x) * 2 ^ d : Int) : ℚ) * spacing (x - 1) := by
        push_cast
        ring
  have hround : nearest (x - 1) = n * spacing (x - 1) := by
    apply nearest_of_close
    rw [← hn, show x - 1 - x = -1 by ring, abs_neg, abs_one]
    linarith
  rw [hround, ← hn]

/-! ## Whole quotients -/

theorem spacing_div_lt {n l : Nat} (hn : 0 < n) (hl : 0 < l) (hnmax : n < 2 ^ 53)
    (hlmax : l ≤ 2 ^ 53) : spacing ((n : ℚ) / l) / 2 < 1 / l := by
  have hl' : (0 : ℚ) < l := by exact_mod_cast hl
  have hn' : (1 : ℚ) ≤ n := by exact_mod_cast hn
  have hquot : (0 : ℚ) < n / l := by positivity
  rw [lt_div_iff₀ hl']
  by_cases hnormal : -1074 < lastPlace ((n : ℚ) / l)
  · have hmany := spacing_le_of_normal hquot.ne' hnormal
    rw [abs_of_pos hquot, le_div_iff₀ hl'] at hmany
    have hmax : (n : ℚ) < 2 ^ 53 := by exact_mod_cast hnmax
    linarith
  · have hplace : lastPlace ((n : ℚ) / l) = -1074 := by
      have := lastPlace_ge ((n : ℚ) / l)
      omega
    have hfine : spacing ((n : ℚ) / l) ≤ 2 ^ (-53 : Int) := by
      apply two_zpow_mono
      omega
    have hmax : (l : ℚ) ≤ 2 ^ 53 := by exact_mod_cast hlmax
    have hprod := mul_le_mul hfine hmax hl'.le (zpow_pos (by norm_num) _).le
    norm_num at hprod
    linarith

/-- The ceiling of a rounded quotient of counted numbers is the ceiling of the quotient: it stays
above the whole number below by more than the rounding can take away. -/
theorem ceil_nearest_div {n l : Nat} (hl : 0 < l) (hnmax : n < 2 ^ 53) (hlmax : l ≤ 2 ^ 53) :
    ⌈nearest ((n : ℚ) / l)⌉₊ = ⌈(n : ℚ) / l⌉₊ := by
  rcases Nat.eq_zero_or_pos n with rfl | hn
  · rw [Nat.cast_zero, zero_div, nearest_zero]
  have hl' : (0 : ℚ) < l := by exact_mod_cast hl
  have hquot : (0 : ℚ) < n / l := by positivity
  have hceil := Nat.le_ceil ((n : ℚ) / l)
  have hk : 0 < ⌈(n : ℚ) / l⌉₊ := Nat.ceil_pos.2 hquot
  rw [Nat.ceil_eq_iff hk.ne']
  constructor
  · have hbelow : (⌈(n : ℚ) / l⌉₊ - 1) * l + 1 ≤ n := by
      have hlt := Nat.ceil_lt_add_one hquot.le
      have hlt' : ((⌈(n : ℚ) / l⌉₊ : ℚ) - 1) * l < n := by
        rw [← lt_div_iff₀ hl']
        linarith
      have hcast : (((⌈(n : ℚ) / l⌉₊ - 1) * l : Nat) : ℚ) < n := by
        rw [Nat.cast_mul, Nat.cast_sub hk, Nat.cast_one]
        exact hlt'
      exact_mod_cast hcast
    have hbelow' : ((⌈(n : ℚ) / l⌉₊ - 1 : Nat) : ℚ) + 1 / l ≤ n / l := by
      rw [le_div_iff₀ hl', add_mul, one_div, inv_mul_cancel₀ hl'.ne']
      exact_mod_cast hbelow
    have hspacing := spacing_div_lt hn hl hnmax hlmax
    have herror := (abs_le.1 (nearest_error ((n : ℚ) / l))).2
    linarith
  · have hle : ⌈(n : ℚ) / l⌉₊ ≤ 2 ^ 53 := by
      refine (Nat.ceil_le.2 ?_).trans hnmax.le
      rw [div_le_iff₀ hl']
      exact_mod_cast Nat.le_mul_of_pos_right n hl
    have hmono := nearest_mono hquot.le hceil
    rwa [nearest_natCast hle] at hmono

/-! ## The numbers -/

/-- A `number`. A finite one carries the proof that it is on the grid. -/
inductive Binary64 where
  | nan
  | infinity (negative : Bool)
  | finite (x : ℚ) (h : Representable x)
deriving DecidableEq

namespace Binary64

/-- The exact result of an operation, rounded; what rounds to `2 ^ 1024` or more is infinite. -/
def ofRat (x : ℚ) : Binary64 :=
  if h : |nearest x| < 2 ^ 1024 then finite (nearest x) (representable_nearest h)
  else infinity (decide (x < 0))

/-- A count, or a literal of the source. -/
def ofNat (n : Nat) : Binary64 := ofRat n

/-- `x || fallback`: not a number and zero are false. -/
def orElse : Binary64 → Binary64 → Binary64
  | nan, fallback => fallback
  | infinity s, _ => infinity s
  | finite x h, fallback => if x = 0 then fallback else finite x h

/-- `x - y`. -/
def sub : Binary64 → Binary64 → Binary64
  | nan, _ => nan
  | infinity _, nan => nan
  | infinity s, infinity t => if s = t then nan else infinity s
  | infinity s, finite _ _ => infinity s
  | finite _ _, nan => nan
  | finite _ _, infinity t => infinity (!t)
  | finite x _, finite y _ => ofRat (x - y)

/-- `x * y`. -/
def mul : Binary64 → Binary64 → Binary64
  | nan, _ => nan
  | infinity _, nan => nan
  | infinity s, infinity t => infinity (s != t)
  | infinity s, finite y _ => if y = 0 then nan else infinity (s != decide (y < 0))
  | finite _ _, nan => nan
  | finite x _, infinity t => if x = 0 then nan else infinity (decide (x < 0) != t)
  | finite x _, finite y _ => ofRat (x * y)

/-- `x / y`. A zero divisor counts as positive. -/
def div : Binary64 → Binary64 → Binary64
  | nan, _ => nan
  | infinity _, nan => nan
  | infinity _, infinity _ => nan
  | infinity s, finite y _ => infinity (s != decide (y < 0))
  | finite _ _, nan => nan
  | finite _ _, infinity _ => ofNat 0
  | finite x _, finite y _ =>
    if y = 0 then if x = 0 then nan else infinity (decide (x < 0)) else ofRat (x / y)

/-- `Math.max(x, y)`. -/
def max : Binary64 → Binary64 → Binary64
  | nan, _ => nan
  | infinity _, nan => nan
  | finite _ _, nan => nan
  | infinity true, y => y
  | infinity false, _ => infinity false
  | finite x h, infinity true => finite x h
  | finite _ _, infinity false => infinity false
  | finite x hx, finite y hy => if x ≤ y then finite y hy else finite x hx

/-- `Math.min(x, y)`. -/
def min : Binary64 → Binary64 → Binary64
  | nan, _ => nan
  | infinity _, nan => nan
  | finite _ _, nan => nan
  | infinity true, _ => infinity true
  | infinity false, y => y
  | finite _ _, infinity true => infinity true
  | finite x h, infinity false => finite x h
  | finite x hx, finite y hy => if x ≤ y then finite x hx else finite y hy

/-- `Math.ceil(x)`. The ceiling of a finite number is on the grid: the rounding changes nothing. -/
def ceil : Binary64 → Binary64
  | nan => nan
  | infinity s => infinity s
  | finite x _ => ofRat ⌈x⌉

/-- The count that a number is, where it is one. -/
def toCount? : Binary64 → Option Nat
  | nan => none
  | infinity _ => none
  | finite x _ => if 0 ≤ x ∧ x.den = 1 then some x.num.toNat else none

theorem abs_lt_of_representable {x : ℚ} (h : Representable x) : |x| < 2 ^ 1024 := by
  obtain ⟨-, -, -, -, -, hlt⟩ := h
  exact hlt

theorem ofRat_eq_finite {x y : ℚ} {h : Representable y} (hy : nearest x = y) :
    ofRat x = finite y h := by
  subst hy
  unfold ofRat
  rw [dif_pos (abs_lt_of_representable h)]

theorem ofRat_of_representable {x : ℚ} (h : Representable x) : ofRat x = finite x h :=
  ofRat_eq_finite (nearest_of_representable h)

theorem ofNat_eq {n : Nat} (h : n ≤ 2 ^ 53) : ofNat n = finite n (representable_natCast h) :=
  ofRat_of_representable _

theorem toCount?_eq_some {b : Binary64} {n : Nat} :
    b.toCount? = some n ↔ ∃ h, b = finite n h := by
  constructor
  · intro h
    cases b with
    | nan => cases h
    | infinity s => cases h
    | finite x hx =>
      simp only [toCount?] at h
      split at h
      · rename_i hcount
        obtain ⟨hnonneg, hden⟩ := hcount
        have hnum : (x.num.toNat : Int) = x.num := Int.toNat_of_nonneg (Rat.num_nonneg.2 hnonneg)
        have hx' : x = n := by
          rw [← Option.some.inj h]
          calc x = (x.num : ℚ) := ((Rat.den_eq_one_iff x).1 hden).symm
            _ = ((x.num.toNat : Int) : ℚ) := by rw [hnum]
            _ = x.num.toNat := Int.cast_natCast _
        subst hx'
        exact ⟨hx, rfl⟩
      · cases h
  · rintro ⟨h, rfl⟩
    simp [toCount?]

/-- A negative result is no count. -/
theorem toCount?_ofRat_of_neg {x : ℚ} (h : x ≤ -2 ^ (-1074 : Int)) :
    (ofRat x).toCount? = none := by
  have hround := nearest_le_neg h
  have hfinest : (0 : ℚ) < 2 ^ (-1074 : Int) := zpow_pos (by norm_num) _
  unfold ofRat
  split
  · have hneg : ¬ 0 ≤ nearest x := by
      rw [not_le]
      linarith
    simp [toCount?, hneg]
  · rfl

theorem toCount?_ofRat {x : ℚ} (hx : 0 ≤ x) {n : Nat} :
    (ofRat x).toCount? = some n ↔ x < overflow ∧ nearest x = n := by
  rw [toCount?_eq_some, ← nearest_lt_iff hx]
  have hnonneg := nearest_nonneg hx
  constructor
  · rintro ⟨h, heq⟩
    unfold ofRat at heq
    split at heq
    · rename_i hlt
      rw [abs_of_nonneg hnonneg] at hlt
      injection heq with heq
      exact ⟨hlt, heq⟩
    · cases heq
  · rintro ⟨hlt, heq⟩
    rw [← abs_of_nonneg hnonneg] at hlt
    have hn : Representable (n : ℚ) := heq ▸ representable_nearest hlt
    exact ⟨hn, ofRat_eq_finite heq⟩

/-- `Math.ceil(n / l)` of counted numbers is the ceiling. -/
theorem ceil_div {n l : Nat} (hl : 0 < l) (hnmax : n < 2 ^ 53) (hlmax : l ≤ 2 ^ 53) :
    ((ofNat n).div (ofNat l)).ceil = ofNat ⌈(n : ℚ) / l⌉₊ := by
  have hl' : (l : ℚ) ≠ 0 := by exact_mod_cast hl.ne'
  have hquot : (0 : ℚ) ≤ n / l := by positivity
  have hnonneg := nearest_nonneg hquot
  have hle : (n : ℚ) / l ≤ n := by
    rw [div_le_iff₀ (by exact_mod_cast hl)]
    exact_mod_cast Nat.le_mul_of_pos_right n hl
  have hround := nearest_mono hquot hle
  rw [nearest_natCast hnmax.le] at hround
  have hlt : |nearest ((n : ℚ) / l)| < 2 ^ 1024 := by
    have hn := abs_lt_of_representable (representable_natCast hnmax.le)
    rw [Nat.abs_cast] at hn
    rw [abs_of_nonneg hnonneg]
    exact hround.trans_lt hn
  have hceil : ((⌈nearest ((n : ℚ) / l)⌉ : Int) : ℚ) = (⌈(n : ℚ) / l⌉₊ : ℚ) := by
    rw [← ceil_nearest_div hl hnmax hlmax]
    exact (natCast_ceil_eq_intCast_ceil hnonneg).symm
  rw [ofNat_eq hnmax.le, ofNat_eq hlmax]
  simp only [div, if_neg hl']
  unfold ofRat
  rw [dif_pos hlt]
  simp only [ceil]
  rw [hceil]
  rfl

theorem toCount?_ofNat {n : Nat} (h : n ≤ 2 ^ 53) : (ofNat n).toCount? = some n :=
  toCount?_eq_some.2 ⟨_, ofNat_eq h⟩

end Binary64

end Lib
end NolagCore
