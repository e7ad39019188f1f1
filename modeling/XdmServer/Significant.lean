import Mathlib.Algebra.Order.Round
import Mathlib.Data.Int.Log
import Mathlib.Tactic.FieldSimp
import Mathlib.Tactic.Linarith
import Mathlib.Tactic.Positivity

/-! # Numbers of so many significant digits

    `Digits b k` are the numbers of `k + 1` digits in base `b`, the first of which is not
    zero, times a power of `b`.  Every positive number has a nearest one among them, the
    larger of two that are equally near (`nearest_spec`), and the nearest ones of larger
    numbers are not smaller (`Nearest.mono`). -/

namespace Significant

/-- `k + 1` digits, and the exponent of the first. -/
structure Digits (b k : ℕ) where
  significand : ℕ
  exponent : ℤ
  lower : b ^ k ≤ significand
  upper : significand < b ^ (k + 1)

variable {b k : ℕ} {K : Type} [Field K] [LinearOrder K] [IsStrictOrderedRing K]

/-- The number that has these digits. -/
def Digits.value (K : Type) [Field K] (s : Digits b k) : K :=
  s.significand * (b : K) ^ (s.exponent - k)

/-- `b ^ j`, digits one, zero, zero and so on. -/
def Digits.power (k : ℕ) (hb : 1 < b) (j : ℤ) : Digits b k where
  significand := b ^ k
  exponent := j
  lower := Nat.le_refl _
  upper := Nat.pow_lt_pow_right hb (Nat.lt_succ_self k)

theorem base_pos (hb : 1 < b) : (0 : K) < b := Nat.cast_pos.mpr (by omega)

theorem one_lt_base (hb : 1 < b) : (1 : K) < b := Nat.one_lt_cast.mpr hb

/-- `n` places up and `n` places down. -/
theorem pow_mul_zpow (hb : 1 < b) (n : ℕ) (e : ℤ) :
    (b : K) ^ n * (b : K) ^ (e - n) = (b : K) ^ e := by
  rw [← zpow_natCast, ← zpow_add₀ (base_pos hb).ne']
  congr 1
  omega

/-- The same with one place more going up. -/
theorem pow_succ_mul_zpow (hb : 1 < b) (n : ℕ) (e : ℤ) :
    (b : K) ^ (n + 1) * (b : K) ^ (e - n) = (b : K) ^ (e + 1) := by
  rw [pow_succ', mul_assoc, pow_mul_zpow hb, zpow_add₀ (base_pos hb).ne', zpow_one, mul_comm]

/-- The digits of a power of the base have that power as their value. -/
theorem value_power (hb : 1 < b) (j : ℤ) : (Digits.power k hb j).value K = (b : K) ^ j := by
  rw [Digits.value, Digits.power, Nat.cast_pow]
  exact pow_mul_zpow hb k j

/-- The leading digit is not zero, so the value reaches its own exponent. -/
theorem Digits.le_value (s : Digits b k) (hb : 1 < b) : (b : K) ^ s.exponent ≤ s.value K := by
  have hlower : (b : K) ^ k ≤ s.significand := by exact_mod_cast s.lower
  rw [← pow_mul_zpow hb k s.exponent]
  exact mul_le_mul_of_nonneg_right hlower (zpow_pos (base_pos hb) _).le

/-- The value stays below the next power of the base. -/
theorem Digits.value_lt (s : Digits b k) (hb : 1 < b) :
    s.value K < (b : K) ^ (s.exponent + 1) := by
  have hupper : (s.significand : K) < (b : K) ^ (k + 1) := by exact_mod_cast s.upper
  rw [← pow_succ_mul_zpow hb k s.exponent]
  exact mul_lt_mul_of_pos_right hupper (zpow_pos (base_pos hb) _)

/-- Digits stand for a positive number. -/
theorem Digits.value_pos (s : Digits b k) (hb : 1 < b) : 0 < s.value K :=
  (zpow_pos (base_pos hb) _).trans_le (s.le_value hb)

/-! ## The nearest ones -/

/-- No number of so many digits is nearer to `x`, and none that is as near is larger. -/
structure Nearest (x : K) (s : Digits b k) : Prop where
  closest : ∀ t : Digits b k, |s.value K - x| ≤ |t.value K - x|
  larger : ∀ t : Digits b k, |t.value K - x| = |s.value K - x| → t.value K ≤ s.value K

/-- **The nearest ones are in order**. -/
theorem Nearest.mono {x y : K} {s t : Digits b k} (hs : Nearest x s) (ht : Nearest y t)
    (hxy : x ≤ y) : s.value K ≤ t.value K := by
  by_contra hlt
  push Not at hlt
  -- `x` is nearer to the larger of the two, and `y` to the smaller
  have hx := hs.closest t
  have hy := ht.closest s
  have hmiddle : s.value K + t.value K ≤ 2 * x := by
    by_contra hnot
    push Not at hnot
    rcases abs_cases (s.value K - x) with ⟨h₁, h₁'⟩ | ⟨h₁, h₁'⟩ <;>
      rcases abs_cases (t.value K - x) with ⟨h₂, h₂'⟩ | ⟨h₂, h₂'⟩ <;>
      rw [h₁, h₂] at hx <;> linarith
  have hmiddle' : 2 * y ≤ s.value K + t.value K := by
    by_contra hnot
    push Not at hnot
    rcases abs_cases (s.value K - y) with ⟨h₁, h₁'⟩ | ⟨h₁, h₁'⟩ <;>
      rcases abs_cases (t.value K - y) with ⟨h₂, h₂'⟩ | ⟨h₂, h₂'⟩ <;>
      rw [h₁, h₂] at hy <;> linarith
  -- so they are equally near to `y`, whose nearest is the larger
  have hsame : |s.value K - y| = |t.value K - y| := by
    have hsum : s.value K - y = -(t.value K - y) := by linarith
    rw [hsum, abs_neg]
  exact absurd (ht.larger s hsame) (not_le.mpr hlt)

theorem nearest_value (s : Digits b k) : Nearest (s.value K) s := by
  have hself : |s.value K - s.value K| = 0 := by rw [sub_self, abs_zero]
  refine ⟨fun t => ?_, fun t ht => ?_⟩
  · rw [hself]
    exact abs_nonneg _
  · rw [hself, abs_eq_zero, sub_eq_zero] at ht
    exact ht.le

/-- Rounding does not carry a number past a power of the base above it. -/
theorem Nearest.le_power {x : K} {s : Digits b k} (hs : Nearest x s) (hb : 1 < b) {j : ℤ}
    (hx : x ≤ (b : K) ^ j) : s.value K ≤ (b : K) ^ j := by
  rw [← value_power (k := k) hb j] at hx ⊢
  exact hs.mono (nearest_value _) hx

/-- Rounding does not carry a number past a power of the base below it. -/
theorem Nearest.power_le {x : K} {s : Digits b k} (hs : Nearest x s) (hb : 1 < b) {j : ℤ}
    (hx : (b : K) ^ j ≤ x) : (b : K) ^ j ≤ s.value K := by
  rw [← value_power (k := k) hb j] at hx ⊢
  exact (nearest_value _).mono hs hx

/-! ## Rounding -/

variable [FloorRing K]

/-- What the last digit of a number like `x` counts. -/
def place (b k : ℕ) (x : K) : K := (b : K) ^ (Int.log b x - k)

/-- The last place of a number counts for something. -/
theorem place_pos (hb : 1 < b) (x : K) : 0 < place b k x := zpow_pos (base_pos hb) _

/-- Counted in its last place, a number has at least `k + 1` digits. -/
theorem le_div_place (hb : 1 < b) {x : K} (hx : 0 < x) : (b : K) ^ k ≤ x / place b k x := by
  rw [le_div_iff₀ (place_pos hb x), place, pow_mul_zpow hb]
  exact Int.zpow_log_le_self hb hx

/-- Counted in its last place, a number has no more than `k + 1` digits before the point. -/
theorem div_place_lt (hb : 1 < b) (x : K) : x / place b k x < (b : K) ^ (k + 1) := by
  rw [div_lt_iff₀ (place_pos hb x), place, pow_succ_mul_zpow hb]
  exact Int.lt_zpow_succ_log_self hb x

/-- The integer nearest to it has at least as many digits. -/
theorem le_round (hb : 1 < b) {x : K} (hx : 0 < x) :
    ((b ^ k : ℕ) : ℤ) ≤ round (x / place b k x) := by
  rw [round_eq, Int.le_floor]
  have hle := le_div_place (k := k) hb hx
  push_cast
  linarith

/-- That integer has no more digits, unless it is the next power of the base. -/
theorem round_le_pow (hb : 1 < b) (x : K) :
    round (x / place b k x) ≤ ((b ^ (k + 1) : ℕ) : ℤ) := by
  have hlt := div_place_lt (k := k) hb x
  rw [round_eq, ← Int.lt_add_one_iff, Int.floor_lt]
  push_cast
  linarith

/-- **Rounding to so many digits**. -/
def nearest (k : ℕ) (hb : 1 < b) (x : K) (hx : 0 < x) : Digits b k :=
  if h : round (x / place b k x) < ((b ^ (k + 1) : ℕ) : ℤ) then
    { significand := (round (x / place b k x)).toNat
      exponent := Int.log b x
      lower := by
        have hle := le_round (k := k) hb hx
        omega
      upper := by
        have hle := le_round (k := k) hb hx
        omega }
  else
    .power k hb (Int.log b x + 1)

/-- The digits chosen are the nearest multiple of the last place. -/
theorem value_nearest (hb : 1 < b) {x : K} (hx : 0 < x) :
    (nearest k hb x hx).value K = round (x / place b k x) * place b k x := by
  rw [nearest]
  split
  · next h =>
      have hle := le_round (k := k) hb hx
      have hcast : (((round (x / place b k x)).toNat : ℤ) : K) = round (x / place b k x) := by
        rw [Int.toNat_of_nonneg (by omega)]
      rw [Int.cast_natCast] at hcast
      rw [Digits.value, hcast]
      rfl
  · next h =>
      have hround : round (x / place b k x) = ((b ^ (k + 1) : ℕ) : ℤ) :=
        le_antisymm (round_le_pow hb x) (not_lt.mp h)
      rw [value_power, hround, Int.cast_natCast, Nat.cast_pow, ← pow_succ_mul_zpow hb k]
      rfl

/-- The distance, counted in last places. -/
theorem abs_mul_place_sub (hb : 1 < b) (x : K) (n : ℤ) :
    |n * place b k x - x| = |x / place b k x - n| * place b k x := by
  have hpos := place_pos (k := k) hb x
  rw [← abs_of_pos hpos, ← abs_mul, abs_of_pos hpos, sub_mul, div_mul_cancel₀ _ hpos.ne',
    abs_sub_comm]

/-- A number of so many digits counts last places, unless it is less than `x` by digits. -/
theorem multiple_or_lt (hb : 1 < b) (x : K) (t : Digits b k) :
    (∃ n : ℤ, t.value K = n * place b k x) ∨ t.value K < (b : K) ^ Int.log b x := by
  by_cases hle : Int.log b x ≤ t.exponent
  · refine .inl ⟨t.significand * (b : ℤ) ^ (t.exponent - Int.log b x).toNat, ?_⟩
    have hsplit : (b : K) ^ (t.exponent - k)
        = (b : K) ^ (t.exponent - Int.log b x).toNat * place b k x := by
      rw [← zpow_natCast, place, ← zpow_add₀ (base_pos hb).ne']
      congr 1
      omega
    rw [Digits.value, hsplit]
    push_cast
    exact (mul_assoc ..).symm
  · refine .inr ((t.value_lt hb).trans_le ?_)
    exact zpow_le_zpow_right₀ (one_lt_base hb).le (by omega)

/-- **Rounding finds the nearest**. -/
theorem nearest_spec (hb : 1 < b) {x : K} (hx : 0 < x) : Nearest x (nearest k hb x hx) := by
  have hpos := place_pos (k := k) hb x
  have hdistance : |(nearest k hb x hx).value K - x|
      = |x / place b k x - round (x / place b k x)| * place b k x := by
    rw [value_nearest hb hx, abs_mul_place_sub hb]
  -- a number that is less by digits is farther away than `b ^ log x`
  have hfar : ∀ t : Digits b k, t.value K < (b : K) ^ Int.log b x →
      |(nearest k hb x hx).value K - x| < |t.value K - x| := by
    intro t hlt
    have hlog : (b : K) ^ Int.log b x ≤ x := Int.zpow_log_le_self hb hx
    have hcount : (b : K) ^ Int.log b x = ((b ^ k : ℕ) : ℤ) * place b k x := by
      rw [place, Int.cast_natCast, Nat.cast_pow, pow_mul_zpow hb]
    have hround : |(nearest k hb x hx).value K - x| ≤ |(b : K) ^ Int.log b x - x| := by
      rw [hdistance, hcount, abs_mul_place_sub hb]
      exact mul_le_mul_of_nonneg_right (round_le _ _) hpos.le
    rw [abs_of_nonpos (by linarith : (b : K) ^ Int.log b x - x ≤ 0)] at hround
    rw [abs_of_nonpos (by linarith : t.value K - x ≤ 0)]
    linarith
  refine ⟨fun t => ?_, fun t heq => ?_⟩
  · rcases multiple_or_lt hb x t with ⟨n, hn⟩ | hlt
    · rw [hdistance, hn, abs_mul_place_sub hb]
      exact mul_le_mul_of_nonneg_right (round_le _ _) hpos.le
    · exact (hfar t hlt).le
  · rcases multiple_or_lt hb x t with ⟨n, hn⟩ | hlt
    · rw [hdistance, hn, abs_mul_place_sub hb] at heq
      have hsame := mul_right_cancel₀ hpos.ne' heq
      have hhalf := abs_sub_round (x / place b k x)
      rw [← hsame] at hhalf
      have hn' : n ≤ round (x / place b k x) := by
        rw [round_eq, Int.le_floor]
        have hle := (abs_le.mp hhalf).1
        linarith
      rw [hn, value_nearest hb hx]
      exact mul_le_mul_of_nonneg_right (Int.cast_le.mpr hn') hpos.le
    · exact absurd heq (hfar t hlt).ne'

/-- **It is off by half a last place at most**. -/
theorem abs_nearest_sub_le (hb : 1 < b) {x : K} (hx : 0 < x) :
    |(nearest k hb x hx).value K - x| ≤ x / (2 * (b : K) ^ k) := by
  have hpow : (0 : K) < (b : K) ^ k := pow_pos (base_pos hb) k
  have hplace : place b k x ≤ x / (b : K) ^ k := by
    rw [le_div_iff₀ hpow, mul_comm, place, pow_mul_zpow hb]
    exact Int.zpow_log_le_self hb hx
  rw [value_nearest hb hx, abs_mul_place_sub hb]
  calc |x / place b k x - round (x / place b k x)| * place b k x
      ≤ 1 / 2 * (x / (b : K) ^ k) :=
        mul_le_mul (abs_sub_round _) hplace (place_pos hb x).le (by norm_num)
    _ = x / (2 * (b : K) ^ k) := by
        field_simp

end Significant
