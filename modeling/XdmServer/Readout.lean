import Mathlib.Data.Rat.Floor
import XdmServer.Numeral
import XdmServer.PyText
import XdmServer.Significant

/-! # The readout of the dashboard

    `formatValue` of `dashboard.js` writes a value with six significant digits, and very
    small and very large ones with five and an exponent.  `toPrecision` and `toExponential`
    are those of the language: of two numbers that are equally near they take the larger. -/

namespace Readout

open PyText Significant

/-! ## `Number.prototype` -/

theorem ten : 1 < 10 := by decide

/-- The `k + 1` significant digits of a number that is not negative, and the exponent. -/
def scientific (k : ℕ) (x : ℚ) : Str × ℤ :=
  if h : 0 < x then
    let s := nearest k ten x h
    (Nat.toDigits 10 s.significand, s.exponent)
  else (List.replicate (k + 1) '0', 0)

/-- The point after the first digit, if there are others. -/
def pointed (m : Str) : Str :=
  match m with
  | [a] => [a]
  | a :: rest => a :: '.' :: rest
  | [] => []

/-- `d.dddde+dd`. -/
def exponential (m : Str) (e : ℤ) : Str :=
  pointed m ++ 'e' :: (if e < 0 then '-' else '+') :: Nat.toDigits 10 e.natAbs

/-- The sign of a number, and the text of its absolute value. -/
def signed (text : ℚ → Str) (x : ℚ) : Str :=
  if x < 0 then '-' :: text (-x) else text x

/-- `x.toExponential(f)`. -/
def toExponential (f : ℕ) : ℚ → Str :=
  signed fun x => exponential (scientific f x).1 (scientific f x).2

/-- `x.toPrecision(p)`, from the digits and the exponent. -/
def layout (p : ℕ) (m : Str) (e : ℤ) : Str :=
  if e < -6 ∨ p ≤ e then exponential m e
  else if e = p - 1 then m
  else if 0 ≤ e then m.take (e + 1).toNat ++ '.' :: m.drop (e + 1).toNat
  else '0' :: '.' :: (List.replicate (-(e + 1)).toNat '0' ++ m)

/-- `x.toPrecision(p)`. -/
def toPrecision (p : ℕ) : ℚ → Str :=
  signed fun x => layout p (scientific (p - 1) x).1 (scientific (p - 1) x).2

/-- `formatValue`.  The least double that is not below the literal `1e-3` is not below a
    thousandth either. -/
def formatValue (v : ℚ) : Str :=
  let a := |v|
  if a ≠ 0 ∧ (a < 1 / 1000 ∨ 1000000 ≤ a) then toExponential 4 v else toPrecision 6 v

/-! ## What the texts say -/

/-- A number that is not negative, rounded to `k + 1` significant digits. -/
def rounded (k : ℕ) (x : ℚ) : ℚ :=
  if h : 0 < x then (nearest k ten x h).value ℚ else 0

theorem rounded_zero (k : ℕ) : rounded k 0 = 0 := dif_neg (lt_irrefl 0)

/-- Rounding keeps the sign of a magnitude. -/
theorem rounded_nonneg (k : ℕ) (x : ℚ) : 0 ≤ rounded k x := by
  rw [rounded]
  split
  · exact (Digits.value_pos _ ten).le
  · exact le_rfl

/-- Rounding keeps the order of two numbers. -/
theorem rounded_mono (k : ℕ) {x y : ℚ} (hxy : x ≤ y) : rounded k x ≤ rounded k y := by
  by_cases hx : 0 < x
  · rw [rounded, rounded, dif_pos hx, dif_pos (hx.trans_le hxy)]
    exact (nearest_spec ten hx).mono (nearest_spec ten _) hxy
  · rw [rounded, dif_neg hx]
    exact rounded_nonneg k y

/-- Rounding errs by half a unit of the last place, relative to the number. -/
theorem abs_rounded_sub_le (k : ℕ) {x : ℚ} (hx : 0 ≤ x) :
    |rounded k x - x| ≤ x / (2 * 10 ^ k) := by
  rcases hx.eq_or_lt with rfl | hpos
  · rw [rounded_zero, sub_self, abs_zero, zero_div]
  · rw [rounded, dif_pos hpos]
    exact_mod_cast abs_nearest_sub_le (k := k) ten hpos

/-- The digits are that many digits, and stand for the rounded number. -/
theorem scientific_spec (k : ℕ) (x : ℚ) :
    Numeral.allDigits (scientific k x).1 = true ∧ (scientific k x).1.length = k + 1 ∧
      (Numeral.natural (scientific k x).1 : ℚ) * 10 ^ ((scientific k x).2 - k) = rounded k x := by
  by_cases hx : 0 < x
  · have hs : scientific k x = (Nat.toDigits 10 (nearest k ten x hx).significand,
        (nearest k ten x hx).exponent) := dif_pos hx
    rw [hs, rounded, dif_pos hx]
    refine ⟨Numeral.allDigits_toDigits _, ?_, ?_⟩
    · exact Numeral.length_toDigits (nearest k ten x hx).lower (nearest k ten x hx).upper
    · rw [Numeral.natural_toDigits]
      exact_mod_cast rfl
  · have hs : scientific k x = (List.replicate (k + 1) '0', 0) := dif_neg hx
    rw [hs, rounded, dif_neg hx]
    have hzero : Numeral.natural (List.replicate (k + 1) '0') = 0 := by
      have h := Numeral.natural_zeros (k + 1) []
      rwa [List.append_nil] at h
    refine ⟨?_, List.length_replicate .., ?_⟩
    · rw [Numeral.allDigits_iff]
      refine ⟨by simp, ?_⟩
      intro c hc
      rw [List.eq_of_mem_replicate hc]
      rfl
    · rw [hzero, Nat.cast_zero, zero_mul]

/-- The text of a number that is not negative. -/
structure Says (s : Str) (x : ℚ) : Prop where
  head : ∀ c ∈ s.head?, c.isDigit = true
  reads : Numeral.unsigned s = some x

/-- Digits hold no exponent sign. -/
theorem ne_e_of_digits {s : Str} (h : ∀ c ∈ s, c.isDigit = true) : ∀ c ∈ s, c ≠ 'e' :=
  fun c hc => Numeral.ne_of_isDigit (h c hc) (by decide)

theorem ne_e_of_point (whole : Str) {fraction : Str} (hwhole : ∀ c ∈ whole, c.isDigit = true)
    (hfraction : ∀ c ∈ fraction, c.isDigit = true) : ∀ c ∈ whole ++ '.' :: fraction, c ≠ 'e' := by
  intro c hc
  rcases List.mem_append.mp hc with hc | hc
  · exact ne_e_of_digits hwhole c hc
  · rcases List.mem_cons.mp hc with rfl | hc
    · decide
    · exact ne_e_of_digits hfraction c hc

/-- The mantissa with its point is read as its digits, `k` places down. -/
theorem decimal_pointed {k : ℕ} {m : Str} (hm : Numeral.allDigits m = true)
    (hlength : m.length = k + 1) :
    (∀ c ∈ pointed m, c ≠ 'e') ∧ (∀ c ∈ (pointed m).head?, c.isDigit = true) ∧ pointed m ≠ [] ∧
      Numeral.decimal (pointed m) = some ((Numeral.natural m : ℚ) / 10 ^ k) := by
  obtain ⟨-, hall⟩ := Numeral.allDigits_iff.mp hm
  rcases m with _ | ⟨a, _ | ⟨b, rest⟩⟩
  · cases hlength
  · obtain rfl : k = 0 := by simpa using hlength.symm
    refine ⟨ne_e_of_digits hall, ?_, by simp [pointed], ?_⟩
    · rintro c ⟨⟩
      exact hall _ (List.mem_cons_self ..)
    · rw [pointed, Numeral.decimal_whole hm, pow_zero, div_one]
  · have hone : Numeral.allDigits [a] = true :=
      Numeral.allDigits_iff.mpr ⟨by simp, fun c hc => hall c (by simp_all)⟩
    have hrest : Numeral.allDigits (b :: rest) = true :=
      Numeral.allDigits_iff.mpr ⟨by simp, fun c hc => hall c (List.mem_cons_of_mem _ hc)⟩
    refine ⟨?_, ?_, by simp [pointed], ?_⟩
    · exact ne_e_of_point [a] (Numeral.allDigits_iff.mp hone).2
        (Numeral.allDigits_iff.mp hrest).2
    · rintro c ⟨⟩
      exact hall _ (List.mem_cons_self ..)
    · have hk : (b :: rest).length = k := by simpa using hlength
      have h := Numeral.decimal_point hone hrest
      rw [hk] at h
      exact h

/-- The exponential format is read as mantissa times power of ten. -/
theorem says_exponential {k : ℕ} {m : Str} {e : ℤ} (hm : Numeral.allDigits m = true)
    (hlength : m.length = k + 1) :
    Says (exponential m e) (Numeral.natural m * 10 ^ (e - k)) := by
  obtain ⟨hplain, hhead, hne, hdecimal⟩ := decimal_pointed hm hlength
  rw [exponential]
  refine ⟨?_, ?_⟩
  · rwa [List.head?_append_of_ne_nil _ hne]
  · rw [Numeral.unsigned_exponent hplain, hdecimal, Numeral.exponent_sign, Option.bind_some,
      Option.map_some, zpow_sub₀ (by norm_num), zpow_natCast, div_mul_eq_mul_div, mul_div_assoc]

/-- **The layout says what the digits and the exponent do**. -/
theorem says_layout {k : ℕ} {m : Str} {e : ℤ} (hm : Numeral.allDigits m = true)
    (hlength : m.length = k + 1) :
    Says (layout (k + 1) m e) (Numeral.natural m * 10 ^ (e - k)) := by
  obtain ⟨hne, hall⟩ := Numeral.allDigits_iff.mp hm
  have hhead : ∀ c ∈ m.head?, c.isDigit = true := fun c hc => hall c (List.mem_of_mem_head? hc)
  rw [layout]
  by_cases hexp : e < -6 ∨ ((k + 1 : ℕ) : ℤ) ≤ e
  · rw [if_pos hexp]
    exact says_exponential hm hlength
  rw [if_neg hexp]
  by_cases hwhole : e = ((k + 1 : ℕ) : ℤ) - 1
  · -- no digit is left for after the point
    have hzero : e - k = 0 := by omega
    rw [if_pos hwhole, hzero, zpow_zero, mul_one]
    refine ⟨hhead, ?_⟩
    rw [Numeral.unsigned_plain (ne_e_of_digits hall), Numeral.decimal_whole hm]
  rw [if_neg hwhole]
  by_cases hnonneg : 0 ≤ e
  · -- the point is among the digits
    have htake : Numeral.allDigits (m.take (e + 1).toNat) = true := by
      refine Numeral.allDigits_iff.mpr ⟨?_, fun c hc => hall c (List.mem_of_mem_take hc)⟩
      rw [Ne, List.take_eq_nil_iff]
      rintro (h | h)
      · omega
      · exact hne h
    have hdrop : Numeral.allDigits (m.drop (e + 1).toNat) = true := by
      refine Numeral.allDigits_iff.mpr ⟨?_, fun c hc => hall c (List.mem_of_mem_drop hc)⟩
      rw [Ne, List.drop_eq_nil_iff]
      omega
    have hplaces : e - k = -((m.drop (e + 1).toNat).length : ℤ) := by
      rw [List.length_drop, hlength]
      omega
    rw [if_pos hnonneg]
    refine ⟨?_, ?_⟩
    · obtain ⟨hne', hall'⟩ := Numeral.allDigits_iff.mp htake
      rw [List.head?_append_of_ne_nil _ hne']
      exact fun c hc => hall' c (List.mem_of_mem_head? hc)
    · rw [Numeral.unsigned_plain (ne_e_of_point _ (Numeral.allDigits_iff.mp htake).2
        (Numeral.allDigits_iff.mp hdrop).2), Numeral.decimal_point htake hdrop,
        List.take_append_drop, hplaces, zpow_neg, zpow_natCast, div_eq_mul_inv]
  · -- zeros come between the point and the digits
    have hfraction : Numeral.allDigits (List.replicate (-(e + 1)).toNat '0' ++ m) = true := by
      refine Numeral.allDigits_iff.mpr ⟨by simp [hne], ?_⟩
      intro c hc
      rcases List.mem_append.mp hc with hc | hc
      · rw [List.eq_of_mem_replicate hc]
        rfl
      · exact hall c hc
    have hplaces : e - k = -((List.replicate (-(e + 1)).toNat '0' ++ m).length : ℤ) := by
      rw [List.length_append, List.length_replicate, hlength]
      omega
    have hone : Numeral.allDigits ['0'] = true := rfl
    rw [if_neg hnonneg]
    refine ⟨?_, ?_⟩
    · rintro c ⟨⟩
      rfl
    · have hplain : ∀ c ∈ '0' :: '.' :: (List.replicate (-(e + 1)).toNat '0' ++ m), c ≠ 'e' :=
        ne_e_of_point ['0'] (Numeral.allDigits_iff.mp hone).2
          (Numeral.allDigits_iff.mp hfraction).2
      have hzeros : Numeral.natural (['0'] ++ (List.replicate (-(e + 1)).toNat '0' ++ m))
          = Numeral.natural m :=
        (Numeral.natural_zeros 1 _).trans (Numeral.natural_zeros _ m)
      have hpoint := Numeral.decimal_point hone hfraction
      rw [hzeros, List.cons_append, List.nil_append] at hpoint
      rw [Numeral.unsigned_plain hplain, hpoint, hplaces, zpow_neg, zpow_natCast, div_eq_mul_inv]

/-- A number rounded to `k + 1` significant digits. -/
def approx (k : ℕ) (x : ℚ) : ℚ := if x < 0 then -rounded k (-x) else rounded k x

/-- The sign is put before the text, and is read as a sign. -/
theorem number_signed {k : ℕ} {text : ℚ → Str} (h : ∀ x, Says (text x) (rounded k x)) (x : ℚ) :
    Numeral.number (signed text x) = some (approx k x) := by
  by_cases hx : x < 0
  · rw [signed, if_pos hx, approx, if_pos hx, Numeral.number, (h (-x)).reads, Option.map_some]
  · rw [signed, if_neg hx, approx, if_neg hx, Numeral.number_of_digit (h x).head, (h x).reads]

/-- `toExponential(f)` is read back as the number rounded to `f + 1` digits. -/
theorem number_toExponential (f : ℕ) (x : ℚ) :
    Numeral.number (toExponential f x) = some (approx f x) := by
  refine number_signed (fun x => ?_) x
  obtain ⟨hdigits, hlength, hvalue⟩ := scientific_spec f x
  rw [← hvalue]
  exact says_exponential hdigits hlength

/-- `toPrecision` is read back so too, whichever of its formats it takes. -/
theorem number_toPrecision (k : ℕ) (x : ℚ) :
    Numeral.number (toPrecision (k + 1) x) = some (approx k x) := by
  refine number_signed (fun x => ?_) x
  obtain ⟨hdigits, hlength, hvalue⟩ := scientific_spec k x
  rw [← hvalue]
  exact says_layout hdigits hlength

/-! ## Rounding of signed numbers -/

/-- Rounding does not look at the sign. -/
theorem approx_neg (k : ℕ) (x : ℚ) : approx k (-x) = -approx k x := by
  rcases lt_trichotomy x 0 with hx | rfl | hx
  · rw [approx, approx, if_pos hx, if_neg (by linarith), neg_neg]
  · rw [neg_zero, approx, if_neg (lt_irrefl 0), rounded_zero, neg_zero]
  · rw [approx, approx, if_pos (by linarith), if_neg (by linarith), neg_neg]

/-- What is shown keeps the order of the numbers. -/
theorem approx_mono (k : ℕ) {x y : ℚ} (hxy : x ≤ y) : approx k x ≤ approx k y := by
  rw [approx, approx]
  split
  · next hx =>
      split
      · next hy => exact neg_le_neg (rounded_mono k (neg_le_neg hxy))
      · next hy => exact (neg_nonpos.mpr (rounded_nonneg k _)).trans (rounded_nonneg k y)
  · next hx =>
      rw [if_neg (by linarith)]
      exact rounded_mono k hxy

/-- What is shown has a bound on its relative error. -/
theorem abs_approx_sub_le (k : ℕ) (x : ℚ) : |approx k x - x| ≤ |x| / (2 * 10 ^ k) := by
  rw [approx]
  split
  · next hx =>
      have h := abs_rounded_sub_le k (x := -x) (by linarith)
      have hflip : -rounded k (-x) - x = -(rounded k (-x) - -x) := by ring
      rwa [hflip, abs_neg, abs_of_neg hx]
  · next hx =>
      rw [abs_of_nonneg (not_lt.mp hx)]
      exact abs_rounded_sub_le k (not_lt.mp hx)

/-- Numbers that every rounding leaves alone. -/
def Exact (c : ℚ) : Prop := ∀ k, approx k c = c

/-- Zero is shown as it is. -/
theorem exact_zero : Exact 0 := by
  intro k
  rw [approx, if_neg (lt_irrefl 0), rounded_zero]

/-- Every power of ten is shown as it is. -/
theorem exact_power (j : ℤ) : Exact (10 ^ j) := by
  intro k
  have hpos : (0 : ℚ) < 10 ^ j := zpow_pos (by norm_num) j
  have hnearest := nearest_spec (k := k) ten hpos
  rw [approx, if_neg (not_lt.mpr hpos.le), rounded, dif_pos hpos]
  refine le_antisymm ?_ ?_
  · exact_mod_cast hnearest.le_power ten (j := j) (by norm_num)
  · exact_mod_cast hnearest.power_le ten (j := j) (by norm_num)

theorem Exact.neg {c : ℚ} (h : Exact c) : Exact (-c) := by
  intro k
  rw [approx_neg, h k]

/-- Between a number and a larger one there is an exact one. -/
theorem Exact.between {c x y : ℚ} (h : Exact c) (hx : x ≤ c) (hy : c ≤ y) (k k' : ℕ) :
    approx k x ≤ approx k' y :=
  calc approx k x ≤ approx k c := approx_mono k hx
    _ = c := h k
    _ = approx k' c := (h k').symm
    _ ≤ approx k' y := approx_mono k' hy

/-! ## The readout -/

/-- Values that are shown with an exponent. -/
def Extreme (v : ℚ) : Prop := |v| ≠ 0 ∧ (|v| < 1 / 1000 ∨ 1000000 ≤ |v|)

instance (v : ℚ) : Decidable (Extreme v) := inferInstanceAs (Decidable (_ ∧ _))

/-- The number that the readout shows. -/
theorem number_formatValue (v : ℚ) :
    Numeral.number (formatValue v) = some (approx (if Extreme v then 4 else 5) v) := by
  by_cases hv : Extreme v
  · rw [if_pos hv, ← number_toExponential]
    exact congrArg Numeral.number (if_pos hv)
  · rw [if_neg hv, ← number_toPrecision]
    exact congrArg Numeral.number (if_neg hv)

/-- A power of ten, or zero, comes between an extreme value and a larger one that is not. -/
theorem Extreme.between {v v' : ℚ} (hv : Extreme v) (hv' : ¬ Extreme v') (hle : v ≤ v')
    (k k' : ℕ) : approx k v ≤ approx k' v' := by
  have hmilli : Exact (1 / 1000) := by
    have h := exact_power (-3)
    norm_num at h ⊢
    exact h
  have hmega : Exact 1000000 := by
    have h := exact_power 6
    norm_num at h
    exact h
  by_cases hneg : v ≤ 0
  · by_cases hnonneg : 0 ≤ v'
    · exact exact_zero.between hneg hnonneg k k'
    · -- both are negative, and it is the smaller one that is large
      have habs : |v| = -v := abs_of_nonpos hneg
      have habs' : |v'| = -v' := abs_of_neg (not_le.mp hnonneg)
      rw [Extreme, habs] at hv
      rw [Extreme, habs', not_and_or, not_or, not_lt, not_le] at hv'
      rcases hv' with h0 | ⟨hlow, hhigh⟩
      · exact absurd (neg_eq_zero.mp (not_not.mp h0)) (by linarith)
      · refine hmega.neg.between ?_ (by linarith) k k'
        rcases hv.2 with h | h <;> linarith
  · -- both are positive, and it is the smaller one that is small
    have habs : |v| = v := abs_of_pos (not_le.mp hneg)
    have habs' : |v'| = v' := abs_of_pos ((not_le.mp hneg).trans_le hle)
    rw [Extreme, habs] at hv
    rw [Extreme, habs', not_and_or, not_or, not_lt, not_le] at hv'
    rcases hv' with h0 | ⟨hlow, hhigh⟩
    · exact absurd (not_not.mp h0) (by linarith)
    · refine hmilli.between ?_ hlow k k'
      rcases hv.2 with h | h <;> linarith

/-- The sign does not choose the format. -/
theorem extreme_neg (v : ℚ) : Extreme (-v) ↔ Extreme v := by
  rw [Extreme, Extreme, abs_neg]

/-- **THE READOUT SAYS WHAT THE METER DID**: the text that `formatValue` makes of any value is a
    decimal numeral; the number that it stands for is off by one part in twenty thousand at
    most, and by one in two hundred thousand from a thousandth to a million; and a larger value
    never reads as a smaller number, whichever way either of them is written. -/
theorem readout_faithful (v : ℚ) : ∃ w, Numeral.number (formatValue v) = some w ∧
    |w - v| ≤ |v| / 20000 ∧
    (1 / 1000 ≤ |v| → |v| < 1000000 → |w - v| ≤ |v| / 200000) ∧
    ∀ v' w', v ≤ v' → Numeral.number (formatValue v') = some w' → w ≤ w' := by
  refine ⟨_, number_formatValue v, ?_, ?_, ?_⟩
  · have hnonneg := abs_nonneg v
    split
    · refine (abs_approx_sub_le 4 v).trans_eq ?_
      norm_num
    · refine (abs_approx_sub_le 5 v).trans ?_
      norm_num
      linarith
  · intro hlow hhigh
    have hv : ¬ Extreme v := by
      rintro ⟨-, h | h⟩ <;> linarith
    rw [if_neg hv]
    refine (abs_approx_sub_le 5 v).trans_eq ?_
    norm_num
  · intro v' w' hle hw'
    rw [number_formatValue] at hw'
    obtain rfl := Option.some.inj hw'
    by_cases hv : Extreme v
    · by_cases hv' : Extreme v'
      · rw [if_pos hv, if_pos hv']
        exact approx_mono 4 hle
      · exact hv.between hv' hle _ _
    · by_cases hv' : Extreme v'
      · -- the same, on the other side of zero
        have h := ((extreme_neg v').mpr hv').between (fun h => hv ((extreme_neg v).mp h))
          (neg_le_neg hle) (if Extreme v' then 4 else 5) (if Extreme v then 4 else 5)
        rw [approx_neg, approx_neg] at h
        exact neg_le_neg_iff.mp h
      · rw [if_neg hv, if_neg hv']
        exact approx_mono 5 hle

end Readout
