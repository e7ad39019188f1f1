import Mathlib.Data.List.TakeWhile
import Mathlib.Data.Rat.Defs
import Mathlib.Tactic.FieldSimp
import Mathlib.Tactic.Ring

/-! # Reading decimal numerals

    `number` is what a decimal numeral stands for: digits, with a point among them or
    without one, a sign before them, and an exponent after them.  It is undefined on any
    other text.  The lemmas read what a program is likely to have written. -/

namespace Numeral

/-- At least one digit, and nothing else. -/
def allDigits (s : List Char) : Bool := !s.isEmpty && s.all Char.isDigit

/-- The number of these digits. -/
def natural (s : List Char) : ℕ := Nat.ofDigitChars 10 s 0

/-- `12` or `1.2`. -/
def decimal (s : List Char) : Option ℚ :=
  let whole := s.takeWhile Char.isDigit
  if whole.isEmpty then none
  else match s.dropWhile Char.isDigit with
    | [] => some (natural whole : ℚ)
    | '.' :: fraction =>
        if allDigits fraction then
          some ((natural (whole ++ fraction) : ℚ) / 10 ^ fraction.length)
        else none
    | _ => none

/-- `+12` or `-12`. -/
def exponent : List Char → Option ℤ
  | '+' :: s => if allDigits s then some (natural s : ℤ) else none
  | '-' :: s => if allDigits s then some (-(natural s : ℤ)) else none
  | _ => none

/-- `1.2` or `1.2e+12`. -/
def unsigned (s : List Char) : Option ℚ :=
  match s.dropWhile (· != 'e') with
  | [] => decimal s
  | _ :: after =>
      (decimal (s.takeWhile (· != 'e'))).bind fun m => (exponent after).map fun e => m * 10 ^ e

/-- The number that a numeral stands for. -/
def number : List Char → Option ℚ
  | '-' :: s => (unsigned s).map fun q => -q
  | s => unsigned s

/-! ## Digits -/

/-- There is a digit, and nothing else. -/
theorem allDigits_iff {s : List Char} :
    allDigits s = true ↔ s ≠ [] ∧ ∀ c ∈ s, c.isDigit = true := by
  simp [allDigits]

theorem allDigits_toDigits (n : ℕ) : allDigits (Nat.toDigits 10 n) = true := by
  refine allDigits_iff.mpr ⟨List.ne_nil_of_length_pos Nat.length_toDigits_pos, ?_⟩
  intro c hc
  exact Nat.isDigit_of_mem_toDigits (by decide) (by decide) hc

theorem ne_of_isDigit {c d : Char} (hc : c.isDigit = true) (hd : d.isDigit = false) : c ≠ d := by
  rintro rfl
  rw [hc] at hd
  cases hd

/-- The digits of a number are as many as it has places. -/
theorem length_toDigits {k n : ℕ} (hlower : 10 ^ k ≤ n) (hupper : n < 10 ^ (k + 1)) :
    (Nat.toDigits 10 n).length = k + 1 := by
  have hle := (Nat.length_toDigits_le_iff (b := 10) (by decide) (Nat.succ_pos k)).mpr hupper
  have hpos := Nat.length_toDigits_pos (b := 10) (n := n)
  by_contra hne
  cases k with
  | zero => omega
  | succ k =>
      have hlt : n < 10 ^ (k + 1) := by
        refine (Nat.length_toDigits_le_iff (b := 10) (by decide) (Nat.succ_pos k)).mp ?_
        omega
      omega

/-- What is written is read back. -/
theorem natural_toDigits (n : ℕ) : natural (Nat.toDigits 10 n) = n := Nat.ofDigitChars_ten_toDigits

/-- Leading zeros count for nothing. -/
theorem natural_zeros (n : ℕ) (s : List Char) :
    natural (List.replicate n '0' ++ s) = natural s := by
  rw [natural, Nat.ofDigitChars_append, Nat.ofDigitChars_replicate_zero, Nat.mul_zero]
  rfl

/-! ## What is read -/

/-- Digits without a point are a whole number. -/
theorem decimal_whole {s : List Char} (h : allDigits s = true) :
    decimal s = some (natural s : ℚ) := by
  obtain ⟨hne, hall⟩ := allDigits_iff.mp h
  rw [decimal, List.takeWhile_eq_self_iff.mpr hall, List.dropWhile_eq_nil_iff.mpr hall]
  simp [hne]

/-- Digits after a point are so many places down. -/
theorem decimal_point {whole fraction : List Char} (hwhole : allDigits whole = true)
    (hfraction : allDigits fraction = true) : decimal (whole ++ '.' :: fraction)
      = some ((natural (whole ++ fraction) : ℚ) / 10 ^ fraction.length) := by
  obtain ⟨hne, hall⟩ := allDigits_iff.mp hwhole
  have htake : (whole ++ '.' :: fraction).takeWhile Char.isDigit = whole := by
    rw [List.takeWhile_append_of_pos hall, List.takeWhile_cons_of_neg (by decide), List.append_nil]
  have hdrop : (whole ++ '.' :: fraction).dropWhile Char.isDigit = '.' :: fraction := by
    rw [List.dropWhile_append_of_pos hall, List.dropWhile_cons_of_neg (by decide)]
  rw [decimal, htake, hdrop]
  simp [hne, hfraction]

/-- A text of digits and points has no exponent. -/
theorem unsigned_plain {s : List Char} (h : ∀ c ∈ s, c ≠ 'e') : unsigned s = decimal s := by
  have hall : ∀ c ∈ s, (c != 'e') = true := fun c hc => by simpa using h c hc
  rw [unsigned, List.dropWhile_eq_nil_iff.mpr hall]

/-- What stands after the first `e` is the exponent. -/
theorem unsigned_exponent {m after : List Char} (h : ∀ c ∈ m, c ≠ 'e') :
    unsigned (m ++ 'e' :: after)
      = (decimal m).bind fun q => (exponent after).map fun e => q * 10 ^ e := by
  have hall : ∀ c ∈ m, (c != 'e') = true := fun c hc => by simpa using h c hc
  have htake : (m ++ 'e' :: after).takeWhile (· != 'e') = m := by
    rw [List.takeWhile_append_of_pos hall, List.takeWhile_cons_of_neg (by simp), List.append_nil]
  have hdrop : (m ++ 'e' :: after).dropWhile (· != 'e') = 'e' :: after := by
    rw [List.dropWhile_append_of_pos hall, List.dropWhile_cons_of_neg (by simp)]
  rw [unsigned, hdrop, htake]

/-- A numeral that begins with a digit has no sign. -/
theorem number_of_digit {s : List Char} (h : ∀ c ∈ s.head?, c.isDigit = true) :
    number s = unsigned s := by
  cases s with
  | nil => rfl
  | cons c s =>
      have hc : c ≠ '-' := ne_of_isDigit (h c rfl) (by decide)
      rw [number]
      rintro s' heq
      exact hc (List.cons.inj heq).1

/-- A sign, and digits. -/
theorem exponent_sign (e : ℤ) :
    exponent ((if e < 0 then '-' else '+') :: Nat.toDigits 10 e.natAbs) = some e := by
  by_cases he : e < 0
  · rw [if_pos he, exponent, if_pos (allDigits_toDigits _),
      natural_toDigits]
    congr 1
    omega
  · rw [if_neg he, exponent, if_pos (allDigits_toDigits _),
      natural_toDigits]
    congr 1
    omega

end Numeral
