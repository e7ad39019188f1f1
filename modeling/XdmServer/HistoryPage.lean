import Mathlib.Tactic.Linarith
import Mathlib.Tactic.NormNum
import XdmServer.Numeral
import XdmServer.WebApi

/-! # The history page

    `history.js` fetches the last thousand readings, draws them on a canvas of 800 by 320 and
    offers them as CSV.  `Numbers` is how the language writes a number into a text, and how
    whoever opens the file reads it. -/

namespace HistoryPage

open PyText Device Driver RegisterMachine WebApi

/-! ## The chart -/

/-- The width of the canvas. -/
def width : ℚ := 800

/-- The height of the canvas. -/
def height : ℚ := 320

/-- The distance of the axes from the rim of the canvas. -/
def pad : ℚ := 40

/-- `Math.min(...xs)`, of at least one number. -/
def least (xs : List ℚ) : ℚ := xs.min?.getD 0

/-- `Math.max(...xs)`, of at least one number. -/
def greatest (xs : List ℚ) : ℚ := xs.max?.getD 0

/-- What `draw` paints: the two axes, and the line through the readings. -/
structure Drawing where
  axes : List (ℚ × ℚ)
  line : List (ℚ × ℚ)

section Draw

variable (data : List MeasurementOut)

/-- Where on the canvas a timestamp lies. -/
def sx (t : ℚ) : ℚ :=
  let xs := data.map MeasurementOut.timestamp
  let minX := least xs
  let maxX := greatest xs
  pad + (if maxX = minX then 0 else (t - minX) / (maxX - minX)) * (width - 2 * pad)

/-- Where on the canvas a value lies; a larger one lies higher, at a smaller coordinate. -/
def sy (v : ℚ) : ℚ :=
  let ys := data.map MeasurementOut.value
  let minY := least ys
  let maxY := greatest ys
  height - pad - (if maxY = minY then 1 / 2 * (height - 2 * pad)
    else (v - minY) / (maxY - minY) * (height - 2 * pad))

/-- The axes, and the line through the readings in their order. -/
def draw : Drawing where
  axes := [(pad, pad), (pad, height - pad), (width - pad, height - pad)]
  line := data.map fun d => (sx data d.timestamp, sy data d.value)

end Draw

/-! ## The download -/

/-- `String(x)`, and reading it back. -/
structure Numbers where
  text : ℚ → Str
  read : Str → Option ℚ
  read_text : ∀ x, read (text x) = some x
  plain : ∀ x, ',' ∉ text x ∧ '\n' ∉ text x

/-- A line of the file. -/
def row (numbers : Numbers) (d : MeasurementOut) : Str :=
  [','].intercalate [numbers.text d.timestamp, d.function, numbers.text d.value, d.unit]

/-- The first line of the file. -/
def header : Str := "timestamp,function,value,unit".toList

/-- The file that the page offers. -/
def toCsv (numbers : Numbers) (data : List MeasurementOut) : Str :=
  let rows := data.map (row numbers)
  header ++ ['\n'] ++ ['\n'].intercalate rows ++ ['\n']

/-- What the page shows. -/
structure Page where
  /-- "No data yet" is displayed. -/
  empty : Bool
  chart : Option Drawing
  csv : Option Str

/-- What `load` does with the response.  A refusal is an object, which has no `length`; of an
    internal error `res.json()` throws. -/
def Page.load (numbers : Numbers) (page : Page) : Response → Page
  | .ok (.history data) =>
      if data.isEmpty then { empty := true, chart := none, csv := none }
      else { empty := false, chart := some (draw data), csv := some (toCsv numbers data) }
  | .refused _ => { empty := true, chart := none, csv := none }
  | _ => page

/-! ## What is drawn -/

/-- Where a number lies between the least and the greatest. -/
theorem between {lo hi x : ℚ} (hlo : lo ≤ x) (hhi : x ≤ hi) (hne : hi ≠ lo) :
    0 ≤ (x - lo) / (hi - lo) ∧ (x - lo) / (hi - lo) ≤ 1 := by
  have hlt : lo < hi := lt_of_le_of_ne (hlo.trans hhi) hne.symm
  have hpos : 0 < hi - lo := sub_pos.mpr hlt
  refine ⟨div_nonneg (sub_nonneg.mpr hlo) hpos.le, ?_⟩
  rw [div_le_one hpos]
  exact sub_le_sub_right hhi lo

section Chart

variable {data : List MeasurementOut} {d e : MeasurementOut}

end Chart

/-! ## What is downloaded -/

/-- Neither a comma nor a new line. -/
def Plain (s : Str) : Prop := ',' ∉ s ∧ '\n' ∉ s

section Csv

variable {numbers : Numbers} {data : List MeasurementOut} {d : MeasurementOut}

end Csv

/-! ## What is shown -/

/-- Numbers as fractions. -/
def fractions : Numbers where
  text x := (if x.num < 0 then '-' else '+') :: Nat.toDigits 10 x.num.natAbs
    ++ '/' :: Nat.toDigits 10 x.den
  read s := match s.splitOn '/' with
    | [num, den] => (Numeral.exponent num).map fun n : ℤ => (n : ℚ) / Numeral.natural den
    | _ => none
  read_text := by
    intro x
    have hslash : ∀ n, '/' ∉ Nat.toDigits 10 n := fun n h =>
      Numeral.ne_of_isDigit (Nat.isDigit_of_mem_toDigits (by decide) (by decide) h)
        (d := '/') (by decide) rfl
    have hnum : '/' ∉ (if x.num < 0 then '-' else '+') :: Nat.toDigits 10 x.num.natAbs := by
      intro h
      rcases List.mem_cons.mp h with h | h
      · split at h <;> cases h
      · exact hslash _ h
    rw [List.splitOn_append_cons_self_of_not_mem hnum, List.splitOn_eq_singleton (hslash _)]
    simp only [Numeral.exponent_sign, Option.map_some, Numeral.natural_toDigits, Rat.num_div_den]
  plain := by
    intro x
    have hdigits : ∀ c : Char, c.isDigit = false → ∀ n, c ∉ Nat.toDigits 10 n := fun c hc n h =>
      Numeral.ne_of_isDigit (Nat.isDigit_of_mem_toDigits (by decide) (by decide) h) hc rfl
    constructor
    all_goals
      intro h
      rcases List.mem_append.mp h with h | h <;> rcases List.mem_cons.mp h with h | h
      · split at h <;> cases h
      · exact hdigits _ (by decide) _ h
      · cases h
      · exact hdigits _ (by decide) _ h

/-- Replies as fractions. -/
def numerals : Numerals ℚ where
  repr := fractions.text
  float := fractions.read
  float_repr q := by
    rw [fractions.read_text]
    rfl

end HistoryPage
