import XdmServer.Driver
import Mathlib.Algebra.Order.BigOperators.Group.List
import Mathlib.Algebra.Order.Field.Basic
import Mathlib.Algebra.Order.Field.Rat
import Mathlib.Data.Rat.Cast.Order

/-! # The database

    `storage/db.py`: a table of readings to which rows are only appended, and the
    statement that summarises a part of it.  The table is the list of its rows, `REAL`
    columns are exact rationals. -/

namespace Database

open PyText Driver

/-! ## Means -/

section Mean

variable {K : Type} [Field K] [LinearOrder K] [IsStrictOrderedRing K]

/-- `AVG`. -/
def mean (xs : List K) : K := xs.sum / xs.length

/-- **A mean lies between the bounds of what it is the mean of.** -/
theorem mean_mem {xs : List K} {lo hi : K} (hne : xs ≠ []) (hlo : ∀ x ∈ xs, lo ≤ x)
    (hhi : ∀ x ∈ xs, x ≤ hi) : lo ≤ mean xs ∧ mean xs ≤ hi := by
  have hpos : (0 : K) < xs.length := Nat.cast_pos.mpr (List.length_pos_iff.mpr hne)
  have hlower := List.card_nsmul_le_sum xs lo hlo
  have hupper := List.sum_le_card_nsmul xs hi hhi
  rw [nsmul_eq_mul] at hlower hupper
  constructor
  · rw [mean, le_div_iff₀ hpos, mul_comm]
    exact hlower
  · rw [mean, div_le_iff₀ hpos, mul_comm hi]
    exact hupper

/-- A list that is not empty has a least and a greatest element, and its mean and each
    of its elements lie between them. -/
theorem exists_bounds {xs : List K} {x : K} (hx : x ∈ xs) :
    ∃ lo hi, xs.min? = some lo ∧ xs.max? = some hi ∧ (lo ≤ x ∧ x ≤ hi) ∧
      lo ≤ mean xs ∧ mean xs ≤ hi := by
  have hne : xs ≠ [] := List.ne_nil_of_mem hx
  obtain ⟨lo, hlo⟩ := Option.isSome_iff_exists.mp (List.isSome_min?_of_ne_nil hne)
  obtain ⟨hi, hhi⟩ := Option.isSome_iff_exists.mp (List.isSome_max?_of_ne_nil hne)
  have hleast := (List.min?_eq_some_iff.mp hlo).2
  have hgreatest := (List.max?_eq_some_iff.mp hhi).2
  exact ⟨lo, hi, hlo, hhi, ⟨hleast x hx, hgreatest x hx⟩, mean_mem hne hleast hgreatest⟩

end Mean

/-! ## The table -/

/-- The conditions a `WHERE` is made of. -/
inductive Clause where
  /-- `ts >= ?` -/
  | tsFrom (since : Rat)
  /-- `ts <= ?` -/
  | tsUpTo (until_ : Rat)
  /-- `function = ?` -/
  | functionIs (function : Str)

/-- A row meets a clause. -/
def Clause.holds (row : Reading Rat) : Clause → Bool
  | .tsFrom since => since ≤ row.timestamp
  | .tsUpTo until_ => row.timestamp ≤ until_
  | .functionIs function => row.function = function

/-- The clauses for the arguments that are not `None`, as `history` and `aggregate` collect
    them. -/
def clauses (since until_ : Option Rat) (function : Option Str) : List Clause :=
  since.toList.map .tsFrom ++ until_.toList.map .tsUpTo ++ function.toList.map .functionIs

/-- The rows for which all clauses hold. -/
def select (rows : List (Reading Rat)) (since until_ : Option Rat) (function : Option Str) :
    List (Reading Rat) :=
  rows.filter fun row => (clauses since until_ function).all fun clause => clause.holds row

/-- `insert_reading`: append a single reading. -/
def insertReading (rows : List (Reading Rat)) (reading : Reading Rat) : List (Reading Rat) :=
  rows ++ [reading]

/-- The aggregate of the selected rows. -/
def summarise (rows : List (Reading Rat)) : Aggregate Rat :=
  let values := rows.map Reading.value
  let timestamps := rows.map Reading.timestamp
  if rows.length = 0 then .empty
  else ⟨rows.length, some (mean values), values.min?, values.max?, timestamps.min?,
    timestamps.max?⟩

/-- `Database.aggregate`. -/
def aggregate (rows : List (Reading Rat)) (since until_ : Option Rat) (function : Option Str) :
    Aggregate Rat :=
  summarise (select rows since until_ function)

theorem mem_select {rows : List (Reading Rat)} {since until_ : Option Rat}
    {function : Option Str} {row : Reading Rat} :
    row ∈ select rows since until_ function ↔ row ∈ rows ∧
      (∀ t ∈ since, t ≤ row.timestamp) ∧ (∀ t ∈ until_, row.timestamp ≤ t) ∧
      ∀ f ∈ function, row.function = f := by
  cases since <;> cases until_ <;> cases function <;> simp [select, clauses, Clause.holds]

/-- **What the summary of a window says** of each of its rows. -/
theorem summarise_brackets {rows : List (Reading Rat)} {row : Reading Rat} (hrow : row ∈ rows) :
    ∃ lo hi m, (summarise rows).min = some lo ∧ (summarise rows).max = some hi ∧
      (summarise rows).mean = some m ∧ 1 ≤ (summarise rows).count ∧
      (lo ≤ row.value ∧ row.value ≤ hi) ∧ lo ≤ m ∧ m ≤ hi := by
  have hpos : 0 < rows.length := List.length_pos_of_mem hrow
  have hvalue : row.value ∈ rows.map Reading.value := List.mem_map_of_mem hrow
  obtain ⟨lo, hi, hlo, hhi, hbetween, hmean⟩ := exists_bounds hvalue
  have hne : rows.length ≠ 0 := Nat.ne_of_gt hpos
  simp only [summarise, if_neg hne]
  exact ⟨lo, hi, _, hlo, hhi, rfl, hpos, hbetween, hmean⟩

end Database
