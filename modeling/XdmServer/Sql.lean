import Mathlib.Algebra.Order.BigOperators.Group.List
import Mathlib.Algebra.Order.Field.Rat
import Mathlib.Data.Char
import Mathlib.Data.List.Lex
import Mathlib.Data.List.MinMax
import Mathlib.Data.List.Sort
import Mathlib.Data.Multiset.AddSub
import Mathlib.Data.Sum.Order

/-! # A fragment of SQL

    Statements over one table, of rows of any type, with placeholders for the values they
    mention: the rows that fit, the latest of them first, up to a limit; and a summary of
    the rows that fit.  What parameters are bound to the placeholders is a list of its own.

    The engine puts rows whose keys are equal in any order.  `Latest` says what a limited
    selection is nevertheless sure to be, and `latest_limit` that it is. -/

namespace Sql

/-! ## Values -/

/-- What a column holds, a parameter is or a query returns. -/
inductive Value where
  | null
  | integer (n : Int)
  | real (x : Rat)
  | text (s : List Char)
  deriving DecidableEq

namespace Value

/-- Values in order: NULL, then numbers, then texts. -/
def rank : Value → WithBot (Rat ⊕ₗ List Char)
  | .null => ⊥
  | .integer n => ((toLex (.inl n) : Rat ⊕ₗ List Char) : WithBot _)
  | .real x => ((toLex (.inl x) : Rat ⊕ₗ List Char) : WithBot _)
  | .text s => ((toLex (.inr s) : Rat ⊕ₗ List Char) : WithBot _)

/-- Reals are ranked as they are ordered. -/
theorem rank_real_le {x y : Rat} : (real x).rank ≤ (real y).rank ↔ x ≤ y := by
  simp [rank]

theorem rank_text_eq {s t : List Char} : (text s).rank = (text t).rank ↔ s = t := by
  simp [rank]

/-- What a value counts as in an average: nothing if it is NULL, and 0 if it is a text that
    is no number. -/
def number? : Value → Option Rat
  | .null => none
  | .integer n => some n
  | .real x => some x
  | .text _ => some 0

/-- Integers have 64 bits. -/
def fits : Value → Bool
  | .integer n => -2 ^ 63 ≤ n && n < 2 ^ 63
  | _ => true

end Value

/-- How a column is compared with a parameter. -/
inductive Comparison where
  | ge
  | le
  | eq

/-- What is compared with NULL does not hold. -/
def Comparison.holds (op : Comparison) (a b : Value) : Bool :=
  a ≠ .null && b ≠ .null && match op with
    | .ge => decide (b.rank ≤ a.rank)
    | .le => decide (a.rank ≤ b.rank)
    | .eq => decide (a.rank = b.rank)

@[simp] theorem holds_ge (x y : Rat) :
    Comparison.ge.holds (.real x) (.real y) = decide (y ≤ x) := by
  simp [Comparison.holds, Value.rank_real_le]

@[simp] theorem holds_le (x y : Rat) :
    Comparison.le.holds (.real x) (.real y) = decide (x ≤ y) := by
  simp [Comparison.holds, Value.rank_real_le]

@[simp] theorem holds_eq (s t : List Char) :
    Comparison.eq.holds (.text s) (.text t) = decide (s = t) := by
  simp [Comparison.holds, Value.rank_text_eq]

/-! ## Parameters -/

/-- What SQLite raises on a statement that the program may execute. -/
inductive Error where
  /-- There are more or fewer parameters than placeholders. -/
  | incorrectNumberOfBindings
  /-- An integer that has not 64 bits. -/
  | overflowError
  | datatypeMismatch
  deriving DecidableEq

/-- Binding parameters to that many placeholders. -/
def bind (placeholders : Nat) (params : List Value) : Except Error Unit :=
  if params.length ≠ placeholders then .error .incorrectNumberOfBindings
  else if params.all Value.fits then .ok ()
  else .error .overflowError

/-- As many parameters as placeholders, each of which fits, can be bound. -/
theorem bind_eq_ok {placeholders : Nat} {params : List Value}
    (hlength : params.length = placeholders) (hfits : params.all Value.fits = true) :
    bind placeholders params = .ok () := by
  rw [bind, if_neg (by simpa using hlength), if_pos hfits]

/-! ## Statements -/

variable {R κ ν : Type}

/-- `column op ?`. -/
structure Condition (κ : Type) where
  column : κ
  op : Comparison

/-- `INSERT INTO … (columns) VALUES (?, …)`. -/
structure Insert (κ : Type) where
  columns : List κ

/-- `SELECT columns FROM … WHERE clauses ORDER BY orderBy DESC LIMIT ?`. -/
structure Select (κ : Type) where
  columns : List κ
  clauses : List (Condition κ)
  orderBy : κ

/-- What an aggregate query selects. -/
inductive Term (κ : Type) where
  /-- `COUNT(*)` -/
  | count
  | avg (column : κ)
  | min (column : κ)
  | max (column : κ)

/-- `SELECT term AS name, … FROM … WHERE clauses`. -/
structure Summary (κ ν : Type) where
  terms : List (Term κ × ν)
  clauses : List (Condition κ)

/-- What an engine is free in: rows in descending order of a key, equal ones as it likes. -/
structure Engine (R : Type) where
  descending : (R → Value) → List R → List R
  perm : ∀ key rows, (descending key rows).Perm rows
  sorted : ∀ key rows, (descending key rows).Pairwise fun a b => (key b).rank ≤ (key a).rank

/-- The engine that leaves equal rows in the order of the table. -/
def Engine.stable : Engine R where
  descending key rows := rows.insertionSort fun a b => (key b).rank ≤ (key a).rank
  perm key rows := List.perm_insertionSort _ rows
  sorted key rows := by
    have htotal : Std.Total fun a b : R => (key b).rank ≤ (key a).rank :=
      ⟨fun a b => le_total (key b).rank (key a).rank⟩
    have htrans : IsTrans R fun a b => (key b).rank ≤ (key a).rank :=
      ⟨fun a b c hab hbc => hbc.trans hab⟩
    exact List.pairwise_insertionSort _ rows

/-! ## Their meaning -/

section Meaning

variable (get : R → κ → Value)

/-- The rows for which every condition holds of the parameter in its place. -/
def matching (clauses : List (Condition κ)) (params : List Value) (rows : List R) : List R :=
  rows.filter fun row => (clauses.zip params).all fun bound =>
    bound.1.op.holds (get row bound.1.column) bound.2

/-- `LIMIT n`: a negative one is none. -/
def limit {β : Type} (n : Int) (rows : List β) : List β :=
  if n < 0 then rows else rows.take n.toNat

/-- What the columns of the new row are given. -/
def Insert.execute (statement : Insert κ) (params : List Value) :
    Except Error (List (κ × Value)) := do
  bind statement.columns.length params
  return statement.columns.zip params

/-- The rows that are returned, by the names of their columns. -/
def Select.execute (engine : Engine R) (query : Select κ) (params : List Value) (rows : List R) :
    Except Error (List (List (κ × Value))) := do
  bind (query.clauses.length + 1) params
  -- the limit is the last placeholder
  match params.getLast? with
  | some (.integer n) =>
      let found := matching get query.clauses params rows
      let ordered := engine.descending (get · query.orderBy) found
      return (limit n ordered).map fun row => query.columns.map fun column =>
        (column, get row column)
  | _ => throw .datatypeMismatch

/-- NULLs count in `COUNT(*)` only; of nothing there is no average, least or greatest. -/
def Term.eval (rows : List R) : Term κ → Value
  | .count => .integer rows.length
  | .avg column =>
      let xs := (rows.map (get · column)).filterMap Value.number?
      if xs = [] then .null else .real (xs.sum / xs.length)
  | .min column =>
      (((rows.map (get · column)).filter fun v => v ≠ .null).argmin Value.rank).getD .null
  | .max column =>
      (((rows.map (get · column)).filter fun v => v ≠ .null).argmax Value.rank).getD .null

/-- One row is returned, whatever fits. -/
def Summary.execute (query : Summary κ ν) (params : List Value) (rows : List R) :
    Except Error (List (List (ν × Value))) := do
  bind query.clauses.length params
  let found := matching get query.clauses params rows
  return [query.terms.map fun term => (term.2, term.1.eval get found)]

/-! ## What statements return -/

/-- An `INSERT` puts the parameters under its columns, in their order. -/
theorem Insert.execute_eq (statement : Insert κ) {params : List Value}
    (hlength : params.length = statement.columns.length) (hfits : params.all Value.fits = true) :
    statement.execute params = .ok (statement.columns.zip params) := by
  rw [Insert.execute, bind_eq_ok hlength hfits]
  rfl

/-- A parameter that no condition is left for plays no part. -/
theorem matching_append {clauses : List (Condition κ)} {params : List Value}
    (hlength : params.length = clauses.length) (rest : List Value) (rows : List R) :
    matching get clauses (params ++ rest) rows = matching get clauses params rows := by
  have hzip : clauses.zip (params ++ rest) = clauses.zip params := by
    calc clauses.zip (params ++ rest)
        = (clauses ++ []).zip (params ++ rest) := by rw [List.append_nil]
      _ = clauses.zip params ++ [].zip rest := List.zip_append hlength.symm
      _ = clauses.zip params := by simp
  rw [matching, hzip]
  rfl

/-- **A limited selection** whose parameters are one for each condition, and the limit. -/
theorem Select.execute_eq (engine : Engine R) (query : Select κ) {params : List Value} {n : Int}
    (hlength : params.length = query.clauses.length)
    (hfits : (params ++ [Value.integer n]).all Value.fits = true) (rows : List R) :
    query.execute get engine (params ++ [.integer n]) rows = .ok
      ((limit n (engine.descending (get · query.orderBy)
        (matching get query.clauses params rows))).map fun row =>
          query.columns.map fun column => (column, get row column)) := by
  rw [Select.execute, bind_eq_ok (by simp [hlength]) hfits, List.getLast?_concat,
    matching_append get hlength]
  rfl

/-- A limit that has not 64 bits is not taken. -/
theorem Select.execute_overflow (engine : Engine R) (query : Select κ) {params : List Value}
    {n : Int} (hlength : params.length = query.clauses.length)
    (hn : (Value.integer n).fits = false) (rows : List R) :
    query.execute get engine (params ++ [.integer n]) rows = .error .overflowError := by
  have hfits : ¬(params ++ [Value.integer n]).all Value.fits = true := by simp [hn]
  rw [Select.execute, bind, if_neg (by simp [hlength]), if_neg hfits]
  rfl

/-- A summary is one row, over the rows that meet its clauses. -/
theorem Summary.execute_eq (query : Summary κ ν) {params : List Value}
    (hlength : params.length = query.clauses.length) (hfits : params.all Value.fits = true)
    (rows : List R) : query.execute get params rows = .ok
      [query.terms.map fun term =>
        (term.2, term.1.eval get (matching get query.clauses params rows))] := by
  rw [Summary.execute, bind_eq_ok hlength hfits]
  rfl

/-! ## Columns of numbers -/

/-- Among reals the lowest rank is the least number. -/
theorem argmin_real (xs : List Rat) :
    (xs.map Value.real).argmin Value.rank = xs.min?.map Value.real := by
  cases hleast : (xs.map Value.real).argmin Value.rank with
  | none =>
      rw [List.map_eq_nil_iff.mp (List.argmin_eq_none.mp hleast)]
      rfl
  | some least =>
      obtain ⟨x, hx, rfl⟩ := List.mem_map.mp (List.argmin_mem hleast)
      have hmin : xs.min? = some x := List.min?_eq_some_iff.mpr ⟨hx, fun y hy =>
        Value.rank_real_le.mp (List.le_of_mem_argmin (List.mem_map_of_mem hy) hleast)⟩
      rw [hmin]
      rfl

/-- Among reals the highest rank is the greatest number. -/
theorem argmax_real (xs : List Rat) :
    (xs.map Value.real).argmax Value.rank = xs.max?.map Value.real := by
  cases hgreatest : (xs.map Value.real).argmax Value.rank with
  | none =>
      rw [List.map_eq_nil_iff.mp (List.argmax_eq_none.mp hgreatest)]
      rfl
  | some greatest =>
      obtain ⟨x, hx, rfl⟩ := List.mem_map.mp (List.argmax_mem hgreatest)
      have hmax : xs.max? = some x := List.max?_eq_some_iff.mpr ⟨hx, fun y hy =>
        Value.rank_real_le.mp (List.le_of_mem_argmax (List.mem_map_of_mem hy) hgreatest)⟩
      rw [hmax]
      rfl

section Numbers

variable {get} {column : κ} {f : R → Rat} (hf : ∀ row, get row column = .real (f row))
include hf

/-- A column of reals is the list of them. -/
theorem values_real (rows : List R) : rows.map (get · column) = (rows.map f).map .real := by
  simp [hf]

theorem values_not_null (rows : List R) :
    (rows.map (get · column)).filter (fun v => v ≠ .null) = (rows.map f).map .real := by
  rw [values_real hf, List.filter_eq_self]
  intro v hv
  obtain ⟨x, -, rfl⟩ := List.mem_map.mp hv
  rfl

/-- `AVG` over a column of reals: the mean, or `NULL` where there are no rows. -/
theorem eval_avg (rows : List R) : (Term.avg column).eval get rows =
    if rows = [] then .null else .real ((rows.map f).sum / rows.length) := by
  have hxs : (rows.map (get · column)).filterMap Value.number? = rows.map f := by
    rw [values_real hf, List.filterMap_map]
    exact List.filterMap_some
  simp only [Term.eval, hxs, List.map_eq_nil_iff, List.length_map]

/-- `MIN` over a column of reals: the least, or `NULL` where there are no rows. -/
theorem eval_min (rows : List R) : (Term.min column).eval get rows =
    ((rows.map f).min?.map Value.real).getD .null := by
  rw [Term.eval, values_not_null hf, argmin_real]

/-- `MAX` over a column of reals: the greatest, or `NULL` where there are no rows. -/
theorem eval_max (rows : List R) : (Term.max column).eval get rows =
    ((rows.map f).max?.map Value.real).getD .null := by
  rw [Term.eval, values_not_null hf, argmax_real]

end Numbers

end Meaning

/-! ## The latest rows -/

section Latest

variable {α β K : Type} [LinearOrder K]

/-- The `n` elements with the greatest keys, or all if `n` is negative, in ascending order; of
    equal ones at the limit, any. -/
structure Latest [DecidableEq α] (key : α → K) (n : Int) (source result : List α) : Prop where
  ascending : result.Pairwise fun a b => key a ≤ key b
  subset : (result : Multiset α) ≤ source
  length_of_nonneg : 0 ≤ n → (result.length : Int) = min n source.length
  length_of_neg : n < 0 → result.length = source.length
  greatest : ∀ a ∈ (source : Multiset α) - result, ∀ b ∈ result, key a ≤ key b

/-- `LIMIT` does not look at the rows. -/
theorem limit_map (n : Int) (f : α → β) (rows : List α) :
    (limit n rows).map f = limit n (rows.map f) := by
  unfold limit
  split
  · rfl
  · rw [List.map_take]

/-- A limit splits what it is put on. -/
theorem limit_spec (n : Int) (rows : List α) : ∃ rest, rows = limit n rows ++ rest ∧
    (0 ≤ n → ((limit n rows).length : Int) = min n rows.length) ∧ (n < 0 → rest = []) := by
  unfold limit
  by_cases hn : n < 0
  · rw [if_pos hn]
    exact ⟨[], (List.append_nil rows).symm, fun h => absurd hn (not_lt.mpr h), fun _ => rfl⟩
  · rw [if_neg hn]
    refine ⟨rows.drop n.toNat, (List.take_append_drop ..).symm, fun h => ?_, fun h => absurd h hn⟩
    rw [List.length_take]
    omega

/-- **`ORDER BY … DESC LIMIT n`, read backwards**, returns the latest. -/
theorem latest_limit [DecidableEq α] {key : α → K} {ordered source : List α}
    (hperm : ordered.Perm source) (hsorted : ordered.Pairwise fun a b => key b ≤ key a) (n : Int) :
    Latest key n source (limit n ordered).reverse := by
  obtain ⟨rest, hordered, hlength, hall⟩ := limit_spec n ordered
  have hsource : (source : Multiset α) = (limit n ordered : Multiset α) + rest := by
    rw [Multiset.coe_add, ← hordered]
    exact (Multiset.coe_eq_coe.mpr hperm).symm
  have hreverse : ((limit n ordered).reverse : Multiset α) = limit n ordered :=
    Multiset.coe_reverse _
  rw [hordered, List.pairwise_append] at hsorted
  obtain ⟨hkept, -, hleft⟩ := hsorted
  refine ⟨List.pairwise_reverse.mpr hkept, ?_, fun hn => ?_, fun hn => ?_, ?_⟩
  · rw [hreverse, hsource]
    exact Multiset.le_add_right _ _
  · rw [List.length_reverse, hlength hn, hperm.length_eq]
  · rw [List.length_reverse, ← hperm.length_eq]
    conv_rhs => rw [hordered, hall hn, List.append_nil]
  · intro a ha b hb
    rw [hreverse, hsource, Multiset.add_comm, Multiset.add_sub_cancel_right] at ha
    exact hleft b (List.mem_reverse.mp hb) a ha

/-- A limit that is not reached leaves nothing out. -/
theorem Latest.perm [DecidableEq α] {key : α → K} {n : Int} {source result : List α}
    (h : Latest key n source result) (hn : (source.length : Int) ≤ n) : result.Perm source := by
  have hlength := h.length_of_nonneg (le_trans (Int.natCast_nonneg _) hn)
  have hcard : Multiset.card (source : Multiset α) ≤ Multiset.card (result : Multiset α) := by
    rw [Multiset.coe_card, Multiset.coe_card]
    omega
  exact Multiset.coe_eq_coe.mp (Multiset.eq_of_le_of_card_le h.subset hcard)

end Latest

end Sql
