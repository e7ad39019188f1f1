import XdmServer.Database
import XdmServer.Sql

/-! # The database, statement by statement

    `storage/db.py` with the statements it makes up: which clauses and parameters each
    filter adds, what is bound to the placeholders, and how rows become readings again.

    `insertReading_eq`, `history_eq` and `aggregate_eq` say what the three methods come to,
    on the readings of the rows. -/

namespace Storage

open PyText Driver Sql

/-! ## The table -/

/-- A row of the table `readings`. -/
structure Row where
  id : Nat
  ts : Rat
  function : Str
  value : Rat
  unit : Str

/-- The columns of the table. -/
inductive Column where
  | id | ts | function | value | unit
  deriving DecidableEq

/-- A column of a row. -/
def Row.get (row : Row) : Column → Value
  | .id => .integer row.id
  | .ts => .real row.ts
  | .function => .text row.function
  | .value => .real row.value
  | .unit => .text row.unit

/-- The reading that a row holds. -/
def Row.reading (row : Row) : Reading Rat := ⟨row.ts, row.function, row.value, row.unit⟩

/-- What a method of the database raises. -/
inductive Error where
  | runtimeError (message : Str)
  | sqlite (e : Sql.Error)
  /-- A column has no value, or none of its type. -/
  | integrityError
  /-- A row has no column of the name. -/
  | indexError

/-- SQLite's errors are raised through. -/
def ofSql {α : Type} : Except Sql.Error α → Except Error α
  | .ok a => .ok a
  | .error e => .error (.sqlite e)

/-- The row of an `INSERT` that gives each column a value of its type; no column but the key
    has a default. -/
def Row.make (id : Nat) (values : List (Column × Value)) : Except Error Row :=
  match values.lookup .ts, values.lookup .function, values.lookup .value, values.lookup .unit with
  | some (.real ts), some (.text function), some (.real value), some (.text unit) =>
      .ok ⟨id, ts, function, value, unit⟩
  | _, _, _, _ => .error .integrityError

/-- `Reading(timestamp=row["ts"], …)`. -/
def readingOf (row : List (Column × Value)) : Except Error (Reading Rat) :=
  match row.lookup .ts, row.lookup .function, row.lookup .value, row.lookup .unit with
  | some (.real ts), some (.text function), some (.real value), some (.text unit) =>
      .ok ⟨ts, function, value, unit⟩
  | _, _, _, _ => .error .indexError

/-- A `Database`: the table in the file, and whether there is a connection to it. -/
structure Database where
  table : List Row
  connected : Bool

/-- The columns of the row that `aggregate` fetches. -/
inductive Name where
  | n | mean | lo | hi | first_ts | last_ts
  deriving DecidableEq

/-! ## The methods -/

namespace Database

/-- The database of a new file. -/
def new : Database := ⟨[], false⟩

/-- `connect`: a table that is there is left as it is. -/
def connect (self : Database) : Database := { self with connected := true }

/-- `close`: the file stays. -/
def close (self : Database) : Database := { self with connected := false }

/-- `_db`. -/
def db (self : Database) : Except Error (List Row) :=
  if self.connected then .ok self.table
  else .error (.runtimeError "Database is not connected".toList)

/-- `insert_reading`. -/
def insertReading (self : Database) (reading : Reading Rat) : Except Error Database := do
  let rows ← self.db
  let statement : Insert Column := ⟨[.ts, .function, .value, .unit]⟩
  let values ← ofSql (statement.execute
    [.real reading.timestamp, .text reading.function, .real reading.value, .text reading.unit])
  -- no row is ever deleted, so the next key is one more than there are rows
  let row ← Row.make (rows.length + 1) values
  return { self with table := rows ++ [row] }

/-- `history`. -/
def history (engine : Engine Row) (self : Database) (since until_ : Option Rat)
    (function : Option Str) (limit : Int) : Except Error (List (Reading Rat)) := do
  let mut clauses : List (Condition Column) := []
  let mut params : List Value := []
  if let some since := since then
    clauses := clauses ++ [⟨.ts, .ge⟩]
    params := params ++ [.real since]
  if let some until_ := until_ then
    clauses := clauses ++ [⟨.ts, .le⟩]
    params := params ++ [.real until_]
  if let some function := function then
    clauses := clauses ++ [⟨.function, .eq⟩]
    params := params ++ [.text function]
  let query : Select Column := ⟨[.ts, .function, .value, .unit], clauses, .ts⟩
  params := params ++ [.integer limit]
  let rows ← self.db
  let found ← ofSql (query.execute Row.get engine params rows)
  let readings ← found.mapM readingOf
  return readings.reverse

/-- `row[name]` of a number, or `None` for NULL. -/
def float? (row : List (Name × Value)) (name : Name) : Except Error (Option Rat) :=
  match row.lookup name with
  | some (.real x) => .ok (some x)
  | some .null => .ok none
  | _ => .error .indexError

/-- `row[name]` of an integer. -/
def integer? (row : List (Name × Value)) (name : Name) : Except Error Int :=
  match row.lookup name with
  | some (.integer n) => .ok n
  | _ => .error .indexError

/-- What `aggregate` returns for the row it has fetched. -/
def aggregateOf (row : List (Name × Value)) : Except Error (Aggregate Rat) := do
  let n ← integer? row .n
  if n = 0 then return .empty
  return ⟨n.toNat, ← float? row .mean, ← float? row .lo, ← float? row .hi,
    ← float? row .first_ts, ← float? row .last_ts⟩

/-- `aggregate`. -/
def aggregate (self : Database) (since until_ : Option Rat) (function : Option Str) :
    Except Error (Aggregate Rat) := do
  let mut clauses : List (Condition Column) := []
  let mut params : List Value := []
  if let some since := since then
    clauses := clauses ++ [⟨.ts, .ge⟩]
    params := params ++ [.real since]
  if let some until_ := until_ then
    clauses := clauses ++ [⟨.ts, .le⟩]
    params := params ++ [.real until_]
  if let some function := function then
    clauses := clauses ++ [⟨.function, .eq⟩]
    params := params ++ [.text function]
  let query : Summary Column Name := {
    terms := [(.count, .n), (.avg .value, .mean), (.min .value, .lo), (.max .value, .hi),
      (.min .ts, .first_ts), (.max .ts, .last_ts)]
    clauses := clauses }
  let rows ← self.db
  let found ← ofSql (query.execute Row.get params rows)
  match found.head? with
  | none => return .empty
  | some row => aggregateOf row

/-- `count`. -/
def count (self : Database) : Except Error Nat := do
  let query : Summary Column Name := ⟨[(.count, .n)], []⟩
  let rows ← self.db
  let found ← ofSql (query.execute Row.get [] rows)
  match found.head? with
  | none => return 0
  | some row => return (← integer? row .n).toNat

end Database

/-! ## Filters -/

/-- The clauses that the filters come to, and their parameters. -/
def conditions (since until_ : Option Rat) (function : Option Str) : List (Condition Column) :=
  since.toList.map (fun _ => ⟨.ts, .ge⟩) ++ until_.toList.map (fun _ => ⟨.ts, .le⟩)
    ++ function.toList.map fun _ => ⟨.function, .eq⟩

/-- The parameters, in the order in which the clauses are put together. -/
def arguments (since until_ : Option Rat) (function : Option Str) : List Value :=
  since.toList.map .real ++ until_.toList.map .real ++ function.toList.map .text

/-- What the filters ask of a reading. -/
def Matches (since until_ : Option Rat) (function : Option Str) (reading : Reading Rat) : Prop :=
  (∀ t ∈ since, t ≤ reading.timestamp) ∧ (∀ t ∈ until_, reading.timestamp ≤ t) ∧
    ∀ f ∈ function, reading.function = f

instance (since until_ : Option Rat) (function : Option Str) :
    DecidablePred (Matches since until_ function) := fun _ => inferInstanceAs (Decidable (_ ∧ _))

section Filters

variable (since until_ : Option Rat) (function : Option Str)

/-- There are as many parameters as placeholders. -/
theorem length_arguments :
    (arguments since until_ function).length = (conditions since until_ function).length := by
  simp [arguments, conditions]

/-- Times and names can always be bound. -/
theorem arguments_fit : (arguments since until_ function).all Value.fits = true := by
  cases since <;> cases until_ <;> cases function <;> rfl

/-- **Clauses and parameters line up**: a row fits if its reading matches. -/
theorem matching_eq (rows : List Row) :
    matching Row.get (conditions since until_ function) (arguments since until_ function) rows
      = rows.filter fun row => Matches since until_ function row.reading := by
  refine List.filter_congr fun row _ => ?_
  cases since <;> cases until_ <;> cases function <;>
    simp [conditions, arguments, Matches, Row.get, Row.reading]

/-- The selection of the other account of the table is the same. -/
theorem select_eq (readings : List (Reading Rat)) :
    Database.select readings since until_ function
      = readings.filter fun reading => Matches since until_ function reading := by
  refine List.filter_congr fun reading _ => ?_
  cases since <;> cases until_ <;> cases function <;>
    simp [Database.clauses, Database.Clause.holds, Matches]

end Filters

/-! ## What the methods come to -/

namespace Database

/-- The readings that are stored, in the order in which they were inserted. -/
def readings (self : Database) : List (Reading Rat) := self.table.map Row.reading

theorem connected_connect (self : Database) : self.connect.connected = true := rfl

/-- A connected database has its table. -/
theorem db_eq {self : Database} (h : self.connected = true) : self.db = .ok self.table := if_pos h

/-- **Every operation requires a connection.** -/
theorem raises_of_closed (self : Database) (reading : Reading Rat) (engine : Engine Row)
    (since until_ : Option Rat) (function : Option Str) (limit : Int) :
    let raised := Error.runtimeError "Database is not connected".toList
    self.close.insertReading reading = .error raised ∧
    self.close.history engine since until_ function limit = .error raised ∧
    self.close.aggregate since until_ function = .error raised ∧
    self.close.count = .error raised := by
  refine ⟨rfl, ?_, ?_, rfl⟩ <;> cases since <;> cases until_ <;> cases function <;> rfl

/-- **An insertion** adds the reading. -/
theorem insertReading_eq {self : Database} (h : self.connected = true) (reading : Reading Rat) :
    ∃ d, self.insertReading reading = .ok d ∧ d.connected = true ∧
      d.readings = self.readings ++ [reading] := by
  refine ⟨{ self with table := self.table ++
    [⟨self.table.length + 1, reading.timestamp, reading.function, reading.value, reading.unit⟩] },
    ?_, h, List.map_append⟩
  rw [insertReading, db_eq h]
  rfl

/-- **Insertions**, one after the other. -/
theorem insertReadings_eq {self : Database} (h : self.connected = true)
    (inserted : List (Reading Rat)) :
    ∃ d, inserted.foldlM insertReading self = .ok d ∧ d.connected = true ∧
      d.readings = self.readings ++ inserted := by
  induction inserted generalizing self with
  | nil => exact ⟨self, rfl, h, (List.append_nil _).symm⟩
  | cons reading inserted ih =>
      obtain ⟨d, hd, hconnected, hreadings⟩ := insertReading_eq h reading
      obtain ⟨d', hd', hconnected', hreadings'⟩ := ih hconnected
      refine ⟨d', ?_, hconnected', ?_⟩
      · rw [List.foldlM_cons, hd]
        exact hd'
      · rw [hreadings', hreadings, List.append_assoc]
        rfl

/-- The names of the columns say which field of the reading each is. -/
theorem mapM_readingOf (rows : List Row) :
    (rows.map fun row => [Column.ts, .function, .value, .unit].map fun column =>
      (column, row.get column)).mapM readingOf = .ok (rows.map Row.reading) := by
  induction rows with
  | nil => rfl
  | cons row rows ih =>
      rw [List.map_cons, List.mapM_cons, ih]
      rfl

theorem history_unfold (engine : Engine Row) (self : Database) (since until_ : Option Rat)
    (function : Option Str) (limit : Int) :
    self.history engine since until_ function limit = (do
      let rows ← self.db
      let query : Select Column :=
        ⟨[.ts, .function, .value, .unit], conditions since until_ function, .ts⟩
      let found ← ofSql (query.execute Row.get engine
        (arguments since until_ function ++ [.integer limit]) rows)
      let readings ← found.mapM readingOf
      return readings.reverse) := by
  cases since <;> cases until_ <;> cases function <;> rfl

/-- **`history`**: of the rows that match, those within the limit, the oldest first. -/
theorem history_eq {self : Database} (h : self.connected = true) (engine : Engine Row)
    (since until_ : Option Rat) (function : Option Str) {limit : Int}
    (hlimit : -2 ^ 63 ≤ limit ∧ limit < 2 ^ 63) :
    self.history engine since until_ function limit = .ok
      ((Sql.limit limit (engine.descending (fun row => row.get .ts)
        (self.table.filter fun row => Matches since until_ function row.reading))).map
          Row.reading).reverse := by
  have hfits :
      (arguments since until_ function ++ [Value.integer limit]).all Value.fits = true := by
    simpa [arguments_fit, Value.fits] using hlimit
  rw [history_unfold, db_eq h]
  show (ofSql (Select.execute ..) >>= fun found => _) = _
  rw [Select.execute_eq Row.get engine _ (length_arguments since until_ function) hfits,
    matching_eq]
  show (List.mapM readingOf _ >>= fun readings => _) = _
  rw [mapM_readingOf]
  rfl

/-- A limit beyond 64 bits cannot be bound. -/
theorem history_overflow {self : Database} (h : self.connected = true) (engine : Engine Row)
    (since until_ : Option Rat) (function : Option Str) {limit : Int}
    (hlimit : (Value.integer limit).fits = false) :
    self.history engine since until_ function limit = .error (.sqlite .overflowError) := by
  rw [history_unfold, db_eq h]
  show (ofSql (Select.execute ..) >>= fun found => _) = _
  rw [Select.execute_overflow Row.get engine _ (length_arguments since until_ function) hlimit]
  rfl

/-- The row that `aggregate` fetches of the rows that match. -/
def summaryOf (found : List Row) : List (Name × Value) :=
  [(.n, .integer found.length),
    (.mean, if found = [] then .null
      else .real ((found.map Row.value).sum / found.length)),
    (.lo, ((found.map Row.value).min?.map Value.real).getD .null),
    (.hi, ((found.map Row.value).max?.map Value.real).getD .null),
    (.first_ts, ((found.map Row.ts).min?.map Value.real).getD .null),
    (.last_ts, ((found.map Row.ts).max?.map Value.real).getD .null)]

/-- The terms of the aggregate query, over the rows found. -/
theorem terms_eval (found : List Row) :
    ([(.count, .n), (.avg .value, .mean), (.min .value, .lo), (.max .value, .hi),
      (.min .ts, .first_ts), (.max .ts, .last_ts)].map fun term : Term Column × Name =>
        (term.2, term.1.eval Row.get found)) = summaryOf found := by
  have hvalue : ∀ row : Row, row.get .value = .real row.value := fun _ => rfl
  have hts : ∀ row : Row, row.get .ts = .real row.ts := fun _ => rfl
  simp only [List.map_cons, List.map_nil, eval_avg hvalue, eval_min hvalue, eval_max hvalue,
    eval_min hts, eval_max hts]
  rfl

/-- A column that is a number or `NULL` is read as one. -/
theorem float?_eq {row : List (Name × Value)} {name : Name} {x : Option Rat}
    (h : row.lookup name = some ((x.map Value.real).getD .null)) : float? row name = .ok x := by
  rw [float?, h]
  cases x <;> rfl

/-- The row of the aggregate query is read as the summary of the readings found. -/
theorem aggregateOf_summaryOf (found : List Row) :
    aggregateOf (summaryOf found) = .ok (Database.summarise (found.map Row.reading)) := by
  have hvalues : (found.map Row.reading).map Reading.value = found.map Row.value := by
    rw [List.map_map]
    rfl
  have htimestamps : (found.map Row.reading).map Reading.timestamp = found.map Row.ts := by
    rw [List.map_map]
    rfl
  rw [Database.summarise, hvalues, htimestamps, List.length_map]
  by_cases hfound : found = []
  · subst hfound
    rfl
  · have hcount : found.length ≠ 0 := by simpa using hfound
    have hn : ¬(found.length : Int) = 0 := by exact_mod_cast hcount
    have hmean : float? (summaryOf found) .mean
        = .ok (some (Database.mean (found.map Row.value))) := by
      refine float?_eq ?_
      rw [Database.mean, List.length_map]
      exact congrArg some (if_neg hfound)
    have hlo : float? (summaryOf found) .lo = .ok (found.map Row.value).min? := float?_eq rfl
    have hhi : float? (summaryOf found) .hi = .ok (found.map Row.value).max? := float?_eq rfl
    have hfirst : float? (summaryOf found) .first_ts = .ok (found.map Row.ts).min? := float?_eq rfl
    have hlast : float? (summaryOf found) .last_ts = .ok (found.map Row.ts).max? := float?_eq rfl
    have hinteger : integer? (summaryOf found) .n = .ok found.length := rfl
    rw [aggregateOf, hinteger, if_neg hcount, hmean, hlo, hhi, hfirst, hlast]
    exact if_neg hn

theorem aggregate_unfold (self : Database) (since until_ : Option Rat) (function : Option Str) :
    self.aggregate since until_ function = (do
      let query : Summary Column Name := {
        terms := [(.count, .n), (.avg .value, .mean), (.min .value, .lo), (.max .value, .hi),
          (.min .ts, .first_ts), (.max .ts, .last_ts)]
        clauses := conditions since until_ function }
      let rows ← self.db
      let found ← ofSql (query.execute Row.get (arguments since until_ function) rows)
      match found.head? with
      | none => return .empty
      | some row => aggregateOf row) := by
  cases since <;> cases until_ <;> cases function <;> rfl

/-- **`aggregate`** summarises the readings that are selected. -/
theorem aggregate_eq {self : Database} (h : self.connected = true) (since until_ : Option Rat)
    (function : Option Str) : self.aggregate since until_ function = .ok
      (Database.summarise (Database.select self.readings since until_ function)) := by
  have hfound : (self.table.filter fun row => Matches since until_ function row.reading).map
      Row.reading = Database.select self.readings since until_ function := by
    rw [select_eq, readings, List.filter_map]
    rfl
  rw [aggregate_unfold, db_eq h]
  show (ofSql (Summary.execute ..) >>= fun found => _) = _
  rw [Summary.execute_eq Row.get _ (length_arguments since until_ function)
    (arguments_fit since until_ function), matching_eq, ← hfound]
  rw [← aggregateOf_summaryOf, ← terms_eval]
  rfl

end Database

end Storage
