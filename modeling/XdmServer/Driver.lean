import XdmServer.Manager
import XdmServer.Protocol

/-! # The driver, the poller and the web API

    `device/driver.py` over the calls of the manager, and above it the programs that
    take readings and answer requests: `Poller.poll_once`, `_take_reading` and the
    endpoints of `web/api.py`.  These also read the clock, publish to the broadcaster
    and use the database: `Hub` names those operations.

    `V` is the type of measured values and `float` parses one. -/

namespace Driver

open PyText Coroutine Commands Device

variable {S : Signature} {V : Type}

/-- A parser's result; `none` is the `ValueError` it raises. -/
def parsed {α : Type} : Option α → Coro S Exc α
  | some a => .ret a
  | none => .raise .valueError

/-- What is parsed is returned where the task stands. -/
theorem returns_parsed {α : Type} {P : Protocol S Exc} (x : Option α) (g : P.Ghost) :
    P.Returns (parsed x) (fun a g' => g' = g ∧ x = some a) g := by
  cases x with
  | none => exact Protocol.returns_raise _ _ _
  | some a => exact Protocol.returns_pure ⟨rfl, rfl⟩

/-- `self._manager.query(command)`. -/
def query (command : Str) : Coro Calls Exc Str := .op (S := Calls) (.query command none)

/-- `self._manager.write(command)`. -/
def write (command : Str) : Coro Calls Exc Unit := .op (S := Calls) (.write command none)

/-- A single reading, tagged with the function in effect when it was taken. -/
structure Measurement (V : Type) where
  value : V
  function : Function
  unit : Str

/-- A snapshot of the meter's configuration. -/
structure DeviceState where
  function : Function
  rate : Rate
  autoRange : Bool
  range : Option Str
  deriving DecidableEq

/-- The meter's answer to `*IDN?`, as it came. -/
def identify : Coro Calls Exc Str := query IDENTIFY

/-- The function in effect. -/
def getFunction : Coro Calls Exc Function := do
  let raw ← query FUNCTION
  parsed (Function.fromDevice raw)

/-- The configuring command of the function, and nothing is read back. -/
def setFunction (function : Function) (rtdType : Str) : Coro Calls Exc Unit :=
  write (configureCommand function rtdType)

/-- The rate in effect. -/
def getRate : Coro Calls Exc Rate := do
  let raw ← query RATE_QUERY
  parsed (Rate.fromDevice raw)

/-- The rate command, and nothing is read back. -/
def setRate (rate : Rate) : Coro Calls Exc Unit := write (setRateCommand rate)

/-- Whether the range is automatic. -/
def getAutoRange : Coro Calls Exc Bool := do
  let raw ← query AUTO_RANGE_QUERY
  pure (strip raw = "1".toList)

/-- The range is made automatic. -/
def enableAutoRange : Coro Calls Exc Unit := write AUTO_RANGE

/-- The part of `get_range` that knows the function. -/
def getRangeOf (function : Function) : Coro Calls Exc (Option Str) :=
  if function ∈ NO_RANGE_QUERY then pure none
  else
    (do
      let raw ← query RANGE_QUERY
      pure (some (unquote raw))).tryExcept fun
        | .deviceError _ => pure none
        | e => .raise e

/-- The range of a function, or of the one in effect where none is named. -/
def getRange (function : Option Function) : Coro Calls Exc (Option Str) := do
  match function with
  | some function => getRangeOf function
  | none =>
      let function ← getFunction
      getRangeOf function

/-- `read_measurement`: the function is read first, the value after it. -/
def readMeasurement (float : Str → Option V) : Coro Calls Exc (Measurement V) := do
  let function ← getFunction
  let raw ← query MEASURE
  let value ← parsed (float raw)
  pure ⟨value, function, unitFor function⟩

/-- `read_state`: four queries, one after the other. -/
def readState : Coro Calls Exc DeviceState := do
  let function ← getFunction
  let rate ← getRate
  let autoRange ← getAutoRange
  let range ← getRange (some function)
  pure ⟨function, rate, autoRange, range⟩

/-! ## Readings and requests -/

/-- A timestamped measurement, ready to broadcast or persist. -/
structure Reading (V : Type) where
  timestamp : Rat
  function : Str
  value : V
  unit : Str
  deriving DecidableEq

/-- A measurement with the time at which it was taken. -/
def Reading.fromMeasurement (measurement : Measurement V) (timestamp : Rat) : Reading V where
  timestamp := timestamp
  function := measurement.function.value
  value := measurement.value
  unit := measurement.unit

/-- Summary statistics over a set of readings. -/
structure Aggregate (V : Type) where
  count : Nat
  mean : Option V
  min : Option V
  max : Option V
  firstTs : Option Rat
  lastTs : Option Rat

/-- What the programs above the driver do besides calling the meter. -/
inductive HubOp (V : Type) where
  | time
  | publish (reading : Reading V)
  | insertReading (reading : Reading V)
  | aggregate (since : Rat) (function : Str)

/-- What an operation of the server returns. -/
def HubOp.Res : HubOp V → Type
  | .time => Rat
  | .aggregate _ _ => Aggregate V
  | _ => Unit

/-- The operations of the server beside the transport: clock, broadcaster, database. -/
abbrev Hub (V : Type) : Signature where
  Op := HubOp V
  Res := HubOp.Res

/-- The operations of a program above the driver. -/
abbrev Server (V : Type) : Signature := Calls.sum (Hub V)

namespace Hub

/-- `time.time()` -/
def time : Coro (Server V) Exc Rat := .op (S := Server V) (.inr HubOp.time)

/-- `broadcaster.publish` -/
def publish (reading : Reading V) : Coro (Server V) Exc Unit :=
  .op (S := Server V) (.inr (HubOp.publish reading))

/-- `database.insert_reading`, from within the request. -/
def insertReading (reading : Reading V) : Coro (Server V) Exc Unit :=
  .op (S := Server V) (.inr (HubOp.insertReading reading))

/-- `database.aggregate` of the readings since a time, under one function. -/
def aggregate (since : Rat) (function : Str) : Coro (Server V) Exc (Aggregate V) :=
  .op (S := Server V) (.inr (HubOp.aggregate since function))

end Hub

/-- `Poller.poll_once`. -/
def pollOnce (float : Str → Option V) : Coro (Server V) Exc (Reading V) := do
  let measurement ← (readMeasurement float).inl
  let timestamp ← Hub.time
  let reading := Reading.fromMeasurement measurement timestamp
  Hub.publish reading
  pure reading

/-- `_take_reading`; `database` says whether there is one. -/
def takeReading (float : Str → Option V) (database : Bool) : Coro (Server V) Exc (Reading V) := do
  let m ← (readMeasurement float).inl
  let timestamp ← Hub.time
  let reading := Reading.fromMeasurement m timestamp
  if database then
    Hub.insertReading reading
    pure reading
  else pure reading

/-- The meter's state as `/api/status` reports it. -/
structure StateOut where
  function : Str
  rate : Str
  autoRange : Bool
  range : Option Str
  deriving DecidableEq

/-- The aggregate of a window, with the window and the unit it is reported in. -/
structure SmoothedOut (V : Type) where
  function : Str
  unit : Str
  value : Option V
  samples : Nat
  windowSeconds : Rat
  min : Option V
  max : Option V

/-- The answer of `/api/status`. -/
structure StatusOut (V : Type) where
  timestamp : Rat
  function : Str
  value : V
  unit : Str
  state : StateOut
  smoothed : SmoothedOut V

/-- The fields of `_read_state`'s answer. -/
def StateOut.of (state : DeviceState) : StateOut where
  function := state.function.name
  rate := state.rate.name
  autoRange := state.autoRange
  range := state.range

/-- `_read_state`. -/
def readStateOut : Coro Calls Exc StateOut := do
  let state ← readState
  pure (StateOut.of state)

/-- A window must be longer than nothing. -/
def validateSeconds (seconds : Rat) : Coro S Exc Unit :=
  if seconds ≤ 0 then .raise (.httpException .secondsNotPositive)
  else pure ()

/-- Past the check the window is longer than nothing. -/
theorem returns_validateSeconds {P : Protocol S Exc} (seconds : Rat) (g : P.Ghost) :
    P.Returns (validateSeconds seconds) (fun _ g' => g' = g ∧ 0 < seconds) g := by
  rw [validateSeconds]
  by_cases h : seconds ≤ 0
  · rw [if_pos h]
    exact Protocol.returns_raise _ _ _
  · rw [if_neg h]
    exact Protocol.returns_pure ⟨rfl, Rat.not_le.mp h⟩

/-- The summary of an empty window. -/
def Aggregate.empty : Aggregate V := ⟨0, none, none, none, none, none⟩

/-- The `SmoothedOut` that `status` builds from its reading and the aggregate. -/
def SmoothedOut.of (reading : Reading V) (agg : Aggregate V) (seconds : Rat) : SmoothedOut V where
  function := reading.function
  unit := reading.unit
  value := agg.mean
  samples := agg.count
  windowSeconds := seconds
  min := agg.min
  max := agg.max

/-- `GET /api/status`. -/
def status (float : Str → Option V) (database : Bool) (seconds : Rat) :
    Coro (Server V) Exc (StatusOut V) := do
  validateSeconds seconds
  let reading ← takeReading float database
  let state ← readStateOut.inl
  let agg ← if database then Hub.aggregate (reading.timestamp - seconds) reading.function
    else pure Aggregate.empty
  pure ⟨reading.timestamp, reading.function, reading.value, reading.unit, state,
    SmoothedOut.of reading agg seconds⟩

/-- `Function[name]`, or 422. -/
def parseFunction (name : Str) : Coro S Exc Function :=
  match Function.members.find? fun member => member.name = name with
  | some function => pure function
  | none => .raise (.httpException (.unknownFunction name))

/-- What `_parse_function` accepts is the name of a function. -/
theorem parseFunction_cases (name : Str) :
    (∃ f : Function, f.name = name ∧ (parseFunction name : Coro S Exc Function) = pure f) ∨
      (parseFunction name : Coro S Exc Function) = .raise (.httpException (.unknownFunction name))
      := by
  unfold parseFunction
  cases hfind : Function.members.find? fun member => member.name = name with
  | none => exact .inr rfl
  | some f =>
      have hname := List.find?_some hfind
      exact .inl ⟨f, of_decide_eq_true hname, rfl⟩

/-- `Rate[name]`, or 422. -/
def parseRate (name : Str) : Coro S Exc Rate :=
  match Rate.members.find? fun member => member.name = name with
  | some rate => pure rate
  | none => .raise (.httpException (.unknownRate name))

/-- `get_database`, or 503; `database` says whether there is one. -/
def getDatabase (database : Bool) : Coro S Exc Unit :=
  if database then pure () else .raise (.httpException .persistenceDisabled)

/-- `func_value`: the device string of the function that is asked for, else of the one the
    reading was taken in. -/
def funcValue (function : Option Str) (reading : Reading V) : Coro S Exc Str :=
  match function with
  | some function => do
      let function ← parseFunction function
      pure function.value
  | none => pure reading.function

/-- `GET /api/measurement/smoothed`. -/
def measurementSmoothed (float : Str → Option V) (database : Bool) (seconds : Rat)
    (function : Option Str) : Coro (Server V) Exc (SmoothedOut V) := do
  validateSeconds seconds
  getDatabase database
  let reading ← takeReading float true
  let funcValue ← funcValue function reading
  let agg ← Hub.aggregate (reading.timestamp - seconds) funcValue
  pure ⟨funcValue, reading.unit, agg.mean, agg.count, seconds, agg.min, agg.max⟩

/-- `POST /api/function`, and `POST /control/function` with the same fields. -/
def postFunction (function rtdType : Str) : Coro Calls Exc StateOut := do
  let function ← parseFunction function
  setFunction function rtdType
  readStateOut

/-- `POST /api/rate`, and `POST /control/rate`. -/
def postRate (rate : Str) : Coro Calls Exc StateOut := do
  let rate ← parseRate rate
  setRate rate
  readStateOut

/-- `POST /api/auto-range`, and `POST /control/auto-range`. -/
def postAutoRange : Coro Calls Exc StateOut := do
  enableAutoRange
  readStateOut

end Driver
