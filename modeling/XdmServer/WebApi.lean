import XdmServer.History
import XdmServer.RegisterMachine

/-! # The web server as an instrument

    The routes of `web/api.py` and of `web/views.py`, one request after another, over the
    driver and the mock and over a database or none.

    `Instrument` is what they are for: three registers, and an archive of the readings that
    were taken.  `serves_instrument` says that any sequence of requests and of changes at the
    front panel is answered as the instrument answers it. -/

namespace WebApi

open PyText Coroutine Coro Commands Device Driver Mock RegisterMachine
open Storage (Matches Row)

/-! ## The endpoints -/

/-- `_FUNCTION_LABELS`. -/
def FUNCTION_LABELS : List (Function × Str) :=
  [(.VOLT_DC, "DC Voltage".toList),
   (.VOLT_AC, "AC Voltage".toList),
   (.CURR_DC, "DC Current".toList),
   (.CURR_AC, "AC Current".toList),
   (.RESISTANCE, "Resistance".toList),
   (.CAPACITANCE, "Capacitance".toList),
   (.FREQ, "Frequency".toList),
   (.PERIOD, "Period".toList),
   (.DIODE, "Diode".toList),
   (.CONTINUITY, "Continuity".toList),
   (.TEMPERATURE, "Temperature".toList)]

/-- `_RATE_LABELS`. -/
def RATE_LABELS : Rate → Str
  | .SLOW => "Slow".toList
  | .MEDIUM => "Medium".toList
  | .FAST => "Fast".toList

/-- A function that can be selected, with its label. -/
structure FunctionOption where
  name : Str
  label : Str
  deriving DecidableEq

/-- A reading, as the web server sends it. -/
structure MeasurementOut where
  timestamp : Rat
  function : Str
  value : Rat
  unit : Str

/-- The fields of the reading. -/
def MeasurementOut.of (reading : Reading Rat) : MeasurementOut where
  timestamp := reading.timestamp
  function := reading.function
  value := reading.value
  unit := reading.unit

/-- What `GET /api/history` asks of the database; an exception of it is an answer. -/
inductive ArchiveOp where
  | history (since until_ : Option Rat) (function : Option Str) (limit : Int)

/-- The query of the history route. -/
abbrev Archive : Signature where
  Op := ArchiveOp
  Res := fun _ => Except Storage.Error (List (Reading Rat))

/-- The operations of a request. -/
abbrev Web : Signature := (Server Rat).sum Archive

/-- `GET /api/functions`. -/
def functions : List FunctionOption := FUNCTION_LABELS.map fun entry => ⟨entry.1.name, entry.2⟩

/-- `GET /api/measurement`. -/
def measurement (float : Str → Option Rat) (database : Bool) :
    Coro (Server Rat) Exc MeasurementOut := do
  let reading ← takeReading float database
  pure (MeasurementOut.of reading)

/-- `function_value`: the device string of the function that is asked for. -/
def functionValue {S : Signature} : Option Str → Coro S Exc (Option Str)
  | some function => do
      let function ← parseFunction function
      pure (some function.value)
  | none => pure none

/-- `GET /api/history`. -/
def history (database : Bool) (since until_ : Option Rat) (function : Option Str) (limit : Int) :
    Coro Web Exc (Except Storage.Error (List MeasurementOut)) := do
  getDatabase database
  let functionValue ← functionValue function
  let readings ← .op (S := Web) (.inr (ArchiveOp.history since until_ functionValue limit))
  pure (readings.map fun readings => readings.map MeasurementOut.of)

/-- The context of `control.html`. -/
structure ControlPage where
  functions : List (Str × Str)
  rates : List (Str × Str)
  state : StateOut

/-- `GET /control`. -/
def control : Coro Calls Exc ControlPage := do
  let state ← readStateOut
  pure {
    functions := FUNCTION_LABELS.map fun entry => (entry.1.name, entry.2)
    rates := Rate.members.map fun rate => (rate.name, RATE_LABELS rate)
    state := state }

/-- An option of a `<select>`. -/
structure OptionElement where
  value : Str
  selected : Bool
  label : Str
  deriving DecidableEq

namespace ControlPage

/-- The options of `<select name="function">`. -/
def functionOptions (page : ControlPage) : List OptionElement :=
  page.functions.map fun entry => ⟨entry.1, entry.1 = page.state.function, entry.2⟩

/-- The options of `<select name="rate">`. -/
def rateOptions (page : ControlPage) : List OptionElement :=
  page.rates.map fun entry => ⟨entry.1, entry.1 = page.state.rate, entry.2⟩

end ControlPage

/-! ## Requests and responses -/

/-- A request to the server, with its parameters. -/
inductive Route where
  | identify
  | functions
  | state
  | measurement
  | measurementSmoothed (seconds : Rat) (function : Option Str)
  | status (seconds : Rat)
  /-- `POST /api/function`, and `POST /control/function`. -/
  | setFunction (function rtdType : Str)
  /-- `POST /api/rate`, and `POST /control/rate`. -/
  | setRate (rate : Str)
  /-- `POST /api/auto-range`, and `POST /control/auto-range`. -/
  | enableAutoRange
  | history (since until_ : Option Rat) (function : Option Str) (limit : Int)
  | control

/-- What an answer holds. -/
inductive Body where
  | identity (text : Str)
  | functions (options : List FunctionOption)
  | state (state : StateOut)
  | measurement (measurement : MeasurementOut)
  | smoothed (smoothed : SmoothedOut Rat)
  | status (status : StatusOut Rat)
  | history (measurements : List MeasurementOut)
  | control (page : ControlPage)

/-- What the server answers. -/
inductive Response where
  | ok (body : Body)
  /-- An `HTTPException`: 503 or 422, by its detail. -/
  | refused (detail : HttpDetail)
  | internalServerError

/-- What the client gets for how the endpoint comes out. -/
def answer : Except Exc (Except Storage.Error Body) → Response
  | .ok (.ok body) => .ok body
  | .error (.httpException detail) => .refused detail
  | _ => .internalServerError

/-- An endpoint that only needs the driver. -/
def onDriver {α : Type} (body : α → Body) (p : Coro Calls Exc α) :
    Coro Web Exc (Except Storage.Error Body) := do
  let a ← (p.inl : Coro (Server Rat) Exc α).inl
  pure (.ok (body a))

/-- An endpoint that also reads the clock, stores readings or aggregates them. -/
def onServer {α : Type} (body : α → Body) (p : Coro (Server Rat) Exc α) :
    Coro Web Exc (Except Storage.Error Body) := do
  let a ← p.inl
  pure (.ok (body a))

/-- The endpoint of a route; `database` says whether there is one. -/
def Route.code (float : Str → Option Rat) (database : Bool) :
    Route → Coro Web Exc (Except Storage.Error Body)
  | .identify => onDriver .identity Driver.identify
  | .functions => pure (.ok (.functions WebApi.functions))
  | .state => onDriver .state readStateOut
  | .measurement => onServer .measurement (WebApi.measurement float database)
  | .measurementSmoothed seconds function =>
      onServer .smoothed (Driver.measurementSmoothed float database seconds function)
  | .status seconds => onServer .status (Driver.status float database seconds)
  | .setFunction function rtdType => onDriver .state (postFunction function rtdType)
  | .setRate rate => onDriver .state (postRate rate)
  | .enableAutoRange => onDriver .state postAutoRange
  | .history since until_ function limit => do
      let readings ← WebApi.history database since until_ function limit
      pure (readings.map Body.history)
  | .control => onDriver .control WebApi.control

/-! ## The server on the mock -/

/-- The manager and the mock, the database, and how often the clock was read. -/
structure Desk where
  bench : Bench
  database : Option Storage.Database
  reads : Nat

/-- The meter on the desk. -/
def benchOf : Lens Desk Bench where
  get := Desk.bench
  put b d := { d with bench := b }
  get_put _ _ := rfl
  put_get _ := rfl
  put_put _ _ _ := rfl

namespace Desk

/-! Without a database no request asks for one. -/

/-- `database.insert_reading`; without a database, or on a closed one, it raises. -/
def insertReading (d : Desk) (reading : Reading Rat) : Except Exc Unit × Desk :=
  match d.database with
  | none => (.error .runtimeError, d)
  | some database =>
      match database.insertReading reading with
      | .error _ => (.error .runtimeError, d)
      | .ok database' => (.ok (), { d with database := some database' })

/-- `database.aggregate`, of the rows since a moment. -/
def aggregate (d : Desk) (since : Rat) (function : Str) : Except Exc (Aggregate Rat) × Desk :=
  match d.database with
  | none => (.error .runtimeError, d)
  | some database =>
      match database.aggregate (some since) none (some function) with
      | .error _ => (.error .runtimeError, d)
      | .ok aggregate => (.ok aggregate, d)

/-- `database.history`; the errors of SQLite are the route's own affair. -/
def history (engine : Sql.Engine Row) (d : Desk) (since until_ : Option Rat)
    (function : Option Str) (limit : Int) :
    Except Exc (Except Storage.Error (List (Reading Rat))) × Desk :=
  match d.database with
  | none => (.error .runtimeError, d)
  | some database => (.ok (database.history engine since until_ function limit), d)

end Desk

section Run

variable (numerals : Numerals Rat) (timeout : Rat) (clock : Nat → Rat)
  (engine : Sql.Engine Row)

/-- The operations above the driver. -/
def hub : Handler (Hub Rat) Exc Desk
  | .time, d => (.ok (clock d.reads), { d with reads := d.reads + 1 })
  -- no request publishes
  | .publish _, d => (.ok (), d)
  | .insertReading reading, d => d.insertReading reading
  | .aggregate since function, d => d.aggregate since function

/-- The calls of the driver, the clock, and the database. -/
def server : Handler (Server Rat) Exc Desk
  | .inl c, d => benchOf.handler (calls numerals.repr timeout) c d
  | .inr op, d => hub clock op d

/-- The calls of a route. -/
def web : Handler Web Exc Desk
  | .inl op, d => server numerals timeout clock op d
  | .inr (.history since until_ function limit), d =>
      d.history engine since until_ function limit

/-- One request. -/
def serve (route : Route) (d : Desk) : Response × Desk :=
  let x := (route.code numerals.float d.database.isSome).run
    (web numerals timeout clock engine) d
  (answer x.1, x.2)

/-- A request, or a change at the front panel. -/
inductive Event where
  | request (route : Route)
  | frontPanel (function : Option Function) (rate : Option Rate) (autoRange : Option Bool)

/-- The responses to the requests among the events, and the desk after them. -/
def serveAll : List Event → Desk → List Response × Desk
  | [], d => ([], d)
  | .request route :: events, d =>
      let x := serveAll events (serve numerals timeout clock engine route d).2
      ((serve numerals timeout clock engine route d).1 :: x.1, x.2)
  | .frontPanel function rate autoRange :: events, d =>
      serveAll events { d with
        bench := { d.bench with meter := d.bench.meter.setFrontPanel function rate autoRange } }

end Run

/-! ## The instrument -/

/-- Three registers, and the readings that were taken, if they are kept. -/
structure Instrument where
  registers : Registers
  archive : Option (List (Reading Rat))

namespace Instrument

variable (i : Instrument)

/-- The state that the registers stand for. -/
def state : StateOut :=
  StateOut.of ⟨i.registers.function, i.registers.rate, i.registers.autoRange, i.registers.range⟩

/-- A reading in the function that is set. -/
def reading (timestamp value : Rat) : Reading Rat :=
  ⟨timestamp, i.registers.function.value, value, UNITS i.registers.function⟩

/-- A reading is added to the archive. -/
def record (reading : Reading Rat) : Instrument :=
  { i with archive := i.archive.map fun readings => readings ++ [reading] }

/-- What the archive holds of the last `seconds` before `timestamp`. -/
def summary (timestamp seconds : Rat) (function : Str) : Aggregate Rat :=
  i.archive.elim Aggregate.empty fun readings =>
    Database.summarise (Database.select readings (some (timestamp - seconds)) none (some function))

/-- Other registers. -/
def set (registers : Registers) : Instrument := { i with registers := registers }

/-- The control page of the instrument. -/
def page : ControlPage where
  functions := FUNCTION_LABELS.map fun entry => (entry.1.name, entry.2)
  rates := Rate.members.map fun rate => (rate.name, RATE_LABELS rate)
  state := i.state

end Instrument

/-- How the instrument answers a request.  A reading has any value, and any time. -/
inductive Serves (i : Instrument) : Route → Response → Instrument → Prop where
  | identify : Serves i .identify (.ok (.identity "OWON,XDM1041,MOCK0001,V1.2.0,3".toList)) i
  | functions : Serves i .functions (.ok (.functions functions)) i
  | state : Serves i .state (.ok (.state i.state)) i
  | control : Serves i .control (.ok (.control i.page)) i
  | measurement (t v : Rat) :
      Serves i .measurement (.ok (.measurement (.of (i.reading t v)))) (i.record (i.reading t v))
  | status (t v : Rat) {seconds : Rat} (hseconds : 0 < seconds) :
      Serves i (.status seconds)
        (.ok (.status ⟨t, i.registers.function.value, v, UNITS i.registers.function, i.state,
          SmoothedOut.of (i.reading t v) ((i.record (i.reading t v)).summary t seconds
            i.registers.function.value) seconds⟩))
        (i.record (i.reading t v))
  | statusRefused {seconds : Rat} (hseconds : seconds ≤ 0) :
      Serves i (.status seconds) (.refused .secondsNotPositive) i
  | smoothed (t v : Rat) {seconds : Rat} (hseconds : 0 < seconds)
      (harchive : i.archive.isSome = true) (function : Option Function) :
      Serves i (.measurementSmoothed seconds (function.map Function.name))
        (.ok (.smoothed (
          let function := (function.getD i.registers.function).value
          let aggregate := (i.record (i.reading t v)).summary t seconds function
          -- the unit is that of the registers, whichever function is asked for
          ⟨function, UNITS i.registers.function, aggregate.mean, aggregate.count, seconds,
            aggregate.min, aggregate.max⟩)))
        (i.record (i.reading t v))
  /-- A reading is kept before the name of the function is looked at. -/
  | smoothedUnknown (t v : Rat) {seconds : Rat} (hseconds : 0 < seconds)
      (harchive : i.archive.isSome = true) {name : Str} (hname : ∀ f : Function, f.name ≠ name) :
      Serves i (.measurementSmoothed seconds (some name)) (.refused (.unknownFunction name))
        (i.record (i.reading t v))
  | smoothedDisabled {seconds : Rat} (hseconds : 0 < seconds) (harchive : i.archive = none)
      (function : Option Str) :
      Serves i (.measurementSmoothed seconds function) (.refused .persistenceDisabled) i
  | smoothedRefused {seconds : Rat} (hseconds : seconds ≤ 0) (function : Option Str) :
      Serves i (.measurementSmoothed seconds function) (.refused .secondsNotPositive) i
  | setFunction (function : Function) (rtdType : Str) :
      Serves i (.setFunction function.name rtdType)
        (.ok (.state (i.set (i.registers.select function rtdType)).state))
        (i.set (i.registers.select function rtdType))
  | setFunctionUnknown {name : Str} (hname : ∀ f : Function, f.name ≠ name) (rtdType : Str) :
      Serves i (.setFunction name rtdType) (.refused (.unknownFunction name)) i
  | setRate (rate : Rate) :
      Serves i (.setRate rate.name) (.ok (.state (i.set { i.registers with rate := rate }).state))
        (i.set { i.registers with rate := rate })
  | setRateUnknown {name : Str} (hname : ∀ r : Rate, r.name ≠ name) :
      Serves i (.setRate name) (.refused (.unknownRate name)) i
  | enableAutoRange :
      Serves i .enableAutoRange
        (.ok (.state (i.set { i.registers with autoRange := true }).state))
        (i.set { i.registers with autoRange := true })
  | history {archive : List (Reading Rat)} (harchive : i.archive = some archive)
      (since until_ : Option Rat) (function : Option Function) {limit : Int}
      (hlimit : -2 ^ 63 ≤ limit ∧ limit < 2 ^ 63) {readings : List (Reading Rat)}
      (hlatest : Sql.Latest Reading.timestamp limit (archive.filter fun reading =>
        Matches since until_ (function.map Function.value) reading) readings) :
      Serves i (.history since until_ (function.map Function.name) limit)
        (.ok (.history (readings.map MeasurementOut.of))) i
  | historyOverflow (harchive : i.archive.isSome = true) (since until_ : Option Rat)
      (function : Option Function) {limit : Int} (hlimit : ¬(-2 ^ 63 ≤ limit ∧ limit < 2 ^ 63)) :
      Serves i (.history since until_ (function.map Function.name) limit) .internalServerError i
  | historyUnknown (harchive : i.archive.isSome = true) (since until_ : Option Rat) {name : Str}
      (hname : ∀ f : Function, f.name ≠ name) (limit : Int) :
      Serves i (.history since until_ (some name) limit) (.refused (.unknownFunction name)) i
  | historyDisabled (harchive : i.archive = none) (since until_ : Option Rat)
      (function : Option Str) (limit : Int) :
      Serves i (.history since until_ function limit) (.refused .persistenceDisabled) i

/-- How it answers the requests among the events, one after another. -/
inductive Served : Instrument → List Event → List Response → Instrument → Prop where
  | nil (i : Instrument) : Served i [] [] i
  | request {i i' i'' : Instrument} {route : Route} {response : Response} {events : List Event}
      {responses : List Response} (hserves : Serves i route response i')
      (hserved : Served i' events responses i'') :
      Served i (.request route :: events) (response :: responses) i''
  | frontPanel {i i' : Instrument} {function : Option Function} {rate : Option Rate}
      {autoRange : Option Bool} {events : List Event} {responses : List Response}
      (hserved : Served (i.set ⟨function.getD i.registers.function, rate.getD i.registers.rate,
        autoRange.getD i.registers.autoRange⟩) events responses i') :
      Served i (.frontPanel function rate autoRange :: events) responses i'

/-! ## Names -/

/-- The name of a function is parsed as that function. -/
theorem parseFunction_name {S : Signature} (f : Function) :
    (parseFunction f.name : Coro S Exc Function) = pure f := by
  cases f <;> rfl

theorem parseFunction_unknown {S : Signature} {name : Str} (hname : ∀ f : Function, f.name ≠ name) :
    (parseFunction name : Coro S Exc Function)
      = .raise (.httpException (.unknownFunction name)) := by
  obtain ⟨f, hf, -⟩ | hraise := parseFunction_cases (S := S) name
  · exact absurd hf (hname f)
  · exact hraise

/-- The name of a rate is parsed as that rate. -/
theorem parseRate_name {S : Signature} (r : Rate) :
    (parseRate r.name : Coro S Exc Rate) = pure r := by
  cases r <;> rfl

/-- Any other name is the client's error. -/
theorem parseRate_unknown {S : Signature} {name : Str} (hname : ∀ r : Rate, r.name ≠ name) :
    (parseRate name : Coro S Exc Rate) = .raise (.httpException (.unknownRate name)) := by
  have hnone : (Rate.members.find? fun member => member.name = name) = none := by
    rw [List.find?_eq_none]
    intro r _ hr
    exact hname r (of_decide_eq_true hr)
  rw [parseRate, hnone]

/-- Every function can be selected, once. -/
theorem functions_perm : (FUNCTION_LABELS.map Prod.fst).Perm Function.members := by decide

/-- A window of some length is accepted. -/
theorem validateSeconds_pos {S : Signature} {seconds : Rat} (hseconds : 0 < seconds) :
    (validateSeconds seconds : Coro S Exc Unit) = pure () :=
  if_neg (Rat.not_le.mpr hseconds)

theorem validateSeconds_nonpos {S : Signature} {seconds : Rat} (hseconds : seconds ≤ 0) :
    (validateSeconds seconds : Coro S Exc Unit) = .raise (.httpException .secondsNotPositive) :=
  if_pos hseconds

/-! ## One request -/

/-- The desk is an instrument: nothing is in the way of the next request, and the database is
    connected. -/
structure Stands (i : Instrument) (d : Desk) : Prop where
  holds : Holds i.registers d.bench
  connected : ∀ database ∈ d.database, database.connected = true
  archive : i.archive = d.database.map Storage.Database.readings

/-- There is a database exactly where there is an archive. -/
theorem Stands.isSome {i : Instrument} {d : Desk} (h : Stands i d) :
    d.database.isSome = i.archive.isSome := by
  rw [h.archive, Option.isSome_map]

/-- New registers, on the bench that holds them. -/
theorem Stands.set {i : Instrument} {d : Desk} (h : Stands i d) {registers : Registers}
    {b : Bench} (hb : Holds registers b) : Stands (i.set registers) { d with bench := b } where
  holds := hb
  connected := h.connected
  archive := h.archive

section Request

variable (numerals : Numerals Rat) (timeout : Rat) (clock : Nat → Rat)
  (engine : Sql.Engine Row) {i : Instrument} {d : Desk} (h : Stands i d)
include h

/-- **What the driver does on the bench**, a request does at the desk. -/
theorem yields_inl {α : Type} {p : Coro Calls Exc α} {Φ : α → Prop} {r : Registers}
    (hp : p.Yields (calls numerals.repr timeout) d.bench fun a b => Φ a ∧ Holds r b) :
    (p.inl : Coro (Server Rat) Exc α).Yields (server numerals timeout clock) d
      fun a d' => Φ a ∧ Stands (i.set r) d' := by
  refine Yields.inl ((Yields.handler benchOf (t := d) hp).mono ?_)
  rintro a _ ⟨b, ⟨hΦ, hb⟩, rfl⟩
  exact ⟨hΦ, h.set hb⟩

/-- The clock is read, and the desk stands as it did. -/
theorem yields_time : Hub.time.Yields (server numerals timeout clock) d
    fun t d' => t = clock d.reads ∧ Stands i d' :=
  yields_op rfl ⟨rfl, h.holds, h.connected, h.archive⟩

/-- An insertion adds to the archive. -/
theorem yields_insertReading (harchive : i.archive.isSome = true) (reading : Reading Rat) :
    (Hub.insertReading reading).Yields (server numerals timeout clock) d
      fun _ d' => Stands (i.record reading) d' := by
  obtain ⟨database, hdatabase⟩ := Option.isSome_iff_exists.mp (h.isSome.trans harchive)
  have hconnected := h.connected database hdatabase
  obtain ⟨database', hinsert, hconnected', hreadings⟩ :=
    Storage.Database.insertReading_eq hconnected reading
  have hop : d.insertReading reading = (.ok (), { d with database := some database' }) := by
    simp only [Desk.insertReading, hdatabase, hinsert]
  refine yields_op hop { holds := h.holds, connected := ?_, archive := ?_ }
  · intro other hother
    rwa [← Option.some.inj hother]
  · show i.archive.map _ = _
    rw [h.archive, hdatabase]
    exact congrArg some hreadings.symm

/-- The aggregate is that of the archive, and the desk is as it was. -/
theorem yields_aggregate (harchive : i.archive.isSome = true) (t seconds : Rat)
    (function : Str) :
    (Hub.aggregate (t - seconds) function).Yields (server numerals timeout clock) d
      fun aggregate d' => aggregate = i.summary t seconds function ∧ d' = d := by
  obtain ⟨database, hdatabase⟩ := Option.isSome_iff_exists.mp (h.isSome.trans harchive)
  have hconnected := h.connected database hdatabase
  have hsummary : i.summary t seconds function = Database.summarise
      (Database.select database.readings (some (t - seconds)) none (some function)) := by
    rw [Instrument.summary, h.archive, hdatabase]
    rfl
  have hop : d.aggregate (t - seconds) function = (.ok (i.summary t seconds function), d) := by
    simp only [Desk.aggregate, hdatabase, Storage.Database.aggregate_eq hconnected, hsummary]
  exact yields_op hop ⟨rfl, rfl⟩

/-- **A reading** is taken in the function that is set, and kept. -/
theorem yields_takeReading : (takeReading numerals.float i.archive.isSome).Yields
    (server numerals timeout clock) d fun reading d' =>
      ∃ t v, reading = i.reading t v ∧ Stands (i.record reading) d' := by
  refine Yields.bind (yields_inl numerals timeout clock h (r := i.registers)
    (Φ := fun m => m.function = i.registers.function ∧ m.unit = UNITS i.registers.function)
    ((yields_readMeasurement numerals timeout h.holds).mono fun m b hm =>
      ⟨⟨hm.1, hm.2.1⟩, hm.2.2⟩)) ?_
  rintro ⟨value, function, unit⟩ d₁ ⟨⟨hfunction, hunit⟩, h₁⟩
  refine (yields_time numerals timeout clock h₁).bind ?_
  rintro t d₂ ⟨-, h₂⟩
  obtain rfl : function = i.registers.function := hfunction
  obtain rfl : unit = UNITS i.registers.function := hunit
  cases harchive : i.archive.isSome with
  | true =>
      refine (yields_insertReading numerals timeout clock h₂ harchive _).bind ?_
      intro _ d₃ h₃
      exact yields_pure ⟨t, value, rfl, h₃⟩
  | false =>
      refine yields_pure ⟨t, value, rfl, h₂.holds, h₂.connected, ?_⟩
      have hnone : i.archive = none := by
        rw [← Option.not_isSome_iff_eq_none, harchive]
        exact Bool.false_ne_true
      rw [← h₂.archive]
      show i.archive.map _ = i.archive
      rw [hnone]
      rfl

/-- The state is read from the registers, which stay as they are. -/
theorem yields_readStateOut : readStateOut.Yields (calls numerals.repr timeout) d.bench
    fun state b => state = i.state ∧ Holds i.registers b := by
  refine (yields_readState numerals.repr timeout h.holds).bind ?_
  rintro _ b ⟨rfl, hb⟩
  exact yields_pure ⟨rfl, hb⟩

/-! ### The routes -/

/-- From the desk, the outcome of an endpoint is one the instrument has for the route. -/
def Answers (route : Route) (i : Instrument) (r : Except Exc (Except Storage.Error Body))
    (d : Desk) : Prop :=
  ∃ i', Serves i route (answer r) i' ∧ Stands i' d

omit h in
/-- An endpoint that uses the meter and the database, as a route of the web server. -/
theorem ends_onServer {α : Type} {route : Route} {body : α → Body}
    {p : Coro (Server Rat) Exc α}
    (hp : p.Ends (server numerals timeout clock) d fun r d' =>
      Answers route i (r.map fun a => .ok (body a)) d') :
    (onServer body p).Ends (web numerals timeout clock engine) d (Answers route i) :=
  Ends.map (g := fun a => Except.ok (body a)) (Ends.inl hp)

/-- A request for the driver alone. -/
theorem ends_onDriver {α : Type} {route : Route} {body : α → Body} {p : Coro Calls Exc α}
    {r : Registers} {x : α}
    (hp : p.Yields (calls numerals.repr timeout) d.bench fun a b => a = x ∧ Holds r b)
    (hserves : Serves i route (.ok (body x)) (i.set r)) :
    (onDriver body p).Ends (web numerals timeout clock engine) d (Answers route i) := by
  refine ends_onServer numerals timeout clock engine (p := p.inl) ?_
  refine (yields_inl numerals timeout clock h hp).ends ?_
  rintro _ d' ⟨rfl, h'⟩
  exact ⟨_, hserves, h'⟩

/-- `GET /api/measurement` is answered as the instrument would. -/
theorem ends_measurement : (measurement numerals.float i.archive.isSome).Ends
    (server numerals timeout clock) d fun r d' =>
      Answers .measurement i (r.map fun a => .ok (.measurement a)) d' := by
  refine (yields_takeReading numerals timeout clock h).bind_ends ?_
  rintro _ d' ⟨t, v, rfl, h'⟩
  exact ⟨_, .measurement t v, h'⟩

/-- `GET /api/status` is answered as the instrument would. -/
theorem ends_status (seconds : Rat) : (Driver.status numerals.float i.archive.isSome seconds).Ends
    (server numerals timeout clock) d fun r d' =>
      Answers (.status seconds) i (r.map fun a => .ok (.status a)) d' := by
  obtain hnonpos | hpos := le_or_gt seconds 0
  · rw [Driver.status, validateSeconds_nonpos hnonpos]
    exact ⟨i, .statusRefused hnonpos, h⟩
  · rw [Driver.status, validateSeconds_pos hpos]
    refine (yields_takeReading numerals timeout clock h).bind_ends ?_
    rintro _ d₁ ⟨t, v, rfl, h₁⟩
    have hstate := yields_readStateOut numerals timeout h₁
    refine (yields_inl numerals timeout clock h₁ hstate).bind_ends ?_
    rintro _ d₂ ⟨rfl, h₂⟩
    cases harchive : i.archive with
    | none =>
        have hempty : (i.record (i.reading t v)).summary t seconds i.registers.function.value
            = Aggregate.empty := by
          rw [Instrument.summary, Instrument.record, harchive]
          rfl
        refine ⟨i.record (i.reading t v), ?_, h₂⟩
        have hserves := Serves.status (i := i) t v hpos
        rw [hempty] at hserves
        exact hserves
    | some readings =>
        have hsome : (i.record (i.reading t v)).archive.isSome = true := by
          rw [Instrument.record, harchive]
          rfl
        have haggregate := yields_aggregate numerals timeout clock h₂ hsome t seconds
          i.registers.function.value
        refine Yields.bind_ends haggregate ?_
        rintro _ _ ⟨rfl, rfl⟩
        exact ⟨_, .status t v hpos, h₂⟩

/-- `GET /api/measurement/smoothed` is answered as the instrument would. -/
theorem ends_measurementSmoothed (seconds : Rat) (function : Option Str) :
    (Driver.measurementSmoothed numerals.float i.archive.isSome seconds function).Ends
      (server numerals timeout clock) d fun r d' =>
        Answers (.measurementSmoothed seconds function) i (r.map fun a => .ok (.smoothed a))
          d' := by
  obtain hnonpos | hpos := le_or_gt seconds 0
  · rw [Driver.measurementSmoothed, validateSeconds_nonpos hnonpos]
    exact ⟨i, .smoothedRefused hnonpos function, h⟩
  rw [Driver.measurementSmoothed, validateSeconds_pos hpos]
  cases harchive : i.archive with
  | none => exact ⟨i, .smoothedDisabled hpos harchive function, h⟩
  | some readings =>
      have hsome : i.archive.isSome = true := by rw [harchive]; rfl
      have htake := yields_takeReading numerals timeout clock h
      rw [hsome] at htake
      refine htake.bind_ends ?_
      rintro _ d₁ ⟨t, v, rfl, h₁⟩
      have hrecord : (i.record (i.reading t v)).archive.isSome = true := by
        rw [Instrument.record, harchive]
        rfl
      -- the device string of the function whose readings are asked for
      have hnamed (f : Option Function) : Ends (server numerals timeout clock)
          (do let agg ← Hub.aggregate ((i.reading t v).timestamp - seconds)
                (f.getD i.registers.function).value
              pure ⟨(f.getD i.registers.function).value, (i.reading t v).unit, agg.mean, agg.count,
                seconds, agg.min, agg.max⟩) d₁ fun r d' =>
            Answers (.measurementSmoothed seconds (f.map Function.name)) i
              (r.map fun a => .ok (.smoothed a)) d' := by
        refine (yields_aggregate numerals timeout clock h₁ hrecord t seconds _).bind_ends ?_
        rintro _ _ ⟨rfl, rfl⟩
        exact ⟨_, .smoothed t v hpos hsome f, h₁⟩
      cases function with
      | none => exact hnamed none
      | some name =>
          by_cases hname : ∃ f : Function, f.name = name
          · obtain ⟨f, rfl⟩ := hname
            rw [funcValue, parseFunction_name]
            exact hnamed (some f)
          · have hunknown : ∀ f : Function, f.name ≠ name := not_exists.mp hname
            rw [funcValue, parseFunction_unknown hunknown]
            exact ⟨_, .smoothedUnknown t v hpos hsome hunknown, h₁⟩

/-- What is fetched of the database. -/
theorem yields_history {archive : List (Reading Rat)} (harchive : i.archive = some archive)
    (since until_ : Option Rat) (function : Option Function) (limit : Int) :
    (op (S := Web) (.inr (ArchiveOp.history since until_ (function.map Function.value) limit)) :
        Coro Web Exc (Except Storage.Error (List (Reading Rat)))).Yields
      (web numerals timeout clock engine) d fun x d' => Stands i d' ∧
        Serves i (.history since until_ (function.map Function.name) limit)
          (answer (.ok (x.map fun readings => .history (readings.map MeasurementOut.of)))) i := by
  have hreadings : d.database.map Storage.Database.readings = some archive :=
    h.archive.symm.trans harchive
  obtain ⟨database, hdatabase, rfl⟩ := Option.map_eq_some_iff.mp hreadings
  have hconnected := h.connected database hdatabase
  have hop : d.history engine since until_ (function.map Function.value) limit
      = (.ok (database.history engine since until_ (function.map Function.value) limit), d) := by
    simp only [Desk.history, hdatabase]
  refine yields_op hop ⟨h, ?_⟩
  by_cases hlimit : -2 ^ 63 ≤ limit ∧ limit < 2 ^ 63
  · obtain ⟨readings, hhistory, hlatest⟩ := History.latest_of_connected hconnected engine since
      until_ (function.map Function.value) hlimit
    rw [hhistory]
    exact .history harchive since until_ function hlimit hlatest
  · have hoverflow : (Sql.Value.integer limit).fits = false := by
      simpa [Sql.Value.fits] using hlimit
    rw [Storage.Database.history_overflow hconnected engine since until_ _ hoverflow]
    exact .historyOverflow (by rw [harchive]; rfl) since until_ function hlimit

/-- `GET /api/history` is answered as the instrument would. -/
theorem ends_history (since until_ : Option Rat) (function : Option Str) (limit : Int) :
    (WebApi.history i.archive.isSome since until_ function limit).Ends
      (web numerals timeout clock engine) d fun r d' =>
        Answers (.history since until_ function limit) i (r.map fun x => x.map Body.history)
          d' := by
  cases harchive : i.archive with
  | none => exact ⟨i, .historyDisabled harchive since until_ function limit, h⟩
  | some archive =>
      have hfound (f : Option Function) := yields_history numerals timeout clock engine h harchive
        since until_ f limit
      cases function with
      | none =>
          refine (hfound none).bind_ends ?_
          rintro (e | readings) d' ⟨h', hserves⟩
          · exact ⟨i, hserves, h'⟩
          · exact ⟨i, hserves, h'⟩
      | some name =>
          by_cases hname : ∃ f : Function, f.name = name
          · obtain ⟨f, rfl⟩ := hname
            rw [WebApi.history, functionValue, parseFunction_name]
            refine (hfound (some f)).bind_ends ?_
            rintro (e | readings) d' ⟨h', hserves⟩
            · exact ⟨i, hserves, h'⟩
            · exact ⟨i, hserves, h'⟩
          · have hunknown : ∀ f : Function, f.name ≠ name := not_exists.mp hname
            have hsome : i.archive.isSome = true := by rw [harchive]; rfl
            rw [WebApi.history, functionValue, parseFunction_unknown hunknown]
            exact ⟨i, .historyUnknown hsome since until_ hunknown limit, h⟩

/-- `POST /api/function` is answered as the instrument would. -/
theorem ends_setFunction (name rtdType : Str) :
    (onDriver .state (postFunction name rtdType)).Ends (web numerals timeout clock engine) d
      (Answers (.setFunction name rtdType) i) := by
  by_cases hname : ∃ f : Function, f.name = name
  · obtain ⟨f, rfl⟩ := hname
    rw [postFunction, parseFunction_name]
    refine ends_onDriver numerals timeout clock engine h ?_ (.setFunction f rtdType)
    refine (yields_setFunction numerals.repr timeout h.holds f rtdType).bind ?_
    intro _ b hb
    exact yields_readStateOut numerals timeout (h.set hb)
  · have hunknown : ∀ f : Function, f.name ≠ name := not_exists.mp hname
    rw [postFunction, parseFunction_unknown hunknown]
    exact ⟨i, .setFunctionUnknown hunknown rtdType, h⟩

/-- `POST /api/rate` is answered as the instrument would. -/
theorem ends_setRate (name : Str) :
    (onDriver .state (postRate name)).Ends (web numerals timeout clock engine) d
      (Answers (.setRate name) i) := by
  by_cases hname : ∃ r : Rate, r.name = name
  · obtain ⟨r, rfl⟩ := hname
    rw [postRate, parseRate_name]
    refine ends_onDriver numerals timeout clock engine h ?_ (.setRate r)
    refine (yields_setRate numerals.repr timeout h.holds r).bind ?_
    intro _ b hb
    exact yields_readStateOut numerals timeout (h.set hb)
  · have hunknown : ∀ r : Rate, r.name ≠ name := not_exists.mp hname
    rw [postRate, parseRate_unknown hunknown]
    exact ⟨i, .setRateUnknown hunknown, h⟩

/-- **One request** is answered as the instrument answers it. -/
theorem serves_route (route : Route) :
    Answers route i
      ((route.code numerals.float d.database.isSome).run (web numerals timeout clock engine) d).1
      (serve numerals timeout clock engine route d).2 := by
  show (route.code numerals.float d.database.isSome).Ends (web numerals timeout clock engine) d
    (Answers route i)
  rw [h.isSome]
  cases route with
  | identify =>
      exact ends_onDriver numerals timeout clock engine h
        (yields_identify numerals.repr timeout h.holds) .identify
  | functions => exact ⟨i, .functions, h⟩
  | state =>
      exact ends_onDriver numerals timeout clock engine h
        (yields_readStateOut numerals timeout h) .state
  | measurement =>
      exact ends_onServer numerals timeout clock engine (ends_measurement numerals timeout clock h)
  | measurementSmoothed seconds function =>
      exact ends_onServer numerals timeout clock engine
        (ends_measurementSmoothed numerals timeout clock h seconds function)
  | status seconds =>
      exact ends_onServer numerals timeout clock engine
        (ends_status numerals timeout clock h seconds)
  | setFunction name rtdType => exact ends_setFunction numerals timeout clock engine h name rtdType
  | setRate name => exact ends_setRate numerals timeout clock engine h name
  | enableAutoRange =>
      refine ends_onDriver numerals timeout clock engine h ?_ .enableAutoRange
      refine (yields_enableAutoRange numerals.repr timeout h.holds).bind ?_
      intro _ b hb
      exact yields_readStateOut numerals timeout (h.set hb)
  | history since until_ function limit =>
      exact Ends.map (ends_history numerals timeout clock engine h since until_ function limit)
  | control =>
      refine ends_onDriver numerals timeout clock engine h (r := i.registers)
        (x := i.page) ?_ .control
      refine (yields_readStateOut numerals timeout h).bind ?_
      rintro _ b ⟨rfl, hb⟩
      exact yields_pure ⟨rfl, hb⟩

/-- **Any sequence of requests.** -/
theorem served_events (events : List Event) :
    ∃ i', Served i events (serveAll numerals timeout clock engine events d).1 i' ∧
      Stands i' (serveAll numerals timeout clock engine events d).2 := by
  induction events generalizing i d with
  | nil => exact ⟨i, .nil i, h⟩
  | cons event events ih =>
      cases event with
      | request route =>
          obtain ⟨i', hserves, h'⟩ := serves_route numerals timeout clock engine h route
          obtain ⟨i'', hserved, h''⟩ := ih h'
          exact ⟨i'', .request hserves hserved, h''⟩
      | frontPanel function rate autoRange =>
          obtain ⟨i', hserved, h'⟩ := ih (h.set (h.holds.frontPanel function rate autoRange))
          exact ⟨i', .frontPanel hserved, h'⟩

end Request

/-- A server before its first request: the mock in any state, but with no failure injected by
    `fail_next`, and a database that holds any rows, or none. -/
def opened (m : MockTransport) (table : Option (List Row)) : Desk :=
  ⟨⟨false, { m with failNext := none }⟩, table.map fun rows => ⟨rows, true⟩, 0⟩

/-- A desk just opened is the instrument of the mock's registers and the table. -/
theorem stands_opened (m : MockTransport) (table : Option (List Row)) :
    Stands ⟨registers m, table.map fun rows => rows.map Row.reading⟩ (opened m table) where
  holds := ⟨rfl, rfl, rfl⟩
  connected := by
    intro database hdatabase
    obtain ⟨rows, -, rfl⟩ := Option.map_eq_some_iff.mp hdatabase
    rfl
  archive := by
    cases table <;> rfl

/-- **THE SERVER IS AN INSTRUMENT**: with the mock in any state, no failure injected, and any
    database, any sequence of requests and of changes at the front panel is answered as three
    registers and an archive of the readings answer it. -/
theorem serves_instrument (numerals : Numerals Rat) (timeout : Rat) (clock : Nat → Rat)
    (engine : Sql.Engine Row) (events : List Event) (m : MockTransport)
    (table : Option (List Row)) :
    let x := serveAll numerals timeout clock engine events (opened m table)
    ∃ i, Served ⟨registers m, table.map fun rows => rows.map Row.reading⟩ events x.1 i ∧
      registers x.2.bench.meter = i.registers ∧
      x.2.database.map Storage.Database.readings = i.archive := by
  obtain ⟨i, hserved, h⟩ := served_events numerals timeout clock engine (stands_opened m table)
    events
  exact ⟨i, hserved, h.holds.registers, h.archive.symm⟩

/-! ## What is kept, and what fails -/

/-- The request takes a reading, if readings are kept. -/
def Route.reads : Route → Bool
  | .measurement => true
  | .measurementSmoothed seconds _ => 0 < seconds
  | .status seconds => 0 < seconds
  | _ => false

/-- The limit is no 64-bit integer. -/
def Route.Overflows : Route → Prop
  | .history _ _ _ limit => ¬(-2 ^ 63 ≤ limit ∧ limit < 2 ^ 63)
  | _ => False

/-- The unit is that of the function. -/
def Labelled (reading : Reading Rat) : Prop :=
  ∃ f : Function, reading.function = f.value ∧ reading.unit = UNITS f

/-- The routes of the requests among the events. -/
def routes : List Event → List Route :=
  List.filterMap fun
    | .request route => some route
    | .frontPanel _ _ _ => none

/-- Readings are added to the archive and nothing is taken from it. -/
def Instrument.Grows (i i' : Instrument) (taken : List (Reading Rat)) : Prop :=
  i'.archive = i.archive.map (fun readings => readings ++ taken) ∧ ∀ r ∈ taken, Labelled r

namespace Instrument

/-- Without a reading the archive stays as it is. -/
theorem grows_refl (i : Instrument) : i.Grows i [] := by
  refine ⟨?_, fun r hr => absurd hr List.not_mem_nil⟩
  cases i.archive with
  | none => rfl
  | some readings => exact congrArg some (List.append_nil readings).symm

/-- A recorded reading comes at the end of the archive. -/
theorem grows_record (i : Instrument) (t v : Rat) :
    i.Grows (i.record (i.reading t v)) [i.reading t v] := by
  refine ⟨rfl, ?_⟩
  intro r hr
  obtain rfl := List.mem_singleton.mp hr
  exact ⟨i.registers.function, rfl, rfl⟩

/-- Readings of one stretch come after those of the stretch before. -/
theorem Grows.trans {i i' i'' : Instrument} {taken taken' : List (Reading Rat)}
    (h : i.Grows i' taken) (h' : i'.Grows i'' taken') : i.Grows i'' (taken ++ taken') := by
  refine ⟨?_, ?_⟩
  · rw [h'.1, h.1, Option.map_map]
    congr 1
    funext readings
    exact List.append_assoc ..
  · intro r hr
    rcases List.mem_append.mp hr with hr | hr
    · exact h.2 r hr
    · exact h'.2 r hr

end Instrument

/-- **One request** adds the reading it takes, and fails for nothing but its limit. -/
theorem Serves.grows {i i' : Instrument} {route : Route} {response : Response}
    (h : Serves i route response i') : (response = .internalServerError → route.Overflows) ∧
      ∃ taken, i.Grows i' taken ∧ (i.archive.isSome = true → taken.length = route.reads.toNat) := by
  have hok {body : Body} : Response.ok body = .internalServerError → route.Overflows := by
    intro hfail
    cases hfail
  have hrefused {detail : HttpDetail} :
      Response.refused detail = .internalServerError → route.Overflows := by
    intro hfail
    cases hfail
  have hkept {j : Instrument} (hj : j.archive = i.archive) (hreads : route.reads = false) :
      ∃ taken, i.Grows j taken ∧ (i.archive.isSome = true → taken.length = route.reads.toNat) := by
    obtain ⟨hsame, hlabelled⟩ := i.grows_refl
    refine ⟨[], ⟨hj.trans hsame, hlabelled⟩, fun _ => ?_⟩
    rw [hreads]
    rfl
  have htaken (t v : Rat) (hreads : route.reads = true) : ∃ taken,
      i.Grows (i.record (i.reading t v)) taken ∧
        (i.archive.isSome = true → taken.length = route.reads.toNat) := by
    refine ⟨_, i.grows_record t v, fun _ => ?_⟩
    rw [hreads]
    rfl
  cases h with
  | measurement t v => exact ⟨hok, htaken t v rfl⟩
  | status t v hseconds => exact ⟨hok, htaken t v (decide_eq_true hseconds)⟩
  | smoothed t v hseconds => exact ⟨hok, htaken t v (decide_eq_true hseconds)⟩
  | smoothedUnknown t v hseconds => exact ⟨hrefused, htaken t v (decide_eq_true hseconds)⟩
  | statusRefused hseconds =>
      exact ⟨hrefused, hkept rfl (decide_eq_false (Rat.not_lt.mpr hseconds))⟩
  | smoothedRefused hseconds =>
      exact ⟨hrefused, hkept rfl (decide_eq_false (Rat.not_lt.mpr hseconds))⟩
  | smoothedDisabled hseconds harchive =>
      refine ⟨hrefused, [], i.grows_refl, fun hsome => ?_⟩
      rw [harchive] at hsome
      cases hsome
  | historyOverflow harchive since until_ function hlimit =>
      exact ⟨fun _ => hlimit, hkept rfl rfl⟩
  | setFunctionUnknown | setRateUnknown | historyUnknown | historyDisabled =>
      exact ⟨hrefused, hkept rfl rfl⟩
  | identify | functions | state | control | setFunction | setRate | enableAutoRange | history =>
      exact ⟨hok, hkept rfl rfl⟩

/-- **A run** adds one reading for each request that takes one. -/
theorem Served.grows {i i' : Instrument} {events : List Event} {responses : List Response}
    (h : Served i events responses i') :
    List.Forall₂ (fun route response => response = .internalServerError → route.Overflows)
      (routes events) responses ∧
    ∃ taken, i.Grows i' taken ∧
      (i.archive.isSome = true → taken.length = (routes events).countP Route.reads) := by
  induction h with
  | nil i => exact ⟨.nil, [], i.grows_refl, fun _ => rfl⟩
  | frontPanel hserved ih => exact ih
  | @request i i' i'' route response events responses hserves hserved ih =>
      obtain ⟨hfails, taken, hgrows, hlength⟩ := hserves.grows
      obtain ⟨hallFail, taken', hgrows', hlength'⟩ := ih
      refine ⟨.cons hfails hallFail, taken ++ taken', hgrows.trans hgrows', fun hsome => ?_⟩
      have hsome' : i'.archive.isSome = true := by
        rw [hgrows.1, Option.isSome_map]
        exact hsome
      have hroutes : routes (.request route :: events) = route :: routes events := rfl
      rw [List.length_append, hlength hsome, hlength' hsome', hroutes, List.countP_cons]
      cases route.reads <;> simp [Nat.add_comm]

/-- Exactly one option is selected on the page, the function that is set, and so for rates. -/
theorem one_selected (i : Instrument) :
    (i.page.functionOptions.filter OptionElement.selected).map OptionElement.value
        = [i.registers.function.name] ∧
      (i.page.rateOptions.filter OptionElement.selected).map OptionElement.value
        = [i.registers.rate.name] := by
  obtain ⟨⟨function, rate, autoRange⟩, archive⟩ := i
  constructor
  · cases function <;> rfl
  · cases rate <;> rfl

end WebApi
