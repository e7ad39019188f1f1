import XdmServer.Driver
import XdmServer.Mock

/-! # The driver is a register machine

    The driver alone with the mock, through the manager and its connection.

    `Registers` is what the driver's operations are for: three registers, which setters
    write and readers read.  `refines` says that any sequence of operations and of changes
    at the front panel raises nothing and returns what the registers return. -/

namespace RegisterMachine

open PyText Coroutine Coro Commands Device Driver Mock

/-! ## The machine -/

/-- The operations of the driver. -/
inductive Operation where
  | identify
  | getFunction
  | setFunction (function : Function) (rtdType : Str)
  | getRate
  | setRate (rate : Rate)
  | getAutoRange
  | enableAutoRange
  | getRange
  | readMeasurement
  | readState

/-- What an operation returns; of a measurement, what it is tagged with. -/
inductive Reply where
  | text (s : Str)
  | function (f : Function)
  | rate (r : Rate)
  | autoRange (b : Bool)
  | range (display : Option Str)
  | measurement (f : Function) (unit : Str)
  | state (d : DeviceState)
  | nothing
  deriving DecidableEq

/-- The three registers. -/
structure Registers where
  function : Function
  rate : Rate
  autoRange : Bool
  deriving DecidableEq

namespace Registers

/-- A function's range display. -/
def display (f : Function) : Str := (RANGE_DISPLAY f).getD []

/-- What `get_range` is for. -/
def range (s : Registers) : Option Str :=
  if s.function ∈ NO_RANGE_QUERY then none else some (display s.function)

/-- The registers after a function has been selected. -/
def select (s : Registers) (f : Function) (rtdType : Str) : Registers :=
  { s with
    function := f
    autoRange := if f = .TEMPERATURE ∧ "AUTO".toList <:+: upper rtdType then true
      else s.autoRange }

/-- What a meter of three registers answers, and what becomes of them. -/
def step (s : Registers) : Operation → Reply × Registers
  | .identify => (.text "OWON,XDM1041,MOCK0001,V1.2.0,3".toList, s)
  | .getFunction => (.function s.function, s)
  | .setFunction f rtdType => (.nothing, s.select f rtdType)
  | .getRate => (.rate s.rate, s)
  | .setRate rate => (.nothing, { s with rate := rate })
  | .getAutoRange => (.autoRange s.autoRange, s)
  | .enableAutoRange => (.nothing, { s with autoRange := true })
  | .getRange => (.range s.range, s)
  | .readMeasurement => (.measurement s.function (UNITS s.function), s)
  | .readState => (.state ⟨s.function, s.rate, s.autoRange, s.range⟩, s)

end Registers

/-- An operation, or a change at the front panel. -/
inductive Event where
  | call (op : Operation)
  | frontPanel (function : Option Function) (rate : Option Rate) (autoRange : Option Bool)

/-- The replies to the operations among the events, and the registers after them. -/
def Registers.run (s : Registers) : List Event → List Reply × Registers
  | [] => ([], s)
  | .call op :: events =>
      let x := (s.step op).2.run events
      ((s.step op).1 :: x.1, x.2)
  | .frontPanel function rate autoRange :: events =>
      Registers.run ⟨function.getD s.function, rate.getD s.rate, autoRange.getD s.autoRange⟩ events

/-! ## The driver on the mock -/

/-- Python's floats: how `repr` writes one, and what `float` parses. -/
structure Numerals (V : Type) where
  repr : Rat → Str
  float : Str → Option V
  /-- What `repr` writes, `float` parses. -/
  float_repr : ∀ q, (float (repr q)).isSome = true

/-- What an operation of the driver returns. -/
inductive Result (V : Type) where
  | text (s : Str)
  | function (f : Function)
  | rate (r : Rate)
  | autoRange (b : Bool)
  | range (display : Option Str)
  | measurement (m : Measurement V)
  | state (d : DeviceState)
  | nothing

variable {V : Type}

/-- The driver's function for an operation. -/
def Operation.code (float : Str → Option V) : Operation → Coro Calls Exc (Result V)
  | .identify => do return .text (← Driver.identify)
  | .getFunction => do return .function (← Driver.getFunction)
  | .setFunction f rtdType => do
      Driver.setFunction f rtdType
      return .nothing
  | .getRate => do return .rate (← Driver.getRate)
  | .setRate rate => do
      Driver.setRate rate
      return .nothing
  | .getAutoRange => do return .autoRange (← Driver.getAutoRange)
  | .enableAutoRange => do
      Driver.enableAutoRange
      return .nothing
  | .getRange => do return .range (← Driver.getRange none)
  | .readMeasurement => do return .measurement (← Driver.readMeasurement float)
  | .readState => do return .state (← Driver.readState)

/-- A result without the measured value. -/
def Result.reply : Result V → Reply
  | .text s => .text s
  | .function f => .function f
  | .rate r => .rate r
  | .autoRange b => .autoRange b
  | .range display => .range display
  | .measurement m => .measurement m.function m.unit
  | .state d => .state d
  | .nothing => .nothing

/-- The manager's lock, and the mock. -/
structure Bench where
  locked : Bool
  meter : MockTransport

/-- The manager's calls, for a task that is alone with the mock. -/
def bench (repr : Rat → Str) : Handler Line Exc Bench
  | .acquire, b =>
      -- alone, it would wait for ever on a lock it holds
      if b.locked then (.error .runtimeError, b) else (.ok (), { b with locked := true })
  | .release, b => (.ok (), { b with locked := false })
  | .isOpen, b => (.ok b.meter.isOpen, b)
  | .open_, b => (.ok (), { b with meter := b.meter.open_ })
  | .close, b => (.ok (), { b with meter := b.meter.close })
  | .transact command expectResponse timeout, b =>
      let x := b.meter.transact repr command expectResponse timeout
      (x.1, { b with meter := x.2 })

section Run

variable (numerals : Numerals V) (timeout : Rat)

/-- One operation of the driver. -/
def perform (op : Operation) (b : Bench) : Except Exc (Result V) × Bench :=
  ((op.code numerals.float).translate (lineManager timeout).perform).run (bench numerals.repr) b

/-- What the operations come to, one after another, and where they leave the mock. -/
def runAll : List Event → Bench → List (Except Exc (Result V)) × Bench
  | [], b => ([], b)
  | .call op :: events, b =>
      let x := runAll events (perform numerals timeout op b).2
      ((perform numerals timeout op b).1 :: x.1, x.2)
  | .frontPanel function rate autoRange :: events, b =>
      runAll events { b with meter := b.meter.setFrontPanel function rate autoRange }

end Run

/-- The registers of the mock. -/
def registers (m : MockTransport) : Registers := ⟨m.function, m.rate, m.autoRange⟩

/-- The mock holds these registers, and nothing is in the way of the next operation. -/
structure Holds (s : Registers) (b : Bench) : Prop where
  free : b.locked = false
  unfailing : b.meter.failNext = none
  registers : registers b.meter = s

/-! ## One transaction -/

section Transaction

variable (repr : Rat → Str) (timeout : Rat)

/-- The mock once it is open, and greeted if it was not. -/
def greeted (m : MockTransport) : MockTransport :=
  if m.isOpen then m else { m with isOpen := true, remote := false }

/-- Opening leaves the registers and the injected failure as they are. -/
theorem greeted_spec (m : MockTransport) : (greeted m).isOpen = true ∧
    (greeted m).failNext = m.failNext ∧ registers (greeted m) = registers m := by
  unfold greeted
  cases hopen : m.isOpen with
  | true => exact ⟨hopen, rfl, rfl⟩
  | false => exact ⟨rfl, rfl, rfl⟩

/-- A command that the mock makes something of. -/
theorem transact_handle {m m' : MockTransport} {command : Str} {x : Option Str}
    (expects : Bool) (hopen : m.isOpen = true) (hfail : m.failNext = none)
    (hx : expects = true → x.isSome = true)
    (hhandle : m.handle repr (strip command) = (.ok x, m')) (limit : Rat) :
    m.transact repr command expects limit = (.ok (if expects then x else none), m') := by
  unfold MockTransport.transact
  rw [hopen, hfail]
  dsimp only
  rw [hhandle]
  cases expects with
  | false => rfl
  | true =>
      obtain ⟨r, rfl⟩ := Option.isSome_iff_exists.mp (hx rfl)
      rfl

/-- Opening a mock that no failure is injected into. -/
theorem yields_ensureOpen {m : MockTransport} (hfail : m.failNext = none) :
    (lineManager timeout).ensureOpen.Yields (bench repr) ⟨true, m⟩
      fun _ b => b = ⟨true, greeted m⟩ := by
  have hisOpen : Line.isOpen.Yields (bench repr) ⟨true, m⟩
      fun isOpen b => isOpen = m.isOpen ∧ b = ⟨true, m⟩ := yields_op rfl ⟨rfl, rfl⟩
  refine hisOpen.bind ?_
  rintro isOpen _ ⟨rfl, rfl⟩
  unfold greeted
  cases hopen : m.isOpen with
  | true => exact yields_pure rfl
  | false =>
      have hlocal : m.open_.handle repr (strip LOCAL)
          = (.ok none, { m with isOpen := true, remote := false }) := rfl
      have htransact := transact_handle repr (m := m.open_) false rfl hfail
        (fun h => by cases h) hlocal timeout
      refine Yields.tryExcept ((yields_op rfl rfl : Line.open_.Yields (bench repr) ⟨true, m⟩
        fun _ b => b = ⟨true, m.open_⟩).bind ?_)
      rintro _ _ rfl
      refine Yields.bind (Φ := fun _ b => b = ⟨true, { m with isOpen := true, remote := false }⟩)
        (yields_op (a := none) ?_ rfl) fun _ b hb => yields_pure hb
      show ((m.open_.transact repr LOCAL false timeout).1,
        Bench.mk true (m.open_.transact repr LOCAL false timeout).2) = _
      rw [htransact]
      rfl

/-- **A transaction of a manager that is alone**: it opens and greets the mock if need be,
    and the mock handles the command. -/
theorem yields_transact {b : Bench} {m' : MockTransport} {command : Str} {x : Option Str}
    (expects : Bool) (hfree : b.locked = false) (hfail : b.meter.failNext = none)
    (hx : expects = true → x.isSome = true)
    (hhandle : (greeted b.meter).handle repr (strip command) = (.ok x, m'))
    (limit : Option Rat) :
    ((lineManager timeout).transact command expects limit).Yields (bench repr) b
      fun r b' => r = (if expects then x else none) ∧ b' = ⟨false, m'⟩ := by
  obtain ⟨locked, m⟩ := b
  obtain rfl : locked = false := hfree
  obtain ⟨hopen, hfail', -⟩ := greeted_spec m
  refine (yields_op rfl rfl : Line.acquire.Yields (bench repr) ⟨false, m⟩
    fun _ b => b = ⟨true, m⟩).bind ?_
  rintro _ _ rfl
  refine Yields.tryFinally (Φ := fun r b' => r = (if expects then x else none) ∧ b' = ⟨true, m'⟩)
    ((yields_ensureOpen repr timeout hfail).bind ?_) ?_
  · rintro _ _ rfl
    refine Yields.tryExcept (yields_op ?_ ⟨rfl, rfl⟩)
    have htransact := transact_handle repr expects hopen (hfail'.trans hfail) hx hhandle
      (limit.getD timeout)
    show (((greeted m).transact repr command expects (limit.getD timeout)).1,
      Bench.mk true ((greeted m).transact repr command expects (limit.getD timeout)).2) = _
    rw [htransact]
    rfl
  · rintro r _ ⟨rfl, rfl⟩
    exact yields_op rfl ⟨rfl, rfl⟩

/-- The manager's calls, on the bench. -/
def calls : Handler Calls Exc Bench := fun c => ((lineManager timeout).perform c).run (bench repr)

/-- A query that the mock answers. -/
theorem yields_query {s : Registers} {b : Bench} (h : Holds s b) (command : Str)
    {Φ : Str → Prop}
    (hhandle : ∀ m : MockTransport, m.failNext = none → registers m = s → ∃ answer m',
      m.handle repr (strip command) = (.ok (some answer), m') ∧ m'.failNext = none ∧
        registers m' = s ∧ Φ answer) :
    (Driver.query command).Yields (calls repr timeout) b fun r b' => Φ r ∧ Holds s b' := by
  obtain ⟨-, hfail, hregisters⟩ := greeted_spec b.meter
  obtain ⟨answer, m', hm, hfail', hregisters', hΦ⟩ :=
    hhandle (greeted b.meter) (hfail.trans h.unfailing) (hregisters.trans h.registers)
  obtain ⟨r, b', hrun, rfl, rfl⟩ := yields_transact repr timeout true h.free
    h.unfailing (fun _ => rfl) hm none
  refine ⟨answer, ⟨false, m'⟩, (run_op ..).trans ?_, hΦ, rfl, hfail', hregisters'⟩
  show ((lineManager timeout).perform (.query command none)).run (bench repr) b = _
  rw [DeviceManager.perform_eq, run_andThen]
  rw [show ((lineManager timeout).transact (Call.query command none).command
    (Call.query command none).expects (Call.query command none).timeout).run (bench repr) b = _
    from hrun]
  rfl

/-- A write, from the registers `s` to the registers `s'`. -/
theorem yields_write {s s' : Registers} {b : Bench} (h : Holds s b) (command : Str)
    (hhandle : ∀ m : MockTransport, m.failNext = none → registers m = s → ∃ x m',
      m.handle repr (strip command) = (.ok x, m') ∧ m'.failNext = none ∧ registers m' = s') :
    (Driver.write command).Yields (calls repr timeout) b fun _ b' => Holds s' b' := by
  obtain ⟨-, hfail, hregisters⟩ := greeted_spec b.meter
  obtain ⟨x, m', hm, hfail', hregisters'⟩ :=
    hhandle (greeted b.meter) (hfail.trans h.unfailing) (hregisters.trans h.registers)
  obtain ⟨r, b', hrun, rfl, rfl⟩ := yields_transact repr timeout false h.free
    h.unfailing (fun hf => by cases hf) hm none
  refine ⟨(), ⟨false, m'⟩, (run_op ..).trans ?_, rfl, hfail', hregisters'⟩
  show ((lineManager timeout).perform (.write command none)).run (bench repr) b = _
  rw [DeviceManager.perform_eq, run_andThen]
  rw [show ((lineManager timeout).transact (Call.write command none).command
    (Call.write command none).expects (Call.write command none).timeout).run (bench repr) b = _
    from hrun]
  rfl

end Transaction

/-! ## The operations of the driver -/

/-- The two range tables agree. -/
theorem range_display (f : Function) :
    RANGE_DISPLAY f = if f ∈ NO_RANGE_QUERY then none else some (Registers.display f) := by
  cases f <;> decide

/-- A range display has no quotes. -/
theorem unquote_display (f : Function) : unquote (Registers.display f) = Registers.display f := by
  cases f <;> decide

section Driver

variable (repr : Rat → Str) (timeout : Rat) {s : Registers} {b : Bench} (h : Holds s b)
include h

/-- `*IDN?` is answered with the text of the mock. -/
theorem yields_identify : Driver.identify.Yields (calls repr timeout) b
    fun r b' => r = "OWON,XDM1041,MOCK0001,V1.2.0,3".toList ∧ Holds s b' :=
  yields_query repr timeout h IDENTIFY fun m hfail hs => ⟨_, m, rfl, hfail, hs, rfl⟩

/-- `get_function` returns the register. -/
theorem yields_getFunction : Driver.getFunction.Yields (calls repr timeout) b
    fun f b' => f = s.function ∧ Holds s b' := by
  have hquery := yields_query repr timeout h FUNCTION
    (Φ := fun raw => Function.fromDevice raw = some s.function) fun m hfail hs => by
      refine ⟨_, m, rfl, hfail, hs, ?_⟩
      rw [← hs]
      exact fromDevice_value m.function
  refine hquery.bind ?_
  rintro raw b' ⟨hraw, hb⟩
  rw [hraw]
  exact yields_pure ⟨rfl, hb⟩

theorem yields_getRate : Driver.getRate.Yields (calls repr timeout) b
    fun r b' => r = s.rate ∧ Holds s b' := by
  have hquery := yields_query repr timeout h RATE_QUERY
    (Φ := fun raw => Rate.fromDevice raw = some s.rate) fun m hfail hs => by
      refine ⟨_, m, rfl, hfail, hs, ?_⟩
      rw [← hs]
      exact rate_fromDevice_value m.rate
  refine hquery.bind ?_
  rintro raw b' ⟨hraw, hb⟩
  rw [hraw]
  exact yields_pure ⟨rfl, hb⟩

theorem yields_getAutoRange : Driver.getAutoRange.Yields (calls repr timeout) b
    fun a b' => a = s.autoRange ∧ Holds s b' := by
  have hquery := yields_query repr timeout h AUTO_RANGE_QUERY
    (Φ := fun raw => decide (strip raw = "1".toList) = s.autoRange) fun m hfail hs => by
      refine ⟨_, m, rfl, hfail, hs, ?_⟩
      rw [← hs]
      show _ = m.autoRange
      cases m.autoRange <;> decide
  refine hquery.bind ?_
  rintro raw b' ⟨hraw, hb⟩
  exact yields_pure ⟨hraw, hb⟩

/-- The mock is not asked for a range that it does not tell. -/
theorem yields_getRangeOf : (getRangeOf s.function).Yields (calls repr timeout) b
    fun r b' => r = s.range ∧ Holds s b' := by
  unfold getRangeOf Registers.range
  by_cases hno : s.function ∈ NO_RANGE_QUERY
  · rw [if_pos hno, if_pos hno]
    exact yields_pure ⟨rfl, h⟩
  · rw [if_neg hno, if_neg hno]
    have hquery := yields_query repr timeout h RANGE_QUERY
      (Φ := fun raw => raw = Registers.display s.function) fun m hfail hs => by
        refine ⟨Registers.display s.function, m, ?_, hfail, hs, rfl⟩
        have hdisplay : RANGE_DISPLAY m.function = some (Registers.display s.function) := by
          rw [show m.function = s.function from congrArg Registers.function hs, range_display,
            if_neg hno]
        rw [← hdisplay]
        rfl
    refine Yields.tryExcept (hquery.bind ?_)
    rintro _ b' ⟨rfl, hb⟩
    exact yields_pure ⟨congrArg some (unquote_display s.function), hb⟩

/-- `get_range` returns the range of the function in the register. -/
theorem yields_getRange : (Driver.getRange none).Yields (calls repr timeout) b
    fun r b' => r = s.range ∧ Holds s b' := by
  refine (yields_getFunction repr timeout h).bind ?_
  rintro _ b' ⟨rfl, hb⟩
  exact yields_getRangeOf repr timeout hb

/-- `read_state` returns all the registers. -/
theorem yields_readState : Driver.readState.Yields (calls repr timeout) b
    fun d b' => d = ⟨s.function, s.rate, s.autoRange, s.range⟩ ∧ Holds s b' := by
  refine (yields_getFunction repr timeout h).bind ?_
  rintro _ b₁ ⟨rfl, h₁⟩
  refine (yields_getRate repr timeout h₁).bind ?_
  rintro _ b₂ ⟨rfl, h₂⟩
  refine (yields_getAutoRange repr timeout h₂).bind ?_
  rintro _ b₃ ⟨rfl, h₃⟩
  refine (yields_getRangeOf repr timeout h₃).bind ?_
  rintro _ b₄ ⟨rfl, h₄⟩
  exact yields_pure ⟨rfl, h₄⟩

/-- `set_function` sets the register of the function, and those that go with it. -/
theorem yields_setFunction (f : Function) (rtdType : Str) :
    (Driver.setFunction f rtdType).Yields (calls repr timeout) b
      fun _ b' => Holds (s.select f rtdType) b' :=
  yields_write repr timeout h _ fun m hfail hs =>
    ⟨none, _, m.handle_configureCommand repr f rtdType, hfail, by rw [← hs]; rfl⟩

theorem yields_setRate (rate : Rate) : (Driver.setRate rate).Yields (calls repr timeout) b
    fun _ b' => Holds { s with rate := rate } b' :=
  yields_write repr timeout h _ fun m hfail hs => by
    refine ⟨none, { m with rate := rate }, ?_, hfail, by rw [← hs]; rfl⟩
    cases rate <;> rfl

theorem yields_enableAutoRange : Driver.enableAutoRange.Yields (calls repr timeout) b
    fun _ b' => Holds { s with autoRange := true } b' :=
  yields_write repr timeout h _ fun m hfail hs =>
    ⟨none, { m with autoRange := true }, rfl, hfail, by rw [← hs]; rfl⟩

end Driver

section Refinement

variable (numerals : Numerals V) (timeout : Rat)

/-- A measurement is of the function in the register, in its unit. -/
theorem yields_readMeasurement {s : Registers} {b : Bench} (h : Holds s b) :
    (Driver.readMeasurement numerals.float).Yields (calls numerals.repr timeout) b
      fun m b' => m.function = s.function ∧ m.unit = UNITS s.function ∧ Holds s b' := by
  refine (yields_getFunction numerals.repr timeout h).bind ?_
  rintro _ b₁ ⟨rfl, h₁⟩
  have hquery := yields_query numerals.repr timeout h₁ MEASURE
    (Φ := fun raw => ∃ q, raw = numerals.repr q) fun m hfail hs =>
      ⟨_, m.measure.2, rfl, hfail, hs, _, rfl⟩
  refine hquery.bind ?_
  rintro _ b₂ ⟨⟨q, rfl⟩, h₂⟩
  obtain ⟨value, hvalue⟩ := Option.isSome_iff_exists.mp (numerals.float_repr q)
  rw [hvalue]
  exact yields_pure ⟨rfl, rfl, h₂⟩

/-- **One operation** of the driver is one of the register machine. -/
theorem yields_code (op : Operation) {s : Registers} {b : Bench} (h : Holds s b) :
    (op.code numerals.float).Yields (calls numerals.repr timeout) b
      fun r b' => r.reply = (s.step op).1 ∧ Holds (s.step op).2 b' := by
  cases op with
  | identify =>
      refine (yields_identify numerals.repr timeout h).bind ?_
      rintro _ b' ⟨rfl, hb⟩
      exact yields_pure ⟨rfl, hb⟩
  | getFunction =>
      refine (yields_getFunction numerals.repr timeout h).bind ?_
      rintro _ b' ⟨rfl, hb⟩
      exact yields_pure ⟨rfl, hb⟩
  | setFunction f rtdType =>
      refine (yields_setFunction numerals.repr timeout h f rtdType).bind ?_
      exact fun _ b' hb => yields_pure ⟨rfl, hb⟩
  | getRate =>
      refine (yields_getRate numerals.repr timeout h).bind ?_
      rintro _ b' ⟨rfl, hb⟩
      exact yields_pure ⟨rfl, hb⟩
  | setRate rate =>
      refine (yields_setRate numerals.repr timeout h rate).bind ?_
      exact fun _ b' hb => yields_pure ⟨rfl, hb⟩
  | getAutoRange =>
      refine (yields_getAutoRange numerals.repr timeout h).bind ?_
      rintro _ b' ⟨rfl, hb⟩
      exact yields_pure ⟨rfl, hb⟩
  | enableAutoRange =>
      refine (yields_enableAutoRange numerals.repr timeout h).bind ?_
      exact fun _ b' hb => yields_pure ⟨rfl, hb⟩
  | getRange =>
      refine (yields_getRange numerals.repr timeout h).bind ?_
      rintro _ b' ⟨rfl, hb⟩
      exact yields_pure ⟨rfl, hb⟩
  | readMeasurement =>
      refine (yields_readMeasurement numerals timeout h).bind ?_
      rintro m b' ⟨hfunction, hunit, hb⟩
      refine yields_pure ⟨?_, hb⟩
      show Reply.measurement m.function m.unit = _
      rw [hfunction, hunit]
      rfl
  | readState =>
      refine (yields_readState numerals.repr timeout h).bind ?_
      rintro _ b' ⟨rfl, hb⟩
      exact yields_pure ⟨rfl, hb⟩

/-- A change at the front panel is one of the registers. -/
theorem Holds.frontPanel {s : Registers} {b : Bench} (h : Holds s b)
    (function : Option Function) (rate : Option Rate) (autoRange : Option Bool) :
    Holds ⟨function.getD s.function, rate.getD s.rate, autoRange.getD s.autoRange⟩
      { b with meter := b.meter.setFrontPanel function rate autoRange } where
  free := h.free
  unfailing := h.unfailing
  registers := by
    rw [← h.registers]
    rfl

/-- **A run** of the driver is one of the register machine. -/
theorem run_refines (events : List Event) {s : Registers} {b : Bench} (h : Holds s b) :
    (runAll numerals timeout events b).1.map (fun r => r.map Result.reply)
        = (s.run events).1.map .ok ∧
      Holds (s.run events).2 (runAll numerals timeout events b).2 := by
  induction events generalizing s b with
  | nil => exact ⟨rfl, h⟩
  | cons event events ih =>
      cases event with
      | frontPanel function rate autoRange => exact ih (h.frontPanel function rate autoRange)
      | call op =>
          obtain ⟨r, b', hrun, hreply, hb⟩ := yields_code numerals timeout op h
          have hperform : perform numerals timeout op b = (.ok r, b') :=
            (run_translate ..).trans hrun
          obtain ⟨hreplies, hends⟩ := ih hb
          simp only [runAll, hperform, Registers.run, List.map_cons]
          refine ⟨?_, hends⟩
          rw [hreplies, ← hreply]
          rfl

/-- **THE DRIVER REFINES A REGISTER MACHINE**: from any state of the mock, open or closed, any
    sequence of operations and of changes at the front panel raises nothing, returns what three
    registers return, and leaves the mock with what they hold. -/
theorem refines (events : List Event) (m : MockTransport) :
    let x := runAll numerals timeout events ⟨false, { m with failNext := none }⟩
    x.1.map (fun r => r.map Result.reply) = ((registers m).run events).1.map .ok ∧
      registers x.2.meter = ((registers m).run events).2 := by
  obtain ⟨hreplies, hends⟩ := run_refines numerals timeout events (s := registers m)
    (b := ⟨false, { m with failNext := none }⟩) ⟨rfl, rfl, rfl⟩
  exact ⟨hreplies, hends.registers⟩

end Refinement

/-- Values as the mock writes them. -/
def text : Numerals Str := ⟨fun _ => "0.0".toList, some, fun _ => rfl⟩

example : ((runAll text 2 [.call (.setFunction .TEMPERATURE "pt100,auto".toList),
      .call .getAutoRange, .frontPanel (some .RESISTANCE) none none, .call .getRange]
      ⟨false, { autoRange := false }⟩).1.map fun r => r.map Result.reply)
    = [.ok .nothing, .ok (.autoRange true), .ok (.range (some "5KΩ".toList))] := by
  decide +kernel

end RegisterMachine
