import Mathlib.Data.List.Infix
import XdmServer.Transport

/-! # The mock meter

    `device/mock.py`: a meter in memory that speaks the SCPI subset the driver uses.
    `_measure` multiplies floats; here the product is exact, and how `repr` writes it is
    a parameter. -/

namespace Mock

open PyText Commands Device

/-- A plausible base reading for each function. -/
def BASE_VALUES : Function → Rat
  | .VOLT_DC => 33 / 10
  | .VOLT_AC => 1
  | .CURR_DC => 5 / 100
  | .CURR_AC => 2 / 100
  | .FREQ => 1000
  | .PERIOD => 1 / 1000
  | .CAPACITANCE => 1 / 10000000
  | .CONTINUITY => 12
  | .DIODE => 6 / 10
  | .RESISTANCE => 1000
  | .TEMPERATURE => 235 / 10

/-- The display string for `RANGE?`; none in a function that has no range. -/
def RANGE_DISPLAY : Function → Option Str
  | .VOLT_DC => some "5V".toList
  | .VOLT_AC => some "5V".toList
  | .CURR_DC => some "5A".toList
  | .CURR_AC => some "5A".toList
  | .FREQ => some "5V".toList
  | .PERIOD => some "5V".toList
  | .CAPACITANCE => some "500nF".toList
  | .RESISTANCE => some "5KΩ".toList
  | .CONTINUITY => none
  | .DIODE => none
  | .TEMPERATURE => none

/-- The simulated meter, with what is set in it and the failure that a test may inject. -/
structure MockTransport where
  isOpen : Bool := false
  function : Function := .VOLT_DC
  rate : Rate := .MEDIUM
  autoRange : Bool := true
  remote : Bool := false
  tick : Nat := 0
  failNext : Option Str := none
  deriving DecidableEq

namespace MockTransport

variable (repr : Rat → Str)

/-- `set_front_panel`: mutate the state as if the physical buttons were used. -/
def setFrontPanel (m : MockTransport) (function : Option Function) (rate : Option Rate)
    (autoRange : Option Bool) : MockTransport :=
  { m with
    function := function.getD m.function
    rate := rate.getD m.rate
    autoRange := autoRange.getD m.autoRange }

/-- `open` and `close`. -/
def open_ (m : MockTransport) : MockTransport := { m with isOpen := true }

/-- The port is closed; the settings stay. -/
def close (m : MockTransport) : MockTransport := { m with isOpen := false }

/-- The prefixes of `_configure`, the most specific first. -/
def mapping : List (Str × Function) :=
  [("CONF:VOLT:AC".toList, .VOLT_AC),
   ("CONF:VOLT:DC".toList, .VOLT_DC),
   ("CONF:VOLT".toList, .VOLT_DC),
   ("CONF:CURR:AC".toList, .CURR_AC),
   ("CONF:CURR:DC".toList, .CURR_DC),
   ("CONF:CURR".toList, .CURR_DC),
   ("CONF:RES".toList, .RESISTANCE),
   ("CONF:CAP".toList, .CAPACITANCE),
   ("CONF:FREQ".toList, .FREQ),
   ("CONF:PER".toList, .PERIOD),
   ("CONF:DIOD".toList, .DIODE),
   ("CONF:CONT".toList, .CONTINUITY),
   ("CONF:TEMP".toList, .TEMPERATURE)]

/-- `_configure`. -/
def configure (m : MockTransport) (upper : Str) : MockTransport :=
  match mapping.find? fun entry => entry.1.isPrefixOf upper with
  | some (_, function) =>
      { m with
        function := function
        autoRange := if "AUTO".toList <:+: upper then true else m.autoRange }
  -- `CONF:` with nothing the meter knows: ignored
  | none => m

/-- `_measure`: the base value with a wobble of the tick counter. -/
def measure (m : MockTransport) : Rat × MockTransport :=
  let tick := m.tick + 1
  let wobble : Rat := (((tick % 20 : Nat) : Rat) - 10) / 1000
  (BASE_VALUES m.function * (1 + wobble), { m with tick := tick })

/-- The `RATE ` branch of `_handle`: the second word is the rate. -/
def setRate (m : MockTransport) (command : Str) : Except Exc (Option Str) × MockTransport :=
  match (split command)[1]? with
  | none => (.error .indexError, m)
  | some word =>
      match Rate.fromDevice word with
      | none => (.error .valueError, m)
      | some rate => (.ok none, { m with rate := rate })

/-- `_handle`. -/
def handle (m : MockTransport) (command : Str) : Except Exc (Option Str) × MockTransport :=
  let upper := upper command
  if upper = "*IDN?".toList then (.ok (some "OWON,XDM1041,MOCK0001,V1.2.0,3".toList), m)
  else if upper = "SYST:REM".toList ∨ upper = "SYST:LOC".toList then
    (.ok none, { m with remote := upper = "SYST:REM".toList })
  else if upper = "MEAS1?".toList ∨ upper = "MEAS?".toList then
    (.ok (some (repr m.measure.1)), m.measure.2)
  else if upper = "MEAS2?".toList then (.ok (some "NONe".toList), m)
  else if upper = "FUNC1?".toList ∨ upper = "FUNC?".toList then
    (.ok (some ("\"".toList ++ m.function.value ++ "\"".toList)), m)
  else if upper = "FUNC2?".toList then (.ok (some "NONe".toList), m)
  else if upper = "RATE?".toList then (.ok (some m.rate.value), m)
  else if "RATE ".toList.isPrefixOf upper then m.setRate command
  else if upper = "AUTO?".toList then
    (.ok (some (if m.autoRange then "1".toList else "0".toList)), m)
  else if upper = "AUTO".toList then (.ok none, { m with autoRange := true })
  else if upper = "RANGE?".toList then (.ok (RANGE_DISPLAY m.function), m)
  else if "CONF:".toList.isPrefixOf upper then (.ok none, m.configure upper)
  -- an unknown query is not answered
  else (.ok none, m)

/-- `transact`. -/
def transact (m : MockTransport) (command : Str) (expectResponse : Bool) (timeout : Rat) :
    Except Exc (Option Str) × MockTransport :=
  if !m.isOpen then
    (.error (.transportError (.other "Mock transport is not open".toList)), m)
  else
    match m.failNext with
    -- a failure injected by a test, once
    | some message => (.error (.transportError (.other message)), { m with failNext := none })
    | none =>
        match m.handle repr (strip command) with
        | (.error e, m') => (.error e, m')
        | (.ok response, m') =>
            if expectResponse then
              match response with
              | none => (.error (.transportError (.noResponse command timeout)), m')
              | some response => (.ok (some response), m')
            else (.ok none, m')

/-- What `transact` does before it waits for the meter's latency. -/
def enter (m : MockTransport) : Except Exc Unit × MockTransport :=
  if !m.isOpen then
    (.error (.transportError (.other "Mock transport is not open".toList)), m)
  else
    match m.failNext with
    | some message => (.error (.transportError (.other message)), { m with failNext := none })
    | none => (.ok (), m)

/-- What it does after it. -/
def respond (m : MockTransport) (command : Str) (expectResponse : Bool) (timeout : Rat) :
    Except Exc (Option Str) × MockTransport :=
  match m.handle repr (strip command) with
  | (.error e, m') => (.error e, m')
  | (.ok response, m') =>
      if expectResponse then
        match response with
        | none => (.error (.transportError (.noResponse command timeout)), m')
        | some response => (.ok (some response), m')
      else (.ok none, m')

theorem transact_eq (m : MockTransport) (command : Str) (expectResponse : Bool) (timeout : Rat) :
    m.transact repr command expectResponse timeout = match m.enter with
      | (.error e, m') => (.error e, m')
      | (.ok _, m') => m'.respond repr command expectResponse timeout := by
  unfold transact enter
  cases m.isOpen with
  | false => rfl
  | true => cases m.failNext <;> rfl

/-! ## What commands do to the meter -/

/-- The state after an answer is the state after the command. -/
theorem respond_state (m : MockTransport) (command : Str) (expectResponse : Bool)
    (timeout : Rat) :
    (m.respond repr command expectResponse timeout).2 = (m.handle repr (strip command)).2 := by
  unfold respond
  rcases m.handle repr (strip command) with ⟨e | response, m'⟩
  · rfl
  · cases expectResponse with
    | false => rfl
    | true => cases response <;> rfl

/-- A command that is not `SYST:REM` does not lock the front panel. -/
theorem handle_remote {m : MockTransport} {command : Str}
    (h : upper command ≠ "SYST:REM".toList) (hm : m.remote = false) :
    (m.handle repr command).2.remote = false := by
  have either : ∀ {p : Prop} [Decidable p] {x y : Except Exc (Option Str) × MockTransport},
      x.2.remote = false → y.2.remote = false → (if p then x else y).2.remote = false := by
    intro p _ x y hx hy
    split <;> assumption
  have hrate : (m.setRate command).2.remote = false := by
    unfold setRate
    cases (split command)[1]? with
    | none => exact hm
    | some word =>
        dsimp only
        cases Rate.fromDevice word <;> exact hm
  have hconfigure : (m.configure (upper command)).remote = false := by
    unfold configure
    cases mapping.find? fun entry => entry.1.isPrefixOf (upper command) <;> exact hm
  -- one branch after the other, down to the unknown queries
  exact either hm (either (decide_eq_false h) (either hm (either hm (either hm (either hm
    (either hm (either hrate (either hm (either hm (either hm (either hconfigure hm)))))))))))

/-- A selection goes to `_configure`. -/
theorem handle_selection (m : MockTransport) {command argument : Str} {f : Function}
    (h : upper command = CONF_COMMANDS f ++ argument) :
    m.handle repr command = (.ok none, m.configure (CONF_COMMANDS f ++ argument)) := by
  unfold handle
  dsimp only
  rw [h]
  cases f <;> rfl

/-- The first prefix that fits a selection is that of its function. -/
theorem configure_selection (m : MockTransport) (f : Function) (argument : Str) :
    m.configure (CONF_COMMANDS f ++ argument) = { m with
      function := f
      autoRange := if "AUTO".toList <:+: CONF_COMMANDS f ++ argument then true
        else m.autoRange } := by
  have hfind : ∃ text, (mapping.find? fun entry =>
      entry.1.isPrefixOf (CONF_COMMANDS f ++ argument)) = some (text, f) := by
    cases f <;> exact ⟨_, rfl⟩
  obtain ⟨text, hfind⟩ := hfind
  rw [configure, hfind]

/-- The argument of a selection turns auto range on if it reads `AUTO` itself. -/
theorem infix_selection (f : Function) (rtdType : Str) :
    "AUTO".toList <:+: CONF_COMMANDS f ++ upper ((argument f rtdType).rdropWhile isSpace) ↔
      f = .TEMPERATURE ∧ "AUTO".toList <:+: upper rtdType := by
  by_cases hf : f = .TEMPERATURE
  · subst hf
    have hargument : argument .TEMPERATURE rtdType = ' ' :: rtdType := rfl
    have hspaces : ∀ c ∈ (' ' :: rtdType).rtakeWhile isSpace, isSpace c = true := fun c =>
      List.mem_rtakeWhile_imp
    have hupper : [' '] ++ upper rtdType = upper ((' ' :: rtdType).rdropWhile isSpace)
        ++ (' ' :: rtdType).rtakeWhile isSpace := by
      rw [← upper_of_isSpace hspaces, ← upper_append, List.rdropWhile_append_rtakeWhile]
      rfl
    have hend : 'O' ∉ (' ' :: rtdType).rtakeWhile isSpace := by
      intro h
      exact absurd (hspaces _ h) (by decide)
    rw [hargument]
    calc "AUTO".toList <:+: CONF_COMMANDS .TEMPERATURE
          ++ upper ((' ' :: rtdType).rdropWhile isSpace)
        ↔ "AUTO".toList <:+: upper ((' ' :: rtdType).rdropWhile isSpace) :=
          infix_append_left (by decide)
      _ ↔ "AUTO".toList <:+: [' '] ++ upper rtdType := by
          rw [hupper]
          exact (infix_append_right (w := "AUT".toList) hend).symm
      _ ↔ "AUTO".toList <:+: upper rtdType := infix_append_left (by decide)
      _ ↔ Function.TEMPERATURE = .TEMPERATURE ∧ "AUTO".toList <:+: upper rtdType := by simp
  · have hnone : argument f rtdType = [] := if_neg hf
    refine iff_of_false ?_ fun h => hf h.1
    rw [hnone]
    cases f <;> decide

/-- **A selection** changes the function, and the auto range with it where the argument says
    so. -/
theorem handle_configureCommand (m : MockTransport) (f : Function) (rtdType : Str) :
    m.handle repr (strip (configureCommand f rtdType)) = (.ok none, { m with
      function := f
      autoRange := if f = .TEMPERATURE ∧ "AUTO".toList <:+: upper rtdType then true
        else m.autoRange }) := by
  have hall : (CONF_COMMANDS f).all (fun c => !isSpace c) = true := by cases f <;> rfl
  have hbase : ∀ c ∈ CONF_COMMANDS f, isSpace c = false := by simpa using hall
  have hupper : upper (CONF_COMMANDS f) = CONF_COMMANDS f := by cases f <;> rfl
  have hstrip : upper (strip (configureCommand f rtdType))
      = CONF_COMMANDS f ++ upper ((argument f rtdType).rdropWhile isSpace) := by
    rw [configureCommand_eq, strip_append (by cases f <;> decide) hbase, upper_append, hupper]
  rw [handle_selection repr m hstrip, configure_selection]
  simp only [infix_selection]

end MockTransport

end Mock
