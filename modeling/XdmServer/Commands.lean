import XdmServer.PyText

/-! # The command vocabulary of the meter

    `device/commands.py`: the command strings, the functions and rates with the
    strings the meter knows them by, the unit of each function, and the parsers of
    the meter's answers. -/

namespace Commands

open PyText

/-- Peel whitespace, then one pair of surrounding double quotes, off an answer. -/
def unquote (raw : Str) : Str :=
  let token := strip raw
  if 2 ≤ token.length ∧ token.head? = some '"' ∧ token.getLast? = some '"' then
    token.tail.dropLast
  else token

/-! ## Commands -/

/-- The query for the identity. -/
def IDENTIFY : Str := "*IDN?".toList

/-- The command that locks the front panel. -/
def REMOTE : Str := "SYST:REM".toList

/-- The command that gives the front panel back. -/
def LOCAL : Str := "SYST:LOC".toList

/-- The query for a value. -/
def MEASURE : Str := "MEAS1?".toList

/-- The query for the function. -/
def FUNCTION : Str := "FUNC1?".toList

/-- The query for the rate. -/
def RATE_QUERY : Str := "RATE?".toList

/-- The query for auto-range. -/
def AUTO_RANGE_QUERY : Str := "AUTO?".toList

/-- The query for the range. -/
def RANGE_QUERY : Str := "RANGE?".toList

/-- The command that switches auto-range on. -/
def AUTO_RANGE : Str := "AUTO".toList

/-! ## Functions and rates -/

/-- Measurement functions. -/
inductive Function where
  | VOLT_DC | VOLT_AC | CURR_DC | CURR_AC | FREQ | PERIOD
  | CAPACITANCE | CONTINUITY | DIODE | RESISTANCE | TEMPERATURE
  deriving DecidableEq, Repr

namespace Function

/-- The members, in the order of the class body. -/
def members : List Function :=
  [VOLT_DC, VOLT_AC, CURR_DC, CURR_AC, FREQ, PERIOD, CAPACITANCE, CONTINUITY, DIODE,
    RESISTANCE, TEMPERATURE]

/-- The exact string `FUNC1?` returns. -/
def value : Function → Str
  | VOLT_DC => "VOLT".toList
  | VOLT_AC => "VOLT AC".toList
  | CURR_DC => "CURR".toList
  | CURR_AC => "CURR AC".toList
  | FREQ => "FREQ".toList
  | PERIOD => "PER".toList
  | CAPACITANCE => "CAP".toList
  | CONTINUITY => "CONT".toList
  | DIODE => "DIOD".toList
  | RESISTANCE => "RES".toList
  | TEMPERATURE => "TEMP".toList

/-- The member's name, as the web API spells it. -/
def name : Function → Str
  | VOLT_DC => "VOLT_DC".toList
  | VOLT_AC => "VOLT_AC".toList
  | CURR_DC => "CURR_DC".toList
  | CURR_AC => "CURR_AC".toList
  | FREQ => "FREQ".toList
  | PERIOD => "PERIOD".toList
  | CAPACITANCE => "CAPACITANCE".toList
  | CONTINUITY => "CONTINUITY".toList
  | DIODE => "DIODE".toList
  | RESISTANCE => "RESISTANCE".toList
  | TEMPERATURE => "TEMPERATURE".toList

/-- Parse a `FUNC1?` answer; `none` where the code raises `ValueError`. -/
def fromDevice (raw : Str) : Option Function :=
  let normalised := join (split (upper (unquote raw)))
  members.find? fun member => member.value = normalised

end Function

/-- Measurement rates. -/
inductive Rate where
  | SLOW | MEDIUM | FAST
  deriving DecidableEq, Repr

namespace Rate

/-- The members, in the order of the source. -/
def members : List Rate := [SLOW, MEDIUM, FAST]

/-- The text that the meter uses for a rate. -/
def value : Rate → Str
  | SLOW => "S".toList
  | MEDIUM => "M".toList
  | FAST => "F".toList

/-- The name of the member. -/
def name : Rate → Str
  | SLOW => "SLOW".toList
  | MEDIUM => "MEDIUM".toList
  | FAST => "FAST".toList

/-- Parse a `RATE?` answer; `none` where the code raises `ValueError`. -/
def fromDevice (raw : Str) : Option Rate :=
  let token := upper (unquote raw)
  members.find? fun member => member.value = token

end Rate

/-- The unit of each function, which `MEAS1?` does not return. -/
def UNITS : Function → Str
  | .VOLT_DC => "V".toList
  | .VOLT_AC => "V".toList
  | .CURR_DC => "A".toList
  | .CURR_AC => "A".toList
  | .FREQ => "Hz".toList
  | .PERIOD => "s".toList
  | .CAPACITANCE => "F".toList
  | .CONTINUITY => "Ω".toList
  | .DIODE => "V".toList
  | .RESISTANCE => "Ω".toList
  | .TEMPERATURE => "°C".toList

/-- The unit in which a function measures. -/
def unitFor (function : Function) : Str := UNITS function

/-- The command that selects each function; TEMPERATURE takes an argument. -/
def CONF_COMMANDS : Function → Str
  | .VOLT_DC => "CONF:VOLT:DC".toList
  | .VOLT_AC => "CONF:VOLT:AC".toList
  | .CURR_DC => "CONF:CURR:DC".toList
  | .CURR_AC => "CONF:CURR:AC".toList
  | .RESISTANCE => "CONF:RES".toList
  | .CAPACITANCE => "CONF:CAP".toList
  | .FREQ => "CONF:FREQ".toList
  | .PERIOD => "CONF:PER".toList
  | .DIODE => "CONF:DIOD".toList
  | .CONTINUITY => "CONF:CONT".toList
  | .TEMPERATURE => "CONF:TEMP:RTD".toList

/-- Functions in which the meter does not answer `RANGE?`. -/
def NO_RANGE_QUERY : List Function := [.DIODE, .CONTINUITY, .TEMPERATURE]

/-- The default of every `rtd_type` parameter. -/
def defaultRtdType : Str := "KITS90".toList

/-- The command that switches the meter to `function`. -/
def configureCommand (function : Function) (rtdType : Str) : Str :=
  let base := CONF_COMMANDS function
  if function = .TEMPERATURE then base ++ " ".toList ++ rtdType else base

/-- The command that sets the measurement rate. -/
def setRateCommand (rate : Rate) : Str := "RATE ".toList ++ rate.value

/-! ## What the commands look like on the wire -/

/-- A command that fills one line: ASCII, and no newline inside. -/
def OneLine (command : Str) : Prop := isAscii command = true ∧ '\n' ∉ command

instance (command : Str) : Decidable (OneLine command) :=
  inferInstanceAs (Decidable (_ ∧ _))

theorem oneLine_CONF_COMMANDS (f : Function) : OneLine (CONF_COMMANDS f) := by
  cases f <;> decide

/-- What follows the base of a command that selects a function. -/
def argument (function : Function) (rtdType : Str) : Str :=
  if function = .TEMPERATURE then " ".toList ++ rtdType else []

theorem configureCommand_eq (f : Function) (rtd : Str) :
    configureCommand f rtd = CONF_COMMANDS f ++ argument f rtd := by
  unfold configureCommand argument
  by_cases hf : f = .TEMPERATURE
  · rw [if_pos hf, if_pos hf, List.append_assoc]
  · rw [if_neg hf, if_neg hf, List.append_nil]

theorem newline_mem_configureCommand {f : Function} {rtd : Str} :
    '\n' ∈ configureCommand f rtd ↔ f = .TEMPERATURE ∧ '\n' ∈ rtd := by
  unfold configureCommand
  by_cases hf : f = .TEMPERATURE
  · subst hf
    rw [if_pos rfl, List.mem_append]
    have hbase : '\n' ∉ CONF_COMMANDS .TEMPERATURE ++ " ".toList := by decide
    simp only [hbase, false_or, true_and]
  · rw [if_neg hf]
    exact iff_of_false (oneLine_CONF_COMMANDS f).2 fun h => hf h.1

theorem isAscii_configureCommand (f : Function) (rtd : Str) :
    isAscii (configureCommand f rtd) = (!decide (f = .TEMPERATURE) || isAscii rtd) := by
  unfold configureCommand
  by_cases hf : f = .TEMPERATURE
  · subst hf
    have hbase : isAscii (CONF_COMMANDS .TEMPERATURE ++ " ".toList) = true := by decide
    rw [if_pos rfl, isAscii_append, hbase]
    rfl
  · rw [if_neg hf, (oneLine_CONF_COMMANDS f).1]
    simp [hf]

/-- **Every function reads back**: the quoted string the meter answers `FUNC1?` with is
    parsed to the function it names. -/
theorem fromDevice_value (f : Function) :
    Function.fromDevice ("\"".toList ++ f.value ++ "\"".toList) = some f := by
  cases f <;> decide

/-- **Every rate reads back.** -/
theorem rate_fromDevice_value (r : Rate) : Rate.fromDevice r.value = some r := by
  cases r <;> decide

/-- No two functions have the same device string. -/
theorem value_injective {f g : Function} (h : f.value = g.value) : f = g := by
  have hf := fromDevice_value f
  rw [h, fromDevice_value g] at hf
  exact (Option.some.inj hf).symm

/-- No two functions have the same name. -/
theorem name_injective {f g : Function} (h : f.name = g.name) : f = g := by
  have hfind (f : Function) :
      (Function.members.find? fun member => member.name = f.name) = some f := by
    cases f <;> decide
  have hf := hfind f
  rw [h, hfind g] at hf
  exact (Option.some.inj hf).symm

end Commands
