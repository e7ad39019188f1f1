import XdmServer.Driver
import XdmServer.Interleaving
import XdmServer.Mock

/-! # Shared access, one transaction at a time

    The meter as the server's programs see it when every transaction is exclusive: a
    `Meter` runs a command and answers it or not, and any number of tasks run requests
    on it, a transaction in each turn.  Transactions may fail, a lost connection may be
    reopened and greeted with `SYST:LOC` in the course of one, and the front panel may
    change the meter at any time.

    For each task the room keeps what its request has asked so far, the configurations
    the meter has been in since, and the function in which it was measured; for each
    reading published or stored, the last of these. -/

namespace Turns

open PyText Coroutine Commands Device Driver Interleaving

/-- A meter: what it makes of a command, and the configuration that its answers to the
    driver's queries tell. -/
structure Meter (M : Type) where
  exec : M → Str → Option Str × M
  config : M → DeviceState
  /-- Queries, and `SYST:LOC`, change no configuration. -/
  keeps : ∀ m, ∀ q ∈ [FUNCTION, MEASURE, RATE_QUERY, AUTO_RANGE_QUERY, RANGE_QUERY, LOCAL],
    config (exec m q).2 = config m
  function_answer : ∀ m r, (exec m FUNCTION).1 = some r →
    Function.fromDevice r = some (config m).function
  rate_answer : ∀ m r, (exec m RATE_QUERY).1 = some r → Rate.fromDevice r = some (config m).rate
  autoRange_answer : ∀ m r, (exec m AUTO_RANGE_QUERY).1 = some r →
    decide (strip r = "1".toList) = (config m).autoRange
  /-- In a function that has a range the meter answers `RANGE?`. -/
  range_answer : ∀ m, (config m).function ∉ NO_RANGE_QUERY →
    ∃ r, (exec m RANGE_QUERY).1 = some r ∧ (config m).range = some (unquote r)
  no_range : ∀ m, (config m).function ∈ NO_RANGE_QUERY → (config m).range = none

open Mock in
/-- The mock is such a meter; what it cannot parse it does not answer. -/
def mockMeter (repr : Rat → Str) : Meter MockTransport where
  exec m command :=
    match m.handle repr (strip command) with
    | (.ok response, m') => (response, m')
    | (.error _, m') => (none, m')
  config m := ⟨m.function, m.rate, m.autoRange, RANGE_DISPLAY m.function⟩
  keeps m q hq := by
    simp only [List.mem_cons, List.not_mem_nil, or_false] at hq
    obtain rfl | rfl | rfl | rfl | rfl | rfl := hq <;> rfl
  function_answer m r h := by
    obtain rfl : "\"".toList ++ m.function.value ++ "\"".toList = r := Option.some.inj h
    exact fromDevice_value m.function
  rate_answer m r h := by
    obtain rfl : m.rate.value = r := Option.some.inj h
    exact rate_fromDevice_value m.rate
  autoRange_answer m r h := by
    obtain rfl : (if m.autoRange then "1".toList else "0".toList) = r := Option.some.inj h
    show _ = m.autoRange
    cases m.autoRange <;> decide
  range_answer m h := by
    show ∃ r, RANGE_DISPLAY m.function = some r ∧ RANGE_DISPLAY m.function = some (unquote r)
    revert h
    show m.function ∉ NO_RANGE_QUERY → _
    cases m.function with
    | CONTINUITY => exact fun h => absurd (by decide) h
    | DIODE => exact fun h => absurd (by decide) h
    | TEMPERATURE => exact fun h => absurd (by decide) h
    | _ => exact fun _ => ⟨_, rfl, by decide⟩
  no_range m h := by
    show RANGE_DISPLAY m.function = none
    revert h
    show m.function ∈ NO_RANGE_QUERY → _
    cases m.function <;> decide

/-! ## The room -/

/-- What a task may be asked to do.  A SCPI line, a `set_function` or anything else done
    with the manager is an `other` program. -/
inductive Request where
  | measure
  | poll
  | take (database : Bool)
  | state
  | status (database : Bool) (seconds : Rat)
  | other (p : Coro Calls Exc Unit)

/-- What a request returns. -/
inductive Answer (V : Type) where
  | measurement (m : Measurement V)
  | reading (r : Reading V)
  | state (d : DeviceState)
  | status (s : StatusOut V)
  | nothing

variable {V M ι : Type}

/-- The program of a request. -/
def Request.code (float : Str → Option V) : Request → Coro (Server V) Exc (Answer V)
  | .measure => do
      let m ← (readMeasurement float).inl
      pure (.measurement m)
  | .poll => do
      let r ← pollOnce float
      pure (.reading r)
  | .take database => do
      let r ← takeReading float database
      pure (.reading r)
  | .state => do
      let d ← readState.inl
      pure (.state d)
  | .status database seconds => do
      let s ← Driver.status float database seconds
      pure (.status s)
  | .other p => do
      p.inl
      pure .nothing

/-- The function in which the meter gave an answer. -/
abbrev Sample := Function × Str

/-- The meter, the requests being served and what each of them has asked so far. -/
structure Room (M V ι : Type) where
  meter : M
  /-- The request of each task, and the commands it has asked, with whether each of
      them succeeded. -/
  serving : ι → Request
  asked : ι → List (Str × Bool)
  /-- The configurations of the meter since the request came, and since the last
      `FUNC1?` of it was answered. -/
  moments : ι → List DeviceState
  recent : ι → List DeviceState
  /-- The answer to the task's last `MEAS1?`, with the function it was given in. -/
  sample : ι → Option Sample
  /-- What was published or stored, with the sample of the task that did it. -/
  readings : List (Reading V × Option Sample)

/-- How a call comes out. -/
inductive Outcome (V : Type) where
  /-- The transaction succeeds; `greeted` if it had to reopen the connection. -/
  | done (greeted : Bool)
  /-- The meter is silent where an answer is awaited. -/
  | silent (greeted : Bool)
  /-- The transport fails, before or after the meter has run the command. -/
  | failed (greeted executed : Bool) (e : DeviceError)
  | clock (timestamp : Rat)
  | summary (agg : Aggregate V)
  /-- The clock, the broadcaster or the database raises. -/
  | raised (e : Exc)

variable [DecidableEq ι] (T : Meter M)

/-- The meter and its answer after one transaction of `command`. -/
def Meter.turn (m : M) (greeted executed : Bool) (command : Str) : Option Str × M :=
  let m₁ := if greeted then (T.exec m LOCAL).2 else m
  if executed then T.exec m₁ command else (none, m₁)

/-- The room after the meter has changed to `m`. -/
def Room.move (s : Room M V ι) (m : M) : Room M V ι :=
  { s with
    meter := m
    moments := fun u => s.moments u ++ [T.config m]
    recent := fun u => s.recent u ++ [T.config m] }

/-- The room after a turn of the task `t` that left the meter in `m`. -/
def Room.turn (s : Room M V ι) (t : ι) (command : Str) (m : M) (answer : Option Str)
    (success : Bool) : Room M V ι :=
  let s' := s.move T m
  { s' with
    asked := Function.update s.asked t (s.asked t ++ [(command, success)])
    -- what `FUNC1?` tells is what the later answers have to agree with
    recent := if command = FUNCTION then Function.update s'.recent t [T.config m] else s'.recent
    sample := if command = MEASURE then
        Function.update s.sample t (answer.map fun raw => ((T.config m).function, raw))
      else s.sample }

/-- A task gets a request. -/
def Room.start (s : Room M V ι) (t : ι) (r : Request) : Room M V ι :=
  { s with
    serving := Function.update s.serving t r
    asked := Function.update s.asked t []
    moments := Function.update s.moments t [T.config s.meter]
    recent := Function.update s.recent t [T.config s.meter]
    sample := Function.update s.sample t none }

variable (timeout : Rat)

/-- A call of the manager comes out, in a turn of its own. -/
def Room.call (s : Room M V ι) (t : ι) (c : Call) :
    Outcome V → Option (Except Exc c.Res × Room M V ι)
  | .done greeted =>
      let x := T.turn s.meter greeted true c.command
      -- it comes out so only if the meter answers what has to be answered
      if c.expects && x.1.isNone then none
      else some (c.value x.1, s.turn T t c.command x.2 x.1 true)
  | .silent greeted =>
      let x := T.turn s.meter greeted true c.command
      if c.expects && x.1.isNone then
        some (.error (.deviceError (.transactionFailed c.command
          (.noResponse c.command (c.timeout.getD timeout)))), s.turn T t c.command x.2 none false)
      else none
  | .failed greeted executed e =>
      let x := T.turn s.meter greeted executed c.command
      some (.error (.deviceError e), s.turn T t c.command x.2 none false)
  | _ => none

/-- A call of the clock, the broadcaster or the database comes out. -/
def Room.hub (s : Room M V ι) (t : ι) :
    (o : HubOp V) → Outcome V → Option (Except Exc o.Res × Room M V ι)
  | .time, .clock timestamp => some (.ok timestamp, s)
  | .publish reading, .done _ =>
      some (.ok (), { s with readings := s.readings ++ [(reading, s.sample t)] })
  | .insertReading reading, .done _ =>
      some (.ok (), { s with readings := s.readings ++ [(reading, s.sample t)] })
  | .aggregate _ _, .summary agg => some (.ok agg, s)
  | _, .raised e => some (.error e, s)
  | _, _ => none

/-- Tasks serving requests on one meter. -/
def room (float : Str → Option V) : System (Server V) Exc (Answer V) ι (Room M V ι) where
  Entry := Request
  Choice := Outcome V
  Env := M
  code := Request.code float
  start s t r := some (s.start T t r)
  invoke s _ _ := s
  answer s t o x := match o with
    | .inl c => s.call T timeout t c x
    | .inr o => s.hub t o x
  -- the front panel
  env s m := some (s.move T m)

variable {timeout}

/-- No change at the front panel. -/
def NoPanel (float : Str → Option V) (_ : Room M V ι) :
    Action (room T timeout float : System _ _ _ ι _) → Room M V ι → Prop
  | .env _, _ => False
  | _, _ => True

instance (float : Str → Option V) (s : Room M V ι)
    (a : Action (room T timeout float : System _ _ _ ι _)) (s' : Room M V ι) :
    Decidable (NoPanel T float s a s') :=
  match a with
  | .env _ => .isFalse id
  | .start _ _ => .isTrue trivial
  | .invoke _ => .isTrue trivial
  | .answer _ _ => .isTrue trivial

/-- Nobody has been asked anything yet. -/
def initial (m : M) : Config (Server V) Exc (Answer V) ι (Room M V ι) where
  shared := {
    meter := m
    serving := fun _ => .other (pure ())
    asked := fun _ => []
    moments := fun _ => []
    recent := fun _ => []
    sample := fun _ => none
    readings := [] }
  point _ := .ready (.ret .nothing)

/-! ## What a turn does -/

theorem Meter.config_turn {m : M} {greeted executed : Bool} {q : Str}
    (hq : q ∈ [FUNCTION, MEASURE, RATE_QUERY, AUTO_RANGE_QUERY, RANGE_QUERY, LOCAL]) :
    T.config (T.turn m greeted executed q).2 = T.config m := by
  have hlocal : T.config (if greeted then (T.exec m LOCAL).2 else m) = T.config m := by
    cases greeted with
    | true => exact T.keeps m LOCAL (by decide)
    | false => rfl
  unfold Meter.turn
  cases executed with
  | true => exact (T.keeps _ q hq).trans hlocal
  | false => exact hlocal

/-- A turn that comes off is a command to a meter in the same configuration. -/
theorem Meter.turn_exec (m : M) (greeted : Bool) (command : Str) :
    ∃ m₁, T.config m₁ = T.config m ∧ T.turn m greeted true command = T.exec m₁ command := by
  cases greeted with
  | true => exact ⟨(T.exec m LOCAL).2, T.keeps m LOCAL (by decide), rfl⟩
  | false => exact ⟨m, rfl, rfl⟩

/-- **A query that is answered** is answered by a meter in the same configuration, and
    leaves it there. -/
theorem Meter.turn_answer {m : M} {greeted : Bool} {q : Str}
    (hq : q ∈ [FUNCTION, MEASURE, RATE_QUERY, AUTO_RANGE_QUERY, RANGE_QUERY, LOCAL])
    (h : (T.turn m greeted true q).1.isSome = true) :
    ∃ m₁ raw, T.config m₁ = T.config m ∧ (T.exec m₁ q).1 = some raw ∧
      (T.turn m greeted true q).1 = some raw ∧
      T.config (T.turn m greeted true q).2 = T.config m := by
  obtain ⟨raw, hraw⟩ := Option.isSome_iff_exists.mp h
  obtain ⟨m₁, hm₁, hexec⟩ := T.turn_exec m greeted q
  exact ⟨m₁, raw, hm₁, (congrArg Prod.fst hexec).symm.trans hraw, hraw, T.config_turn hq⟩

/-- A turn leaves the other tasks' requests, questions and samples alone. -/
theorem turn_frame (s : Room M V ι) (t : ι) (command : Str) (m : M) (answer : Option Str)
    (success : Bool) (u : ι) (hu : u ≠ t) :
    (s.turn T t command m answer success).serving u = s.serving u ∧
      (s.turn T t command m answer success).asked u = s.asked u ∧
      (s.turn T t command m answer success).sample u = s.sample u := by
  refine ⟨rfl, Function.update_of_ne hu .., ?_⟩
  show (if command = MEASURE then Function.update s.sample t _ else s.sample) u = _
  by_cases hm : command = MEASURE
  · rw [if_pos hm, Function.update_of_ne hu]
  · rw [if_neg hm]

/-- The outcome of a call: the turn it took, and what it answered. -/
theorem call_cases {s s' : Room M V ι} {t : ι} {c : Call} {x : Outcome V}
    {r : Except Exc c.Res} (h : s.call T timeout t c x = some (r, s')) :
    (∃ greeted, let y := T.turn s.meter greeted true c.command
      (c.expects = true → y.1.isSome = true) ∧ r = c.value y.1 ∧
        s' = s.turn T t c.command y.2 y.1 true) ∨
    (∃ greeted executed e, r = .error (.deviceError e) ∧
      s' = s.turn T t c.command (T.turn s.meter greeted executed c.command).2 none false ∧
      (x = .failed greeted executed e ∨
        executed = true ∧ (T.turn s.meter greeted true c.command).1 = none)) := by
  cases x with
  | done greeted =>
      simp only [Room.call] at h
      split at h
      · exact nomatch h
      · next hn =>
          obtain ⟨rfl, rfl⟩ := Prod.mk.inj (Option.some.inj h)
          refine .inl ⟨greeted, fun he => ?_, rfl, rfl⟩
          rw [he, Bool.true_and] at hn
          exact Option.isSome_iff_ne_none.mpr fun hnone => hn (by rw [hnone]; rfl)
  | silent greeted =>
      simp only [Room.call] at h
      split at h
      · next hs =>
          obtain ⟨rfl, rfl⟩ := Prod.mk.inj (Option.some.inj h)
          have hnone := Option.isNone_iff_eq_none.mp (Bool.and_eq_true_iff.mp hs).2
          exact .inr ⟨greeted, true, _, rfl, rfl, .inr ⟨rfl, hnone⟩⟩
      · exact nomatch h
  | failed greeted executed e =>
      obtain ⟨rfl, rfl⟩ := Prod.mk.inj (Option.some.inj h)
      exact .inr ⟨greeted, executed, e, rfl, rfl, .inl rfl⟩
  | _ => exact nomatch h

omit [DecidableEq ι] in
/-- A call of the clock, the broadcaster or the database changes nothing but what is
    published and stored. -/
theorem hub_cases {s s' : Room M V ι} {t : ι} {o : HubOp V} {x : Outcome V}
    {r : Except Exc o.Res} (h : s.hub t o x = some (r, s')) :
    s' = s ∨ ∃ reading, (o = .publish reading ∨ o = .insertReading reading) ∧
      s' = { s with readings := s.readings ++ [(reading, s.sample t)] } := by
  cases o with
  | time =>
      cases x with
      | clock => exact .inl (Prod.mk.inj (Option.some.inj h)).2.symm
      | raised => exact .inl (Prod.mk.inj (Option.some.inj h)).2.symm
      | _ => exact nomatch h
  | publish reading =>
      cases x with
      | done => exact .inr ⟨reading, .inl rfl, (Prod.mk.inj (Option.some.inj h)).2.symm⟩
      | raised => exact .inl (Prod.mk.inj (Option.some.inj h)).2.symm
      | _ => exact nomatch h
  | insertReading reading =>
      cases x with
      | done => exact .inr ⟨reading, .inr rfl, (Prod.mk.inj (Option.some.inj h)).2.symm⟩
      | raised => exact .inl (Prod.mk.inj (Option.some.inj h)).2.symm
      | _ => exact nomatch h
  | aggregate since function =>
      cases x with
      | summary => exact .inl (Prod.mk.inj (Option.some.inj h)).2.symm
      | raised => exact .inl (Prod.mk.inj (Option.some.inj h)).2.symm
      | _ => exact nomatch h

end Turns
