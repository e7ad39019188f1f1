import XdmServer.PortScript
import XdmServer.ScpiServer

/-! # One transaction is one line on the wire

    What a request writes to the serial port, transaction by transaction.
    `one_line_iff` says for which requests every transaction writes one line at most,
    whatever the port does and whatever state the transport is in: for all but a
    `set_function` that smuggles a newline into the RTD type. -/

namespace WireLines

open PyText Coroutine Coro Commands Device Driver Scpi PortScript

variable {V : Type}

/-- The operations of the driver, besides `set_function`. -/
inductive DriverOp where
  | identify
  | getFunction
  | getRate
  | setRate (rate : Rate)
  | getAutoRange
  | enableAutoRange
  | getRange (function : Option Function)
  | readMeasurement
  | readState

/-- What sends commands to the meter. -/
inductive Entry where
  /-- `POST /api/function` and `POST /control/function` -/
  | function (name rtdType : Str)
  | driver (op : DriverOp)
  | line (line : ClientLine)

/-- The driver's function for an operation. -/
def DriverOp.code (float : Str → Option V) : DriverOp → Coro Calls Exc Unit
  | .identify => do let _ ← Driver.identify
  | .getFunction => do let _ ← Driver.getFunction
  | .getRate => do let _ ← Driver.getRate
  | .setRate rate => Driver.setRate rate
  | .getAutoRange => do let _ ← Driver.getAutoRange
  | .enableAutoRange => Driver.enableAutoRange
  | .getRange function => do let _ ← Driver.getRange function
  | .readMeasurement => do let _ ← Driver.readMeasurement float
  | .readState => do let _ ← Driver.readState

/-- The calls of the manager that an entry makes. -/
def Entry.code (float : Str → Option V) : Entry → Coro Calls Exc Unit
  | .function name rtdType => do let _ ← postFunction name rtdType
  | .driver op => op.code float
  | .line l => do let _ ← handleCommand (decodeAscii (terminated l.body))

/-- Bytes with exactly one newline, at their end. -/
def IsLine (data : Bytes) : Prop := ∃ body, data = terminated body ∧ newline ∉ body

/-- Between `d` and `d'` each transaction wrote nothing, or one `data` with `D data`. -/
def Wrote (D : Bytes → Prop) (d d' : Desk) : Prop :=
  ∃ written : List (Option Bytes), d'.transacted = d.transacted + written.length ∧
    d'.wire = d.wire ++ written.filterMap id ∧ ∀ data, some data ∈ written → D data

/-- The entry run by a task that is alone with the manager. -/
def perform (float : Str → Option V) (T : SerialTransport) (timeout : Rat) (script : Script)
    (e : Entry) (d : Desk) : Except Exc Unit × Desk :=
  ((e.code float).translate (serialManager T timeout).perform).run (desk T script) d

/-- Every transaction of the entry writes one line at most, on every transport, whatever
    the port does. -/
def OneLineEach (float : Str → Option V) (e : Entry) : Prop :=
  ∀ (T : SerialTransport) (timeout : Rat) (script : Script) (d : Desk),
    Wrote IsLine d (perform float T timeout script e d).2

/-- A newline within the argument of a command. -/
def Entry.Smuggles : Entry → Prop
  | .function name rtdType =>
      name = "TEMPERATURE".toList ∧ isAscii rtdType = true ∧ '\n' ∈ rtdType
  | _ => False

/-! ## What the transactions write -/

theorem Wrote.refl (D : Bytes → Prop) (d : Desk) : Wrote D d d :=
  ⟨[], rfl, (List.append_nil _).symm, fun _ h => nomatch h⟩

theorem Wrote.trans {D : Bytes → Prop} {d₁ d₂ d₃ : Desk} (h₁ : Wrote D d₁ d₂)
    (h₂ : Wrote D d₂ d₃) : Wrote D d₁ d₃ := by
  obtain ⟨w₁, hn₁, hw₁, hD₁⟩ := h₁
  obtain ⟨w₂, hn₂, hw₂, hD₂⟩ := h₂
  refine ⟨w₁ ++ w₂, ?_, ?_, fun data hdata => ?_⟩
  · rw [hn₂, hn₁, List.length_append, Nat.add_assoc]
  · rw [hw₂, hw₁, List.filterMap_append, List.append_assoc]
  · obtain h | h := List.mem_append.mp hdata
    · exact hD₁ data h
    · exact hD₂ data h

theorem Wrote.mono {D D' : Bytes → Prop} {d d' : Desk} (h : Wrote D d d')
    (hD : ∀ data, D data → D' data) : Wrote D' d d' := by
  obtain ⟨w, hn, hw, hall⟩ := h
  exact ⟨w, hn, hw, fun data hdata => hD data (hall data hdata)⟩

/-- The line of some command in `A`. -/
def LineOf (A : Str → Prop) (data : Bytes) : Prop :=
  ∃ command, A command ∧ encodeAscii (command ++ TERMINATOR) = some data

/-- A transaction writes the line of its command, or nothing. -/
theorem wrote_play {A : Str → Prop} (T : SerialTransport) (d : Desk) (o : TxnScript)
    {command : Str} (h : A command) (expects : Bool) (timeout : Rat) :
    Wrote (LineOf A) d (d.play
      ((T.transactBlocking command expects timeout).run (worker d.serial o) []).2) := by
  have hnone : Wrote (LineOf A) d (d.play []) :=
    ⟨[none], rfl, rfl, fun data hdata => nomatch hdata⟩
  cases hser : d.serial with
  | none => exact hnone
  | some ser =>
      obtain ⟨-, hw⟩ := transactBlocking_spec T ser o command expects timeout
      obtain hw | hw := hw
      · rw [hw]
        exact hnone
      · rw [hw, frame]
        cases hline : encodeAscii (command ++ TERMINATOR) with
        | none => exact hnone
        | some data =>
            refine ⟨[some data], rfl, rfl, fun data' hdata' => ?_⟩
            obtain rfl := Option.some.inj (List.mem_singleton.mp hdata')
            exact ⟨command, h, hline⟩

/-- The transactions of a program are all in `A`. -/
def Sends (A : Str → Prop) : SerialOp → Prop
  | .toThread (.transactBlocking command _ _) => A command
  | _ => True

/-- The desk writes only the line of a command that it was given. -/
theorem wrote_desk {A : Str → Prop} (T : SerialTransport) (script : Script) (o : SerialOp)
    (d : Desk) (h : Sends A o) : Wrote (LineOf A) d (desk T script o d).2 := by
  have hsame : ∀ d' : Desk, d'.transacted = d.transacted → d'.wire = d.wire →
      Wrote (LineOf A) d d' := fun d' hn hw =>
    ⟨[], hn, hw.trans (List.append_nil _).symm, fun data hdata => nomatch hdata⟩
  cases o with
  | acquire =>
      show Wrote _ d (if d.locked then _ else _ : Except Exc Unit × Desk).2
      cases d.locked <;> exact hsame _ rfl rfl
  | toThread job =>
      cases job with
      | transactBlocking command expects timeout => exact wrote_play T d _ h expects timeout
      | construct port baudRate =>
          show Wrote _ d (runJob T script (.construct port baudRate) d).2
          rw [runJob]
          cases script.construct d.constructed <;> exact hsame _ rfl rfl
      | close ser =>
          show Wrote _ d (runJob T script (.close ser) d).2
          rw [runJob]
          cases script.close d.closed <;> exact hsame _ rfl rfl
  | _ => exact hsame _ rfl rfl

/-! ## What the manager sends -/

section Manager

variable {A : Str → Prop} (T : SerialTransport) (timeout : Rat)

/-- An operation without a transaction sends nothing. -/
theorem sends_plain (o : SerialOp) (h : o.Plain) : Sends A o := by
  cases o with
  | toThread job =>
      cases job with
      | transactBlocking command expects limit => exact h.elim
      | _ => trivial
  | _ => trivial

/-- A manager sends the commands it is asked for, and `SYST:LOC` where it reconnects. -/
theorem sends_confined (hlocal : A LOCAL) : (serialManager T timeout).Confined A (Sends A) :=
  serialManager_confined T timeout sends_plain (fun _ h _ _ => h) hlocal

theorem sends_lock : serialLock.Confined (Sends A) := ⟨uses_op trivial, uses_op trivial⟩

/-- **What a program writes**: lines of the commands it asks the manager for, and of
    `SYST:LOC`, one in each transaction at most. -/
theorem wrote_run {α : Type} (script : Script) {p : Coro Calls Exc α}
    (hp : p.Uses fun c : Call => A c.command) (hlocal : A LOCAL) (d : Desk) :
    Wrote (LineOf A) d ((p.translate (serialManager T timeout).perform).run (desk T script) d).2 :=
  ((sends_confined T timeout hlocal).translate sends_lock hp).run (desk T script)
    (fun o _ ho hd => hd.trans (wrote_desk T script o _ ho)) (Wrote.refl _ d)

end Manager

/-! ## What each entry asks for -/

/-- A command that can be written has no newline in it. -/
def Framed (command : Str) : Prop := isAscii command = true → '\n' ∉ command

/-- A command that is one line has no newline in it. -/
theorem Framed.of_oneLine {command : Str} (h : OneLine command) : Framed command := fun _ => h.2

/-- The line of a framed command. -/
theorem isLine_of_framed {data : Bytes} (h : LineOf Framed data) : IsLine data := by
  obtain ⟨command, hframed, hdata⟩ := h
  have hascii : isAscii command = true := by
    rw [← isAscii_terminated, ← encodeAscii_isSome, hdata]
    rfl
  have hsome : (encodeAscii command).isSome = true := encodeAscii_isSome.trans hascii
  obtain ⟨body, hbody⟩ := Option.isSome_iff_exists.mp hsome
  have hwhole : encodeAscii (command ++ TERMINATOR) = some (body ++ [newline]) :=
    encodeAscii_append hbody rfl
  refine ⟨body, Option.some.inj (hdata.symm.trans hwhole), fun hmem => ?_⟩
  exact hframed hascii ((newline_mem_encodeAscii hbody).mp hmem)

/-- The commands of the server's own that take no argument. -/
def vocabulary : List Str :=
  [IDENTIFY, LOCAL, FUNCTION, MEASURE, RATE_QUERY, AUTO_RANGE_QUERY, RANGE_QUERY, AUTO_RANGE]
    ++ Rate.members.map setRateCommand

/-- A program that asks for nothing else. -/
abbrev Speaks {α : Type} (p : Coro Calls Exc α) : Prop :=
  p.Uses fun c : Call => c.command ∈ vocabulary

theorem speaks_query {command : Str} (h : command ∈ vocabulary) : Speaks (Driver.query command) :=
  uses_op h

theorem uses_parsed {A : Call → Prop} {α : Type} (x : Option α) :
    (parsed x : Coro Calls Exc α).Uses A := by
  cases x <;> trivial

/-- `get_function` keeps to the vocabulary. -/
theorem speaks_getFunction : Speaks Driver.getFunction :=
  (speaks_query (by decide)).bind fun _ => uses_parsed _

theorem speaks_getRate : Speaks Driver.getRate :=
  (speaks_query (by decide)).bind fun _ => uses_parsed _

theorem speaks_getAutoRange : Speaks Driver.getAutoRange :=
  (speaks_query (by decide)).bind fun _ => uses_pure _

/-- `set_rate` keeps to the vocabulary, for each rate. -/
theorem speaks_setRate (rate : Rate) : Speaks (Driver.setRate rate) :=
  uses_op (by cases rate <;> decide)

theorem speaks_getRangeOf (function : Function) : Speaks (getRangeOf function) := by
  unfold getRangeOf
  by_cases hno : function ∈ NO_RANGE_QUERY
  · rw [if_pos hno]
    exact uses_pure _
  · rw [if_neg hno]
    refine ((speaks_query (by decide)).bind fun _ => uses_pure _).tryExcept fun e => ?_
    cases e with
    | deviceError e => exact uses_pure _
    | _ => exact uses_raise _

/-- `get_range` keeps to the vocabulary, with a function named or not. -/
theorem speaks_getRange (function : Option Function) : Speaks (Driver.getRange function) := by
  cases function with
  | some function => exact speaks_getRangeOf function
  | none => exact speaks_getFunction.bind speaks_getRangeOf

/-- `read_state` keeps to the vocabulary. -/
theorem speaks_readState : Speaks Driver.readState :=
  speaks_getFunction.bind fun function => speaks_getRate.bind fun _ =>
    speaks_getAutoRange.bind fun _ => (speaks_getRange (some function)).bind fun _ => uses_pure _

/-- Every operation of the driver keeps to the vocabulary, `set_function` aside. -/
theorem speaks_driver (float : Str → Option V) (op : DriverOp) : Speaks (op.code float) := by
  cases op with
  | identify => exact (speaks_query (by decide)).bind fun _ => uses_pure _
  | getFunction => exact speaks_getFunction.bind fun _ => uses_pure _
  | getRate => exact speaks_getRate.bind fun _ => uses_pure _
  | setRate rate => exact speaks_setRate rate
  | getAutoRange => exact speaks_getAutoRange.bind fun _ => uses_pure _
  | enableAutoRange => exact uses_op (by decide)
  | getRange function => exact (speaks_getRange function).bind fun _ => uses_pure _
  | readMeasurement =>
      exact (speaks_getFunction.bind fun _ => (speaks_query (by decide)).bind fun _ =>
        (uses_parsed _).bind fun _ => uses_pure _).bind fun _ => uses_pure _
  | readState => exact speaks_readState.bind fun _ => uses_pure _

/-- The state that the web API reports is read within the vocabulary. -/
theorem speaks_readStateOut : Speaks readStateOut :=
  speaks_readState.bind fun _ => uses_pure _

/-- `POST /api/rate` keeps to the vocabulary, whatever name it is given. -/
theorem speaks_postRate (name : Str) : Speaks (postRate name) := by
  unfold postRate parseRate
  cases Rate.members.find? fun member => member.name = name with
  | none => exact uses_raise _
  | some rate => exact (speaks_setRate rate).bind fun _ => speaks_readStateOut

/-- `POST /api/auto_range` keeps to the vocabulary. -/
theorem speaks_postAutoRange : Speaks postAutoRange :=
  Uses.bind (uses_op (by decide)) fun _ => speaks_readStateOut

/-- A request for a function asks for its selection, and then speaks the vocabulary. -/
theorem uses_function (float : Str → Option V) {A : Str → Prop} {name rtdType : Str}
    (hselect : ∀ f : Function, f.name = name → A (configureCommand f rtdType))
    (hvocabulary : ∀ command ∈ vocabulary, A command) :
    ((Entry.function name rtdType).code float).Uses fun c : Call => A c.command := by
  refine Uses.bind ?_ fun _ => uses_pure _
  -- a name that is no function is turned down before anything is sent
  obtain ⟨f, hname, hparse⟩ | hparse := parseFunction_cases (S := Calls) name
  · show Uses _ (parseFunction name >>= _)
    rw [hparse]
    have hselects : (setFunction f rtdType).Uses fun c : Call => A c.command :=
      uses_op (hselect f hname)
    have hreads : readStateOut.Uses fun c : Call => A c.command :=
      speaks_readStateOut.mono fun c hc => hvocabulary c.command hc
    exact hselects.bind fun _ => hreads
  · show Uses _ (parseFunction name >>= _)
    rw [hparse]
    exact uses_raise _

/-- The calls of a program are all framed. -/
abbrev Asks {α : Type} (p : Coro Calls Exc α) : Prop := p.Uses fun c : Call => Framed c.command

/-- No command of the vocabulary has a newline in it. -/
theorem framed_vocabulary (command : Str) (h : command ∈ vocabulary) : Framed command := by
  have hall : ∀ command ∈ vocabulary, OneLine command := by decide
  exact Framed.of_oneLine (hall command h)

/-- A line of a client is stripped of its newline. -/
theorem asks_line (l : ClientLine) : Asks (handleCommand (decodeAscii (terminated l.body))) := by
  rw [handleCommand_eq, callOf_terminated]
  cases hcall : callOf l.body with
  | none => exact uses_pure _
  | some c =>
      have hframed : Framed c.command := fun _ => newline_notMem_callOf hcall l.newline_notMem
      have hop : Asks (Coro.op (S := Calls) c) := uses_op hframed
      refine hop.andThen fun r => ?_
      rcases r with e | r
      · cases e with
        | deviceError e => exact uses_pure _
        | _ => exact uses_raise _
      · exact uses_pure _

/-- Only one function is called `TEMPERATURE`. -/
theorem name_eq_temperature {f : Function} : f.name = "TEMPERATURE".toList ↔ f = .TEMPERATURE := by
  cases f <;> decide

/-- The function of a request is selected by one line, if nothing is smuggled in. -/
theorem framed_configureCommand {f : Function} {rtd : Str}
    (h : ¬ (f = .TEMPERATURE ∧ isAscii rtd = true ∧ '\n' ∈ rtd)) :
    Framed (configureCommand f rtd) := by
  intro hascii hmem
  obtain ⟨rfl, hrtd⟩ := newline_mem_configureCommand.mp hmem
  rw [isAscii_configureCommand] at hascii
  exact h ⟨rfl, hascii, hrtd⟩

/-- An entry that smuggles nothing in asks for framed commands only. -/
theorem asks_entry (float : Str → Option V) {e : Entry} (h : ¬ e.Smuggles) :
    Asks (e.code float) := by
  cases e with
  | driver op => exact (speaks_driver float op).mono fun c => framed_vocabulary c.command
  | line l => exact (asks_line l).bind fun _ => uses_pure _
  | function name rtdType =>
      refine uses_function float ?_ framed_vocabulary
      rintro f rfl
      exact framed_configureCommand fun hf => h ⟨name_eq_temperature.mpr hf.1, hf.2⟩

/-! ## The smuggled newline -/

/-- Every call of pyserial returns; the meter answers nothing. -/
def obliging : Script where
  construct _ := .ok ()
  transaction _ := ⟨.ok (), .ok (), .ok (), .ok []⟩
  close _ := .ok ()

/-- A transport that is open. -/
def openDesk : Desk := ⟨false, some 0, fun _ => true, 1, 0, 0, []⟩

/-- The first transaction on an open transport. -/
theorem run_write (T : SerialTransport) (timeout : Rat) {command : Str} {data : Bytes}
    (h : encodeAscii (command ++ TERMINATOR) = some data) :
    ((serialManager T timeout).write command none).run (desk T obliging) openDesk
      = (.ok (), { openDesk with transacted := 1, wire := [data] }) := by
  have hblocking : (T.transactBlocking command false timeout).run
      (worker (some 0) (obliging.transaction 0)) [] = (.ok none, [data]) := by
    rw [transactBlocking_run, converse_run, h]
    rfl
  have hjob : runJob T obliging (.transactBlocking command false timeout)
      { openDesk with locked := true }
        = (.ok none, { openDesk with locked := true, transacted := 1, wire := [data] }) := by
    rw [runJob]
    exact congrArg (fun x : Except Exc (Option Str) × List Bytes =>
      (x.1, ({ openDesk with locked := true } : Desk).play x.2)) hblocking
  -- the transport is open, so `_transact` comes down to this job
  have hexchange : ((serialManager T timeout).exchange command false timeout).run
      (desk T obliging) { openDesk with locked := true }
        = (.ok none, { openDesk with locked := true, transacted := 1, wire := [data] }) := by
    show ((serialManager T timeout).attempt command false timeout).run (desk T obliging)
      { openDesk with locked := true } = _
    rw [DeviceManager.attempt, run_tryExcept]
    rw [show ((serialManager T timeout).transport.transact command false timeout).run
      (desk T obliging) { openDesk with locked := true }
        = runJob T obliging (.transactBlocking command false timeout)
          { openDesk with locked := true } from
      run_toThread T obliging (.transactBlocking command false timeout) _, hjob]
  have htransact : ((serialManager T timeout).transact command false none).run (desk T obliging)
      openDesk = (.ok none, { openDesk with transacted := 1, wire := [data] }) := by
    refine (run_hold T obliging _ rfl).trans ?_
    rw [show ((serialManager T timeout).exchange command false
      ((none : Option Rat).getD (serialManager T timeout).defaultTimeout)).run (desk T obliging)
        { openDesk with locked := true } = _ from hexchange]
    rfl
  rw [DeviceManager.write, run_bind, htransact]
  rfl

/-- What follows the first transaction of a `set_function` only adds to what is written. -/
theorem wrote_later (float : Str → Option V) (T : SerialTransport) (timeout : Rat)
    {rtdType : Str} {data : Bytes}
    (h : encodeAscii (configureCommand .TEMPERATURE rtdType ++ TERMINATOR) = some data) :
    Wrote (LineOf Framed) { openDesk with transacted := 1, wire := [data] }
      (perform float T timeout obliging (.function "TEMPERATURE".toList rtdType) openDesk).2 := by
  let H : Handler Calls Exc Desk := fun c =>
    ((serialManager T timeout).perform c).run (desk T obliging)
  have hset : (setFunction .TEMPERATURE rtdType).run H openDesk
      = (.ok (), { openDesk with transacted := 1, wire := [data] }) :=
    (run_op ..).trans (run_write T timeout h)
  have hpost : (postFunction "TEMPERATURE".toList rtdType).run H openDesk
      = readStateOut.run H { openDesk with transacted := 1, wire := [data] } := by
    show (setFunction .TEMPERATURE rtdType >>= fun _ => readStateOut).run H openDesk = _
    rw [run_bind, hset]
  have hasks : Asks readStateOut :=
    speaks_readStateOut.mono fun c => framed_vocabulary c.command
  have hwrote := wrote_run T timeout obliging hasks (Framed.of_oneLine (by decide))
    { openDesk with transacted := 1, wire := [data] }
  rw [run_translate, ← hpost] at hwrote
  have hperform : (perform float T timeout obliging (.function "TEMPERATURE".toList rtdType)
      openDesk).2 = ((postFunction "TEMPERATURE".toList rtdType).run H openDesk).2 := by
    unfold perform
    rw [run_translate]
    show Prod.snd ((postFunction _ _ >>= fun _ => pure ()).run H openDesk) = _
    rw [run_bind]
    rcases (postFunction "TEMPERATURE".toList rtdType).run H openDesk with ⟨e | r, d⟩ <;> rfl
  rw [hperform]
  exact hwrote

/-- A request that smuggles a newline makes its first transaction write it. -/
theorem smuggled (float : Str → Option V) {e : Entry} (h : e.Smuggles) :
    ¬ OneLineEach float e := by
  intro hone
  cases e with
  | driver op => exact h
  | line l => exact h
  | function name rtdType =>
      obtain ⟨rfl, hascii, hmem⟩ := h
      have hcommand : isAscii (configureCommand .TEMPERATURE rtdType) = true := by
        rw [isAscii_configureCommand, hascii]
        rfl
      obtain ⟨body, hbody⟩ := Option.isSome_iff_exists.mp
        (encodeAscii_isSome.trans hcommand)
      have hdata : encodeAscii (configureCommand .TEMPERATURE rtdType ++ TERMINATOR)
          = some (terminated body) := encodeAscii_append hbody rfl
      have hinside : newline ∈ body :=
        (newline_mem_encodeAscii hbody).mpr (newline_mem_configureCommand.mpr ⟨rfl, hmem⟩)
      -- on an open port the selection is the first thing written
      obtain ⟨later, -, hlater, -⟩ :=
        wrote_later float ⟨"/dev/ttyUSB0".toList, 115200⟩ 2 hdata
      obtain ⟨written, -, hwire, hlines⟩ := hone ⟨"/dev/ttyUSB0".toList, 115200⟩ 2 obliging openDesk
      rw [hlater] at hwire
      have hfirst : terminated body ∈ written.filterMap id := by
        rw [show written.filterMap id = [terminated body] ++ later.filterMap id from hwire.symm]
        exact List.mem_cons_self ..
      obtain ⟨o, ho, hid⟩ := List.mem_filterMap.mp hfirst
      obtain rfl : o = some (terminated body) := hid
      obtain ⟨body', heq, hnot⟩ := hlines _ ho
      have hsame : body = body' := List.append_cancel_right heq
      exact hnot (hsame ▸ hinside)

/-- **ONE TRANSACTION IS ONE LINE ON THE WIRE**, for every request but one that smuggles a
    newline in with the RTD type: whatever the port does, each transaction made on behalf of
    the request writes nothing, or bytes with exactly one newline, the last. -/
theorem one_line_iff (float : Str → Option V) (e : Entry) :
    OneLineEach float e ↔ ¬ e.Smuggles := by
  refine ⟨fun hone h => smuggled float h hone, fun h T timeout script d => ?_⟩
  have hlocal : Framed LOCAL := framed_vocabulary LOCAL (by decide)
  exact (wrote_run T timeout script (asks_entry float h) hlocal d).mono fun _ => isLine_of_framed

/-- **Two lines in one transaction**: the second one locks the front panel. -/
theorem not_one_line :
    ¬ ∀ (V : Type) (float : Str → Option V) (e : Entry), OneLineEach float e := by
  intro h
  have hsmuggles : (Entry.function "TEMPERATURE".toList "KITS90\nSYST:REM".toList).Smuggles :=
    ⟨rfl, by decide, by decide⟩
  exact smuggled (fun _ => (none : Option Rat)) hsmuggles (h Rat _ _)

end WireLines
