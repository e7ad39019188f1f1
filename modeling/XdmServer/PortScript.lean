import XdmServer.Serial

/-! # A task alone with the serial port

    `Script` fixes what every call of pyserial comes to: each constructor, each of the
    calls of each transaction, each `close`.  `desk` runs the event loop's half of the
    transport against a script, and each `_transact_blocking` in it.

    * `transactBlocking_run`, with `Escapes`, `Fails` and `Returns`, says what one
      `_transact_blocking` comes to and what it puts on the wire.
    * `run_open`, `run_close`, `run_transact` say the same of the transport. -/

namespace PortScript

open PyText Coroutine Commands Device

/-- What the calls of pyserial that reach `tcflush` or `tcdrain` raise. -/
inductive FlushError where
  | portError (e : PortError)
  | termiosError (text : Str)

/-- The exception that a failing flush raises. -/
def FlushError.toExc : FlushError → Exc
  | .portError e => .portError e
  | .termiosError text => .termiosError text

/-- The outcomes of the pyserial calls of one `_transact_blocking`. -/
structure TxnScript where
  resetInputBuffer : Except FlushError Unit
  write : Except PortError Unit
  flush : Except FlushError Unit
  /-- An empty answer is a timeout. -/
  readline : Except PortError Bytes

/-- The outcomes of all calls of pyserial, in the order in which they are made. -/
structure Script where
  construct : Nat → Except PortError Unit
  transaction : Nat → TxnScript
  close : Nat → Except PortError Unit

/-- The worker's calls: `written` collects what is handed to `ser.write`. -/
def worker (ser : Option Handle) (o : TxnScript) : Coro.Handler Port Exc (List Bytes)
  | .getSerial, written => (.ok ser, written)
  | .resetInputBuffer _, written => (o.resetInputBuffer.mapError FlushError.toExc, written)
  | .write _ data, written => (o.write.mapError .portError, written ++ [data])
  | .flush _, written => (o.flush.mapError FlushError.toExc, written)
  | .setTimeout _ _, written => (.ok (), written)
  | .readline _, written => (o.readline.mapError .portError, written)

/-- The transport's state, the manager's lock, how far the script has been played,
    and everything handed to `ser.write` so far. -/
structure Desk where
  locked : Bool
  serial : Option Handle
  opened : Handle → Bool
  constructed : Nat
  transacted : Nat
  closed : Nat
  wire : List Bytes

/-- `SerialTransport.is_open`. -/
def Desk.isOpen (d : Desk) : Bool :=
  match d.serial with
  | some ser => d.opened ser
  | none => false

/-- A constructor was called, and returned an open port. -/
def Desk.construct (d : Desk) : Desk :=
  { d with opened := Function.update d.opened d.constructed true, constructed := d.constructed + 1 }

/-- A transaction was played, and handed `written` to `ser.write`. -/
def Desk.play (d : Desk) (written : List Bytes) : Desk :=
  { d with transacted := d.transacted + 1, wire := d.wire ++ written }

variable (T : SerialTransport) (script : Script)

/-- What a job comes to when it runs. -/
def runJob : (job : Job) → Desk → Except Exc job.Res × Desk
  | .construct _ _, d =>
      match script.construct d.constructed with
      | .ok _ => (.ok d.constructed, d.construct)
      | .error e => (.error (.portError e), { d with constructed := d.constructed + 1 })
  | .transactBlocking command expectResponse timeout, d =>
      let x := (T.transactBlocking command expectResponse timeout).run
        (worker d.serial (script.transaction d.transacted)) []
      (x.1, d.play x.2)
  | .close ser, d =>
      match script.close d.closed with
      | .ok _ => (.ok (), { d with
          opened := Function.update d.opened ser false, closed := d.closed + 1 })
      | .error e => (.error (.portError e), { d with closed := d.closed + 1 })

/-- The event loop's calls, for a task that runs alone. -/
def desk : Coro.Handler Serial Exc Desk
  | .acquire, d =>
      -- alone, it would wait for ever on a lock it holds
      if d.locked then (.error .runtimeError, d) else (.ok (), { d with locked := true })
  | .release, d => (.ok (), { d with locked := false })
  | .getSerial, d => (.ok d.serial, d)
  | .setSerial ser, d => (.ok (), { d with serial := ser })
  | .handleIsOpen ser, d => (.ok (d.opened ser), d)
  | .toThread job, d => runJob T script job d

/-! ## One transaction -/

/-- The bytes of a command's line; nothing where it is not ASCII. -/
def frame (command : Str) : List Bytes := (encodeAscii (command ++ TERMINATOR)).toList

/-- An exception leaves `_transact_blocking` that is no `TransportError`: pyserial
    raised `termios.error`, or the command could not be encoded. -/
def TxnScript.Escapes (o : TxnScript) (command : Str) : Prop :=
  (∃ text, o.resetInputBuffer = .error (.termiosError text)) ∨
  o.resetInputBuffer = .ok () ∧ (isAscii command = false ∨
    o.write = .ok () ∧ ∃ text, o.flush = .error (.termiosError text))

/-- An exception leaves `_transact_blocking` that is a `TransportError`: pyserial
    raised what the `except` clause names, or an awaited answer never came. -/
def TxnScript.Fails (o : TxnScript) (command : Str) (expects : Bool) : Prop :=
  (∃ e, o.resetInputBuffer = .error (.portError e)) ∨
  o.resetInputBuffer = .ok () ∧ isAscii command = true ∧
    ((∃ e, o.write = .error e) ∨ o.write = .ok () ∧
      ((∃ e, o.flush = .error (.portError e)) ∨ o.flush = .ok () ∧
        expects = true ∧ ((∃ e, o.readline = .error e) ∨ o.readline = .ok [])))

/-- `_transact_blocking` returns `r`. -/
def TxnScript.Returns (o : TxnScript) (command : Str) (expects : Bool) (r : Option Str) :
    Prop :=
  o.resetInputBuffer = .ok () ∧ isAscii command = true ∧ o.write = .ok () ∧
    o.flush = .ok () ∧
    (expects = false ∧ r = none ∨
      expects = true ∧ ∃ raw, o.readline = .ok raw ∧ raw ≠ [] ∧
        r = some (strip (decodeAscii raw)))

/-- What an outcome of `_transact_blocking` says of the script. -/
def TxnScript.Explains (o : TxnScript) (command : Str) (expects : Bool) :
    Except Exc (Option Str) → Prop
  | .ok r => o.Returns command expects r
  | .error (.transportError _) => o.Fails command expects
  | .error (.termiosError _) => o.Escapes command
  | .error .unicodeEncodeError => o.Escapes command
  | .error _ => False

theorem isAscii_terminated (command : Str) :
    isAscii (command ++ TERMINATOR) = isAscii command := by
  rw [isAscii_append]
  exact Bool.and_true _

/-- What the calls of pyserial come to, one after the other. -/
theorem converse_run (ser : Handle) (o : TxnScript) (command : Str) (expects : Bool)
    (timeout : Rat) :
    (SerialTransport.converse ser command expects timeout).run (worker (some ser) o) []
      = match o.resetInputBuffer, encodeAscii (command ++ TERMINATOR), o.write, o.flush with
        | .error e, _, _, _ => (.error e.toExc, [])
        | .ok _, none, _, _ => (.error .unicodeEncodeError, [])
        | .ok _, some data, .error e, _ => (.error (.portError e), [data])
        | .ok _, some data, .ok _, .error e => (.error e.toExc, [data])
        | .ok _, some data, .ok _, .ok _ =>
            (if expects then (o.readline.mapError .portError).map some else .ok none, [data]) := by
  unfold SerialTransport.converse
  obtain ⟨reset, write, flush, readline⟩ := o
  generalize encodeAscii (command ++ TERMINATOR) = line
  rcases reset with e | _
  · rfl
  · rcases line with _ | data
    · rfl
    · rcases write with e | _
      · rfl
      · rcases flush with e | _
        · rfl
        · cases expects with
          | true => rcases readline with e | raw <;> rfl
          | false => rfl

/-- What `_transact_blocking` makes of the conversation. -/
theorem transactBlocking_run (ser : Handle) (o : TxnScript) (command : Str)
    (expects : Bool) (timeout : Rat) :
    (T.transactBlocking command expects timeout).run (worker (some ser) o) []
      = match (SerialTransport.converse ser command expects timeout).run
          (worker (some ser) o) [] with
        | (.error (.portError e), w) => (.error (.transportError (.serialError T.port e)), w)
        | (.error e, w) => (.error e, w)
        | (.ok none, w) => (.ok none, w)
        | (.ok (some []), w) => (.error (.transportError (.noResponse command timeout)), w)
        | (.ok (some raw), w) => (.ok (some (strip (decodeAscii raw))), w) := by
  show (Coro.andThen _ _).run _ _ = _
  rw [Coro.run_andThen]
  show (Coro.run (worker (some ser) o) (Coro.tryExcept _ _ >>= _) []) = _
  rw [Coro.run_bind, Coro.run_tryExcept]
  rcases (SerialTransport.converse ser command expects timeout).run (worker (some ser) o) []
    with ⟨e | (_ | (_ | ⟨b, raw⟩)), w⟩
  · cases e <;> rfl
  · rfl
  · rfl
  · rfl

/-- **One transaction**: its outcome is one the script explains, and it hands nothing
    to `ser.write` but the command's line, once. -/
theorem transactBlocking_spec (ser : Handle) (o : TxnScript) (command : Str)
    (expects : Bool) (timeout : Rat) :
    let x := (T.transactBlocking command expects timeout).run (worker (some ser) o) []
    o.Explains command expects x.1 ∧ (x.2 = [] ∨ x.2 = frame command) := by
  intro x
  have hx : x = _ := transactBlocking_run T ser o command expects timeout
  rw [converse_run] at hx
  clear_value x
  have hasc : (encodeAscii (command ++ TERMINATOR)).isSome = isAscii command := by
    rw [encodeAscii_isSome, isAscii_terminated]
  unfold frame
  obtain ⟨reset, write, flush, readline⟩ := o
  rcases hline : encodeAscii (command ++ TERMINATOR) with _ | data
  · -- the encoding raises, but only after `reset_input_buffer` has returned
    have hna : isAscii command = false := by rw [← hasc, hline]; rfl
    rw [hline] at hx
    rcases reset with (e | e) | _
    · subst hx
      exact ⟨.inl ⟨e, rfl⟩, .inl rfl⟩
    · subst hx
      exact ⟨.inl ⟨e, rfl⟩, .inl rfl⟩
    · subst hx
      exact ⟨.inr ⟨rfl, .inl hna⟩, .inl rfl⟩
  · have ha : isAscii command = true := by rw [← hasc, hline]; rfl
    rw [hline] at hx
    rcases reset with (e | e) | _
    · subst hx
      exact ⟨.inl ⟨e, rfl⟩, .inl rfl⟩
    · subst hx
      exact ⟨.inl ⟨e, rfl⟩, .inl rfl⟩
    rcases write with e | _
    · subst hx
      exact ⟨.inr ⟨rfl, ha, .inl ⟨e, rfl⟩⟩, .inr rfl⟩
    rcases flush with (e | e) | _
    · subst hx
      exact ⟨.inr ⟨rfl, ha, .inr ⟨rfl, .inl ⟨e, rfl⟩⟩⟩, .inr rfl⟩
    · subst hx
      exact ⟨.inr ⟨rfl, .inr ⟨rfl, e, rfl⟩⟩, .inr rfl⟩
    -- only a query reads; an empty read is the timeout
    cases expects with
    | false =>
        subst hx
        exact ⟨⟨rfl, ha, rfl, rfl, .inl ⟨rfl, rfl⟩⟩, .inr rfl⟩
    | true =>
        rcases readline with e | (_ | ⟨b, raw⟩)
        · subst hx
          exact ⟨.inr ⟨rfl, ha, .inr ⟨rfl, .inr ⟨rfl, rfl, .inl ⟨e, rfl⟩⟩⟩⟩, .inr rfl⟩
        · subst hx
          exact ⟨.inr ⟨rfl, ha, .inr ⟨rfl, .inr ⟨rfl, rfl, .inr rfl⟩⟩⟩, .inr rfl⟩
        · subst hx
          exact ⟨⟨rfl, ha, rfl, rfl, .inr ⟨rfl, _, rfl, List.cons_ne_nil _ _, rfl⟩⟩, .inr rfl⟩

/-! The three kinds of outcome exclude each other. -/

/-- What escapes is no failure of the transport. -/
theorem TxnScript.Escapes.not_fails {o : TxnScript} {command : Str} {expects : Bool}
    (h : o.Escapes command) : ¬ o.Fails command expects := by
  rintro (⟨e, he⟩ | ⟨he, ha, hw⟩)
  · obtain ⟨t, ht⟩ | ⟨ht, -⟩ := h <;> rw [he] at ht <;> exact nomatch ht
  · obtain ⟨t, ht⟩ | ⟨-, hna | ⟨hwok, t, ht⟩⟩ := h
    · rw [he] at ht
      exact nomatch ht
    · rw [ha] at hna
      exact nomatch hna
    · obtain ⟨e, hwe⟩ | ⟨-, ⟨e, hf⟩ | ⟨hf, -⟩⟩ := hw
      · rw [hwok] at hwe
        exact nomatch hwe
      · rw [ht] at hf
        exact nomatch hf
      · rw [ht] at hf
        exact nomatch hf

/-- A transaction that returns raises nothing that escapes. -/
theorem TxnScript.Returns.not_escapes {o : TxnScript} {command : Str} {expects : Bool}
    {r : Option Str} (h : o.Returns command expects r) : ¬ o.Escapes command := by
  obtain ⟨hreset, ha, hw, hf, -⟩ := h
  rintro (⟨t, ht⟩ | ⟨-, hna | ⟨-, t, ht⟩⟩)
  · rw [hreset] at ht
    exact nomatch ht
  · rw [ha] at hna
    exact nomatch hna
  · rw [hf] at ht
    exact nomatch ht

/-- A transaction that returns does not fail. -/
theorem TxnScript.Returns.not_fails {o : TxnScript} {command : Str} {expects : Bool}
    {r : Option Str} (h : o.Returns command expects r) : ¬ o.Fails command expects := by
  obtain ⟨hreset, ha, hw, hf, hr⟩ := h
  rintro (⟨e, he⟩ | ⟨-, -, ⟨e, he⟩ | ⟨-, ⟨e, he⟩ | ⟨-, hexp, hl⟩⟩⟩)
  · rw [hreset] at he
    exact nomatch he
  · rw [hw] at he
    exact nomatch he
  · rw [hf] at he
    exact nomatch he
  · obtain ⟨hno, -⟩ | ⟨-, raw, hraw, hne, -⟩ := hr
    · rw [hexp] at hno
      exact nomatch hno
    · rw [hraw] at hl
      obtain ⟨e, he⟩ | he := hl
      · exact nomatch he
      · exact hne (Except.ok.inj he)

/-- A query's transaction returns a string, a write's returns `None`. -/
theorem TxnScript.Returns.isSome {o : TxnScript} {command : Str} {expects : Bool}
    {r : Option Str} (h : o.Returns command expects r) : r.isSome = expects := by
  obtain ⟨-, -, -, -, ⟨rfl, rfl⟩ | ⟨rfl, raw, -, -, rfl⟩⟩ := h <;> rfl

/-! ## The transport -/

theorem run_toThread (job : Job) (d : Desk) :
    (Serial.toThread job).run (desk T script) d = runJob T script job d := Coro.run_op _ _ _

/-- `is_open` only looks. -/
theorem run_isOpen (d : Desk) :
    SerialTransport.isOpen.run (desk T script) d = (.ok d.isOpen, d) := by
  obtain ⟨locked, serial, opened, _⟩ := d
  cases serial <;> rfl

/-- `open` has set `_serial` to what the constructor returned. -/
def Desk.reopen (d : Desk) : Desk := { d.construct with serial := some d.constructed }

theorem Desk.isOpen_reopen (d : Desk) : d.reopen.isOpen = true := Function.update_self _ _ _

/-- `open` on a transport that is not open. -/
theorem run_open {d : Desk} (hclosed : d.isOpen = false) :
    T.open_.run (desk T script) d = match script.construct d.constructed with
      | .ok _ => (.ok (), d.reopen)
      | .error e => (.error (.transportError (.failedToOpen T.port e)), { d with
          constructed := d.constructed + 1 }) := by
  rw [SerialTransport.open_, Coro.run_bind, run_isOpen, hclosed]
  show (Coro.tryExcept _ _).run _ _ = _
  have hjob : (Serial.construct T.port T.baudRate).run (desk T script) d
      = runJob T script (.construct T.port T.baudRate) d := run_toThread T script _ d
  rw [Coro.run_tryExcept, SerialTransport.construct, Coro.run_bind, hjob, runJob]
  rcases script.construct d.constructed with e | _ <;> rfl

/-- `close` looks at the port it forgets, and closes it if it is open. -/
theorem run_close_some {d : Desk} {ser : Handle} (hser : d.serial = some ser) :
    SerialTransport.close.run (desk T script) d
      = if d.opened ser then runJob T script (.close ser) { d with serial := none }
        else (.ok (), { d with serial := none }) := by
  obtain ⟨locked, serial, opened, _⟩ := d
  obtain rfl : serial = some ser := hser
  show Coro.run _ (if opened ser then Serial.closeHandle ser else pure ()) _ = _
  by_cases hopen : opened ser = true
  · rw [if_pos hopen, if_pos hopen]
    exact run_toThread T script (.close ser) _
  · rw [if_neg hopen, if_neg hopen]
    rfl

/-- `close` on an open transport: the port is forgotten, whatever `ser.close()` does. -/
theorem run_close {d : Desk} (hopen : d.isOpen = true) :
    ∃ opened, SerialTransport.close.run (desk T script) d
      = ((script.close d.closed).mapError .portError, { d with
          serial := none, opened := opened, closed := d.closed + 1 }) := by
  cases hser : d.serial with
  | none =>
      rw [Desk.isOpen, hser] at hopen
      exact nomatch hopen
  | some ser =>
      rw [Desk.isOpen, hser] at hopen
      rw [run_close_some T script hser, if_pos hopen, runJob]
      dsimp only
      rcases script.close d.closed with e | _
      · exact ⟨_, rfl⟩
      · exact ⟨_, rfl⟩

/-- `close` on a transport that is not open. -/
theorem run_close_closed {d : Desk} (hclosed : d.isOpen = false) :
    SerialTransport.close.run (desk T script) d = (.ok (), { d with serial := none }) := by
  cases hser : d.serial with
  | none =>
      obtain ⟨locked, serial, _⟩ := d
      obtain rfl : serial = none := hser
      rfl
  | some ser =>
      rw [Desk.isOpen, hser] at hclosed
      have hnot : d.opened ser = false := hclosed
      rw [run_close_some T script hser, hnot]
      rfl

/-- `_safe_close` on an open transport: what `ser.close()` raises is no `TransportError`,
    and comes through. -/
theorem run_safeClose {d : Desk} (hopen : d.isOpen = true) (timeout : Rat) :
    ∃ opened, (serialManager T timeout).safeClose.run (desk T script) d
      = ((script.close d.closed).mapError .portError, { d with
          serial := none, opened := opened, closed := d.closed + 1 }) := by
  obtain ⟨opened, hrun⟩ := run_close T script hopen
  refine ⟨opened, ?_⟩
  rw [DeviceManager.safeClose, Coro.run_tryExcept]
  rw [show (serialManager T timeout).transport.close.run (desk T script) d = _ from hrun]
  rcases script.close d.closed with e | _ <;> rfl

/-- Closing a closed transport forgets the handle, and that is all. -/
theorem run_safeClose_closed {d : Desk} (hclosed : d.isOpen = false) (timeout : Rat) :
    (serialManager T timeout).safeClose.run (desk T script) d
      = (.ok (), { d with serial := none }) := by
  rw [DeviceManager.safeClose, Coro.run_tryExcept]
  rw [show (serialManager T timeout).transport.close.run (desk T script) d = _
    from run_close_closed T script hclosed]

/-- `transact` on an open transport is one `_transact_blocking`. -/
theorem run_transact {d : Desk} (hopen : d.isOpen = true) (command : Str) (expects : Bool)
    (timeout : Rat) :
    ∃ r w, (SerialTransport.transact command expects timeout).run (desk T script) d
        = (r, d.play w) ∧
      (script.transaction d.transacted).Explains command expects r ∧
      (w = [] ∨ w = frame command) := by
  obtain ⟨locked, _ | ser, opened, constructed, transacted, closed, wire⟩ := d
  · exact nomatch hopen
  obtain ⟨hr, hw⟩ :=
    transactBlocking_spec T ser (script.transaction transacted) command expects timeout
  refine ⟨_, _, ?_, hr, hw⟩
  exact run_toThread T script (.transactBlocking command expects timeout) _

/-- `_connect`, once the constructor has returned. -/
theorem run_connect {d : Desk} (hclosed : d.isOpen = false)
    (hcon : script.construct d.constructed = .ok ()) (timeout : Rat) :
    ∃ r w, (serialManager T timeout).connect.run (desk T script) d
        = (Except.map (fun _ => ()) r, d.reopen.play w) ∧
      (script.transaction d.transacted).Explains LOCAL false r ∧ (w = [] ∨ w = frame LOCAL) := by
  obtain ⟨r, w, hrun, hexp, hw⟩ := run_transact T script d.isOpen_reopen LOCAL false timeout
  refine ⟨r, w, ?_, hexp, hw⟩
  rw [DeviceManager.connect, Coro.run_bind]
  rw [show (serialManager T timeout).transport.open_.run (desk T script) d = _
    from run_open T script hclosed, hcon]
  show Coro.run _ (_ >>= _) _ = _
  rw [Coro.run_bind]
  rw [show ((serialManager T timeout).transport.transact LOCAL false
    (serialManager T timeout).defaultTimeout).run (desk T script) d.reopen = _ from hrun]
  rcases r with e | r <;> rfl

/-- The manager's lock, for a task alone. -/
theorem run_hold {α : Type} (body : Coro Serial Exc α) {d : Desk} (hd : d.locked = false) :
    (serialLock.hold body).run (desk T script) d
      = ((body.run (desk T script) { d with locked := true }).1,
        { (body.run (desk T script) { d with locked := true }).2 with locked := false }) := by
  rw [Lock.hold, Coro.run_bind]
  have hacq : serialLock.acquire.run (desk T script) d = (.ok (), { d with locked := true }) := by
    rw [show serialLock.acquire.run (desk T script) d = desk T script .acquire d
      from Coro.run_op _ _ _]
    obtain ⟨locked, _⟩ := d
    obtain rfl : locked = false := hd
    rfl
  rw [hacq]
  show (body.tryFinally serialLock.release).run (desk T script) _ = _
  rw [Coro.run_tryFinally]
  rfl

end PortScript
