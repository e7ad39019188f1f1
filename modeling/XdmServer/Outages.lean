import XdmServer.Driver
import XdmServer.PortScript

/-! # Outages

    The adapter may be unplugged at any moment, and plugged in again.  A port that was open
    meanwhile has a dead descriptor: `reset_input_buffer`, the first call of a transaction, raises,
    and `close` returns or raises; a new `serial.Serial` is all right.

    `feed_comes_back` and `feed_stays_dark` say what that makes of the poll loop, with any other
    clients of the manager between its polls.  Nothing is cancelled, and each poll and each other
    program runs to its end. -/

namespace Outages

open PyText Coroutine Commands Device Driver PortScript

/-! ## The line -/

/-- The adapter and the meter behind it, at the time of each job that is handed to a worker. -/
structure Line where
  /-- The adapter is in when the job starts. -/
  present : Nat → Bool
  /-- It stays in until the next job starts. -/
  stays : Nat → Bool
  /-- What the calls of a transaction come to, on a descriptor that is not dead. -/
  transaction : Nat → Str → TxnScript
  /-- What `tcflush` raises on a dead one. -/
  dead : FlushError
  /-- What `serial.Serial` raises when there is no adapter. -/
  missing : PortError
  /-- What `ser.close()` comes to. -/
  closes : Nat → Except PortError Unit

/-- The lock, the transport's handle, and the adapter with the clock. -/
structure Bench where
  locked : Bool
  serial : Option Handle
  opened : Handle → Bool
  /-- The descriptors that are not dead. -/
  alive : Handle → Bool
  /-- How often `serial.Serial` has been called, whether it has returned or raised. -/
  constructed : Nat
  time : Nat

namespace Bench

/-- `SerialTransport.is_open`. -/
def isOpen (b : Bench) : Bool :=
  match b.serial with
  | some ser => b.opened ser
  | none => false

/-- The next job is due.  Every descriptor is dead if the adapter was out. -/
def tick (line : Line) (b : Bench) : Bench :=
  { b with
    time := b.time + 1
    alive := fun ser => b.alive ser && line.stays b.time }

/-- `serial.Serial(...)`: it fails while the adapter is away. -/
def construct (line : Line) (b : Bench) : Except Exc Handle × Bench :=
  if line.present b.time then
    (.ok b.constructed, { b with
      opened := Function.update b.opened b.constructed true
      alive := Function.update b.alive b.constructed true
      constructed := b.constructed + 1 }.tick line)
  else (.error (.portError line.missing), { b with constructed := b.constructed + 1 }.tick line)

/-- The calls of a transaction. -/
def script (line : Line) (b : Bench) (command : Str) : TxnScript :=
  match b.serial with
  | some ser =>
      if b.alive ser then line.transaction b.time command
      -- the other calls are not made
      else ⟨.error line.dead, .ok (), .ok (), .ok []⟩
  | none => line.transaction b.time command

end Bench

variable {V : Type} (T : SerialTransport) (timeout : Rat) (line : Line)

/-- A job that is handed to a worker. -/
def runJob : (job : Job) → Bench → Except Exc job.Res × Bench
  | .construct _ _, b => b.construct line
  | .transactBlocking command expectResponse timeout, b =>
      (((T.transactBlocking command expectResponse timeout).run
        (worker b.serial (b.script line command)) []).1, b.tick line)
  | .close ser, b =>
      match line.closes b.time with
      | .ok () => (.ok (), { b.tick line with opened := Function.update b.opened ser false })
      | .error e => (.error (.portError e), b.tick line)

/-- The event loop's calls, for a task that runs alone. -/
def bench : Coro.Handler Serial Exc Bench
  | .acquire, b =>
      if b.locked then (.error .runtimeError, b) else (.ok (), { b with locked := true })
  | .release, b => (.ok (), { b with locked := false })
  | .getSerial, b => (.ok b.serial, b)
  | .setSerial ser, b => (.ok (), { b with serial := ser })
  | .handleIsOpen ser, b => (.ok (b.opened ser), b)
  | .toThread job, b => runJob T line job b

/-- The manager's calls. -/
def calls : Coro.Handler Calls Exc Bench := fun c b =>
  ((serialManager T timeout).perform c).run (bench T line) b

/-! ## The poll loop -/

/-- The bench, and what has been published. -/
structure State (V : Type) where
  bench : Bench
  published : List (Reading V)

/-- The bench within the state. -/
def benchOf : Coro.Lens (State V) Bench where
  get := State.bench
  put b s := { s with bench := b }
  get_put _ _ := rfl
  put_get _ := rfl
  put_put _ _ _ := rfl

variable (clock : Nat → Rat)

/-- The operations of `poll_once` besides the driver's. -/
def hub : Coro.Handler (Hub V) Exc (State V)
  | .time, s => (.ok (clock s.bench.time), s)
  | .publish reading, s => (.ok (), { s with published := s.published ++ [reading] })
  -- the loop knows of no database
  | .insertReading _, s => (.ok (), s)
  | .aggregate _ _, s => (.ok .empty, s)

/-- The server's operations over the bench. -/
def server : Coro.Handler (Server V) Exc (State V)
  | .inl c, s => benchOf.handler (calls T timeout line) c s
  | .inr op, s => hub clock op s

/-- What the manager is asked for, one after the other. -/
inductive Step where
  | poll
  /-- Another client's program. -/
  | other (program : Coro Calls Exc Unit)

/-- It is an iteration of the polling loop. -/
def Step.isPoll : Step → Bool
  | .poll => true
  | .other _ => false

variable (float : Str → Option V)

/-- `_loop` goes on whatever `poll_once` raises, and so do the other clients. -/
def step (s : State V) : Step → State V
  | .poll => ((pollOnce float).run (server T timeout line clock) s).2
  | .other program => { s with bench := (program.run (calls T timeout line) s.bench).2 }

/-- Steps, one after the other. -/
def runAll (s : State V) (steps : List Step) : State V :=
  steps.foldl (step T timeout line clock float) s

/-! ## One transaction -/

/-- The port is open, and dead. -/
def Dead (b : Bench) : Prop :=
  ∃ ser, b.serial = some ser ∧ b.opened ser = true ∧ b.alive ser = false

theorem run_isOpen (b : Bench) :
    SerialTransport.isOpen.run (bench T line) b = (.ok b.isOpen, b) := by
  obtain ⟨locked, serial, opened, _⟩ := b
  cases serial <;> rfl

theorem run_transact {b : Bench} {ser : Handle} (hser : b.serial = some ser) (command : Str)
    (expects : Bool) (limit : Rat) :
    (SerialTransport.transact command expects limit).run (bench T line) b
      = (((T.transactBlocking command expects limit).run
          (worker (some ser) (b.script line command)) []).1, b.tick line) := by
  obtain ⟨locked, serial, _⟩ := b
  obtain rfl : serial = some ser := hser
  exact Coro.run_op (bench T line) _ _

/-- `close` forgets the port, also where `ser.close()` raises. -/
theorem run_close (b : Bench) : ∃ r b', SerialTransport.close.run (bench T line) b = (r, b') ∧
    b'.serial = none ∧ b'.locked = b.locked ∧ b.time ≤ b'.time := by
  obtain ⟨locked, serial, opened, alive, constructed, time⟩ := b
  cases serial with
  | none => exact ⟨_, _, rfl, rfl, rfl, Nat.le_refl _⟩
  | some ser =>
      let b : Bench := ⟨locked, none, opened, alive, constructed, time⟩
      have hrun : SerialTransport.close.run (bench T line)
          ⟨locked, some ser, opened, alive, constructed, time⟩
          = (if opened ser then Serial.closeHandle ser else pure ()).run (bench T line) b := rfl
      rw [hrun]
      cases opened ser with
      | false => exact ⟨_, _, rfl, rfl, rfl, Nat.le_refl _⟩
      | true =>
          have hjob : (Serial.closeHandle ser).run (bench T line) b
              = runJob T line (.close ser) b := Coro.run_op _ _ _
          rw [if_pos rfl, hjob]
          cases hcloses : line.closes b.time with
          | ok u =>
              refine ⟨.ok (), { b.tick line with opened := Function.update b.opened ser false },
                ?_, rfl, rfl, Nat.le_succ _⟩
              simp only [runJob, hcloses]
              rfl
          | error e =>
              refine ⟨.error (.portError e), b.tick line, ?_, rfl, rfl, Nat.le_succ _⟩
              simp only [runJob, hcloses]
              rfl

/-- What the `except` clause of `_transact` does. -/
theorem run_cleanup {α : Type} (b : Bench) (e : DeviceError) :
    ∃ e' b', (do
      (serialManager T timeout).safeClose
      .raise (.deviceError e) : Coro Serial Exc α).run (bench T line) b = (.error e', b') ∧
      b'.serial = none ∧ b'.locked = b.locked ∧ b.time ≤ b'.time := by
  obtain ⟨r, b', hrun, hclosed⟩ := run_close T line b
  rw [Coro.run_bind, DeviceManager.safeClose, Coro.run_tryExcept]
  rw [show (serialManager T timeout).transport.close.run (bench T line) b = _ from hrun]
  cases r with
  | ok u => exact ⟨.deviceError e, b', rfl, hclosed⟩
  | error exc =>
      cases exc with
      | transportError exc => exact ⟨.deviceError e, b', rfl, hclosed⟩
      | _ => exact ⟨_, b', rfl, hclosed⟩

/-- **A dead port**: what `tcflush` raises decides. -/
theorem run_transact_dead {b : Bench} (hdead : Dead b) (command : Str) (expects : Bool)
    (limit : Rat) :
    (SerialTransport.transact command expects limit).run (bench T line) b
      = (.error (match line.dead with
          | .portError e => .transportError (.serialError T.port e)
          | .termiosError text => .termiosError text), b.tick line) := by
  obtain ⟨ser, hser, -, halive⟩ := hdead
  have hscript : b.script line command = ⟨.error line.dead, .ok (), .ok (), .ok []⟩ := by
    simp only [Bench.script, hser, halive, Bool.false_eq_true, if_false]
  rw [run_transact T line hser, hscript, transactBlocking_run, converse_run]
  cases line.dead <;> rfl

/-- What a script promises, a transaction does. -/
theorem run_of_returns {ser : Handle} {o : TxnScript} {command : Str} {expects : Bool}
    {r : Option Str} (h : o.Returns command expects r) (limit : Rat) :
    ((T.transactBlocking command expects limit).run (worker (some ser) o) []).1 = .ok r := by
  have hexplains := (transactBlocking_spec T ser o command expects limit).1
  cases hx : ((T.transactBlocking command expects limit).run (worker (some ser) o) []).1 with
  | ok r' =>
      rw [hx] at hexplains
      obtain ⟨-, -, -, -, hr⟩ := h
      obtain ⟨-, -, -, -, hr'⟩ := hexplains
      rcases hr with ⟨rfl, rfl⟩ | ⟨rfl, raw, hraw, -, rfl⟩
      · rcases hr' with ⟨-, rfl⟩ | ⟨htrue, -⟩
        · rfl
        · cases htrue
      · rcases hr' with ⟨hfalse, -⟩ | ⟨-, raw', hraw', -, rfl⟩
        · cases hfalse
        · rw [hraw] at hraw'
          obtain rfl := Except.ok.inj hraw'
          rfl
  | error e =>
      rw [hx] at hexplains
      cases e with
      | transportError e => exact absurd hexplains h.not_fails
      | termiosError text => exact absurd hexplains h.not_escapes
      | unicodeEncodeError => exact absurd hexplains h.not_escapes
      | _ => exact hexplains.elim

/-! ## A line that is in order -/

variable {line}

/-- From `start` on the adapter is in, and every call of pyserial returns. -/
structure Works (line : Line) (start : Nat) : Prop where
  present : ∀ t, start ≤ t → line.present t = true
  stays : ∀ t, start ≤ t → line.stays t = true
  reset : ∀ t command, start ≤ t → (line.transaction t command).resetInputBuffer = .ok ()
  write : ∀ t command, start ≤ t → (line.transaction t command).write = .ok ()
  flush : ∀ t command, start ≤ t → (line.transaction t command).flush = .ok ()

/-- The port that is open, if there is one, is alive. -/
structure Fine (start : Nat) (b : Bench) : Prop where
  later : start ≤ b.time
  free : b.locked = false
  alive : ∀ ser, b.serial = some ser → b.opened ser = true → b.alive ser = true

/-- A closed port is fine. -/
theorem fine_of_none {start : Nat} {b : Bench} (hlater : start ≤ b.time)
    (hfree : b.locked = false) (hnone : b.serial = none) : Fine start b := by
  refine ⟨hlater, hfree, fun ser hser => ?_⟩
  rw [hnone] at hser
  cases hser

theorem Works.tick {start : Nat} (h : Works line start) {b : Bench} (hlater : start ≤ b.time) :
    b.tick line = { b with time := b.time + 1 } := by
  simp only [Bench.tick, h.stays b.time hlater, Bool.and_true]

/-- A port that is not dead is fine. -/
theorem fine_of_not_dead {b : Bench} (hfree : b.locked = false) (hdead : ¬ Dead b) :
    Fine b.time b := by
  refine ⟨Nat.le_refl _, hfree, fun ser hser hopened => ?_⟩
  by_contra halive
  exact hdead ⟨ser, hser, hopened, Bool.eq_false_iff.mpr halive⟩

/-- **The attempt**, on a port that is open and alive: whatever comes of it, no dead port is
    left. -/
theorem attempt_fine {start : Nat} (h : Works line start) {b : Bench} {ser : Handle}
    (hlater : start ≤ b.time) (hser : b.serial = some ser) (halive : b.alive ser = true)
    (command : Str) (expects : Bool) (limit : Rat) :
    ∃ r b', ((serialManager T timeout).attempt command expects limit).run (bench T line) b
        = (r, b') ∧ start ≤ b'.time ∧ b'.locked = b.locked ∧
      (∀ ser', b'.serial = some ser' → b'.alive ser' = true) ∧
      ∀ a, (line.transaction b.time command).Returns command expects a → r = .ok a := by
  have htick := h.tick hlater
  have hscript : b.script line command = line.transaction b.time command := by
    simp only [Bench.script, hser, halive, if_true]
  have hrun := run_transact T line hser command expects limit
  rw [hscript, htick] at hrun
  have hall : ((serialManager T timeout).attempt command expects limit).run (bench T line) b
      = _ := Coro.run_tryExcept (bench T line) _ _ b
  rw [show ((serialManager T timeout).transport.transact command expects limit).run
    (bench T line) b = _ from hrun] at hall
  have hkeeps : ∀ ser', b.serial = some ser' → b.alive ser' = true := by
    intro ser' hser'
    obtain rfl := Option.some.inj (hser.symm.trans hser')
    exact halive
  have hreturns : ∀ a, (line.transaction b.time command).Returns command expects a →
      ((T.transactBlocking command expects limit).run
        (worker (some ser) (line.transaction b.time command)) []).1 = .ok a :=
    fun a ha => run_of_returns T ha limit
  cases hx : ((T.transactBlocking command expects limit).run
      (worker (some ser) (line.transaction b.time command)) []).1 with
  | ok a =>
      rw [hx] at hall hreturns
      refine ⟨.ok a, { b with time := b.time + 1 }, hall, Nat.le_succ_of_le hlater, rfl,
        hkeeps, hreturns⟩
  | error e =>
      rw [hx] at hall hreturns
      have hnot : ∀ a, ¬ (line.transaction b.time command).Returns command expects a :=
        fun a ha => by cases hreturns a ha
      cases e with
      | transportError exc =>
          obtain ⟨_, b', hclean, hnone, hlocked, hle⟩ := run_cleanup (α := Option Str) T timeout
            line { b with time := b.time + 1 } (.transactionFailed command exc)
          refine ⟨_, b', hall.trans hclean, hlater.trans ((Nat.le_succ _).trans hle), hlocked,
            fun ser' hser' => ?_, fun a ha => absurd ha (hnot a)⟩
          rw [hnone] at hser'
          cases hser'
      | _ =>
          exact ⟨_, _, hall, Nat.le_succ_of_le hlater, rfl, hkeeps,
            fun a ha => absurd ha (hnot a)⟩

/-- A command of a line in order that expects nothing. -/
theorem Works.returns {start : Nat} (h : Works line start) {t : Nat} (hlater : start ≤ t)
    {command : Str} (hascii : isAscii command = true) :
    (line.transaction t command).Returns command false none :=
  ⟨h.reset t command hlater, hascii, h.write t command hlater, h.flush t command hlater,
    .inl ⟨rfl, rfl⟩⟩

/-- **Reconnecting** on a line in order. -/
theorem reconnect_works {start : Nat} (h : Works line start) {b : Bench}
    (hlater : start ≤ b.time) (hclosed : b.isOpen = false) :
    ∃ b', (serialManager T timeout).reconnect.run (bench T line) b = (.ok (), b') ∧
      start ≤ b'.time ∧ b'.locked = b.locked ∧
      ∃ ser, b'.serial = some ser ∧ b'.alive ser = true := by
  -- the port that the constructor returns
  let b₁ : Bench := { b with
    time := b.time + 1
    serial := some b.constructed
    opened := Function.update b.opened b.constructed true
    alive := Function.update b.alive b.constructed true
    constructed := b.constructed + 1 }
  have hlater₁ : start ≤ b₁.time := Nat.le_succ_of_le hlater
  have hconstruct : b.construct line = (.ok b.constructed, { b₁ with serial := b.serial }) := by
    rw [Bench.construct, if_pos (h.present b.time hlater)]
    exact congrArg (Prod.mk _) (h.tick (b := { b with
      opened := Function.update b.opened b.constructed true
      alive := Function.update b.alive b.constructed true
      constructed := b.constructed + 1 }) hlater)
  have hopen : T.open_.run (bench T line) b = (.ok (), b₁) := by
    have hjob : (Serial.construct T.port T.baudRate).run (bench T line) b = b.construct line :=
      Coro.run_op _ _ _
    rw [SerialTransport.open_, Coro.run_bind, run_isOpen T line b, hclosed]
    show (Coro.tryExcept _ _).run _ _ = _
    rw [Coro.run_tryExcept, SerialTransport.construct, Coro.run_bind, hjob, hconstruct]
    rfl
  have hgreeting := run_transact T line (b := b₁) rfl LOCAL false timeout
  have halive : b₁.alive b.constructed = true := Function.update_self ..
  have hscript : b₁.script line LOCAL = line.transaction b₁.time LOCAL := by
    show (if b₁.alive b.constructed then _ else _) = _
    exact if_pos halive
  rw [hscript, run_of_returns T (h.returns hlater₁ (by decide)), h.tick hlater₁] at hgreeting
  refine ⟨{ b₁ with time := b₁.time + 1 }, ?_, Nat.le_succ_of_le hlater₁, rfl, b.constructed,
    rfl, halive⟩
  rw [DeviceManager.reconnect, Coro.run_tryExcept, DeviceManager.connect, Coro.run_bind]
  rw [show (serialManager T timeout).transport.open_.run (bench T line) b = _ from hopen]
  dsimp only
  rw [Coro.run_bind]
  rw [show ((serialManager T timeout).transport.transact LOCAL false
    (serialManager T timeout).defaultTimeout).run (bench T line) b₁ = _ from hgreeting]
  rfl

/-- **Under the lock**, on a line in order, with a port that is closed or alive. -/
theorem exchange_fine {start : Nat} (h : Works line start) {b : Bench} (hlater : start ≤ b.time)
    (halive : ∀ ser, b.serial = some ser → b.opened ser = true → b.alive ser = true)
    (command : Str) (expects : Bool) (limit : Rat) :
    ∃ r b', ((serialManager T timeout).exchange command expects limit).run (bench T line) b
        = (r, b') ∧ start ≤ b'.time ∧ b'.locked = b.locked ∧
      (∀ ser, b'.serial = some ser → b'.alive ser = true) ∧
      ∃ t, start ≤ t ∧ ∀ a, (line.transaction t command).Returns command expects a →
        r = .ok a := by
  have hopened : ∃ b₁, (serialManager T timeout).ensureOpen.run (bench T line) b = (.ok (), b₁) ∧
      start ≤ b₁.time ∧ b₁.locked = b.locked ∧
      ∃ ser, b₁.serial = some ser ∧ b₁.alive ser = true := by
    rw [DeviceManager.ensureOpen, Coro.run_bind]
    rw [show (serialManager T timeout).transport.isOpen.run (bench T line) b = _
      from run_isOpen T line b]
    cases hopen : b.isOpen with
    | true =>
        cases hser : b.serial with
        | none => simp [Bench.isOpen, hser] at hopen
        | some ser =>
            rw [Bench.isOpen, hser] at hopen
            exact ⟨b, rfl, hlater, rfl, ser, hser, halive ser hser hopen⟩
    | false => exact reconnect_works T timeout h hlater hopen
  obtain ⟨b₁, hrun₁, hlater₁, hlocked₁, ser, hser₁, halive₁⟩ := hopened
  obtain ⟨r, b₂, hrun₂, hlater₂, hlocked₂, halive₂, hreturns⟩ :=
    attempt_fine T timeout h hlater₁ hser₁ halive₁ command expects limit
  refine ⟨r, b₂, ?_, hlater₂, hlocked₂.trans hlocked₁, halive₂, b₁.time, hlater₁, hreturns⟩
  rw [DeviceManager.exchange, Coro.run_bind, hrun₁]
  exact hrun₂

variable (line) in
/-- **Under the lock**, with a dead port. -/
theorem exchange_dead {b : Bench} (hdead : Dead b) (command : Str) (expects : Bool)
    (limit : Rat) :
    let x := ((serialManager T timeout).exchange command expects limit).run (bench T line) b
    (∀ e, line.dead = .portError e → (∃ e', x.1 = .error e') ∧
      x.2.serial = none ∧ x.2.locked = b.locked ∧ b.time ≤ x.2.time) ∧
    ∀ text, line.dead = .termiosError text →
      x = (.error (.termiosError text), b.tick line) := by
  intro x
  obtain ⟨ser, hser, hopened, -⟩ := id hdead
  have hopen : b.isOpen = true := by
    rw [Bench.isOpen, hser]
    exact hopened
  have hx : x = ((serialManager T timeout).attempt command expects limit).run (bench T line) b
      := by
    show ((serialManager T timeout).exchange command expects limit).run (bench T line) b = _
    rw [DeviceManager.exchange, Coro.run_bind, DeviceManager.ensureOpen, Coro.run_bind]
    rw [show (serialManager T timeout).transport.isOpen.run (bench T line) b = _
      from run_isOpen T line b, hopen]
    rfl
  have hattempt : x = _ := hx.trans (Coro.run_tryExcept (bench T line) _ _ b)
  rw [show ((serialManager T timeout).transport.transact command expects limit).run
    (bench T line) b = _ from run_transact_dead T line hdead command expects limit] at hattempt
  clear_value x
  constructor
  · intro e he
    rw [he] at hattempt
    obtain ⟨_, b', hclean, hnone, hlocked, hle⟩ := run_cleanup (α := Option Str) T timeout line
      (b.tick line) (.transactionFailed command (.serialError T.port e))
    rw [show x = _ from hattempt.trans hclean]
    exact ⟨⟨_, rfl⟩, hnone, hlocked, (Nat.le_succ _).trans hle⟩
  · intro text htext
    rw [htext] at hattempt
    exact hattempt

/-! ## One call -/

variable (line) in
/-- A call is an exchange under the lock. -/
theorem run_calls (c : Call) {b : Bench} (hfree : b.locked = false) :
    let x := ((serialManager T timeout).exchange c.command c.expects
      (c.timeout.getD timeout)).run (bench T line) { b with locked := true }
    calls T timeout line c b = (x.1.bind c.value, { x.2 with locked := false }) := by
  intro x
  have hacquire : serialLock.acquire.run (bench T line) b
      = (.ok (), { b with locked := true }) := by
    rw [show serialLock.acquire.run (bench T line) b = bench T line .acquire b
      from Coro.run_op _ _ _]
    obtain ⟨locked, _⟩ := b
    obtain rfl : locked = false := hfree
    rfl
  have htransact : ((serialManager T timeout).transact c.command c.expects c.timeout).run
      (bench T line) b = (x.1, { x.2 with locked := false }) := by
    show (serialLock.hold _).run (bench T line) b = _
    rw [Lock.hold, Coro.run_bind, hacquire]
    show (Coro.tryFinally _ serialLock.release).run (bench T line) _ = _
    rw [Coro.run_tryFinally]
    rfl
  rw [calls, DeviceManager.perform_eq, Coro.run_andThen, htransact]
  rcases x.1 with e | r
  · rfl
  · show (Coro.ofExcept (c.value r)).run _ _ = _
    rw [Coro.run_ofExcept]
    rfl

/-- **A call on a line in order** leaves no dead port; and what the meter says to a query, the
    query returns. -/
theorem call_fine {start : Nat} (h : Works line start) {b : Bench} (hb : Fine start b)
    (c : Call) :
    ∃ r b', calls T timeout line c b = (r, b') ∧ Fine start b' ∧ ∃ t, start ≤ t ∧
      ∀ a, (line.transaction t c.command).Returns c.command c.expects a → r = c.value a := by
  obtain ⟨r, b', hrun, hlater, -, halive, t, ht, hreturns⟩ := exchange_fine T timeout h
    (b := { b with locked := true }) hb.later hb.alive c.command c.expects (c.timeout.getD timeout)
  have hcalls := run_calls T timeout line c hb.free
  rw [hrun] at hcalls
  refine ⟨_, _, hcalls, ⟨hlater, rfl, fun ser hser _ => halive ser hser⟩, t, ht, ?_⟩
  intro a ha
  rw [hreturns a ha]
  rfl

/-- **A call on a dead port** that raises what the `except` clause names: the port is closed. -/
theorem call_dropped {b : Bench} (hfree : b.locked = false) (hdead : Dead b)
    {e : PortError} (he : line.dead = .portError e) (c : Call) :
    ∃ e' b', calls T timeout line c b = (.error e', b') ∧ b'.serial = none ∧
      b'.locked = false ∧ b.time ≤ b'.time := by
  obtain ⟨hraises, -⟩ := exchange_dead T timeout line
    (b := { b with locked := true }) hdead c.command c.expects (c.timeout.getD timeout)
  obtain ⟨⟨e', herror⟩, hnone, -, hle⟩ := hraises e he
  have hcalls := run_calls T timeout line c hfree
  dsimp only at hcalls
  rw [herror] at hcalls
  exact ⟨e', _, hcalls, hnone, rfl, hle⟩

/-- **A call on a dead port** that raises a `termios.error`: nothing changes. -/
theorem call_stuck {b : Bench} (hfree : b.locked = false) (hdead : Dead b) {text : Str}
    (htext : line.dead = .termiosError text) (c : Call) :
    calls T timeout line c b = (.error (.termiosError text), b.tick line) := by
  obtain ⟨-, hraises⟩ := exchange_dead T timeout line
    (b := { b with locked := true }) hdead c.command c.expects (c.timeout.getD timeout)
  have hcalls := run_calls T timeout line c hfree
  rw [hraises text htext] at hcalls
  rw [hcalls]
  obtain ⟨locked, _⟩ := b
  obtain rfl : locked = false := hfree
  rfl

/-! ## The loop -/

variable (clock : Nat → Rat) {float : Str → Option V}

/-- From `start` on the meter also answers `poll_once`. -/
structure Answers (line : Line) (float : Str → Option V) (start : Nat) : Prop where
  works : Works line start
  function : ∀ t, start ≤ t → ∃ raw,
    (line.transaction t FUNCTION).Returns FUNCTION true (some raw) ∧
    (Function.fromDevice raw).isSome = true
  measure : ∀ t, start ≤ t → ∃ raw,
    (line.transaction t MEASURE).Returns MEASURE true (some raw) ∧ (float raw).isSome = true

/-- **A query that the meter answers.** -/
theorem query_fine {start : Nat} (h : Works line start) {command : Str} {good : Str → Prop}
    (hanswers : ∀ t, start ≤ t → ∃ raw,
      (line.transaction t command).Returns command true (some raw) ∧ good raw)
    {b : Bench} (hb : Fine start b) :
    (query command).Yields (calls T timeout line) b fun raw b' => good raw ∧ Fine start b' := by
  obtain ⟨r, b', hcall, hfine, t, ht, hreturns⟩ := call_fine T timeout h hb
    (.query command none)
  obtain ⟨raw, hraw, hgood⟩ := hanswers t ht
  obtain rfl := hreturns (some raw) hraw
  exact Coro.yields_op hcall ⟨hgood, hfine⟩

/-- **A poll on a line in order**, with a port that is closed or alive, publishes. -/
theorem poll_fine {start : Nat} (h : Answers line float start) {s : State V}
    (hs : Fine start s.bench) :
    (pollOnce float).Yields (server T timeout line clock) s fun reading s' =>
      s'.published = s.published ++ [reading] ∧ Fine start s'.bench := by
  have hfunction : getFunction.Yields (calls T timeout line) s.bench
      fun _ b => Fine start b := by
    refine (query_fine T timeout h.works h.function hs).bind fun raw b hraw => ?_
    obtain ⟨f, hf⟩ := Option.isSome_iff_exists.mp hraw.1
    rw [hf]
    exact Coro.yields_pure hraw.2
  have hmeasures : (readMeasurement float).Yields (calls T timeout line) s.bench
      fun _ b => Fine start b := by
    refine hfunction.bind fun f b hb => ?_
    refine (query_fine T timeout h.works h.measure hb).bind fun raw b hraw => ?_
    obtain ⟨v, hv⟩ := Option.isSome_iff_exists.mp hraw.1
    rw [hv]
    exact Coro.yields_pure hraw.2
  have hserver : ((readMeasurement float).inl : Coro (Server V) Exc _).Yields
      (server T timeout line clock) s fun _ s' =>
        s'.published = s.published ∧ Fine start s'.bench := by
    refine (Coro.Yields.inl (K := server T timeout line clock)
      (hmeasures.handler (t := s) benchOf)).mono ?_
    rintro m s' ⟨b, hb, rfl⟩
    exact ⟨rfl, hb⟩
  refine hserver.bind fun m s₁ hs₁ => ?_
  have htime : server T timeout line clock (.inr .time) s₁ = (.ok (clock s₁.bench.time), s₁) := rfl
  refine (Coro.yields_op htime (Φ := fun now s' => now = clock s₁.bench.time ∧ s' = s₁)
    ⟨rfl, rfl⟩).bind ?_
  rintro now _ ⟨rfl, rfl⟩
  refine (Coro.yields_op rfl (Φ := fun _ s' => s' = _) rfl).bind ?_
  rintro _ _ rfl
  exact Coro.yields_pure ⟨by rw [hs₁.1], hs₁.2⟩

/-- Another client's program on a line in order leaves no dead port. -/
theorem other_fine {start : Nat} (h : Works line start) (program : Coro Calls Exc Unit)
    {b : Bench} (hb : Fine start b) :
    Fine start (program.run (calls T timeout line) b).2 := by
  induction program generalizing b with
  | ret a => exact hb
  | raise e => exact hb
  | call c k ih =>
      obtain ⟨r, b', hcall, hfine, -⟩ := call_fine T timeout h hb c
      show Fine start ((k (calls T timeout line c b).1).run _ (calls T timeout line c b).2).2
      rw [hcall]
      exact ih r hfine

/-- How often the meter is polled. -/
def polls (steps : List Step) : Nat := steps.countP Step.isPoll

/-- **A run on a line in order**, with a port that is closed or alive: every poll publishes. -/
theorem run_fine {start : Nat} (h : Answers line float start) {s : State V}
    (hs : Fine start s.bench) (steps : List Step) : ∃ readings,
    (runAll T timeout line clock float s steps).published = s.published ++ readings ∧
      readings.length = polls steps := by
  induction steps generalizing s with
  | nil => exact ⟨[], (List.append_nil _).symm, rfl⟩
  | cons a steps ih =>
      cases a with
      | poll =>
          obtain ⟨reading, s', hrun, hpublished, hs'⟩ := poll_fine T timeout clock h hs
          obtain ⟨readings, hrest, hlength⟩ := ih hs'
          refine ⟨reading :: readings, ?_, ?_⟩
          · show (runAll T timeout line clock float
              ((pollOnce float).run (server T timeout line clock) s).2 steps).published = _
            rw [hrun, hrest, hpublished, List.append_assoc]
            rfl
          · rw [List.length_cons, hlength]
            exact (List.countP_cons_of_pos rfl).symm
      | other program =>
          obtain ⟨readings, hrest, hlength⟩ := ih (s := { s with
            bench := (program.run (calls T timeout line) s.bench).2 })
            (other_fine T timeout h.works program hs)
          refine ⟨readings, hrest, hlength.trans ?_⟩
          exact (List.countP_cons_of_neg (by simp [Step.isPoll])).symm

/-- A poll whose first query fails. -/
theorem poll_fails {s : State V} {e : Exc} {b : Bench}
    (hcall : calls T timeout line (.query FUNCTION none) s.bench = (.error e, b)) :
    step T timeout line clock float s .poll = { s with bench := b } := by
  have hquery : (query FUNCTION).run (calls T timeout line) s.bench = (.error e, b) :=
    (Coro.run_op (calls T timeout line) (Call.query FUNCTION none) s.bench).trans hcall
  have hmeasures : (readMeasurement float).run (calls T timeout line) s.bench
      = (.error e, b) := by
    rw [readMeasurement, Coro.run_bind, getFunction, Coro.run_bind, hquery]
  have hinl : ((readMeasurement float).inl : Coro (Server V) Exc _).run
      (server T timeout line clock) s = (.error e, { s with bench := b }) := by
    rw [Coro.run_inl]
    refine (Coro.run_handler benchOf (calls T timeout line) (readMeasurement float) s).trans ?_
    rw [show benchOf.get s = s.bench from rfl, hmeasures]
    rfl
  show ((pollOnce float).run (server T timeout line clock) s).2 = _
  rw [pollOnce, Coro.run_bind, hinl]

/-- Another client's program on a dead port makes no call, or the port is closed. -/
theorem other_dropped {start : Nat} (h : Works line start) {e : PortError}
    (he : line.dead = .portError e) (program : Coro Calls Exc Unit) {b : Bench}
    (hlater : start ≤ b.time) (hfree : b.locked = false) (hdead : Dead b) :
    (program.run (calls T timeout line) b).2 = b ∨
      Fine start (program.run (calls T timeout line) b).2 := by
  cases program with
  | ret a => exact .inl rfl
  | raise e => exact .inl rfl
  | call c k =>
      obtain ⟨e', b', hcall, hnone, hfree', hle⟩ := call_dropped T timeout hfree hdead he c
      right
      show Fine start ((k (calls T timeout line c b).1).run _ (calls T timeout line c b).2).2
      rw [hcall]
      exact other_fine T timeout h _ (fine_of_none (hlater.trans hle) hfree' hnone)

/-- After the first call on a dead port there is none. -/
theorem run_dropped {start : Nat} (h : Answers line float start) {e : PortError}
    (he : line.dead = .portError e) {s : State V} (hlater : start ≤ s.bench.time)
    (hfree : s.bench.locked = false) (hdead : Dead s.bench) (steps : List Step) :
    ∃ readings,
      (runAll T timeout line clock float s steps).published = s.published ++ readings ∧
      polls steps ≤ readings.length + 1 := by
  induction steps generalizing s with
  | nil => exact ⟨[], (List.append_nil _).symm, Nat.zero_le _⟩
  | cons a steps ih =>
      cases a with
      | poll =>
          obtain ⟨e', b, hcall, hnone, hfree', hle⟩ := call_dropped T timeout hfree hdead he
            (.query FUNCTION none)
          obtain ⟨readings, hrest, hlength⟩ := run_fine T timeout clock h
            (s := { s with bench := b }) (fine_of_none (hlater.trans hle) hfree' hnone) steps
          refine ⟨readings, ?_, ?_⟩
          · show (runAll T timeout line clock float
              (step T timeout line clock float s .poll) steps).published = _
            rw [poll_fails T timeout clock hcall]
            exact hrest
          · rw [hlength]
            exact (List.countP_cons_of_pos rfl).le
      | other program =>
          have hpolls : polls (.other program :: steps) = polls steps :=
            List.countP_cons_of_neg (by simp [Step.isPoll])
          rw [hpolls]
          rcases other_dropped T timeout h.works he program hlater hfree hdead with hsame | hfine
          · refine ih (s := { s with bench := (program.run (calls T timeout line) s.bench).2 })
              ?_ ?_ ?_ <;> rw [hsame]
            · exact hlater
            · exact hfree
            · exact hdead
          · obtain ⟨readings, hrest, hlength⟩ := run_fine T timeout clock h
              (s := { s with bench := (program.run (calls T timeout line) s.bench).2 }) hfine steps
            exact ⟨readings, hrest, hlength.ge.trans (Nat.le_succ _)⟩

/-- A port that is dead for good: no call gets beyond its `reset_input_buffer`. -/
structure Stuck (b b' : Bench) : Prop where
  free : b'.locked = false
  dead : Dead b'
  constructed : b'.constructed = b.constructed

variable (line) in
theorem stuck_tick {b : Bench} (hfree : b.locked = false) (hdead : Dead b) :
    Stuck b (b.tick line) := by
  obtain ⟨ser, hser, hopened, halive⟩ := hdead
  refine ⟨hfree, ⟨ser, hser, hopened, ?_⟩, rfl⟩
  simp [Bench.tick, halive]

theorem other_stuck {text : Str} (htext : line.dead = .termiosError text)
    (program : Coro Calls Exc Unit) {b : Bench} (hfree : b.locked = false) (hdead : Dead b) :
    Stuck b (program.run (calls T timeout line) b).2 := by
  induction program generalizing b with
  | ret a => exact ⟨hfree, hdead, rfl⟩
  | raise e => exact ⟨hfree, hdead, rfl⟩
  | call c k ih =>
      have hcall := call_stuck T timeout hfree hdead htext c
      have htick := stuck_tick line hfree hdead
      show Stuck b ((k (calls T timeout line c b).1).run _ (calls T timeout line c b).2).2
      rw [hcall]
      have hrest := ih (.error (.termiosError text)) htick.free htick.dead
      exact ⟨hrest.free, hrest.dead, hrest.constructed.trans htick.constructed⟩

theorem run_stuck {text : Str} (htext : line.dead = .termiosError text) {s : State V}
    (hfree : s.bench.locked = false) (hdead : Dead s.bench) (steps : List Step) :
    (runAll T timeout line clock float s steps).published = s.published ∧
      Stuck s.bench (runAll T timeout line clock float s steps).bench := by
  induction steps generalizing s with
  | nil => exact ⟨rfl, hfree, hdead, rfl⟩
  | cons a steps ih =>
      have hstep : (step T timeout line clock float s a).published = s.published ∧
          Stuck s.bench (step T timeout line clock float s a).bench := by
        cases a with
        | poll =>
            rw [poll_fails T timeout clock (call_stuck T timeout hfree hdead htext _)]
            exact ⟨rfl, stuck_tick line hfree hdead⟩
        | other program => exact ⟨rfl, other_stuck T timeout htext program hfree hdead⟩
      obtain ⟨hpublished, hstuck⟩ := hstep
      obtain ⟨hpublished', hstuck'⟩ := ih hstuck.free hstuck.dead
      exact ⟨hpublished'.trans hpublished, hstuck'.free, hstuck'.dead,
        hstuck'.constructed.trans hstuck.constructed⟩

/-! ## After an outage -/

/-- **THE FEED COMES BACK**: from a moment on at which the adapter is in for good and the meter
    answers, every poll publishes, whatever other clients ask between the polls, if the port that
    is open is not dead; and if it is, at most one poll does not, as long as a dead descriptor
    raises what the `except` clause of the transport names. -/
theorem feed_comes_back (s : State V) (hfree : s.bench.locked = false)
    (h : Answers line float s.bench.time)
    (hdead : Dead s.bench → ∃ e, line.dead = .portError e) (steps : List Step) : ∃ readings,
    (runAll T timeout line clock float s steps).published = s.published ++ readings ∧
      polls steps ≤ readings.length + 1 ∧
      (¬ Dead s.bench → readings.length = polls steps) := by
  by_cases hport : Dead s.bench
  · obtain ⟨e, he⟩ := hdead hport
    obtain ⟨readings, hpublished, hpolls⟩ := run_dropped T timeout clock h he (Nat.le_refl _)
      hfree hport steps
    exact ⟨readings, hpublished, hpolls, fun hnot => absurd hport hnot⟩
  · obtain ⟨readings, hpublished, hlength⟩ := run_fine T timeout clock h
      (fine_of_not_dead hfree hport) steps
    exact ⟨readings, hpublished, hlength.ge.trans (Nat.le_succ _), fun _ => hlength⟩

/-- **THE FEED STAYS DARK**: once the port that is open is dead, and a dead descriptor raises
    `termios.error`, which no `except` clause names, nothing is ever published again, whatever
    becomes of the adapter; `serial.Serial` is never called, and every call of any client
    raises. -/
theorem feed_stays_dark (s : State V) (hfree : s.bench.locked = false) (hdead : Dead s.bench)
    {text : Str} (htext : line.dead = .termiosError text) (steps : List Step) :
    let s' := runAll T timeout line clock float s steps
    s'.published = s.published ∧ s'.bench.constructed = s.bench.constructed ∧
      ∀ c, (calls T timeout line c s'.bench).1 = .error (.termiosError text) := by
  obtain ⟨hpublished, hstuck⟩ := run_stuck T timeout clock htext hfree hdead steps
  refine ⟨hpublished, hstuck.constructed, fun c => ?_⟩
  rw [call_stuck T timeout hstuck.free hstuck.dead htext c]

/-! ### An adapter that was out for a moment -/

/-- The adapter of the default configuration. -/
def port : SerialTransport := ⟨"/dev/ttyUSB0".toList, 115200⟩

/-- The adapter is in again, and the meter shows three volts. -/
def again (dead : FlushError) : Line where
  present _ := true
  stays _ := true
  transaction _ command := ⟨.ok (), .ok (), .ok (),
    .ok (if command = FUNCTION then [86, 79, 76, 84, 10] else [51, 10])⟩
  dead := dead
  missing := .osError "No such file or directory".toList
  closes _ := .error (.osError "Input/output error".toList)

/-- The port was opened before it went out. -/
def before : State Str :=
  ⟨⟨false, some 0, fun _ => true, fun _ => false, 1, 4⟩,
    [⟨1000, "VOLT".toList, "3".toList, "V".toList⟩]⟩

theorem dead_before : Dead before.bench := ⟨0, rfl, rfl, rfl⟩

theorem answers_again (dead : FlushError) : Answers (again dead) some before.bench.time := by
  refine ⟨⟨fun _ _ => rfl, fun _ _ => rfl, fun _ _ _ => rfl, fun _ _ _ => rfl, fun _ _ _ => rfl⟩,
    fun t _ => ⟨"VOLT".toList, ?_, by decide⟩, fun t _ => ⟨"3".toList, ?_, rfl⟩⟩
  · exact ⟨rfl, by decide, rfl, rfl, .inr ⟨rfl, [86, 79, 76, 84, 10],
      congrArg Except.ok (if_pos rfl), by simp, by decide⟩⟩
  · exact ⟨rfl, by decide, rfl, rfl, .inr ⟨rfl, [51, 10],
      congrArg Except.ok (if_neg (by decide)), by simp, by decide⟩⟩

theorem feed_comes_back_again : ∃ readings,
    (runAll port 2 (again (.portError (.osError "Input/output error".toList))) (fun t => t) some
      before [.poll, .poll, .poll]).published = before.published ++ readings ∧
      3 ≤ readings.length + 1 := by
  obtain ⟨readings, hpublished, hpolls, -⟩ := feed_comes_back port 2 (fun t => t) before rfl
    (answers_again (.portError (.osError "Input/output error".toList)))
    (fun _ => ⟨_, rfl⟩) [.poll, .poll, .poll]
  exact ⟨readings, hpublished, hpolls⟩

theorem feed_stays_dark_again :
    (runAll port 2 (again (.termiosError "Input/output error".toList)) (fun t => t) some before
      [.poll, .poll, .poll]).published = before.published :=
  (feed_stays_dark port 2 (fun t => t) before rfl dead_before rfl [.poll, .poll, .poll]).1

end Outages
