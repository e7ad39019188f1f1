import XdmServer.Transport

/-! # The DeviceManager

    `device/manager.py`: the arbiter of the meter connection, over any transport and
    any lock.  Each method is the coroutine its source reads as; `except
    TransportError` lets every other exception through. -/

namespace Device

open PyText Coroutine Commands

/-- The manager, over a transport and a lock that are given as programs. -/
structure DeviceManager (S : Signature) where
  transport : Transport S
  lock : Lock S
  defaultTimeout : Rat := 2

namespace DeviceManager

variable {S : Signature} (m : DeviceManager S)

/-- `_connect`: open, then put the meter in LOCAL mode. -/
def connect : Coro S Exc Unit := do
  m.transport.open_
  let _ ← m.transport.transact LOCAL false m.defaultTimeout

/-- `_safe_close`: close, whatever `TransportError` that raises. -/
def safeClose : Coro S Exc Unit :=
  m.transport.close.tryExcept fun
    | .transportError _ => pure ()
    | e => .raise e

/-- `_reconnect`. -/
def reconnect : Coro S Exc Unit :=
  m.connect.tryExcept fun
    | .transportError exc => do
        m.safeClose
        .raise (.deviceError (.reconnectFailed exc))
    | e => .raise e

/-- The `try` of `_transact`. -/
def attempt (command : Str) (expectResponse : Bool) (timeout : Rat) :
    Coro S Exc (Option Str) :=
  (m.transport.transact command expectResponse timeout).tryExcept fun
    | .transportError exc => do
        m.safeClose
        .raise (.deviceError (.transactionFailed command exc))
    | e => .raise e

/-- `if not self._transport.is_open: await self._reconnect()`. -/
def ensureOpen : Coro S Exc Unit := do
  let isOpen ← m.transport.isOpen
  if isOpen then pure () else m.reconnect

/-- What `_transact` does under the lock. -/
def exchange (command : Str) (expectResponse : Bool) (timeout : Rat) :
    Coro S Exc (Option Str) := do
  m.ensureOpen
  m.attempt command expectResponse timeout

/-- `_transact`. -/
def transact (command : Str) (expectResponse : Bool) (timeout : Option Rat) :
    Coro S Exc (Option Str) :=
  m.lock.hold (m.exchange command expectResponse (timeout.getD m.defaultTimeout))

/-- A transaction that waits for a reply. -/
def query (command : Str) (timeout : Option Rat) : Coro S Exc Str := do
  match ← m.transact command true timeout with
  | some result => pure result
  -- the `assert` that a query's transaction has yielded a string
  | none => .raise .assertionError

/-- A transaction that waits for none. -/
def write (command : Str) (timeout : Option Rat) : Coro S Exc Unit := do
  let _ ← m.transact command false timeout

/-- The connection is opened and greeted, under the lock. -/
def start : Coro S Exc Unit := m.lock.hold m.connect

/-- The transport is closed, under the lock. -/
def stop : Coro S Exc Unit := m.lock.hold m.transport.close

end DeviceManager

/-! ## Calls on the manager -/

/-- What the rest of the server asks of the manager. -/
inductive Call where
  | query (command : Str) (timeout : Option Rat)
  | write (command : Str) (timeout : Option Rat)
  deriving DecidableEq

namespace Call

/-- What a call returns. -/
def Res : Call → Type
  | .query _ _ => Str
  | .write _ _ => Unit

/-- The command of a call. -/
def command : Call → Str
  | .query command _ => command
  | .write command _ => command

/-- The timeout that a call asks for. -/
def timeout : Call → Option Rat
  | .query _ timeout => timeout
  | .write _ timeout => timeout

/-- `expect_response` of the call. -/
def expects : Call → Bool
  | .query _ _ => true
  | .write _ _ => false

/-- What a call returns once its transaction has returned `result`. -/
def value : (c : Call) → Option Str → Except Exc c.Res
  | .query _ _, some result => .ok result
  | .query _ _, none => .error .assertionError
  | .write _ _, _ => .ok ()

end Call

/-- The manager's calls as a signature: the programs above the manager run over it. -/
abbrev Calls : Signature where
  Op := Call
  Res := Call.Res

namespace DeviceManager

variable {S : Signature} (m : DeviceManager S)

/-- The coroutine behind a call. -/
def perform : (c : Call) → Coro S Exc c.Res
  | .query command timeout => m.query command timeout
  | .write command timeout => m.write command timeout

/-- A call with its answer as an `Option`: `None` is what a write returns. -/
def call : (c : Call) → Coro S Exc (Option Str)
  | .query command timeout => do return some (← m.query command timeout)
  | .write command timeout => do
      m.write command timeout
      return none

/-- **A call is one `_transact`**, and what it returned decides what the call returns. -/
theorem perform_eq (c : Call) :
    m.perform c = (m.transact c.command c.expects c.timeout).andThen fun
      | .ok result => .ofExcept (c.value result)
      | .error e => .raise e := by
  cases c with
  | query command timeout =>
      show (m.transact command true timeout).andThen _ = _
      congr 1
      funext r
      rcases r with e | (_ | result) <;> rfl
  | write command timeout =>
      show (m.transact command false timeout).andThen _ = _
      congr 1
      funext r
      rcases r with e | result <;> rfl

/-- What a call makes of the outcome of its `_transact`. -/
theorem run_call {σ : Type} (H : Coro.Handler S Exc σ) (c : Call) (s : σ) :
    (m.call c).run H s
      = match (m.transact c.command c.expects c.timeout).run H s with
        | (.ok r, s') => (if c.expects && r.isNone then .error .assertionError
            else .ok (if c.expects then r else none), s')
        | (.error e, s') => (.error e, s') := by
  cases c with
  | query command limit =>
      simp only [call, query, Coro.run_bind, Call.command, Call.expects, Call.timeout]
      rcases (m.transact command true limit).run H s with ⟨e | (_ | r), s'⟩ <;> rfl
  | write command limit =>
      simp only [call, write, Coro.run_bind, Call.command, Call.expects, Call.timeout]
      rcases (m.transact command false limit).run H s with ⟨e | r, s'⟩ <;> rfl

/-! ### What a manager does to its transport and its lock -/

/-- The operations of the transport are in `B`, as long as no command is sent but those in
    `A`; the greeting is one of these. -/
structure Confined (A : Str → Prop) (B : S.Op → Prop) : Prop where
  isOpen : m.transport.isOpen.Uses B
  open_ : m.transport.open_.Uses B
  close : m.transport.close.Uses B
  transact : ∀ {command : Str} (_ : A command) (expectResponse : Bool) (timeout : Rat),
    (m.transport.transact command expectResponse timeout).Uses B
  greeting : A LOCAL

section Confined

variable {m : DeviceManager S} {A : Str → Prop} {B : S.Op → Prop} (h : m.Confined A B)
include h

theorem Confined.safeClose : m.safeClose.Uses B :=
  h.close.tryExcept fun e => by
    cases e with
    | transportError e => exact Coro.uses_pure _
    | _ => exact Coro.uses_raise _

theorem Confined.connect : m.connect.Uses B :=
  h.open_.bind fun _ => (h.transact h.greeting _ _).bind fun _ => Coro.uses_pure _

theorem Confined.ensureOpen : m.ensureOpen.Uses B := by
  have hreconnect : m.reconnect.Uses B := h.connect.tryExcept fun e => by
    cases e with
    | transportError e => exact h.safeClose.bind fun _ => Coro.uses_raise _
    | _ => exact Coro.uses_raise _
  refine h.isOpen.bind fun isOpen => ?_
  cases isOpen with
  | true => exact Coro.uses_pure _
  | false => exact hreconnect

/-- An exchange makes one transaction more, with its command. -/
theorem Confined.exchange {command : Str} (hcommand : A command) (expects : Bool)
    (timeout : Rat) : (m.exchange command expects timeout).Uses B := by
  refine h.ensureOpen.bind fun _ => (h.transact hcommand _ _).tryExcept fun e => ?_
  cases e with
  | transportError e => exact h.safeClose.bind fun _ => Coro.uses_raise _
  | _ => exact Coro.uses_raise _

/-- A whole call, which takes the lock and gives it back. -/
theorem Confined.perform (hlock : m.lock.Confined B) {c : Call} (hcommand : A c.command) :
    (m.perform c).Uses B := by
  rw [perform_eq]
  refine (hlock.hold (h.exchange hcommand _ _)).andThen fun r => ?_
  cases r with
  | ok result => exact Coro.uses_ofExcept _
  | error e => exact Coro.uses_raise _

/-- A program whose calls are in `A`. -/
theorem Confined.translate (hlock : m.lock.Confined B) {α : Type} {p : Coro Calls Exc α}
    (hp : p.Uses fun c : Call => A c.command) : (p.translate m.perform).Uses B :=
  hp.translate fun _ => h.perform hlock

end Confined

end DeviceManager

/-- The methods of the manager that its owners call. -/
inductive Method where
  | start
  | stop
  | call (c : Call)
  deriving DecidableEq

/-- The coroutine behind a method; `None` is what `start` and `stop` return. -/
def DeviceManager.method {S : Signature} (m : DeviceManager S) : Method → Coro S Exc (Option Str)
  | .start => do
      m.start
      return none
  | .stop => do
      m.stop
      return none
  | .call c => m.call c

/-- The manager on the bare interface. -/
def lineManager (defaultTimeout : Rat) : DeviceManager Line where
  transport := lineTransport
  lock := lineLock
  defaultTimeout := defaultTimeout

end Device
