import XdmServer.Manager

/-! # The serial transport

    `SerialTransport` of `device/transport.py`, in two layers of coroutines:

    * its methods run in the event loop, over `Serial`: the attribute `_serial`, the
      manager's lock, and `asyncio.to_thread`, which hands a `Job` to a worker;
    * `_transact_blocking` runs in the worker, over `Port`: the calls of pyserial.

    What a job does while it runs, and when, is left to the two machines built on
    this one: a task alone with the port, and many tasks with many workers. -/

namespace Device

open PyText Coroutine Commands

/-- The name of a `serial.Serial` object. -/
abbrev Handle := Nat

/-- What is handed to `asyncio.to_thread`. -/
inductive Job where
  /-- `serial.Serial(port, baud_rate, timeout=None)` -/
  | construct (port : Str) (baudRate : Nat)
  | transactBlocking (command : Str) (expectResponse : Bool) (timeout : Rat)
  /-- `ser.close()` -/
  | close (ser : Handle)
  deriving DecidableEq

/-- What a job returns. -/
def Job.Res : Job → Type
  | .construct _ _ => Handle
  | .transactBlocking _ _ _ => Option Str
  | .close _ => Unit

/-- The job is a `_transact_blocking`. -/
def Job.isTransaction : Job → Bool
  | .transactBlocking _ _ _ => true
  | _ => false

/-- The job is a `ser.close()`. -/
def Job.isClose : Job → Bool
  | .close _ => true
  | _ => false

/-- What the methods of the transport, and the manager above them, do in the event loop. -/
inductive SerialOp where
  | acquire
  | release
  | getSerial
  | setSerial (ser : Option Handle)
  /-- `ser.is_open` -/
  | handleIsOpen (ser : Handle)
  | toThread (job : Job)
  deriving DecidableEq

/-- What an operation returns. -/
def SerialOp.Res : SerialOp → Type
  | .getSerial => Option Handle
  | .handleIsOpen _ => Bool
  | .toThread job => job.Res
  | _ => Unit

/-- The operations of the manager over the serial transport. -/
abbrev Serial : Signature where
  Op := SerialOp
  Res := SerialOp.Res

namespace Serial

/-- `await self._lock.acquire()`. -/
def acquire : Coro Serial Exc Unit := .op (S := Serial) SerialOp.acquire

/-- `self._lock.release()`. -/
def release : Coro Serial Exc Unit := .op (S := Serial) SerialOp.release

/-- A look at `self._serial`. -/
def getSerial : Coro Serial Exc (Option Handle) := .op (S := Serial) SerialOp.getSerial

/-- An assignment to `self._serial`. -/
def setSerial (ser : Option Handle) : Coro Serial Exc Unit :=
  .op (S := Serial) (SerialOp.setSerial ser)

/-- `ser.is_open`. -/
def handleIsOpen (ser : Handle) : Coro Serial Exc Bool :=
  .op (S := Serial) (SerialOp.handleIsOpen ser)

/-- `await asyncio.to_thread(job)`. -/
def toThread (job : Job) : Coro Serial Exc job.Res := .op (S := Serial) (SerialOp.toThread job)

/-- `await asyncio.to_thread(serial.Serial, ..)`. -/
def construct (port : Str) (baudRate : Nat) : Coro Serial Exc Handle :=
  toThread (.construct port baudRate)

/-- `await asyncio.to_thread(self._transact_blocking, ..)`. -/
def transactBlocking (command : Str) (expectResponse : Bool) (timeout : Rat) :
    Coro Serial Exc (Option Str) :=
  toThread (.transactBlocking command expectResponse timeout)

/-- `await asyncio.to_thread(ser.close)`. -/
def closeHandle (ser : Handle) : Coro Serial Exc Unit := toThread (.close ser)

end Serial

/-- A `SerialTransport`, by what it was built with; `_serial` is state. -/
structure SerialTransport where
  port : Str
  baudRate : Nat

namespace SerialTransport

variable (self : SerialTransport)

/-- `is_open`. -/
def isOpen : Coro Serial Exc Bool := do
  match ← Serial.getSerial with
  | some ser => Serial.handleIsOpen ser
  | none => pure false

/-- The `try` of `open`. -/
def construct : Coro Serial Exc Unit := do
  let ser ← Serial.construct self.port self.baudRate
  Serial.setSerial (some ser)

/-- `open`. -/
def open_ : Coro Serial Exc Unit := do
  let isOpen ← isOpen
  if isOpen then pure ()
  else self.construct.tryExcept fun
    | .portError exc => .raise (.transportError (.failedToOpen self.port exc))
    | e => .raise e

/-- `close`. -/
def close : Coro Serial Exc Unit := do
  let ser ← Serial.getSerial
  -- forgotten first, so the port is gone whatever `ser.close()` raises
  Serial.setSerial none
  match ser with
  | some ser =>
      let isOpen ← Serial.handleIsOpen ser
      if isOpen then Serial.closeHandle ser else pure ()
  | none => pure ()

/-- `transact`. -/
def transact (command : Str) (expectResponse : Bool) (timeout : Rat) :
    Coro Serial Exc (Option Str) := do
  match ← Serial.getSerial with
  -- the worker looks at `_serial` again, when it runs
  | some _ => Serial.transactBlocking command expectResponse timeout
  | none => .raise (.transportError .notOpen)

/-- The serial transport as a `Transport`. -/
def toTransport : Transport Serial where
  isOpen := isOpen
  open_ := self.open_
  close := close
  transact := transact

end SerialTransport

/-- The manager's lock. -/
def serialLock : Lock Serial where
  acquire := Serial.acquire
  release := Serial.release

/-- The manager as the server runs it, over a `SerialTransport`. -/
def serialManager (transport : SerialTransport) (defaultTimeout : Rat) :
    DeviceManager Serial where
  transport := transport.toTransport
  lock := serialLock
  defaultTimeout := defaultTimeout

/-! ### The operations of the transport -/

/-- The operations of the event loop but those of the lock and the transactions. -/
def SerialOp.Plain : SerialOp → Prop
  | .acquire => False
  | .release => False
  | .toThread (.transactBlocking _ _ _) => False
  | _ => True

namespace SerialTransport

theorem plain_isOpen : isOpen.Uses SerialOp.Plain :=
  (Coro.uses_op trivial).bind fun ser => by
    cases ser with
    | some ser => exact Coro.uses_op trivial
    | none => exact Coro.uses_pure _

theorem plain_open (self : SerialTransport) : self.open_.Uses SerialOp.Plain :=
  plain_isOpen.bind fun isOpen => by
    have hconstruct : self.construct.Uses SerialOp.Plain :=
      (Coro.uses_op trivial).bind fun ser =>
        Coro.uses_op (trivial : SerialOp.Plain (.setSerial (some ser)))
    cases isOpen with
    | true => exact Coro.uses_pure _
    | false =>
        refine hconstruct.tryExcept fun e => ?_
        cases e <;> exact Coro.uses_raise _

theorem plain_close : close.Uses SerialOp.Plain := by
  refine (Coro.uses_op trivial).bind fun ser => (Coro.uses_op trivial).bind fun _ => ?_
  cases ser with
  | none => exact Coro.uses_pure _
  | some ser =>
      refine (Coro.uses_op trivial).bind fun isOpen => ?_
      cases isOpen with
      | true => exact Coro.uses_op trivial
      | false => exact Coro.uses_pure _

end SerialTransport

/-- **What a manager does over the serial transport**: plain operations, and transactions of
    the commands that it is asked for. -/
theorem serialManager_confined (transport : SerialTransport) (timeout : Rat) {A : Str → Prop}
    {B : SerialOp → Prop} (hplain : ∀ o, SerialOp.Plain o → B o)
    (htransact : ∀ command, A command → ∀ expects limit,
      B (.toThread (.transactBlocking command expects limit)))
    (hlocal : A LOCAL) : (serialManager transport timeout).Confined A B where
  isOpen := SerialTransport.plain_isOpen.mono hplain
  open_ := transport.plain_open.mono hplain
  close := SerialTransport.plain_close.mono hplain
  transact h expects limit := by
    refine Coro.Uses.bind (Coro.uses_op (hplain .getSerial trivial)) fun ser => ?_
    cases ser with
    | some ser => exact Coro.uses_op (htransact _ h expects limit)
    | none => exact Coro.uses_raise _
  greeting := hlocal

/-! ## The worker's half -/

/-- What `_transact_blocking` does: it reads `_serial` and calls pyserial. -/
inductive PortOp where
  | getSerial
  | resetInputBuffer (ser : Handle)
  | write (ser : Handle) (data : Bytes)
  | flush (ser : Handle)
  | setTimeout (ser : Handle) (timeout : Rat)
  | readline (ser : Handle)

/-- What a call of pyserial returns. -/
def PortOp.Res : PortOp → Type
  | .getSerial => Option Handle
  | .readline _ => Bytes
  | _ => Unit

/-- The operations of a worker. -/
abbrev Port : Signature where
  Op := PortOp
  Res := PortOp.Res

namespace Port

/-- A look at `self._serial`. -/
def getSerial : Coro Port Exc (Option Handle) := .op (S := Port) PortOp.getSerial

/-- `ser.reset_input_buffer()`. -/
def resetInputBuffer (ser : Handle) : Coro Port Exc Unit :=
  .op (S := Port) (PortOp.resetInputBuffer ser)

/-- `ser.write(data)`. -/
def write (ser : Handle) (data : Bytes) : Coro Port Exc Unit :=
  .op (S := Port) (PortOp.write ser data)

/-- `ser.flush()`. -/
def flush (ser : Handle) : Coro Port Exc Unit := .op (S := Port) (PortOp.flush ser)

/-- An assignment to `ser.timeout`. -/
def setTimeout (ser : Handle) (timeout : Rat) : Coro Port Exc Unit :=
  .op (S := Port) (PortOp.setTimeout ser timeout)

/-- `ser.readline()`. -/
def readline (ser : Handle) : Coro Port Exc Bytes := .op (S := Port) (PortOp.readline ser)

end Port

/-- The line terminator of commands and answers. -/
def TERMINATOR : Str := "\n".toList

namespace SerialTransport

variable (self : SerialTransport)

/-- What stands under the `try` of `_transact_blocking`; `none` where it returns early. -/
def converse (ser : Handle) (command : Str) (expectResponse : Bool) (timeout : Rat) :
    Coro Port Exc (Option Bytes) := do
  Port.resetInputBuffer ser
  match encodeAscii (command ++ TERMINATOR) with
  -- no `except` clause of the transport or the manager names it
  | none => .raise .unicodeEncodeError
  | some data =>
      Port.write ser data
      Port.flush ser
      if expectResponse then
        Port.setTimeout ser timeout
        let raw ← Port.readline ser
        pure (some raw)
      else pure none

/-- `_transact_blocking`. -/
def transactBlocking (command : Str) (expectResponse : Bool) (timeout : Rat) :
    Coro Port Exc (Option Str) := do
  match ← Port.getSerial with
  | none => .raise (.transportError .notOpen)
  | some ser =>
      let raw ← (converse ser command expectResponse timeout).tryExcept fun
        | .portError exc => .raise (.transportError (.serialError self.port exc))
        | e => .raise e
      match raw with
      | none => pure none
      | some raw =>
          -- an empty line is how pyserial tells a timeout
          if raw.isEmpty then .raise (.transportError (.noResponse command timeout))
          else pure (some (strip (decodeAscii raw)))

end SerialTransport

end Device
