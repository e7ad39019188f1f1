import XdmServer.Commands
import XdmServer.Coroutine

/-! # Transports and their exceptions

    `device/transport.py`, the abstract half: the exceptions of the device layer and
    the `Transport` interface.  An implementation is a coroutine for each method,
    over whatever operations it waits for.  `Line` is the interface itself taken as
    the operations: one operation for each call the manager makes, with no
    implementation behind it. -/

namespace Device

open PyText Coroutine

/-- What pyserial raises and `except (serial.SerialException, OSError)` catches. -/
inductive PortError where
  | serialException (text : Str)
  | osError (text : Str)
  deriving DecidableEq

/-- The `TransportError`s, by their messages. -/
inductive TransportError where
  /-- "Transport is not open" -/
  | notOpen
  /-- "Failed to open {port}: {exc}" -/
  | failedToOpen (port : Str) (exc : PortError)
  /-- "Serial I/O error on {port}: {exc}" -/
  | serialError (port : Str) (exc : PortError)
  /-- "No response to {command!r} within {timeout}s" -/
  | noResponse (command : Str) (timeout : Rat)
  /-- The message of a transport that is not under `device/transport.py`. -/
  | other (message : Str)
  deriving DecidableEq

/-- The `DeviceError`s of `device/manager.py`, by their messages. -/
inductive DeviceError where
  /-- "Transaction failed for {command!r}: {exc}" -/
  | transactionFailed (command : Str) (exc : TransportError)
  /-- "Reconnect failed: {exc}" -/
  | reconnectFailed (exc : TransportError)
  deriving DecidableEq

/-- The details of the `HTTPException`s: the last with status 503, the others with 422. -/
inductive HttpDetail where
  /-- "seconds must be positive" -/
  | secondsNotPositive
  /-- "Unknown function: {name!r}" -/
  | unknownFunction (name : Str)
  /-- "Unknown rate: {name!r}" -/
  | unknownRate (name : Str)
  /-- "Persistence is disabled" -/
  | persistenceDisabled
  deriving DecidableEq

/-- Every exception the server meets. -/
inductive Exc where
  | transportError (e : TransportError)
  | deviceError (e : DeviceError)
  | portError (e : PortError)
  /-- `termios.error`, which is neither a `SerialException` nor an `OSError`. -/
  | termiosError (text : Str)
  | unicodeEncodeError
  | valueError
  | indexError
  | assertionError
  | runtimeError
  /-- A `ConnectionError` of a client's socket. -/
  | connectionError
  | incompleteReadError
  /-- `HTTPException`, which FastAPI turns into an answer. -/
  | httpException (detail : HttpDetail)
  | cancelledError
  deriving DecidableEq

/-- The abstract `Transport`: what the manager asks of the connection to the meter. -/
structure Transport (S : Signature) where
  isOpen : Coro S Exc Bool
  open_ : Coro S Exc Unit
  close : Coro S Exc Unit
  transact (command : Str) (expectResponse : Bool) (timeout : Rat) : Coro S Exc (Option Str)

/-- An `asyncio.Lock`. -/
structure Lock (S : Signature) where
  acquire : Coro S Exc Unit
  release : Coro S Exc Unit

/-- `async with lock: body`. -/
def Lock.hold {S : Signature} {α : Type} (lock : Lock S) (body : Coro S Exc α) :
    Coro S Exc α := do
  lock.acquire
  body.tryFinally lock.release

/-- The operations of the lock are in `B`. -/
structure Lock.Confined {S : Signature} (lock : Lock S) (B : S.Op → Prop) : Prop where
  acquire : lock.acquire.Uses B
  release : lock.release.Uses B

theorem Lock.Confined.hold {S : Signature} {α : Type} {lock : Lock S} {B : S.Op → Prop}
    (h : lock.Confined B) {body : Coro S Exc α} (hbody : body.Uses B) :
    (lock.hold body).Uses B :=
  h.acquire.bind fun _ => hbody.tryFinally h.release

/-! ## The interface as a signature -/

/-- The calls a manager makes on its lock and on its transport. -/
inductive LineOp where
  | acquire
  | release
  | isOpen
  | open_
  | close
  | transact (command : Str) (expectResponse : Bool) (timeout : Rat)
  deriving DecidableEq

/-- What a call of the transport returns. -/
def LineOp.Res : LineOp → Type
  | .isOpen => Bool
  | .transact _ _ _ => Option Str
  | _ => Unit

/-- The operations of the manager over any transport. -/
abbrev Line : Signature where
  Op := LineOp
  Res := LineOp.Res

namespace Line

/-- `await self._lock.acquire()`. -/
def acquire : Coro Line Exc Unit := .op (S := Line) LineOp.acquire

/-- `self._lock.release()`. -/
def release : Coro Line Exc Unit := .op (S := Line) LineOp.release

/-- `transport.is_open`. -/
def isOpen : Coro Line Exc Bool := .op (S := Line) LineOp.isOpen

/-- `await transport.open()`. -/
def open_ : Coro Line Exc Unit := .op (S := Line) LineOp.open_

/-- `await transport.close()`. -/
def close : Coro Line Exc Unit := .op (S := Line) LineOp.close

/-- `await transport.transact(..)`. -/
def transact (command : Str) (expectResponse : Bool) (timeout : Rat) :
    Coro Line Exc (Option Str) :=
  .op (S := Line) (LineOp.transact command expectResponse timeout)

end Line

/-- The transport that is nothing but its interface. -/
def lineTransport : Transport Line where
  isOpen := Line.isOpen
  open_ := Line.open_
  close := Line.close
  transact := Line.transact

/-- The manager's lock. -/
def lineLock : Lock Line where
  acquire := Line.acquire
  release := Line.release

end Device
