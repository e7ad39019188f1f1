import XdmServer.ByteLines
import XdmServer.Driver

/-! # The SCPI server

    `scpi/server.py`: a line from a client is forwarded through the manager, and the
    answer to a query is written back.  `Socket` names what a session does with its two
    streams.  What a client sends until it closes its connection is one stream of bytes,
    and `readline` is the wait for the next line of it. -/

namespace Scpi

open PyText Coroutine Commands Device

/-- `ScpiServer.handle_command`. -/
def handleCommand (command : Str) : Coro Calls Exc (Option Str) :=
  let command := strip command
  if command = [] then pure none
  else
    let isQuery := decide ('?' ∈ command)
    (if isQuery then do
        let response ← Driver.query command
        pure (some response)
      else do
        Driver.write command
        pure none).tryExcept fun
      | .deviceError _ => pure none
      | e => .raise e

/-- What `_handle_client` does with its reader and its writer. -/
inductive SocketOp where
  | readline
  | write (data : Bytes)
  | drain
  | close
  | waitClosed
  deriving DecidableEq

/-- The operations on a client's connection. -/
abbrev Socket : Signature where
  Op := SocketOp
  Res := fun _ => Unit

/-- The operations of a session. -/
abbrev Session : Signature := Calls.sum Socket

namespace Socket

/-- One operation on the streams of the session. -/
def op (o : SocketOp) : Coro Session Exc Unit := .op (S := Session) (.inr o)

end Socket

/-- The loop of `_handle_client`, once around with a line. -/
def handleLine (raw : Bytes) : Coro Session Exc Unit := do
  let line := decodeAscii raw
  let response ← (handleCommand line).inl
  match response with
  | none => pure ()
  | some response =>
      match encodeAscii response with
      -- the answer was decoded with U+FFFD for what is not ASCII, and is encoded strictly
      | none => .raise .unicodeEncodeError
      | some data => do
          Socket.op (.write (data ++ [newline]))
          Socket.op .drain

/-- The loop, on the lines that `readline` returns before the end of the stream. -/
def loop : List Bytes → Coro Session Exc Unit
  -- EOF / disconnect
  | [] => Socket.op .readline
  | raw :: lines => do
      Socket.op .readline
      handleLine raw
      loop lines

/-- The `finally` of `_handle_client`. -/
def hangUp : Coro Session Exc Unit := do
  Socket.op .close
  (Socket.op .waitClosed).tryExcept fun
    | .connectionError => pure ()
    | .portError (.osError _) => pure ()
    | e => .raise e

/-- `ScpiServer._handle_client`, for a client that sends `stream`. -/
def handleClient (stream : Bytes) : Coro Session Exc Unit :=
  ((loop (readlines stream)).tryExcept fun
    | .connectionError => pure ()
    | .incompleteReadError => pure ()
    | e => .raise e).tryFinally hangUp

/-- A line as a client sends it, without its newline. -/
structure ClientLine where
  body : Bytes
  newline_notMem : newline ∉ body

/-! ## Lines and calls -/

/-- What the server asks of the manager for a line; nothing for a blank one. -/
def callOf (line : Bytes) : Option Call :=
  let command := strip (decodeAscii line)
  if command = [] then none
  else if '?' ∈ command then some (.query command none)
  else some (.write command none)

/-- What the client gets of a call that returned. -/
def replyOf : (c : Call) → c.Res → Option Str
  | .query _ _, response => some response
  | .write _ _, _ => none

/-- **A line is one call at most**, whose `DeviceError`s are swallowed. -/
theorem handleCommand_eq (line : Bytes) :
    handleCommand (decodeAscii line) = match callOf line with
      | none => pure none
      | some c => (Coro.op (S := Calls) c).andThen fun
          | .ok r => pure (replyOf c r)
          | .error (.deviceError _) => pure none
          | .error e => .raise e := by
  unfold handleCommand callOf
  dsimp only
  by_cases hblank : strip (decodeAscii line) = []
  · rw [if_pos hblank, if_pos hblank]
  · rw [if_neg hblank, if_neg hblank]
    by_cases hquery : '?' ∈ strip (decodeAscii line)
    · rw [if_pos hquery, decide_eq_true hquery]
      show Coro.call _ _ = Coro.call _ _
      congr 1
      funext r
      rcases r with e | r
      · cases e <;> rfl
      · rfl
    · rw [if_neg hquery, decide_eq_false hquery]
      show Coro.call _ _ = Coro.call _ _
      congr 1
      funext r
      rcases r with e | r
      · cases e <;> rfl
      · rfl

/-- The newline of a line makes no difference. -/
theorem callOf_terminated (line : Bytes) : callOf (terminated line) = callOf line := by
  have hstrip : strip (decodeAscii (terminated line)) = strip (decodeAscii line) := by
    rw [terminated, decodeAscii_append]
    exact strip_concat _ isSpace_newline
  unfold callOf
  rw [hstrip]

/-- The command of a call is the stripped line. -/
theorem callOf_command {line : Bytes} {c : Call} (h : callOf line = some c) :
    c.command = strip (decodeAscii line) ∧ c.command ≠ [] ∧
      c.expects = decide ('?' ∈ c.command) := by
  unfold callOf at h
  dsimp only at h
  by_cases hblank : strip (decodeAscii line) = []
  · rw [if_pos hblank] at h
    exact nomatch h
  · rw [if_neg hblank] at h
    by_cases hquery : '?' ∈ strip (decodeAscii line)
    · rw [if_pos hquery] at h
      obtain rfl := Option.some.inj h
      exact ⟨rfl, hblank, (decide_eq_true hquery).symm⟩
    · rw [if_neg hquery] at h
      obtain rfl := Option.some.inj h
      exact ⟨rfl, hblank, (decide_eq_false hquery).symm⟩

/-- A command that came in a line has no newline. -/
theorem newline_notMem_callOf {line : Bytes} {c : Call} (h : callOf line = some c)
    (hline : newline ∉ line) : '\n' ∉ c.command := by
  obtain ⟨hc, -⟩ := callOf_command h
  rw [hc]
  exact fun hmem => hline (newline_mem_decodeAscii.mp (mem_of_mem_strip hmem))

end Scpi
