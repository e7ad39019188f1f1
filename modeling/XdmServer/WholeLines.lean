import XdmServer.PortScript
import XdmServer.ByteLines
import Mathlib.Algebra.Order.Field.Rat

/-! # Whole lines

    `SerialTransport.transact` of a query against bytes that arrive when they like.
    pyserial's `readline` reads byte by byte, and its timeout starts anew with each: it
    returns the bytes up to and including the first newline, or, when no byte has come for
    as long as the timeout, those that have come until then.  The transport takes an empty
    result for a timeout, and any other for the answer.

    `whole_line` says exactly when an answer is a whole line. -/

namespace WholeLines

open PyText Coroutine Device PortScript

/-- What arrives after the input has been reset: the bytes in the order of their arrival,
    each with its moment. -/
structure Arrivals where
  bytes : List (Rat × UInt8)
  ordered : bytes.Pairwise fun x y => x.1 ≤ y.1

/-! ## Gaps -/

/-- No byte comes within `limit` of `now`. -/
def Quiet (limit now : Rat) : List (Rat × UInt8) → Prop
  | [] => True
  | (moment, _) :: _ => now + limit < moment

/-- A newline comes, and up to it no byte more than `limit` after the one before. -/
def LineComes (limit : Rat) : Rat → List (Rat × UInt8) → Prop
  | _, [] => False
  | now, (moment, b) :: later =>
      moment ≤ now + limit ∧ (b = newline ∨ LineComes limit (max now moment) later)

/-- The bytes before the first gap longer than `limit`. -/
def unbroken (limit : Rat) : Rat → List (Rat × UInt8) → Bytes
  | _, [] => []
  | now, (moment, b) :: later =>
      if moment ≤ now + limit then b :: unbroken limit (max now moment) later else []

/-- Nothing has come before a gap that is there from the start. -/
theorem unbroken_eq_nil {limit now : Rat} {bytes : List (Rat × UInt8)} :
    unbroken limit now bytes = [] ↔ Quiet limit now bytes := by
  cases bytes with
  | nil => exact iff_of_true rfl trivial
  | cons x later =>
      obtain ⟨moment, b⟩ := x
      rw [unbroken, Quiet]
      by_cases hmoment : moment ≤ now + limit
      · rw [if_pos hmoment]
        exact iff_of_false (List.cons_ne_nil _ _) (not_lt_of_ge hmoment)
      · rw [if_neg hmoment]
        exact iff_of_true rfl (lt_of_not_ge hmoment)

/-- A newline comes before the first gap just if the line comes without one. -/
theorem newline_mem_unbroken {limit now : Rat} {bytes : List (Rat × UInt8)} :
    newline ∈ unbroken limit now bytes ↔ LineComes limit now bytes := by
  induction bytes generalizing now with
  | nil => exact iff_of_false (fun h => by cases h) id
  | cons x later ih =>
      obtain ⟨moment, b⟩ := x
      rw [unbroken, LineComes]
      by_cases hmoment : moment ≤ now + limit
      · rw [if_pos hmoment, List.mem_cons, ih]
        constructor
        · rintro (hb | hlater)
          · exact ⟨hmoment, .inl hb.symm⟩
          · exact ⟨hmoment, .inr hlater⟩
        · rintro ⟨-, hb | hlater⟩
          · exact .inl hb.symm
          · exact .inr hlater
      · rw [if_neg hmoment]
        exact iff_of_false (fun h => by cases h) fun h => hmoment h.1

/-- What has come when the timeout of a read that begins at `start` expires; without a
    timeout, all that ever comes. -/
def Arrivals.inTime (a : Arrivals) (start : Rat) : Option Rat → Bytes
  | some timeout => unbroken timeout start a.bytes
  | none => a.bytes.map Prod.snd

/-! ## pyserial's `readline` -/

/-- What is relied on of `readline`, called at `start`. -/
structure Readline (readline : Arrivals → Rat → Option Rat → Bytes) : Prop where
  /-- It stops behind the first newline, if that comes in time. -/
  line : ∀ a start timeout l rest, newline ∉ l →
    a.inTime start timeout = l ++ newline :: rest → readline a start timeout = terminated l
  /-- When the timeout expires, it returns what has come. -/
  expires : ∀ a start timeout, newline ∉ a.inTime start (some timeout) →
    readline a start (some timeout) = a.inTime start (some timeout)

/-- One `read(1)` after the other, each with the timeout to itself. -/
def byteByByte (limit : Option Rat) : Rat → List (Rat × UInt8) → Bytes
  | _, [] => []
  | now, (moment, b) :: later =>
      if limit.all fun limit => moment ≤ now + limit then
        if b = newline then [b] else b :: byteByByte limit (max now moment) later
      else []

/-- Without a timeout, everything is waited for. -/
theorem byteByByte_none (now : Rat) (bytes : List (Rat × UInt8)) :
    byteByByte none now bytes = (PyText.readline (bytes.map Prod.snd)).1 := by
  induction bytes generalizing now with
  | nil => rfl
  | cons x later ih =>
      obtain ⟨moment, b⟩ := x
      rw [byteByByte, List.map_cons, PyText.readline, ih]
      by_cases hb : b = newline
      · rw [if_pos hb, if_pos hb]
        rfl
      · rw [if_neg hb, if_neg hb]
        rfl

/-- With one, only the bytes before the first gap are seen. -/
theorem byteByByte_some (limit now : Rat) (bytes : List (Rat × UInt8)) :
    byteByByte (some limit) now bytes = (PyText.readline (unbroken limit now bytes)).1 := by
  induction bytes generalizing now with
  | nil => rfl
  | cons x later ih =>
      obtain ⟨moment, b⟩ := x
      rw [byteByByte, unbroken, ih]
      by_cases hmoment : moment ≤ now + limit
      · rw [if_pos (by simpa using hmoment), if_pos hmoment, PyText.readline]
        by_cases hb : b = newline
        · rw [if_pos hb, if_pos hb]
        · rw [if_neg hb, if_neg hb]
      · rw [if_neg (by simpa using hmoment), if_neg hmoment]
        rfl

/-- Reading byte by byte is a `readline`. -/
theorem readline_byteByByte :
    Readline fun a start timeout => byteByByte timeout start a.bytes := by
  have hread : ∀ (a : Arrivals) start timeout,
      byteByByte timeout start a.bytes = (PyText.readline (a.inTime start timeout)).1 := by
    intro a start timeout
    cases timeout with
    | none => exact byteByByte_none start a.bytes
    | some limit => exact byteByByte_some limit start a.bytes
  constructor
  · intro a start timeout l rest hl hbytes
    rw [hread, hbytes, readline_line rest hl]
  · intro a start timeout hno
    rw [hread, readline_of_notMem hno]

/-! ## One transaction -/

/-- Everything that can be different in one `transact`. -/
structure Scene where
  /-- `_serial` when `transact` looks, and when the worker does. -/
  looked : Option Handle
  serial : Option Handle
  resetInputBuffer : Except FlushError Unit
  write : Except PortError Unit
  flush : Except FlushError Unit
  /-- What `readline` raises, if it does, and the moment at which it is called. -/
  fails : Option PortError
  start : Rat
  arrivals : Arrivals

/-- What has come when the timeout of `readline` expires. -/
def Scene.inTime (scene : Scene) (timeout : Rat) : Bytes :=
  scene.arrivals.inTime scene.start (some timeout)

section Transact

variable (readline : Arrivals → Rat → Option Rat → Bytes) (T : SerialTransport)

/-- The worker's calls; the state is `ser.timeout`. -/
def port (scene : Scene) : Coro.Handler Port Exc (Option Rat)
  | .getSerial, timeout => (.ok scene.serial, timeout)
  | .resetInputBuffer _, timeout => (scene.resetInputBuffer.mapError FlushError.toExc, timeout)
  | .write _ _, timeout => (scene.write.mapError .portError, timeout)
  | .flush _, timeout => (scene.flush.mapError FlushError.toExc, timeout)
  | .setTimeout _ timeout, _ => (.ok (), some timeout)
  | .readline _, timeout =>
      match scene.fails with
      | some e => (.error (.portError e), timeout)
      | none => (.ok (readline scene.arrivals scene.start timeout), timeout)

/-- The event loop's calls; `transact` makes no other than these two. -/
def loop (scene : Scene) : Coro.Handler Serial Exc (Option Rat)
  | .getSerial, timeout => (.ok scene.looked, timeout)
  | .toThread (.transactBlocking command expectResponse limit), timeout =>
      (T.transactBlocking command expectResponse limit).run (port readline scene) timeout
  | _, timeout => (.error .runtimeError, timeout)

/-- What `transact` comes to; `before` is what `ser.timeout` was set to before. -/
def transact (scene : Scene) (before : Option Rat) (command : Str)
    (timeout : Rat) : Except Exc (Option Str) :=
  ((SerialTransport.transact command true timeout).run (loop readline T scene) before).1

/-- The transaction gets as far as `readline`, and that returns. -/
structure Reads (scene : Scene) (command : Str) : Prop where
  looked : scene.looked ≠ none
  serial : scene.serial ≠ none
  resetInputBuffer : scene.resetInputBuffer = .ok ()
  ascii : isAscii command = true
  write : scene.write = .ok ()
  flush : scene.flush = .ok ()
  fails : scene.fails = none

/-- The calls of pyserial come out as in this script. -/
def Scene.script (scene : Scene) (timeout : Rat) : TxnScript where
  resetInputBuffer := scene.resetInputBuffer
  write := scene.write
  flush := scene.flush
  readline := match scene.fails with
    | some e => .error e
    | none => .ok (readline scene.arrivals scene.start (some timeout))

variable {scene : Scene} (before : Option Rat) {command : Str} (timeout : Rat)

/-- What `_transact_blocking` makes of how the calls of pyserial came out. -/
def finish (command : Str) : Except Exc (Option Bytes) → Except Exc (Option Str)
  | .ok none => .ok none
  | .ok (some raw) =>
      if raw.isEmpty then .error (.transportError (.noResponse command timeout))
      else .ok (some (strip (decodeAscii raw)))
  | .error (.portError e) => .error (.transportError (.serialError T.port e))
  | .error e => .error e

/-- `transactBlocking` with a port finishes what the calls of pyserial have come to. -/
theorem run_finish {σ : Type} (H : Coro.Handler Port Exc σ) (s : σ) {ser : Handle}
    (hser : H .getSerial s = (.ok (some ser), s)) (command : Str) :
    ((T.transactBlocking command true timeout).run H s).1 =
      finish T timeout command ((SerialTransport.converse ser command true timeout).run H s).1 := by
  have hget : Port.getSerial.run H s = (.ok (some ser), s) := (Coro.run_op H _ s).trans hser
  rw [SerialTransport.transactBlocking, Coro.run_bind, hget]
  show (Coro.run H (Coro.tryExcept _ _ >>= _) s).1 = _
  rw [Coro.run_bind, Coro.run_tryExcept]
  rcases (SerialTransport.converse ser command true timeout).run H s with ⟨e | (_ | raw), s'⟩
  · cases e <;> rfl
  · rfl
  · simp only [finish]
    cases raw.isEmpty <;> rfl

/-- **The timeout that `readline` meets** is the one of the call, whatever it was before. -/
theorem run_port (scene : Scene) (command : Str) :
    ((T.transactBlocking command true timeout).run (port readline scene) before).1 =
      ((T.transactBlocking command true timeout).run
        (worker scene.serial (scene.script readline timeout)) []).1 := by
  obtain ⟨looked, serial, reset, write, flush, fails, start, arrivals⟩ := scene
  rcases serial with _ | ser
  · rfl
  rw [run_finish T timeout (port _ _) before rfl, run_finish T timeout (worker _ _) [] rfl]
  congr 1
  unfold SerialTransport.converse
  generalize encodeAscii (command ++ TERMINATOR) = line
  rcases reset with (e | e) | _
  · rfl
  · rfl
  rcases line with _ | data
  · rfl
  rcases write with e | _
  · rfl
  rcases flush with (e | e) | _
  · rfl
  · rfl
  cases fails <;> rfl

/-- `transact` without a port, and with one. -/
theorem transact_cases (scene : Scene) (command : Str) :
    (scene.looked = none ∧ transact readline T scene before command timeout =
      .error (.transportError .notOpen)) ∨
    scene.looked ≠ none ∧ transact readline T scene before command timeout =
      ((T.transactBlocking command true timeout).run
        (worker scene.serial (scene.script readline timeout)) []).1 := by
  rw [← run_port readline T before timeout]
  obtain ⟨_ | looked, serial, reset, write, flush, fails, start, arrivals⟩ := scene
  · exact .inl ⟨rfl, rfl⟩
  · refine .inr ⟨by simp, ?_⟩
    show (Coro.run _ (Serial.transactBlocking command true timeout) before).1 = _
    exact congrArg Prod.fst (Coro.run_op _ _ _)

/-- **What an answer says** of the transaction: it has read, and what `readline` returned is
    the answer. -/
theorem reads_of_ok {r : Option Str}
    (h : transact readline T scene before command timeout = .ok r) :
    Reads scene command ∧ readline scene.arrivals scene.start (some timeout) ≠ [] ∧
      r = some (strip (decodeAscii (readline scene.arrivals scene.start (some timeout)))) := by
  obtain ⟨_, hno⟩ | ⟨hlooked, hrun⟩ := transact_cases readline T before timeout scene command
  · rw [hno] at h
    cases h
  cases hser : scene.serial with
  | none =>
      rw [hrun, hser] at h
      cases h
  | some ser =>
      have hspec :=
        (transactBlocking_spec T ser (scene.script readline timeout) command true timeout).1
      rw [hrun, hser] at h
      rw [h] at hspec
      obtain ⟨hreset, hascii, hwrite, hflush, ⟨hno, _⟩ | ⟨_, raw, hraw, hne, hr⟩⟩ := hspec
      · cases hno
      cases hfails : scene.fails with
      | some e => simp [Scene.script, hfails] at hraw
      | none =>
          simp only [Scene.script, hfails, Except.ok.injEq] at hraw
          subst hraw
          exact ⟨⟨hlooked, by simp [hser], hreset, hascii, hwrite, hflush, hfails⟩, hne, hr⟩

/-- **A transaction that reads** answers, unless `readline` returned nothing. -/
theorem transact_of_reads (h : Reads scene command) :
    transact readline T scene before command timeout =
      finish T timeout command
        (.ok (some (readline scene.arrivals scene.start (some timeout)))) := by
  obtain ⟨hno, _⟩ | ⟨_, hrun⟩ := transact_cases readline T before timeout scene command
  · exact absurd hno h.looked
  obtain ⟨ser, hser⟩ := Option.ne_none_iff_exists'.mp h.serial
  obtain ⟨data, hdata⟩ : ∃ data, encodeAscii (command ++ TERMINATOR) = some data := by
    rw [← Option.isSome_iff_exists, encodeAscii_isSome, isAscii_terminated, h.ascii]
  rw [hrun, hser, run_finish T timeout (worker _ _) [] rfl, converse_run, hdata]
  simp only [Scene.script, h.resetInputBuffer, h.write, h.flush, h.fails]
  rfl

end Transact

/-! ## Answers and lines -/

/-- An answer to a query is a whole line: a string is returned only if a newline has come
    before the timeout expired, and is then the text of the line before it; and where the
    timeout has cut a line short, the transport raises. -/
structure WholeLine (scene : Scene) (command : Str) (timeout : Rat)
    (r : Except Exc (Option Str)) : Prop where
  answered : ∀ s, r = .ok (some s) → ∃ line rest, newline ∉ line ∧
    scene.inTime timeout = line ++ newline :: rest ∧ s = strip (decodeAscii line)
  cut : Reads scene command → scene.inTime timeout ≠ [] → newline ∉ scene.inTime timeout →
    ∃ e, r = .error (.transportError e)

/-- The newline is stripped off. -/
theorem strip_terminated (line : Bytes) :
    strip (decodeAscii (terminated line)) = strip (decodeAscii line) := by
  rw [terminated, decodeAscii_append]
  exact strip_concat _ isSpace_newline

/-- **Exactly when an answer is a whole line**: unless a gap longer than the timeout comes
    in the middle of it. -/
theorem whole_line {readline : Arrivals → Rat → Option Rat → Bytes}
    (hreadline : Readline readline) (T : SerialTransport) (scene : Scene) (before : Option Rat)
    (command : Str) (timeout : Rat) :
    WholeLine scene command timeout (transact readline T scene before command timeout) ↔
      (Reads scene command → Quiet timeout scene.start scene.arrivals.bytes ∨
        LineComes timeout scene.start scene.arrivals.bytes) := by
  have hquiet : scene.inTime timeout = [] ↔ Quiet timeout scene.start scene.arrivals.bytes :=
    unbroken_eq_nil
  have hcomes : newline ∈ scene.inTime timeout ↔
      LineComes timeout scene.start scene.arrivals.bytes := newline_mem_unbroken
  rw [← hquiet, ← hcomes]
  constructor
  · intro h hreads
    by_contra hcut
    obtain ⟨hne, hno⟩ := not_or.mp hcut
    -- the bytes without a newline are returned
    obtain ⟨e, he⟩ := h.cut hreads hne hno
    have hread : readline scene.arrivals scene.start (some timeout) = scene.inTime timeout :=
      hreadline.expires _ _ _ hno
    rw [transact_of_reads readline T before timeout hreads, hread, finish,
      if_neg fun hnil => hne (List.isEmpty_iff.mp hnil)] at he
    cases he
  · intro hcond
    constructor
    · intro s hs
      obtain ⟨hreads, hne, hanswer⟩ := reads_of_ok readline T before timeout hs
      obtain hempty | hmem := hcond hreads
      · have hno : newline ∉ scene.inTime timeout := by
          rw [hempty]
          exact List.not_mem_nil
        rw [hreadline.expires _ _ _ hno] at hne
        exact absurd hempty hne
      obtain ⟨line, rest, hstream, hline⟩ := exists_line hmem
      refine ⟨line, rest, hline, hstream, ?_⟩
      rw [hreadline.line _ _ _ _ _ hline hstream, strip_terminated] at hanswer
      exact Option.some.inj hanswer
    · intro hreads hne hno
      obtain hempty | hmem := hcond hreads
      · exact absurd hempty hne
      · exact absurd hmem hno

/-- `1.2345E+03` in two halves, the first after a second. -/
def halves (second : Rat) : List (Rat × UInt8) :=
  "1.2345".toList.map (fun c => (1, UInt8.ofNat c.toNat))
    ++ "E+03\n".toList.map (fun c => (second, UInt8.ofNat c.toNat))

/-- A query that gets as far as `readline`, and what arrives then. -/
def answeredBy (arrivals : Arrivals) : Scene where
  looked := some 0
  serial := some 0
  resetInputBuffer := .ok ()
  write := .ok ()
  flush := .ok ()
  fails := none
  start := 0
  arrivals := arrivals

/-- The second half comes two seconds after the first: the answer is the whole line. -/
theorem whole_line_halves :
    WholeLine (answeredBy ⟨halves 3, by decide +kernel⟩) Commands.MEASURE 2
      (transact (fun a start timeout => byteByByte timeout start a.bytes)
        ⟨"/dev/ttyUSB0".toList, 115200⟩ (answeredBy ⟨halves 3, by decide +kernel⟩) none
        Commands.MEASURE 2) :=
  (whole_line readline_byteByByte _ _ none Commands.MEASURE 2).mpr fun _ => .inr
    (newline_mem_unbroken.mp (by decide +kernel))

/-- It comes three seconds after the first: the first half is returned as the answer. -/
theorem not_whole_line :
    ¬ ∀ readline, Readline readline → ∀ (T : SerialTransport) (scene : Scene)
      (before : Option Rat) (command : Str) (timeout : Rat),
      WholeLine scene command timeout (transact readline T scene before command timeout) := by
  intro h
  have hcut := h _ readline_byteByByte ⟨"/dev/ttyUSB0".toList, 115200⟩
    (answeredBy ⟨halves 4, by decide +kernel⟩) none Commands.MEASURE 2
  have hanswer : transact (fun a start timeout => byteByByte timeout start a.bytes)
      ⟨"/dev/ttyUSB0".toList, 115200⟩ (answeredBy ⟨halves 4, by decide +kernel⟩) none
      Commands.MEASURE 2 = .ok (some "1.2345".toList) := by
    decide +kernel
  obtain ⟨line, rest, _, hstream, _⟩ := hcut.answered _ hanswer
  have hno : newline ∉ (answeredBy ⟨halves 4, by decide +kernel⟩).inTime 2 := by
    decide +kernel
  rw [hstream] at hno
  exact hno (List.mem_append_right _ (List.mem_cons_self ..))

end WholeLines
