import XdmServer.PortScript
import XdmServer.RegisterMachine

/-! # The probe

    `python -m owon_xdm1041_server probe`: `manager.start()`, then `run_probe` in a `try` whose
    `finally` is `manager.stop()`.  The `try` begins after `start`.

    `probe_reports` is the probe of the mock; `probe_leaves_open` says when the probe of a meter
    leaves the transport open. -/

namespace Probe

open PyText Coroutine Commands Device Driver

variable {V : Type}

/-- What `run_probe` returns. -/
structure Summary (V : Type) where
  identity : Str
  function : Str
  rate : Str
  autoRange : Bool
  range : Option Str
  value : V
  unit : Str

/-- `run_probe`. -/
def runProbe (float : Str → Option V) : Coro Calls Exc (Summary V) := do
  let identity ← identify
  let measurement ← readMeasurement float
  let state ← readState
  pure ⟨identity, state.function.value, state.rate.value, state.autoRange, state.range,
    measurement.value, measurement.unit⟩

/-- `_probe`, but for the printing. -/
def probe {S : Signature} (m : DeviceManager S) (float : Str → Option V) :
    Coro S Exc (Summary V) := do
  m.start
  ((runProbe float).translate m.perform).tryFinally m.stop

/-! ## The probe of the mock -/

section Mock

open RegisterMachine Mock

variable (numerals : Numerals V) (timeout : Rat)

/-- The summary of a meter with these registers, but for the value. -/
structure Summary.Tells (x : Summary V) (s : Registers) : Prop where
  identity : x.identity = "OWON,XDM1041,MOCK0001,V1.2.0,3".toList
  function : x.function = s.function.value
  rate : x.rate = s.rate.value
  autoRange : x.autoRange = s.autoRange
  range : x.range = s.range
  unit : x.unit = UNITS s.function

theorem yields_runProbe {s : Registers} {b : Bench} (h : Holds s b) :
    (runProbe numerals.float).Yields (calls numerals.repr timeout) b
      fun x b' => x.Tells s ∧ Holds s b' := by
  refine (yields_identify numerals.repr timeout h).bind ?_
  rintro _ b₁ ⟨rfl, h₁⟩
  refine (yields_readMeasurement numerals timeout h₁).bind ?_
  rintro m b₂ ⟨-, hunit, h₂⟩
  refine (yields_readState numerals.repr timeout h₂).bind ?_
  rintro _ b₃ ⟨rfl, h₃⟩
  exact Coro.yields_pure ⟨⟨rfl, rfl, rfl, rfl, rfl, hunit⟩, h₃⟩

/-- The lock, around what a manager that is alone does under it. -/
theorem yields_hold {α : Type} (repr : Rat → Str) {body : Coro Line Exc α} {m : MockTransport}
    {Φ : α → MockTransport → Prop}
    (hbody : body.Yields (bench repr) ⟨true, m⟩ fun a b => ∃ m', b = ⟨true, m'⟩ ∧ Φ a m') :
    (lineLock.hold body).Yields (bench repr) ⟨false, m⟩
      fun a b => ∃ m', b = ⟨false, m'⟩ ∧ Φ a m' := by
  refine (Coro.yields_op rfl rfl : Line.acquire.Yields (bench repr) ⟨false, m⟩
    fun _ b => b = ⟨true, m⟩).bind ?_
  rintro _ _ rfl
  refine Coro.Yields.tryFinally hbody ?_
  rintro a _ ⟨m', rfl, hm'⟩
  exact Coro.yields_op rfl ⟨m', rfl, hm'⟩

/-- `manager.start()` opens the mock, if it is not open, and greets it. -/
theorem yields_start (repr : Rat → Str) {m : MockTransport} (hfail : m.failNext = none) :
    (lineManager timeout).start.Yields (bench repr) ⟨false, m⟩
      fun _ b => ∃ m', b = ⟨false, m'⟩ ∧ m'.failNext = none ∧ registers m' = registers m := by
  have hlocal : m.open_.handle repr (strip LOCAL)
      = (.ok none, { m with isOpen := true, remote := false }) := rfl
  have htransact := transact_handle repr (m := m.open_) false rfl hfail (fun h => by cases h)
    hlocal timeout
  refine yields_hold repr ((Coro.yields_op rfl rfl : Line.open_.Yields (bench repr) ⟨true, m⟩
    fun _ b => b = ⟨true, m.open_⟩).bind ?_)
  rintro _ _ rfl
  refine Coro.Yields.bind (Φ := fun _ b => b = ⟨true, { m with isOpen := true, remote := false }⟩)
    (Coro.yields_op (a := none) ?_ rfl) fun _ b hb =>
      Coro.yields_pure ⟨{ m with isOpen := true, remote := false }, hb, hfail, rfl⟩
  show ((m.open_.transact repr LOCAL false timeout).1,
    Bench.mk true (m.open_.transact repr LOCAL false timeout).2) = _
  rw [htransact]
  rfl

/-- `manager.stop()` closes it. -/
theorem yields_stop (repr : Rat → Str) (m : MockTransport) :
    (lineManager timeout).stop.Yields (bench repr) ⟨false, m⟩
      fun _ b => ∃ m', b = ⟨false, m'⟩ ∧ m' = m.close :=
  yields_hold repr (Coro.yields_op rfl ⟨_, rfl, rfl⟩)

/-- **THE PROBE REPORTS THE METER**: of a mock in any state, open or closed, the probe reports
    the registers, and leaves them as they are and the mock closed. -/
theorem probe_reports (m : MockTransport) : ∃ x b,
    (probe (lineManager timeout) numerals.float).run (bench numerals.repr)
      ⟨false, { m with failNext := none }⟩ = (.ok x, b) ∧
    x.Tells (registers m) ∧ registers b.meter = registers m ∧ b.meter.isOpen = false ∧
      b.locked = false := by
  have hprobe : (probe (lineManager timeout) numerals.float).Yields (bench numerals.repr)
      ⟨false, { m with failNext := none }⟩ fun x b => x.Tells (registers m) ∧
        registers b.meter = registers m ∧ b.meter.isOpen = false ∧ b.locked = false := by
    refine (yields_start timeout numerals.repr rfl).bind ?_
    rintro _ _ ⟨m₁, rfl, hfail₁, hregisters₁⟩
    obtain ⟨x, b₂, hrun, htells, hholds⟩ := yields_runProbe numerals timeout
      (s := registers m) (b := ⟨false, m₁⟩) ⟨rfl, hfail₁, hregisters₁⟩
    refine Coro.Yields.tryFinally (Φ := fun x b => x.Tells (registers m) ∧ Holds (registers m) b)
      ⟨x, b₂, (Coro.run_translate ..).trans hrun, htells, hholds⟩ ?_
    rintro x ⟨locked, m₂⟩ ⟨htells, hfree, -, hregisters⟩
    obtain rfl : locked = false := hfree
    refine (yields_stop timeout numerals.repr m₂).mono ?_
    rintro _ _ ⟨_, rfl, rfl⟩
    exact ⟨htells, hregisters, rfl, rfl⟩
  obtain ⟨x, b, hrun, hx⟩ := hprobe
  exact ⟨x, b, hrun, hx⟩

end Mock

/-! ## The probe of a meter -/

section Meter

open PortScript

variable (T : SerialTransport) (script : Script) (timeout : Rat) (float : Str → Option V)

/-- A call gives the lock back. -/
theorem perform_unlocked (c : Call) {d : Desk} (hfree : d.locked = false) :
    (((serialManager T timeout).perform c).run (desk T script) d).2.locked = false := by
  have htransact : ((serialManager T timeout).transact c.command c.expects c.timeout).run
      (desk T script) d = _ :=
    run_hold T script ((serialManager T timeout).exchange c.command c.expects
      (c.timeout.getD timeout)) hfree
  rw [DeviceManager.perform_eq, Coro.run_andThen, htransact]
  dsimp only
  generalize ((serialManager T timeout).exchange c.command c.expects
    (c.timeout.getD timeout)).run (desk T script) { d with locked := true } = x
  obtain ⟨e | r, d'⟩ := x
  · rfl
  · dsimp only
    rw [Coro.run_ofExcept]

/-- `manager.stop()` leaves the transport closed, also where `ser.close()` raises. -/
theorem stop_closes {d : Desk} (hfree : d.locked = false) :
    ((serialManager T timeout).stop.run (desk T script) d).2.isOpen = false ∧
      ((serialManager T timeout).stop.run (desk T script) d).2.locked = false := by
  have hclose : (SerialTransport.close.run (desk T script) { d with locked := true }).2.serial
      = none := by
    cases hopen : ({ d with locked := true } : Desk).isOpen with
    | true =>
        obtain ⟨opened, hrun⟩ := run_close T script hopen
        rw [hrun]
    | false => rw [run_close_closed T script hopen]
  have hstop : (serialManager T timeout).stop.run (desk T script) d = _ :=
    run_hold T script SerialTransport.close hfree
  rw [hstop]
  refine ⟨?_, rfl⟩
  show Desk.isOpen { (SerialTransport.close.run (desk T script) { d with locked := true }).2 with
    locked := false } = false
  rw [Desk.isOpen]
  dsimp only
  rw [hclose]

/-- The `try` of the probe, whatever comes of `run_probe`. -/
theorem try_closes {d : Desk} (hfree : d.locked = false) :
    let x := (((runProbe float).translate (serialManager T timeout).perform).tryFinally
      (serialManager T timeout).stop).run (desk T script) d
    x.2.isOpen = false ∧ x.2.locked = false := by
  intro x
  have hbody : (((runProbe float).translate (serialManager T timeout).perform).run
      (desk T script) d).2.locked = false := by
    rw [Coro.run_translate]
    refine Coro.run_keeps _ (runProbe float) (J := fun d' : Desk => d'.locked = false)
      (fun c d' hd => ?_) hfree
    exact perform_unlocked T script timeout c hd
  have hx : x = _ := Coro.run_tryFinally (desk T script) _ _ d
  clear_value x
  obtain ⟨hclosed, hunlocked⟩ := stop_closes T script timeout hbody
  revert hx hclosed hunlocked
  generalize (serialManager T timeout).stop.run (desk T script) _ = y
  obtain ⟨_ | _, d'⟩ := y <;> rintro rfl hclosed hunlocked <;> exact ⟨hclosed, hunlocked⟩

/-- **THE TRANSPORT STAYS OPEN** after a probe just if `manager.start()` has opened it and its
    greeting then failed: whatever `run_probe` comes to, `manager.stop()` makes the transport forget
    its port, also where `ser.close()` raises. -/
theorem probe_leaves_open {d : Desk} (hfree : d.locked = false) (hclosed : d.isOpen = false) :
    let x := (probe (serialManager T timeout) float).run (desk T script) d
    (x.2.isOpen = true ↔ script.construct d.constructed = .ok () ∧
      ((script.transaction d.transacted).Fails LOCAL false ∨
        (script.transaction d.transacted).Escapes LOCAL)) ∧
    (x.2.isOpen = true → ∃ e, x.1 = .error e) ∧ x.2.locked = false := by
  intro x
  have hx : x = _ := Coro.run_bind (desk T script) (serialManager T timeout).start _ d
  have hstart : (serialManager T timeout).start.run (desk T script) d = _ :=
    run_hold T script (serialManager T timeout).connect hfree
  rw [hstart] at hx
  clear_value x
  rcases hcon : script.construct d.constructed with e | _
  · -- no port: `start` raises, and there is nothing to close
    have hopen := run_open T script (d := { d with locked := true }) hclosed
    rw [DeviceManager.connect, Coro.run_bind, show (serialManager T timeout).transport.open_.run
      (desk T script) { d with locked := true } = _ from hopen, hcon] at hx
    subst hx
    have hstill : Desk.isOpen { d with constructed := d.constructed + 1, locked := false }
        = false := hclosed
    refine ⟨iff_of_false (fun h => ?_) (fun h => ?_), fun _ => ⟨_, rfl⟩, rfl⟩
    · exact Bool.false_ne_true (hstill.symm.trans h)
    · cases h.1
  · obtain ⟨r, w, hrun, hexp, -⟩ :=
      run_connect T script (d := { d with locked := true }) hclosed hcon timeout
    rw [hrun] at hx
    cases r with
    | error e =>
        -- the `try` has not begun: nobody closes the port that was opened
        subst hx
        have hopen : Desk.isOpen { ({ d with locked := true } : Desk).reopen.play w with
            locked := false } = true := Desk.isOpen_reopen _
        refine ⟨iff_of_true hopen ⟨rfl, ?_⟩, fun _ => ⟨e, rfl⟩, rfl⟩
        cases e with
        | transportError exc => exact .inl hexp
        | termiosError text => exact .inr hexp
        | unicodeEncodeError => exact .inr hexp
        | _ => exact hexp.elim
    | ok greeting =>
        have hnot : ¬ ((script.transaction d.transacted).Fails LOCAL false ∨
            (script.transaction d.transacted).Escapes LOCAL) := by
          have hreturns : (script.transaction d.transacted).Returns LOCAL false greeting := hexp
          rintro (h | h)
          · exact hreturns.not_fails h
          · exact hreturns.not_escapes h
        obtain ⟨hstopped, hunlocked⟩ : x.2.isOpen = false ∧ x.2.locked = false := by
          subst hx
          exact try_closes T script timeout float rfl
        exact ⟨iff_of_false (fun h => Bool.false_ne_true (hstopped.symm.trans h)) fun h => hnot h.2,
          fun h => absurd (hstopped.symm.trans h) Bool.false_ne_true, hunlocked⟩

/-- The port opens, and nothing that is written to it drains. -/
def stalled : Script where
  construct _ := .ok ()
  transaction _ :=
    ⟨.ok (), .ok (), .error (.portError (.serialException "write failed".toList)), .ok []⟩
  close _ := .ok ()

theorem probe_leaves_open_stalled :
    ((probe (serialManager ⟨"/dev/ttyUSB0".toList, 115200⟩ 2) fun _ => some ()).run
      (desk ⟨"/dev/ttyUSB0".toList, 115200⟩ stalled)
      ⟨false, none, fun _ => false, 0, 0, 0, []⟩).2.isOpen = true := by
  have hstalled := probe_leaves_open ⟨"/dev/ttyUSB0".toList, 115200⟩ stalled 2 (fun _ => some ())
    (d := ⟨false, none, fun _ => false, 0, 0, 0, []⟩) rfl rfl
  refine hstalled.1.mpr ⟨rfl, .inl (.inr ⟨rfl, rfl, .inr ⟨rfl, .inl ?_⟩⟩)⟩
  exact ⟨.serialException "write failed".toList, rfl⟩

end Meter

end Probe
