import XdmServer.PortScript

/-! # Recovery from serial failures

    A call on the manager over a `SerialTransport`, from any state of the transport
    and against any script of pyserial outcomes.

    A failure is recovered from if the call raises a `DeviceError` and leaves the
    transport closed, so that the next call reopens it.  `_transact_blocking` turns
    only what its `except` clause names into a `TransportError`, `_transact` only a
    `TransportError` into a `DeviceError`, and `_safe_close` suppresses only a
    `TransportError`: `recovered_iff` says exactly which scripts that covers. -/

namespace Recovery

open PyText Coroutine Commands Device PortScript

/-- The call returned, or raised a `DeviceError` and left the transport closed. -/
def Recovered {α : Type} (x : Except Exc α × Desk) : Prop :=
  (∃ v, x.1 = .ok v) ∨ (∃ e, x.1 = .error (.deviceError e)) ∧ x.2.isOpen = false

/-- What a transaction and the `ser.close()` after it may come to: nothing but the
    exceptions of the `except` clause comes up before the answer is there, and if one
    of them does, the close returns. -/
def Survives (o : TxnScript) (close : Except PortError Unit) (command : Str)
    (expects : Bool) : Prop :=
  ¬ o.Escapes command ∧ (o.Fails command expects → close = .ok ())

/-- What the pyserial calls made for `c` may come to: those of its own transaction if
    the port is open, else those of the constructor, of the transaction of `SYST:LOC`,
    and, once that has succeeded, of its own. -/
structure Recovers (script : Script) (d : Desk) (c : Call) : Prop where
  attempt : d.isOpen = true →
    Survives (script.transaction d.transacted) (script.close d.closed) c.command c.expects
  greeting : d.isOpen = false → script.construct d.constructed = .ok () →
    Survives (script.transaction d.transacted) (script.close d.closed) LOCAL false
  reopened : d.isOpen = false → script.construct d.constructed = .ok () →
    ¬ (script.transaction d.transacted).Fails LOCAL false →
    Survives (script.transaction (d.transacted + 1)) (script.close d.closed)
      c.command c.expects

/-! ## A transaction and its cleanup -/

variable (T : SerialTransport) (timeout : Rat) (script : Script)

/-- A failure is recovered from if the cleanup close returns. -/
theorem cleanup_recovered {α : Type} {d : Desk} (hopen : d.isOpen = true) (e : DeviceError) :
    let x := (do
      (serialManager T timeout).safeClose
      .raise (.deviceError e) : Coro Serial Exc α).run (desk T script) d
    (Recovered x ↔ script.close d.closed = .ok ()) ∧ ∀ v, x.1 ≠ .ok v := by
  intro x
  obtain ⟨opened, hrun⟩ := run_safeClose T script hopen timeout
  have hx : x = _ := Coro.run_bind (desk T script) _ _ d
  rw [hrun] at hx
  clear_value x
  rcases hclose : script.close d.closed with e' | _
  · rw [hclose] at hx
    subst hx
    refine ⟨iff_of_false ?_ fun h => (nomatch h), fun v hv => (nomatch hv)⟩
    rintro (⟨v, hv⟩ | ⟨⟨e'', he⟩, -⟩)
    · exact nomatch hv
    · exact nomatch he
  · rw [hclose] at hx
    subst hx
    exact ⟨iff_of_true (.inr ⟨⟨e, rfl⟩, rfl⟩) rfl, fun v hv => (nomatch hv)⟩

/-- What an exception is worth does not depend on what should have been returned. -/
theorem recovered_error {α : Type} {e : Exc} {d : Desk} :
    Recovered ((.error e, d) : Except Exc α × Desk) ↔
      (∃ e', e = .deviceError e') ∧ d.isOpen = false := by
  constructor
  · rintro (⟨v, hv⟩ | ⟨⟨e', he⟩, hd⟩)
    · exact nomatch hv
    · exact ⟨⟨e', Except.error.inj he⟩, hd⟩
  · rintro ⟨⟨e', rfl⟩, hd⟩
    exact .inr ⟨⟨e', rfl⟩, hd⟩

theorem not_recovered {α : Type} {e : Exc} {d : Desk} (he : ∀ e', e ≠ .deviceError e') :
    ¬ Recovered ((.error e, d) : Except Exc α × Desk) :=
  fun h => let ⟨⟨e', he'⟩, _⟩ := recovered_error.mp h; he e' he'

/-- **The `try` of `_transact`**, on an open transport. -/
theorem attempt_recovered {d : Desk} (hopen : d.isOpen = true) (command : Str)
    (expects : Bool) (limit : Rat) :
    let x := ((serialManager T timeout).attempt command expects limit).run (desk T script) d
    (Recovered x ↔
      Survives (script.transaction d.transacted) (script.close d.closed) command expects) ∧
    ∀ r, x.1 = .ok r → r.isSome = expects := by
  intro x
  obtain ⟨r, w, hrun, hexp, -⟩ := run_transact T script hopen command expects limit
  have hx : x = _ := Coro.run_tryExcept (desk T script) _ _ d
  rw [show ((serialManager T timeout).transport.transact command expects limit).run
    (desk T script) d = _ from hrun] at hx
  clear_value x
  rcases r with e | r
  · -- an exception that no `except` clause names leaves the dead port marked open
    have hesc : (script.transaction d.transacted).Escapes command →
        ¬ Survives (script.transaction d.transacted) (script.close d.closed) command expects :=
      fun h hs => hs.1 h
    cases e with
    | transportError exc =>
        have hfail : (script.transaction d.transacted).Fails command expects := hexp
        obtain ⟨hiff, herr⟩ := cleanup_recovered (α := Option Str) T timeout script
          (d := d.play w) hopen (.transactionFailed command exc)
        subst hx
        refine ⟨hiff.trans ⟨fun h => ⟨fun hesc => hesc.not_fails hfail, fun _ => h⟩,
          fun hs => hs.2 hfail⟩, fun r hr => (herr r hr).elim⟩
    | termiosError text =>
        subst hx
        exact ⟨iff_of_false (not_recovered fun _ h => nomatch h) (hesc hexp),
          fun r hr => nomatch hr⟩
    | unicodeEncodeError =>
        subst hx
        exact ⟨iff_of_false (not_recovered fun _ h => nomatch h) (hesc hexp),
          fun r hr => nomatch hr⟩
    | _ => exact hexp.elim
  · have hret : (script.transaction d.transacted).Returns command expects r := hexp
    subst hx
    refine ⟨iff_of_true (.inl ⟨r, rfl⟩) ⟨hret.not_escapes, fun h => (hret.not_fails h).elim⟩, ?_⟩
    intro r' hr'
    obtain rfl : r = r' := Except.ok.inj hr'
    exact hret.isSome

/-! ## The reconnect -/

/-- `_reconnect` came off: a port is open, and one transaction of the script is played. -/
structure Reopened (d : Desk) (x : Except Exc Unit × Desk) : Prop where
  result : x.1 = .ok ()
  isOpen : x.2.isOpen = true
  transacted : x.2.transacted = d.transacted + 1
  closed : x.2.closed = d.closed

/-- A constructor that raises is recovered from. -/
theorem reconnect_refused {d : Desk} (hclosed : d.isOpen = false) {e : PortError}
    (hcon : script.construct d.constructed = .error e) :
    let x := (serialManager T timeout).reconnect.run (desk T script) d
    Recovered x ∧ x.1 ≠ .ok () := by
  intro x
  have hclose := run_safeClose_closed T script
    (d := { d with constructed := d.constructed + 1 }) hclosed timeout
  have hx : x = (.error (.deviceError (.reconnectFailed (.failedToOpen T.port e))),
      { d with constructed := d.constructed + 1, serial := none }) := by
    show (serialManager T timeout).reconnect.run (desk T script) d = _
    rw [DeviceManager.reconnect, Coro.run_tryExcept, DeviceManager.connect, Coro.run_bind]
    rw [show (serialManager T timeout).transport.open_.run (desk T script) d = _
      from run_open T script hclosed, hcon]
    show Coro.run _ (_ >>= _) _ = _
    rw [Coro.run_bind, hclose]
    rfl
  rw [hx]
  refine ⟨.inr ⟨⟨_, rfl⟩, rfl⟩, ?_⟩
  rintro ⟨⟩

/-- **Reconnecting**, once the constructor has returned: all depends on the
    transaction of `SYST:LOC`. -/
theorem reconnect_recovered {d : Desk} (hclosed : d.isOpen = false)
    (hcon : script.construct d.constructed = .ok ()) :
    let x := (serialManager T timeout).reconnect.run (desk T script) d
    let greeting := script.transaction d.transacted
    (Recovered x ↔ Survives greeting (script.close d.closed) LOCAL false) ∧
      (x.1 ≠ .ok () ↔ greeting.Escapes LOCAL ∨ greeting.Fails LOCAL false) ∧
      (x.1 = .ok () → Reopened d x) := by
  intro x greeting
  obtain ⟨r, w, hrun, hexp, -⟩ := run_connect T script hclosed hcon timeout
  have hx : x = _ := Coro.run_tryExcept (desk T script) _ _ d
  rw [hrun] at hx
  clear_value x
  have hopen : (d.reopen.play w).isOpen = true := d.isOpen_reopen
  rcases r with e | r
  · cases e with
    | transportError exc =>
        have hfail : greeting.Fails LOCAL false := hexp
        obtain ⟨hiff, herr⟩ := cleanup_recovered (α := Unit) T timeout script hopen
          (.reconnectFailed exc)
        subst hx
        exact ⟨hiff.trans ⟨fun h => ⟨fun hesc => hesc.not_fails hfail, fun _ => h⟩,
          fun hs => hs.2 hfail⟩, iff_of_true (herr ()) (.inr hfail),
          fun h => (herr () h).elim⟩
    | termiosError text =>
        subst hx
        exact ⟨iff_of_false (not_recovered fun _ h => nomatch h) fun hs => hs.1 hexp,
          iff_of_true (fun h => nomatch h) (.inl hexp), fun h => (nomatch h)⟩
    | unicodeEncodeError =>
        subst hx
        exact ⟨iff_of_false (not_recovered fun _ h => nomatch h) fun hs => hs.1 hexp,
          iff_of_true (fun h => nomatch h) (.inl hexp), fun h => (nomatch h)⟩
    | _ => exact hexp.elim
  · have hret : greeting.Returns LOCAL false r := hexp
    subst hx
    exact ⟨iff_of_true (.inl ⟨(), rfl⟩) ⟨hret.not_escapes, fun h => (hret.not_fails h).elim⟩,
      iff_of_false (fun h => h rfl) fun h => h.elim hret.not_escapes hret.not_fails,
      fun _ => ⟨rfl, hopen, rfl, rfl⟩⟩

/-! ## A whole call -/

/-- **Under the lock**: the reconnect if there is need of one, then the command. -/
theorem exchange_recovered (d : Desk) (c : Call) (limit : Rat) :
    let x := ((serialManager T timeout).exchange c.command c.expects limit).run
      (desk T script) d
    (Recovered x ↔ Recovers script d c) ∧ ∀ r, x.1 = .ok r → r.isSome = c.expects := by
  intro x
  have hx : x = _ := Coro.run_bind (desk T script) _ _ d
  rw [DeviceManager.ensureOpen, Coro.run_bind] at hx
  rw [show (serialManager T timeout).transport.isOpen.run (desk T script) d = _
    from run_isOpen T script d] at hx
  clear_value x
  cases hopen : d.isOpen with
  | true =>
      rw [hopen] at hx
      obtain ⟨hiff, hsome⟩ := attempt_recovered T timeout script hopen c.command c.expects limit
      subst hx
      refine ⟨hiff.trans ⟨fun h => ⟨fun _ => h, ?_, ?_⟩, fun h => h.attempt hopen⟩, hsome⟩
      · exact fun hc => nomatch hopen.symm.trans hc
      · exact fun hc => nomatch hopen.symm.trans hc
  | false =>
      rw [hopen] at hx
      dsimp only at hx
      rw [if_neg Bool.false_ne_true] at hx
      have hvac : d.isOpen = true → False := fun h => nomatch hopen.symm.trans h
      rcases hcon : script.construct d.constructed with e | _
      · -- the constructor raised: there is no port, so nothing can be left open
        obtain ⟨hrec, hne⟩ := reconnect_refused T timeout script hopen hcon
        have hok : script.construct d.constructed ≠ .ok () := fun h => nomatch hcon.symm.trans h
        rcases hrun : (serialManager T timeout).reconnect.run (desk T script) d with ⟨e' | _, d'⟩
        · rw [hrun] at hrec hx
          subst hx
          exact ⟨iff_of_true (recovered_error.mpr (recovered_error.mp hrec))
            ⟨fun h => (hvac h).elim, fun _ h => absurd h hok, fun _ h => absurd h hok⟩,
            fun r hr => nomatch hr⟩
        · rw [hrun] at hne
          exact absurd rfl hne
      · obtain ⟨hiff, hne, hopened⟩ := reconnect_recovered T timeout script hopen hcon
        rcases hrun : (serialManager T timeout).reconnect.run (desk T script) d with ⟨e | _, d'⟩
        · rw [hrun] at hiff hne hx
          subst hx
          -- the greeting failed: the command is not tried, and recovery is up to the cleanup
          have hbad := hne.mp fun h => nomatch h
          have hrec : Recovered ((.error e, d') : Except Exc (Option Str) × Desk) ↔ _ :=
            recovered_error.trans (recovered_error.symm.trans hiff)
          refine ⟨hrec.trans ⟨fun h => ⟨fun ho => (hvac ho).elim, fun _ _ => h, ?_⟩,
            fun h => h.greeting hopen hcon⟩, fun r hr => nomatch hr⟩
          exact fun _ _ hnf => (hbad.elim h.1 hnf).elim
        · rw [hrun] at hiff hne hx hopened
          -- the greeting came off: the command's own transaction is the next of the script
          obtain ⟨-, hopen', htrans, hclosed⟩ := hopened rfl
          obtain ⟨hatt, hsome⟩ :=
            attempt_recovered T timeout script hopen' c.command c.expects limit
          rw [htrans, hclosed] at hatt
          subst hx
          refine ⟨hatt.trans ⟨fun h => ⟨fun ho => (hvac ho).elim, fun _ _ => ?_, fun _ _ _ => h⟩,
            fun h => h.reopened hopen hcon ?_⟩, hsome⟩
          · exact hiff.mp (.inl ⟨(), rfl⟩)
          · exact fun hf => hne.mpr (.inr hf) rfl

/-- **RECOVERY FROM SERIAL FAILURES**: whatever the state of the transport, the command,
    and the outcomes of the pyserial calls, a call returns or raises a `DeviceError`
    leaving the transport closed exactly if no exception but the ones the `except`
    clauses name comes up on its path, and its cleanup close returns. -/
theorem recovered_iff (d : Desk) (hd : d.locked = false) (c : Call) :
    Recovered (((serialManager T timeout).perform c).run (desk T script) d) ↔
      Recovers script d c := by
  obtain ⟨hiff, hsome⟩ := exchange_recovered T timeout script { d with locked := true } c
    (c.timeout.getD timeout)
  have hcond : Recovers script { d with locked := true } c ↔ Recovers script d c :=
    ⟨fun ⟨h₁, h₂, h₃⟩ => ⟨h₁, h₂, h₃⟩, fun ⟨h₁, h₂, h₃⟩ => ⟨h₁, h₂, h₃⟩⟩
  have hhold := run_hold T script ((serialManager T timeout).exchange c.command c.expects
    (c.timeout.getD timeout)) hd
  rw [DeviceManager.perform_eq, Coro.run_andThen]
  rw [show ((serialManager T timeout).transact c.command c.expects c.timeout).run
    (desk T script) d = _ from hhold]
  rcases hrun : ((serialManager T timeout).exchange c.command c.expects
    (c.timeout.getD timeout)).run (desk T script) { d with locked := true } with ⟨e | r, d'⟩
  · rw [hrun] at hiff
    exact recovered_error.trans (recovered_error.symm.trans (hiff.trans hcond))
  · rw [hrun] at hiff hsome
    have hr : r.isSome = c.expects := hsome r rfl
    have hval : ∃ v, c.value r = .ok v := by
      cases c with
      | query command limit =>
          obtain ⟨v, rfl⟩ := Option.isSome_iff_exists.mp hr
          exact ⟨v, rfl⟩
      | write command limit => exact ⟨(), rfl⟩
    obtain ⟨v, hv⟩ := hval
    have hok : Recovered ((.ok r, d') : Except Exc (Option Str) × Desk) := .inl ⟨r, rfl⟩
    refine iff_of_true (.inl ⟨v, ?_⟩) (hcond.mp (hiff.mp hok))
    show ((Coro.ofExcept (c.value r)).run (desk T script) _).1 = _
    rw [hv]
    rfl

/-! ## A dead descriptor -/

/-- A manager that nothing has been asked of yet. -/
def unused : Desk := ⟨false, none, fun _ => false, 0, 0, 0, []⟩

/-- The state after some methods of the manager, each run to its end. -/
def after (methods : List Method) : Desk :=
  methods.foldl (fun d method =>
    (((serialManager T timeout).method method).run (desk T script) d).2) unused

/-- A transaction that the meter answers with a zero. -/
def answered : TxnScript := ⟨.ok (), .ok (), .ok (), .ok [48, 10]⟩

/-- The adapter is unplugged after `start`: `tcdrain` finds a dead descriptor. -/
def unplugged : Script where
  construct _ := .ok ()
  transaction n := if n = 0 then answered
    else ⟨.ok (), .ok (), .error (.termiosError "Input/output error".toList), .ok []⟩
  close _ := .ok ()

/-- `termios.error` passes every `except` clause of `transact` and `_transact`. -/
theorem query_unplugged :
    (((serialManager ⟨"/dev/ttyUSB0".toList, 115200⟩ 2).perform (.query MEASURE none)).run
      (desk ⟨"/dev/ttyUSB0".toList, 115200⟩ unplugged)
      (after ⟨"/dev/ttyUSB0".toList, 115200⟩ 2 unplugged [.start])).1
      = .error (.termiosError "Input/output error".toList) := rfl

/-- **Not every serial failure is recovered from.** -/
theorem not_every_failure_recovered :
    ¬ ∀ (T : SerialTransport) (timeout : Rat) (script : Script) (methods : List Method)
      (c : Call), Recovered (((serialManager T timeout).perform c).run (desk T script)
        (after T timeout script methods)) := by
  intro h
  obtain ⟨v, hv⟩ | ⟨⟨e, he⟩, -⟩ :=
    h ⟨"/dev/ttyUSB0".toList, 115200⟩ 2 unplugged [.start] (.query MEASURE none)
  · exact nomatch query_unplugged.symm.trans hv
  · exact nomatch query_unplugged.symm.trans he

/-- The condition, for a first query on that adapter. -/
theorem recovered_iff_unused :
    Recovered (((serialManager ⟨"/dev/ttyUSB0".toList, 115200⟩ 2).perform
      (.query MEASURE none)).run (desk ⟨"/dev/ttyUSB0".toList, 115200⟩ unplugged) unused) ↔
      Recovers unplugged unused (.query MEASURE none) :=
  recovered_iff _ 2 unplugged unused rfl _

end Recovery
