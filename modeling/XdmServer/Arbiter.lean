import XdmServer.Manager
import XdmServer.ConnectionLog

/-! # The failure discipline of the arbiter

    The manager alone on a transport that keeps the contract of `Transport`, with any
    outcome of any of its calls.  `CallTrace` is everything one call can do to the
    transport; `runCall_trace` says so, and the discipline of a run of any length is
    read off it. -/

namespace Arbiter

open PyText Coroutine Commands Device ConnectionLog

variable {τ : Type}

/-- A transport that keeps its contract; its state `τ` decides every outcome. -/
structure ContractTransport (τ : Type) where
  isOpen : τ → Bool
  open_ : τ → Except TransportError Unit × τ
  close : τ → Except TransportError Unit × τ
  transact : τ → Str → Bool → Rat → Except TransportError (Option Str) × τ
  open_opens : ∀ s, (open_ s).1 = .ok () → isOpen (open_ s).2 = true
  close_closes : ∀ s, isOpen (close s).2 = false
  transact_stays : ∀ s command expects timeout, isOpen s = true →
    isOpen (transact s command expects timeout).2 = true
  transact_answers : ∀ s command expects timeout r,
    (transact s command expects timeout).1 = .ok r → r.isSome = expects

/-- The manager's lock, the transport, and the log of what the transport was asked. -/
structure Bench (τ : Type) where
  locked : Bool
  dev : τ
  log : List Event

/-- What the manager's calls on lock and transport do. -/
def bench (T : ContractTransport τ) : Coro.Handler Line Exc (Bench τ)
  | .acquire, b =>
      -- a task alone would wait for ever on a lock it holds
      if b.locked then (.error .runtimeError, b) else (.ok (), { b with locked := true })
  | .release, b => (.ok (), { b with locked := false })
  | .isOpen, b => (.ok (T.isOpen b.dev), b)
  | .open_, b =>
      match T.open_ b.dev with
      | (.ok _, d) =>
          (.ok (), { b with
            dev := d, log := b.log ++ if T.isOpen b.dev then [] else [.opened] })
      | (.error exc, d) =>
          (.error (.transportError exc), { b with dev := d, log := b.log ++ [.openFailed exc] })
  | .close, b =>
      match T.close b.dev with
      | (.ok _, d) => (.ok (), { b with dev := d, log := b.log ++ [.closed] })
      | (.error exc, d) =>
          (.error (.transportError exc), { b with dev := d, log := b.log ++ [.closed] })
  | .transact command expects timeout, b =>
      match T.transact b.dev command expects timeout with
      | (.ok r, d) =>
          (.ok r, { b with dev := d, log := b.log ++ [.sent command, .answered command (.ok r)] })
      | (.error exc, d) =>
          (.error (.transportError exc), { b with
            dev := d, log := b.log ++ [.sent command, .answered command (.error exc)] })

/-- One call on the manager, run to its end. -/
def runCall (T : ContractTransport τ) (timeout : Rat) (c : Call) (b : Bench τ) :
    Except Exc (Option Str) × Bench τ :=
  ((lineManager timeout).call c).run (bench T) b

/-- The state after a sequence of calls, each run to its end. -/
def runCalls (T : ContractTransport τ) (timeout : Rat) : List Call → Bench τ → Bench τ
  | [], b => b
  | c :: cs, b => runCalls T timeout cs (runCall T timeout c b).2

/-- **Everything one call can do**: from a transport open or closed, the events on it,
    the result of the call, and whether the transport is open afterwards. -/
inductive CallTrace (c : Call) : Bool → List Event → Except Exc (Option Str) → Bool → Prop
  | answered (r : Option Str) : r.isSome = c.expects →
      CallTrace c true [.sent c.command, .answered c.command (.ok r)] (.ok r) true
  | failed (exc : TransportError) :
      CallTrace c true [.sent c.command, .answered c.command (.error exc), .closed]
        (.error (.deviceError (.transactionFailed c.command exc))) false
  | notOpened (exc : TransportError) :
      CallTrace c false [.openFailed exc, .closed]
        (.error (.deviceError (.reconnectFailed exc))) false
  | notLocal (exc : TransportError) :
      CallTrace c false [.opened, .sent LOCAL, .answered LOCAL (.error exc), .closed]
        (.error (.deviceError (.reconnectFailed exc))) false
  | reopened {es : List Event} {r : Except Exc (Option Str)} {o : Bool} (l : Option Str) :
      CallTrace c true es r o →
      CallTrace c false ([.opened, .sent LOCAL, .answered LOCAL (.ok l)] ++ es) r o

variable (T : ContractTransport τ)

/-- One coroutine did what `CallTrace` says, from `b` on, and left the lock as it was. -/
def Ran (c : Call) (b : Bench τ) (x : Except Exc (Option Str) × Bench τ) : Prop :=
  x.2.locked = b.locked ∧ ∃ es, x.2.log = b.log ++ es ∧
    CallTrace c (T.isOpen b.dev) es x.1 (T.isOpen x.2.dev)

variable (timeout : Rat)

/-- Closing, whatever comes of it. -/
theorem run_safeClose (b : Bench τ) :
    (lineManager timeout).safeClose.run (bench T) b
      = (.ok (), { b with dev := (T.close b.dev).2, log := b.log ++ [.closed] }) := by
  rw [DeviceManager.safeClose, Coro.run_tryExcept]
  rw [show (lineManager timeout).transport.close.run (bench T) b = bench T .close b
    from Coro.run_op _ _ _]
  rcases h : T.close b.dev with ⟨exc | u, d⟩ <;> simp [bench, h]

/-- The command itself, on an open transport. -/
theorem attempt_ran (limit : Rat) (c : Call) (b : Bench τ) (hopen : T.isOpen b.dev = true) :
    Ran T c b (((lineManager timeout).attempt c.command c.expects limit).run (bench T) b) := by
  rw [DeviceManager.attempt, Coro.run_tryExcept]
  rw [show ((lineManager timeout).transport.transact c.command c.expects limit).run (bench T) b
    = bench T (.transact c.command c.expects limit) b from Coro.run_op _ _ _]
  rcases h : T.transact b.dev c.command c.expects limit with ⟨exc | r, d⟩
  · simp only [bench, h, Coro.run_bind, run_safeClose, Coro.run_raise]
    refine ⟨rfl, [.sent c.command, .answered c.command (.error exc), .closed], by simp, ?_⟩
    rw [hopen, T.close_closes]
    exact .failed exc
  · have hstay := T.transact_stays b.dev c.command c.expects limit hopen
    have hans := T.transact_answers b.dev c.command c.expects limit r (by rw [h])
    rw [h] at hstay
    simp only [bench, h]
    refine ⟨rfl, [.sent c.command, .answered c.command (.ok r)], rfl, ?_⟩
    rw [hopen, hstay]
    exact .answered r hans

/-- **Reconnecting**: it ends open and greeted, or closed with a `DeviceError`. -/
theorem run_reconnect (b : Bench τ) (hclosed : T.isOpen b.dev = false) :
    (∃ l d, (lineManager timeout).reconnect.run (bench T) b = (.ok (), { b with
        dev := d, log := b.log ++ [.opened, .sent LOCAL, .answered LOCAL (.ok l)] }) ∧
      T.isOpen d = true) ∨
    (∃ exc d es, (lineManager timeout).reconnect.run (bench T) b
        = (.error (.deviceError (.reconnectFailed exc)), { b with
          dev := d, log := b.log ++ es }) ∧ T.isOpen d = false ∧
      (es = [.openFailed exc, .closed] ∨
        es = [.opened, .sent LOCAL, .answered LOCAL (.error exc), .closed])) := by
  rw [DeviceManager.reconnect, Coro.run_tryExcept, DeviceManager.connect, Coro.run_bind]
  rw [show (lineManager timeout).transport.open_.run (bench T) b = bench T .open_ b
    from Coro.run_op _ _ _]
  -- the open, and then the LOCAL, may each fail; both end in `_safe_close`
  rcases h : T.open_ b.dev with ⟨exc | u, d⟩
  · refine .inr ⟨exc, (T.close d).2, [.openFailed exc, .closed], ?_, T.close_closes d, .inl rfl⟩
    simp [bench, h, Coro.run_bind, run_safeClose]
  · have hopened : T.isOpen d = true := by
      have := T.open_opens b.dev (by rw [h])
      rwa [h] at this
    simp only [bench, h, hclosed, Coro.run_bind]
    rw [show ∀ b', ((lineManager timeout).transport.transact LOCAL false
        (lineManager timeout).defaultTimeout).run (bench T) b'
      = bench T (.transact LOCAL false timeout) b' from fun b' => Coro.run_op _ _ _]
    rcases hl : T.transact d LOCAL false timeout with ⟨exc | l, d'⟩
    · refine .inr ⟨exc, (T.close d').2,
        [.opened, .sent LOCAL, .answered LOCAL (.error exc), .closed], ?_, T.close_closes d',
        .inr rfl⟩
      simp [bench, hl, Coro.run_bind, run_safeClose]
    · refine .inl ⟨l, d', ?_, ?_⟩
      · simp [bench, hl]
      · have hstay := T.transact_stays d LOCAL false timeout hopened
        rwa [hl] at hstay

/-- The manager's lock, taken by a task that runs alone. -/
theorem run_hold {α : Type} (body : Coro Line Exc α) (b : Bench τ) (hb : b.locked = false) :
    (lineLock.hold body).run (bench T) b
      = ((body.run (bench T) { b with locked := true }).1,
        { (body.run (bench T) { b with locked := true }).2 with locked := false }) := by
  rw [Lock.hold, Coro.run_bind]
  have hacq : lineLock.acquire.run (bench T) b = (.ok (), { b with locked := true }) := by
    rw [show lineLock.acquire.run (bench T) b = bench T .acquire b from Coro.run_op _ _ _]
    obtain ⟨locked, d, log⟩ := b
    obtain rfl : locked = false := hb
    rfl
  rw [hacq]
  show (body.tryFinally lineLock.release).run (bench T) _ = _
  rw [Coro.run_tryFinally]
  rfl

/-- What a call does under the lock. -/
theorem exchange_ran (limit : Rat) (c : Call) (b : Bench τ) :
    Ran T c b (((lineManager timeout).exchange c.command c.expects limit).run (bench T) b) := by
  rw [DeviceManager.exchange, DeviceManager.ensureOpen, Coro.run_bind, Coro.run_bind]
  rw [show (lineManager timeout).transport.isOpen.run (bench T) b = bench T .isOpen b
    from Coro.run_op _ _ _]
  cases hopen : T.isOpen b.dev with
  | true =>
      -- nothing to reconnect: the command goes out at once
      simp only [bench, hopen, if_true, Coro.run_pure]
      exact attempt_ran T timeout limit c b hopen
  | false =>
      simp only [bench, hopen, Bool.false_eq_true, if_false]
      -- the command goes out on the connection that `_reconnect` has greeted, or not at all
      obtain ⟨l, d, hrun, hd⟩ | ⟨exc, d, es, hrun, hd, hes⟩ := run_reconnect T timeout b hopen
      · rw [hrun]
        obtain ⟨hlock, es, hlog, htr⟩ := attempt_ran T timeout limit c { b with
          dev := d, log := b.log ++ [.opened, .sent LOCAL, .answered LOCAL (.ok l)] } hd
        refine ⟨hlock, [.opened, .sent LOCAL, .answered LOCAL (.ok l)] ++ es, ?_, ?_⟩
        · rw [hlog, List.append_assoc]
        · rw [hopen]
          exact .reopened l (hd ▸ htr)
      · rw [hrun]
        refine ⟨rfl, es, rfl, ?_⟩
        rw [hopen, hd]
        rcases hes with rfl | rfl
        · exact .notOpened exc
        · exact .notLocal exc

/-- An answer of a trace is there exactly for a query. -/
theorem CallTrace.isSome {c : Call} {i o : Bool} {es : List Event} {r : Option Str}
    (h : CallTrace c i es (.ok r) o) : r.isSome = c.expects := by
  generalize hx : (Except.ok r : Except Exc (Option Str)) = x at h
  induction h with
  | answered r' hr =>
      obtain rfl := Except.ok.inj hx
      exact hr
  | reopened l _ ih => exact ih hx
  | _ => exact nomatch hx

/-- **One call, run to its end**: everything it does is a `CallTrace`. -/
theorem runCall_trace (c : Call) (b : Bench τ) (hb : b.locked = false) :
    (runCall T timeout c b).2.locked = false ∧ ∃ es,
      (runCall T timeout c b).2.log = b.log ++ es ∧
      CallTrace c (T.isOpen b.dev) es (runCall T timeout c b).1
        (T.isOpen (runCall T timeout c b).2.dev) := by
  have hran := exchange_ran T timeout (c.timeout.getD timeout) c { b with locked := true }
  have htrans : ((lineManager timeout).transact c.command c.expects c.timeout).run (bench T) b
      = _ := run_hold T _ b hb
  rw [runCall, DeviceManager.run_call, htrans]
  change Ran T c _ (Coro.run (bench T) ((lineManager timeout).exchange c.command c.expects
    (c.timeout.getD (lineManager timeout).defaultTimeout)) _) at hran
  rcases hx : ((lineManager timeout).exchange c.command c.expects
    (c.timeout.getD (lineManager timeout).defaultTimeout)).run (bench T)
      { b with locked := true } with ⟨e | r, b'⟩
  · rw [hx] at hran
    obtain ⟨-, es, hlog, htr⟩ := hran
    exact ⟨rfl, es, hlog, htr⟩
  · rw [hx] at hran
    obtain ⟨-, es, hlog, htr⟩ := hran
    have hsome : r.isSome = c.expects := htr.isSome
    refine ⟨rfl, es, hlog, ?_⟩
    -- the `assert` of `query` cannot fail: the transport keeps its contract
    have hval : (if c.expects && r.isNone then .error .assertionError
        else .ok (if c.expects then r else none) : Except Exc (Option Str)) = .ok r := by
      cases r <;> simp_all
    show CallTrace c _ es (if _ then _ else _) _
    rw [hval]
    exact htr

/-! ## Runs of calls -/

/-- Where the connection of an arbiter at rest stands. -/
def rest (isOpen : Bool) : Conn := if isOpen then .inLocal else .closed

/-- Between calls the lock is free, nothing has gone out before LOCAL, and an open
    connection has been put in LOCAL mode. -/
structure Rested (b : Bench τ) : Prop where
  unlocked : b.locked = false
  localFirst : LocalFirst b.log
  conn : conn b.log = rest (T.isOpen b.dev)

/-- How `runner.serve` leaves the manager: nothing done, and the transport closed. -/
structure Initial (b : Bench τ) : Prop where
  unlocked : b.locked = false
  isOpen : T.isOpen b.dev = false
  log : b.log = []

theorem Initial.rested {b : Bench τ} (h : Initial T b) : Rested T b where
  unlocked := h.unlocked
  localFirst := by
    rw [h.log]
    rfl
  conn := by
    rw [h.log, h.isOpen]
    rfl

/-- A call sends LOCAL first on every connection it opens, and leaves the connection
    in LOCAL mode or gone. -/
theorem CallTrace.orderly {c : Call} {i o : Bool} {es : List Event}
    {r : Except Exc (Option Str)} (h : CallTrace c i es r o) :
    orderly (rest i) es = true ∧ es.foldl Conn.next (rest i) = rest o := by
  induction h with
  | answered r _ => exact ⟨rfl, rfl⟩
  | failed exc => exact ⟨rfl, rfl⟩
  | notOpened exc => exact ⟨rfl, rfl⟩
  | notLocal exc => exact ⟨rfl, rfl⟩
  | reopened l _ ih =>
      have hgreet : [Event.opened, .sent LOCAL, .answered LOCAL (.ok l)].foldl Conn.next
        (rest false) = rest true := rfl
      rw [orderly_append, List.foldl_append, hgreet]
      exact ⟨ih.1, ih.2⟩

/-- One call keeps the arbiter at rest. -/
theorem runCall_rested (c : Call) {b : Bench τ} (h : Rested T b) :
    Rested T (runCall T timeout c b).2 := by
  obtain ⟨hlock, es, hlog, htr⟩ := runCall_trace T timeout c b h.unlocked
  obtain ⟨hord, hconn⟩ := htr.orderly
  refine ⟨hlock, ?_, ?_⟩
  · rw [hlog]
    exact localFirst_append.mpr ⟨h.localFirst, h.conn ▸ hord⟩
  · rw [hlog, conn_append, h.conn, hconn]

/-- **Any number of calls** keeps the arbiter at rest. -/
theorem runCalls_rested (calls : List Call) {b : Bench τ} (h : Rested T b) :
    Rested T (runCalls T timeout calls b) := by
  induction calls generalizing b with
  | nil => exact h
  | cons c cs ih => exact ih (runCall_rested T timeout c h)

/-- What `_reconnect` did before the command: nothing on an open transport, and on a
    closed one an opening and, if that came off, `SYST:LOC`. -/
inductive Greeting : Bool → List Event → Prop
  | none : Greeting true []
  | notOpened (exc : TransportError) : Greeting false [.openFailed exc, .closed]
  | notLocal (exc : TransportError) :
      Greeting false [.opened, .sent LOCAL, .answered LOCAL (.error exc), .closed]
  | inLocal (l : Option Str) :
      Greeting false [.opened, .sent LOCAL, .answered LOCAL (.ok l)]

/-- The discipline of one call, read off its events and its result. -/
structure Disciplined (c : Call) (greeting own : List Event) (r : Except Exc (Option Str))
    (o : Bool) : Prop where
  /-- The command is handed over once, unless the reconnect failed, and then never. -/
  handed : commands own = if failures greeting = [] then [c.command] else []
  /-- What is returned is what the command's transaction returned. -/
  returned : ∀ v, r = .ok v ↔ results own = [v]
  /-- A `DeviceError` means that the open, `SYST:LOC` or the command failed. -/
  raised : (∃ e, r = .error (.deviceError e)) ↔ failures (greeting ++ own) ≠ []
  /-- Nothing else is raised. -/
  onlyDevice : ∀ e, r = .error e → ∃ d, e = .deviceError d
  closed : ∀ e, r = .error e → o = false
  isOpen : ∀ v, r = .ok v → o = true

/-- The part of a trace on an open transport. -/
theorem CallTrace.disciplined_open {c : Call} {o : Bool} {es : List Event}
    {r : Except Exc (Option Str)} (h : CallTrace c true es r o) {greeting : List Event}
    (hg : failures greeting = []) : Disciplined c greeting es r o := by
  have hfail : failures (greeting ++ es) = failures es := by
    rw [failures, List.filterMap_append]
    exact congrArg (· ++ failures es) hg
  cases h with
  | answered v _ =>
      refine ⟨by rw [if_pos hg]; rfl, ?_, ?_, fun e he => (nomatch he), fun e he => (nomatch he),
        fun _ _ => rfl⟩
      · intro w
        show Except.ok v = Except.ok w ↔ [v] = [w]
        simp
      · rw [hfail]
        exact iff_of_false (fun ⟨_, he⟩ => nomatch he) fun hne => hne rfl
  | failed exc =>
      refine ⟨by rw [if_pos hg]; rfl, ?_, ?_, ?_, fun _ _ => rfl, fun v hv => (nomatch hv)⟩
      · exact fun w => iff_of_false (fun hw => nomatch hw) fun hw => nomatch hw
      · rw [hfail]
        exact iff_of_true ⟨_, rfl⟩ (List.cons_ne_nil _ _)
      · exact fun e he => ⟨_, (Except.error.inj he).symm⟩

/-- A call whose reconnect failed. -/
theorem disciplined_refused (c : Call) {greeting : List Event} {exc : TransportError}
    (hg : failures greeting = [exc]) :
    Disciplined c greeting [] (.error (.deviceError (.reconnectFailed exc))) false where
  handed := by rw [if_neg (by rw [hg]; exact List.cons_ne_nil _ _)]; rfl
  returned := fun _ => iff_of_false (fun hw => nomatch hw) fun hw => nomatch hw
  raised := by
    rw [List.append_nil, hg]
    exact iff_of_true ⟨_, rfl⟩ (List.cons_ne_nil _ _)
  onlyDevice := fun _ he => ⟨_, (Except.error.inj he).symm⟩
  closed := fun _ _ => rfl
  isOpen := fun _ hv => nomatch hv

/-- Every trace is a greeting and the command, and keeps the discipline. -/
theorem CallTrace.disciplined {c : Call} {i o : Bool} {es : List Event}
    {r : Except Exc (Option Str)} (h : CallTrace c i es r o) :
    ∃ greeting own, es = greeting ++ own ∧ Greeting i greeting ∧
      Disciplined c greeting own r o := by
  cases h with
  | answered v hv =>
      exact ⟨[], _, rfl, .none, (CallTrace.answered v hv).disciplined_open rfl⟩
  | failed exc => exact ⟨[], _, rfl, .none, (CallTrace.failed exc).disciplined_open rfl⟩
  | notOpened exc =>
      exact ⟨_, [], (List.append_nil _).symm, .notOpened exc, disciplined_refused c rfl⟩
  | notLocal exc =>
      exact ⟨_, [], (List.append_nil _).symm, .notLocal exc, disciplined_refused c rfl⟩
  | reopened l htr => exact ⟨_, _, rfl, .inLocal l, htr.disciplined_open rfl⟩

/-- **THE FAILURE DISCIPLINE**: after any sequence of calls, whatever the transport
    made of each open, transaction and close, the next call hands its command over
    exactly once unless its reconnect failed and then never, returns what that
    transaction returned, raises a `DeviceError` exactly for a failed open, LOCAL or
    command, leaves the transport closed after an error and open after a return; and
    along the whole run every connection was put in LOCAL mode first. -/
theorem failure_discipline (calls : List Call) (c : Call) (b₀ : Bench τ)
    (h₀ : Initial T b₀) :
    let b := runCalls T timeout calls b₀
    let x := runCall T timeout c b
    LocalFirst x.2.log ∧ ∃ greeting own, x.2.log = b.log ++ greeting ++ own ∧
      Greeting (T.isOpen b.dev) greeting ∧
      Disciplined c greeting own x.1 (T.isOpen x.2.dev) := by
  intro b x
  have hb : Rested T b := runCalls_rested T timeout calls (h₀.rested T)
  obtain ⟨-, es, hlog, htr⟩ := runCall_trace T timeout c b hb.unlocked
  obtain ⟨greeting, own, rfl, hg, hd⟩ := htr.disciplined
  refine ⟨(runCall_rested T timeout c hb).localFirst, greeting, own, ?_, hg, hd⟩
  rw [hlog, List.append_assoc]

/-- A transport that opens and fails by turns, and answers every query with a zero. -/
def flaky : ContractTransport (Bool × Nat) where
  isOpen s := s.1
  open_ s := if s.2 % 3 = 1 then (.error (.other []), false, s.2 + 1) else (.ok (), true, s.2 + 1)
  close s := (.error (.other []), false, s.2 + 1)
  transact s _ expects _ :=
    (if s.2 % 3 = 2 then .error (.other []) else .ok (if expects then some "0".toList else none),
      s.1, s.2 + 1)
  open_opens s h := by
    split at h
    · exact nomatch h
    · next hs => rw [if_neg hs]
  close_closes _ := rfl
  transact_stays _ _ _ _ h := h
  transact_answers s _ expects _ r h := by
    split at h
    · exact nomatch h
    · obtain rfl := Except.ok.inj h
      cases expects <;> rfl

/-- The discipline on a run of the flaky transport: a query that fails, a write that
    cannot reopen, and a query after them. -/
theorem failure_discipline_flaky :
    let b := runCalls flaky 2 [.query MEASURE none, .write AUTO_RANGE none] ⟨false, (false, 0), []⟩
    let x := runCall flaky 2 (.query FUNCTION none) b
    LocalFirst x.2.log ∧ ∃ greeting own, x.2.log = b.log ++ greeting ++ own ∧
      Greeting (flaky.isOpen b.dev) greeting ∧
      Disciplined (.query FUNCTION none) greeting own x.1 (flaky.isOpen x.2.dev) :=
  failure_discipline flaky 2 [.query MEASURE none, .write AUTO_RANGE none]
    (.query FUNCTION none) ⟨false, (false, 0), []⟩ ⟨rfl, rfl, rfl⟩

end Arbiter
