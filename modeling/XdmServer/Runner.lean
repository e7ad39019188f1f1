import XdmServer.EventLoop
import XdmServer.OnePort

/-! # Running and stopping the server

    `runner.serve` over the manager with all its tasks, the listener of the SCPI server, whose
    `wait_closed` waits for the connections that it has accepted, and the web server, of which
    nothing is known but that it may end.

    `serve_waits` says that `serve` ends after the last SCPI client, not before, and
    `port_closed_at_exit` what it leaves behind. -/

namespace Runner

open PyText Coroutine Commands Device SingleFlight LockReturns

/-! ## The runner -/

/-- Who calls the manager: the handler of an SCPI connection, a task of the web server, and
    `serve` itself. -/
inductive Party (κ μ : Type) where
  | scpi (k : κ)
  | web (m : μ)
  | serve
  deriving DecidableEq

/-- Where `serve` is. -/
inductive Main where
  /-- In `scpi.start()`. -/
  | starting
  /-- In `gather`. -/
  | gathering
  /-- In `scpi.stop()`. -/
  | closing
  /-- In `manager.stop()`. -/
  | stopping
  | ended
  deriving DecidableEq

/-- `server.serve()`. -/
inductive Web where
  | idle
  | running
  | returned
  | raised
  deriving DecidableEq

/-- `scpi.serve_forever()`. -/
inductive Forever where
  | serving
  /-- Cancelled, in the first `wait_closed`. -/
  | closing
  /-- In the `wait_closed` of `async with`. -/
  | exiting
  | done
  deriving DecidableEq

/-- `serve`, with what it has started: the port, the connections, the web server, the device. -/
structure State (κ μ : Type) where
  /-- The manager's tasks and workers, in the event loop. -/
  manager : EventLoop.State (Party κ μ)
  main : Main
  listening : Bool
  accepted : List κ
  /-- The connections that `wait_closed` waits for. -/
  active : List κ
  web : Web
  forever : Forever

variable (T : SerialTransport) (timeout : Rat) (threads : ℕ+) (κ μ : Type) [DecidableEq κ]
  [DecidableEq μ]

/-- What the tasks of the manager do. -/
abbrev Task := EventLoop.Task T timeout (Party κ μ)

/-- What may come next. -/
inductive Action where
  /-- `scpi.start()` returns, and `gather` begins. -/
  | listen
  /-- `scpi.start()` raises. -/
  | refuse
  /-- `serve` is cancelled. -/
  | cancel
  | accept (k : κ)
  /-- A connection is lost, or closed by its handler. -/
  | lose (k : κ)
  | manager (a : Task T timeout κ μ)
  | webEnds (web : Web)
  /-- `serve_forever` goes on. -/
  | forever
  /-- `gather` is over. -/
  | resume
  /-- `scpi.stop()` returns. -/
  | closed
  /-- `manager.stop()` is over. -/
  | finish

variable {κ μ}

namespace State

/-- `serve` is called, and nothing has been started. -/
def init : State κ μ where
  manager := .init
  main := .starting
  listening := false
  accepted := []
  active := []
  web := .idle
  forever := .serving

/-- `Server.close()`, which cancels a `serve_forever`. -/
def close (s : State κ μ) : State κ μ :=
  { s with
    listening := false
    forever := match s.forever with
      | .serving => .closing
      | forever => forever }

/-- `gather` cancels its tasks; when the web server ends is its own affair. -/
def cancelTasks (s : State κ μ) : State κ μ :=
  match s.forever with
  | .serving => s.close
  | .closing => { s with forever := .exiting }
  | .exiting => { s with forever := .done }
  | .done => s

/-- Both `wait_closed` return when the last connection is gone. -/
def goesOn (s : State κ μ) : Option (State κ μ) :=
  match s.forever with
  | .closing => if s.active = [] then some { s with forever := .exiting } else none
  | .exiting => if s.active = [] then some { s with forever := .done } else none
  | _ => none

/-- The manager's methods are called by whoever is there; `serve` calls `stop` in its turn. -/
def permits (s : State κ μ) : Task T timeout κ μ → Bool
  | .start (.scpi k) (.call _) => k ∈ s.active
  | .start (.web _) (.call _) => s.web ≠ .idle
  | .start _ _ => false
  | _ => true

/-- A step of the manager's tasks. -/
def manage (s : State κ μ) (a : Task T timeout κ μ) : Option (State κ μ) :=
  (s.manager.step T timeout threads a).map fun m => { s with manager := m }

/-- One action; `none` where it cannot be. -/
def step (s : State κ μ) : Action T timeout κ μ → Option (State κ μ)
  | .listen =>
      if s.main = .starting then
        some { s with main := .gathering, listening := true, web := .running }
      else none
  | .refuse => if s.main = .starting then some { s with main := .ended } else none
  | .cancel =>
      match s.main with
      | .starting => some { s with main := .ended }
      | .gathering => some s.cancelTasks
      -- `wait_closed` raises, and `manager.stop()` is not called
      | .closing => some { s with main := .ended }
      | _ => none
  | .accept k =>
      if s.listening ∧ k ∉ s.accepted then
        some { s with accepted := k :: s.accepted, active := k :: s.active }
      else none
  | .lose k => if k ∈ s.active then some { s with active := s.active.filter (· ≠ k) } else none
  | .manager a => if s.permits T timeout a then s.manage T timeout threads a else none
  | .webEnds web =>
      if s.web = .running ∧ (web = .returned ∨ web = .raised) then some { s with web := web }
      else none
  | .forever => s.goesOn
  -- one of the two has raised; `serve_forever` does not end otherwise
  | .resume =>
      if s.main = .gathering ∧ (s.web = .raised ∨ s.forever = .done) then
        some { s.close with main := .closing }
      else none
  | .closed =>
      if s.main = .closing ∧ s.active = [] then
        (s.manage T timeout threads (.start .serve .stop)).map fun s => { s with main := .stopping }
      else none
  | .finish =>
      if s.main = .stopping ∧ (s.manager.point .serve).outcome.isSome then
        some { s with main := .ended }
      else none

end State

/-! ## What a task has left -/

section Tasks

variable {ι : Type}

/-- The rest of a task's program. -/
def program : Interleaving.Point Serial Exc (Option Str) → Coro Serial Exc (Option Str)
  | .ready p => p
  | .waiting o k => .call o k

/-- The operations that do not wait for the lock. -/
def Prompt : SerialOp → Prop
  | .acquire => False
  | _ => True

/-- A program that waits for the lock once, and first of all, or does not. -/
def Lone (p : Coro Serial Exc (Option Str)) : Prop :=
  (∃ k, p = .call .acquire k ∧ ∀ r, (k r).Uses Prompt) ∨ p.Uses Prompt

/-- The operations of `close` that leave `_serial` alone, and `release`. -/
def Closing : SerialOp → Prop
  | .handleIsOpen _ | .toThread _ | .release => True
  | _ => False

/-- A program that is going to forget `_serial`, and not to set it again. -/
def Forgets {α : Type} : Coro Serial Exc α → Prop
  | .call .acquire k => ∀ u, Forgets (k (.ok u))
  | .call .getSerial k => ∀ ser, Forgets (k (.ok ser))
  | .call (.setSerial none) k => ∀ r, (k r).Uses Closing
  | _ => False

/-- `stop` waits for the lock once, and first of all. -/
theorem lone_stop : Lone ((serialManager T timeout).method .stop) := by
  have hprompt : ∀ o, SerialOp.Plain o → Prompt o := by
    intro o ho
    cases o with
    | acquire => exact ho
    | _ => trivial
  have hclose : SerialTransport.close.Uses Prompt := SerialTransport.plain_close.mono hprompt
  have hrelease : Serial.release.Uses Prompt := Coro.uses_op trivial
  refine .inl ⟨_, rfl, fun r => ?_⟩
  cases r with
  | error e => exact trivial
  | ok u =>
      refine Coro.Uses.andThen (hclose.tryFinally hrelease) fun r => ?_
      cases r <;> exact trivial

/-- `stop` forgets `_serial`. -/
theorem forgets_stop : Forgets ((serialManager T timeout).method .stop) := by
  have hrelease : Serial.release.Uses Closing := Coro.uses_op trivial
  -- what `close` does with the port that it has forgotten
  have hport : ∀ ser, (match ser with
      | some ser => do
          let isOpen ← Serial.handleIsOpen ser
          if isOpen then Serial.closeHandle ser else pure ()
      | none => pure () : Coro Serial Exc Unit).Uses Closing := by
    intro ser
    cases ser with
    | none => exact Coro.uses_pure ()
    | some ser =>
        refine (Coro.uses_op trivial).bind fun isOpen => ?_
        cases isOpen with
        | false => exact Coro.uses_pure ()
        | true => exact Coro.uses_op trivial
  intro u ser r
  refine Coro.Uses.andThen (Coro.Uses.andThen (Coro.Uses.andThen (Coro.uses_ofExcept r) ?_) ?_) ?_
  · intro r
    cases r with
    | error e => exact Coro.uses_raise e
    | ok u => exact hport ser
  · intro r
    refine hrelease.andThen fun r' => ?_
    cases r' with
    | error e => exact Coro.uses_raise e
    | ok u => exact Coro.uses_ofExcept r
  · intro r
    cases r with
    | error e => exact Coro.uses_raise e
    | ok u => exact Coro.uses_pure none

variable [DecidableEq ι] {T timeout}

/-- A task calls a method. -/
theorem start_eq {c c' : Interleaving.Config Serial Exc (Option Str) ι (Pool ι)} {t : ι}
    {m : Method} (hs : Interleaving.step (pool T timeout) c (.start t m) = some c') :
    c' = ⟨c.shared, Function.update c.point t (.ready ((serialManager T timeout).method m))⟩ := by
  simp only [Interleaving.step] at hs
  cases hr : (c.point t).outcome with
  | none =>
      rw [hr] at hs
      cases hs
  | some r =>
      rw [hr] at hs
      exact (Option.some.inj hs).symm

/-- **What a step makes of a task's program**: nothing, or an answer. -/
theorem program_step {c c' : Interleaving.Config Serial Exc (Option Str) ι (Pool ι)}
    {a : Interleaving.Action (pool T timeout : Interleaving.System Serial Exc _ ι _)}
    (hs : Interleaving.step (pool T timeout) c a = some c') (t : ι) :
    (∃ m, a = .start t m) ∨ program (c'.point t) = program (c.point t) ∨
    ∃ x o k r, a = .answer t x ∧ c.point t = .waiting o k ∧
      c.shared.answer t o x = some (r, c'.shared) ∧ c'.point t = .ready (k r) := by
  obtain ⟨u, m, r, s, rfl, hr, hst, rfl⟩ | ⟨u, o, k, rfl, hp, rfl⟩ |
    ⟨u, x, o, k, r, s, rfl, hp, han, rfl⟩ | ⟨x, s, rfl, hen, rfl⟩ := Interleaving.step_cases hs
  · by_cases hu : t = u
    · subst hu
      exact .inl ⟨m, rfl⟩
    · exact .inr (.inl (by simp only [Function.update_of_ne hu]))
  · right
    left
    by_cases hu : t = u
    · subst hu
      simp only [Function.update_self, hp]
      rfl
    · simp only [Function.update_of_ne hu]
  · right
    by_cases hu : t = u
    · subst hu
      exact .inr ⟨x, o, k, r, rfl, hp, han, by simp only [Function.update_self]⟩
    · exact .inl (by simp only [Function.update_of_ne hu])
  · exact .inr (.inl rfl)

/-- `_serial` is set by a task that waits for it to be set. -/
theorem serial_step {c c' : Interleaving.Config Serial Exc (Option Str) ι (Pool ι)}
    {a : Interleaving.Action (pool T timeout : Interleaving.System Serial Exc _ ι _)}
    (hs : Interleaving.step (pool T timeout) c a = some c') :
    c'.shared.serial = c.shared.serial ∨
    ∃ t ser k, c.point t = .waiting (.setSerial ser) k ∧ c'.shared.serial = ser := by
  obtain ⟨u, m, r, s, rfl, hr, hst, rfl⟩ | ⟨u, o, k, rfl, hp, rfl⟩ |
    ⟨u, x, o, k, r, s, rfl, hp, han, rfl⟩ | ⟨x, s, rfl, hen, rfl⟩ := Interleaving.step_cases hs
  · obtain rfl := Option.some.inj hst
    exact .inl rfl
  · left
    cases o <;> rfl
  · change c.shared.answer u o x = some (r, s) at han
    cases o with
    | setSerial ser =>
        right
        cases x with
        | outcome =>
            obtain ⟨-, rfl⟩ := Prod.mk.inj (Option.some.inj han)
            exact ⟨u, ser, k, hp, rfl⟩
        | cancel => cases han
    | acquire =>
        left
        cases x with
        | outcome =>
            obtain ⟨-, han⟩ := Option.ite_none_right_eq_some.mp han
            obtain ⟨-, rfl⟩ := Prod.mk.inj (Option.some.inj han)
            rfl
        | cancel =>
            obtain ⟨-, rfl⟩ := Prod.mk.inj (Option.some.inj han)
            rfl
    | toThread job =>
        left
        cases ha : c.shared.awaited u with
        | none => cases x <;> simp [Pool.answer, ha] at han
        | some i =>
            cases x with
            | outcome =>
                simp only [Pool.answer, ha] at han
                obtain ⟨r', -, han⟩ := Option.map_eq_some_iff.mp han
                obtain ⟨-, rfl⟩ := Prod.mk.inj han
                rfl
            | cancel =>
                simp only [Pool.answer, ha] at han
                obtain ⟨w, -, han⟩ := Option.map_eq_some_iff.mp han
                obtain ⟨-, rfl⟩ := Prod.mk.inj han
                rfl
    | _ =>
        left
        cases x with
        | outcome =>
            obtain ⟨-, rfl⟩ := Prod.mk.inj (Option.some.inj han)
            rfl
        | cancel => cases han
  · left
    change c.shared.workerStep x = some s at hen
    cases x with
    | begin_ i =>
        simp only [Pool.workerStep] at hen
        split at hen
        · obtain ⟨-, hen⟩ := Option.ite_none_right_eq_some.mp hen
          obtain rfl := Option.some.inj hen
          rfl
        · cases hen
    | finish i x =>
        simp only [Pool.workerStep] at hen
        split at hen
        · next w hw =>
            obtain ⟨-, hen⟩ := Option.ite_none_right_eq_some.mp hen
            obtain rfl := Option.some.inj hen
            cases hjob : w.job <;> cases x <;> rfl
        · cases hen

/-- A task at rest stays so, unless it calls something again. -/
theorem rested_step {c c' : Interleaving.Config Serial Exc (Option Str) ι (Pool ι)}
    {a : Interleaving.Action (pool T timeout : Interleaving.System Serial Exc _ ι _)} {t : ι}
    (h : (c.point t).outcome.isSome = true) (ha : ∀ m, a ≠ .start t m)
    (hs : Interleaving.step (pool T timeout) c a = some c') : c'.point t = c.point t := by
  obtain ⟨u, m, r, s, rfl, hr, hst, rfl⟩ | ⟨u, o, k, rfl, hp, rfl⟩ |
    ⟨u, x, o, k, r, s, rfl, hp, han, rfl⟩ | ⟨x, s, rfl, hen, rfl⟩ := Interleaving.step_cases hs
  · refine Function.update_of_ne ?_ ..
    rintro rfl
    exact ha m rfl
  · refine Function.update_of_ne ?_ ..
    rintro rfl
    rw [hp] at h
    cases h
  · refine Function.update_of_ne ?_ ..
    rintro rfl
    rw [hp] at h
    cases h
  · rfl

theorem lone_step {c c' : Interleaving.Config Serial Exc (Option Str) ι (Pool ι)}
    {a : Interleaving.Action (pool T timeout : Interleaving.System Serial Exc _ ι _)} {t : ι}
    (h : Lone (program (c.point t))) (ha : ∀ m, a ≠ .start t m)
    (hs : Interleaving.step (pool T timeout) c a = some c') : Lone (program (c'.point t)) := by
  obtain ⟨m, rfl⟩ | hsame | ⟨x, o, k, r, rfl, hp, -, hp'⟩ := program_step hs t
  · exact absurd rfl (ha m)
  · rwa [hsame]
  · rw [hp] at h
    rw [hp']
    right
    obtain ⟨k', hk, hrest⟩ | hprompt := h
    · obtain ⟨rfl, hk⟩ := Coro.call.inj hk
      obtain rfl := eq_of_heq hk
      exact hrest r
    · exact hprompt.2 r

variable {threads : ℕ+}

/-- **What a task waits for that is not the lock comes**, after what the workers have to do. -/
theorem answered {l : ℕ} {s : EventLoop.State ι}
    (h : EventLoop.Reachable T timeout threads s) {t : ι} {o : SerialOp}
    {k : Except Exc o.Res → Coro Serial Exc (Option Str)} (hp : s.point t = .waiting o k)
    (ho : Prompt o) (hload : EventLoop.load s.shared.workers ≤ l) :
    ∃ s' r, Transition.Reach (EventLoop.State.step T timeout threads)
        (fun _ a => Undisturbed T timeout a) s s' ∧ s'.point t = .ready (k r) := by
  have hqueues : EventLoop.Queues (s.point t) = false := by
    rw [hp]
    cases o with
    | acquire => exact ho.elim
    | _ => rfl
  induction l using Nat.strongRecOn generalizing s with
  | ind l ih =>
      obtain ⟨s', r, hs, hready⟩ | ⟨x, s₁, hs⟩ := EventLoop.answers h hp hqueues
      · exact ⟨s', r, .step .refl (by trivial) hs, hready⟩
      · obtain ⟨hpoint, -, -, -, hless⟩ := EventLoop.env_spec hs
        obtain ⟨s', r, hreach, hready⟩ := ih (EventLoop.load s₁.shared.workers) (by omega)
          (h.step hs) (by rw [hpoint, hp]) (Nat.le_refl _) (by rw [hpoint, hqueues])
        exact ⟨s', r, (Transition.Reach.step .refl (by trivial) hs).trans hreach, hready⟩

variable (T timeout threads) in
/-- A task asks for its next operation. -/
theorem invoked {s : EventLoop.State ι} {t : ι} {o : SerialOp}
    {k : Except Exc o.Res → Coro Serial Exc (Option Str)} (hp : s.point t = .ready (.call o k)) :
    ∃ s', s.step T timeout threads (.invoke t) = some s' ∧ s'.point t = .waiting o k := by
  refine ⟨_, EventLoop.step_of_pool rfl
    (c := ⟨s.shared.invoke t o, Function.update s.point t (.waiting o k)⟩) ?_,
    Function.update_self ..⟩
  simp only [Interleaving.step, hp]
  rfl

/-- **A task that has the lock, or does not wait for it, runs to its end.** -/
theorem runs_out {p : Coro Serial Exc (Option Str)} (hprompt : p.Uses Prompt)
    {s : EventLoop.State ι}
    (h : EventLoop.Reachable T timeout threads s) {t : ι} (hp : s.point t = .ready p) :
    ∃ s', Transition.Reach (EventLoop.State.step T timeout threads)
        (fun _ a => Undisturbed T timeout a) s s' ∧ (s'.point t).outcome.isSome = true := by
  induction p generalizing s with
  | ret a => exact ⟨s, .refl, by rw [hp]; rfl⟩
  | raise e => exact ⟨s, .refl, by rw [hp]; rfl⟩
  | call o k ih =>
      obtain ⟨s₁, hs, hp₁⟩ := invoked T timeout threads hp
      obtain ⟨s₂, r, hreach, hp₂⟩ := answered (h.step hs) hp₁ hprompt.1 (Nat.le_refl _)
      have h₂ := (h.step hs).trans (hreach.mono fun _ _ _ => trivial)
      obtain ⟨s', hreach', hend⟩ := ih r (hprompt.2 r) h₂ hp₂
      exact ⟨s', ((Transition.Reach.step .refl (by trivial) hs).trans hreach).trans hreach', hend⟩

/-- The rest of a prompt program runs to its end. -/
theorem prompt_ends {s : EventLoop.State ι}
    (h : EventLoop.Reachable T timeout threads s) {t : ι}
    (hprompt : (program (s.point t)).Uses Prompt) :
    ∃ s', Transition.Reach (EventLoop.State.step T timeout threads)
        (fun _ a => Undisturbed T timeout a) s s' ∧ (s'.point t).outcome.isSome = true := by
  cases hp : s.point t with
  | ready p =>
      rw [hp] at hprompt
      exact runs_out hprompt h hp
  | waiting o k =>
      rw [hp] at hprompt
      obtain ⟨s₁, r, hreach, hp₁⟩ := answered h hp hprompt.1 (Nat.le_refl _)
      obtain ⟨s', hreach', hend⟩ := runs_out (hprompt.2 r)
        (h.trans (hreach.mono fun _ _ _ => trivial)) hp₁
      exact ⟨s', hreach.trans hreach', hend⟩

/-- A task that waits for the lock has its turn, and runs to its end. -/
theorem queued_ends {s : EventLoop.State ι}
    (h : EventLoop.Reachable T timeout threads s) {t : ι}
    {k : Except Exc SerialOp.acquire.Res → Coro Serial Exc (Option Str)}
    (hp : s.point t = .waiting .acquire k) (hprompt : ∀ r, (k r).Uses Prompt) :
    ∃ s', Transition.Reach (EventLoop.State.step T timeout threads)
        (fun _ a => Undisturbed T timeout a) s s' ∧ (s'.point t).outcome.isSome = true := by
  obtain ⟨s₁, hreach, -, hp₁⟩ := EventLoop.turns h (Nat.le_refl _) hp
  obtain ⟨s', hreach', hend⟩ := runs_out (hprompt (.ok ()))
    (h.trans (hreach.mono fun _ _ _ => trivial)) hp₁
  exact ⟨s', hreach.trans hreach', hend⟩

/-- **`manager.stop()` comes to its end**, without any new call and any cancellation. -/
theorem stop_ends {s : EventLoop.State ι}
    (h : EventLoop.Reachable T timeout threads s) {t : ι} (hlone : Lone (program (s.point t))) :
    ∃ s', Transition.Reach (EventLoop.State.step T timeout threads)
        (fun _ a => Undisturbed T timeout a) s s' ∧ (s'.point t).outcome.isSome = true := by
  obtain ⟨k, hk, hprompt⟩ | hprompt := hlone
  · cases hp : s.point t with
    | ready p =>
        rw [hp] at hk
        obtain rfl : p = .call .acquire k := hk
        obtain ⟨s₁, hs, hp₁⟩ := invoked T timeout threads hp
        obtain ⟨s', hreach, hend⟩ := queued_ends (h.step hs) hp₁ hprompt
        exact ⟨s', (Transition.Reach.step .refl (by trivial) hs).trans hreach, hend⟩
    | waiting o k' =>
        rw [hp] at hk
        obtain ⟨rfl, hk⟩ := Coro.call.inj hk
        obtain rfl := eq_of_heq hk
        exact queued_ends h hp hprompt
  · exact prompt_ends h hprompt

end Tasks

/-! ## The clients of the listener -/

variable {T timeout} {threads : ℕ+}

/-- Nobody cancels `serve` in `scpi.stop()`. -/
def once (s : State κ μ) : Action T timeout κ μ → Bool
  | .cancel => s.main = .starting ∨ s.main = .gathering
  | _ => true

variable (T timeout threads) in
/-- A state of some run in which no connection is accepted twice. -/
abbrev Reachable (s : State κ μ) : Prop :=
  Transition.Reach (State.step T timeout threads) (fun s a => once s a = true) .init s

/-- What `serve` has seen to, by where it is. -/
def Stage (s : State κ μ) : Prop :=
  match s.main with
  | .starting => s.listening = false ∧ s.active = [] ∧ s.forever = .serving
  | .gathering => s.forever ≠ .serving → s.listening = false
  | .closing => s.listening = false
  | .stopping | .ended => s.listening = false ∧ s.active = []

omit [DecidableEq κ] [DecidableEq μ] in
/-- There are connections only while `serve` is in `gather` or in `scpi.stop()`. -/
theorem Stage.inactive {s : State κ μ} (h : Stage s) (hgathering : s.main ≠ .gathering)
    (hclosing : s.main ≠ .closing) : s.active = [] := by
  cases hmain : s.main with
  | gathering => exact absurd hmain hgathering
  | closing => exact absurd hmain hclosing
  | starting =>
      rw [Stage, hmain] at h
      exact h.2.1
  | _ =>
      rw [Stage, hmain] at h
      exact h.2

variable (T timeout threads) in
/-- What holds in every run: `serve` calls the manager only while it stops. -/
structure Inv (s : State κ μ) : Prop where
  manager : EventLoop.Reachable T timeout threads s.manager
  stage : Stage s
  rests : s.main ≠ .stopping → (s.manager.point .serve).outcome.isSome = true
  stops : s.main = .stopping → Lone (program (s.manager.point .serve))

/-- At the start `serve` has no call of the manager under way. -/
theorem inv_init : Inv T timeout threads (State.init : State κ μ) where
  manager := .refl
  stage := ⟨rfl, rfl, rfl⟩
  rests _ := rfl
  stops h := by cases h

/-- The manager's tasks make a step. -/
theorem Inv.manage {s s' : State κ μ} (h : Inv T timeout threads s) {a : Task T timeout κ μ}
    (hpermits : s.permits T timeout a = true) (hs : s.manage T timeout threads a = some s') :
    Inv T timeout threads s' := by
  obtain ⟨m, hm, rfl⟩ := Option.map_eq_some_iff.mp hs
  obtain ⟨-, hc, -⟩ := EventLoop.step_spec hm
  have hserve : ∀ m, a ≠ .start .serve m := by
    rintro m rfl
    cases m <;> cases hpermits
  refine ⟨h.manager.step hm, h.stage, ?_, ?_⟩
  · intro hmain
    show (m.point .serve).outcome.isSome = true
    rw [rested_step (h.rests hmain) hserve hc]
    exact h.rests hmain
  · intro hmain
    exact lone_step (h.stops hmain) hserve hc

/-- `serve` goes on, but not to `manager.stop()`. -/
theorem Inv.moves {s s' : State κ μ} (h : Inv T timeout threads s)
    (hmanager : s'.manager = s.manager)
    (hrests : (s.manager.point .serve).outcome.isSome = true) (hmain : s'.main ≠ .stopping)
    (hstage : Stage s') : Inv T timeout threads s' where
  manager := hmanager ▸ h.manager
  stage := hstage
  rests _ := by rwa [hmanager]
  stops hstopping := absurd hstopping hmain

/-- `serve` stays where it is. -/
theorem Inv.stays {s s' : State κ μ} (h : Inv T timeout threads s)
    (hmanager : s'.manager = s.manager) (hmain : s'.main = s.main) (hstage : Stage s') :
    Inv T timeout threads s' where
  manager := hmanager ▸ h.manager
  stage := hstage
  rests := by
    rw [hmanager, hmain]
    exact h.rests
  stops := by
    rw [hmanager, hmain]
    exact h.stops

omit [DecidableEq κ] [DecidableEq μ] in
/-- What a cancellation inside of `gather` changes. -/
theorem cancelTasks_eq (s : State κ μ) : ∃ listening forever,
    s.cancelTasks = { s with listening := listening, forever := forever } := by
  cases hforever : s.forever with
  | serving => exact ⟨false, .closing, by simp [State.cancelTasks, State.close, hforever]⟩
  | closing => exact ⟨s.listening, .exiting, by simp [State.cancelTasks, hforever]⟩
  | exiting => exact ⟨s.listening, .done, by simp [State.cancelTasks, hforever]⟩
  | done =>
      refine ⟨s.listening, s.forever, ?_⟩
      rw [State.cancelTasks, hforever]
      exact congrArg (fun forever => { s with forever := forever }) hforever

omit [DecidableEq κ] [DecidableEq μ] in
/-- Cancelling the tasks of `gather` leaves the device alone. -/
theorem stage_cancelTasks {s : State κ μ} (h : Stage s) (hmain : s.main = .gathering) :
    s.cancelTasks.manager = s.manager ∧ s.cancelTasks.main = s.main ∧ Stage s.cancelTasks := by
  rw [Stage, hmain] at h
  cases hforever : s.forever with
  | serving => simp [State.cancelTasks, hforever, State.close, Stage, hmain]
  | _ =>
      have hclosed : s.listening = false := h (by simp [hforever])
      simp [State.cancelTasks, hforever, Stage, hmain, hclosed]

omit [DecidableEq κ] [DecidableEq μ] in
/-- `serve_forever` goes on after `close` has been called. -/
theorem goesOn_spec {s s' : State κ μ} (hs : s.goesOn = some s') :
    s.active = [] ∧ ((s.forever = .closing ∧ s' = { s with forever := .exiting }) ∨
      (s.forever = .exiting ∧ s' = { s with forever := .done })) := by
  rw [State.goesOn] at hs
  cases hforever : s.forever with
  | closing =>
      rw [hforever] at hs
      obtain ⟨hactive, hs⟩ := Option.ite_none_right_eq_some.mp hs
      exact ⟨hactive, .inl ⟨rfl, (Option.some.inj hs).symm⟩⟩
  | exiting =>
      rw [hforever] at hs
      obtain ⟨hactive, hs⟩ := Option.ite_none_right_eq_some.mp hs
      exact ⟨hactive, .inr ⟨rfl, (Option.some.inj hs).symm⟩⟩
  | _ =>
      rw [hforever] at hs
      cases hs

theorem Inv.step {s s' : State κ μ} {a : Action T timeout κ μ} (h : Inv T timeout threads s)
    (ha : once s a = true) (hs : s.step T timeout threads a = some s') :
    Inv T timeout threads s' := by
  have hstage := h.stage
  cases a with
  | manager a =>
      obtain ⟨hpermits, hs⟩ := Option.ite_none_right_eq_some.mp hs
      exact h.manage hpermits hs
  | listen =>
      obtain ⟨hmain, hs⟩ := Option.ite_none_right_eq_some.mp hs
      obtain rfl := Option.some.inj hs
      rw [Stage, hmain] at hstage
      exact h.moves rfl (h.rests (by simp [hmain])) (by simp)
        fun hforever => absurd hstage.2.2 hforever
  | refuse =>
      obtain ⟨hmain, hs⟩ := Option.ite_none_right_eq_some.mp hs
      obtain rfl := Option.some.inj hs
      rw [Stage, hmain] at hstage
      exact h.moves rfl (h.rests (by simp [hmain])) (by simp) ⟨hstage.1, hstage.2.1⟩
  | cancel =>
      cases hmain : s.main with
      | starting =>
          simp only [State.step, hmain] at hs
          obtain rfl := Option.some.inj hs
          rw [Stage, hmain] at hstage
          exact h.moves rfl (h.rests (by simp [hmain])) (by simp) ⟨hstage.1, hstage.2.1⟩
      | gathering =>
          simp only [State.step, hmain] at hs
          obtain rfl := Option.some.inj hs
          obtain ⟨hmanager, hsame, hstage'⟩ := stage_cancelTasks hstage hmain
          exact h.stays hmanager hsame hstage'
      | closing => simp [once, hmain] at ha
      | _ =>
          simp only [State.step, hmain] at hs
          cases hs
  | accept k =>
      obtain ⟨⟨hlistening, -⟩, hs⟩ := Option.ite_none_right_eq_some.mp hs
      obtain rfl := Option.some.inj hs
      refine h.stays rfl rfl ?_
      cases hmain : s.main with
      | gathering =>
          rw [Stage, hmain] at hstage
          simpa only [Stage, hmain] using hstage
      | _ => simp [Stage, hmain, hlistening] at hstage
  | lose k =>
      obtain ⟨-, hs⟩ := Option.ite_none_right_eq_some.mp hs
      obtain rfl := Option.some.inj hs
      refine h.stays rfl rfl ?_
      cases hmain : s.main <;> simp_all [Stage]
  | webEnds web =>
      obtain ⟨-, hs⟩ := Option.ite_none_right_eq_some.mp hs
      obtain rfl := Option.some.inj hs
      exact h.stays rfl rfl hstage
  | forever =>
      obtain ⟨-, ⟨hforever, rfl⟩ | ⟨hforever, rfl⟩⟩ := goesOn_spec hs
      all_goals
        refine h.stays rfl rfl ?_
        cases hmain : s.main <;> simp_all [Stage]
  | resume =>
      obtain ⟨⟨hmain, -⟩, hs⟩ := Option.ite_none_right_eq_some.mp hs
      obtain rfl := Option.some.inj hs
      exact h.moves rfl (h.rests (by simp [hmain])) (by simp) rfl
  | closed =>
      obtain ⟨⟨hmain, hactive⟩, hs⟩ := Option.ite_none_right_eq_some.mp hs
      obtain ⟨s₁, hs₁, rfl⟩ := Option.map_eq_some_iff.mp hs
      obtain ⟨m, hm, rfl⟩ := Option.map_eq_some_iff.mp hs₁
      rw [Stage, hmain] at hstage
      refine ⟨h.manager.step hm, ⟨hstage, hactive⟩, fun hnot => absurd rfl hnot, ?_⟩
      intro _
      show Lone (program (m.point .serve))
      rw [start_eq (EventLoop.step_spec hm).2.1]
      simp only [Function.update_self]
      exact lone_stop T timeout
  | finish =>
      obtain ⟨⟨hmain, hends⟩, hs⟩ := Option.ite_none_right_eq_some.mp hs
      obtain rfl := Option.some.inj hs
      rw [Stage, hmain] at hstage
      exact h.moves rfl hends (by simp) hstage

/-- The invariant holds in every run. -/
theorem inv_reach {s : State κ μ} (h : Reachable T timeout threads s) : Inv T timeout threads s :=
  h.invariant inv_init fun _ _ _ hI ha hs => hI.step ha hs

/-! ## The end of `serve` -/

/-- `serve` is on its way out: it is cancelled, or the web server has raised. -/
def State.Leaving (s : State κ μ) : Prop :=
  match s.main with
  | .starting => False
  | .gathering => s.web = .raised ∨ s.forever ≠ .serving
  | _ => True

/-- What is left to do: the steps of `serve` and its tasks, and those of the manager's tasks and
    workers, without a new call and without a cancellation. -/
def Left : Action T timeout κ μ → Prop
  | .forever | .resume | .closed | .finish => True
  | .manager a => Undisturbed T timeout a
  | _ => False

/-- What the manager's tasks do among themselves is a run of the server. -/
theorem manage_reach {s : State κ μ} {m : EventLoop.State (Party κ μ)}
    (h : Transition.Reach (EventLoop.State.step T timeout threads)
      (fun _ a => Undisturbed T timeout a) s.manager m) :
    Transition.Reach (State.step T timeout threads) (fun _ a => Left a) s
      { s with manager := m } := by
  induction h with
  | refl => exact .refl
  | @step m m' a _ ha hs ih =>
      refine .step (a := .manager a) ih ha ?_
      have hpermits : ({ s with manager := m } : State κ μ).permits T timeout a = true := by
        cases a with
        | start t m => exact ha.elim
        | _ => rfl
      simp only [State.step, hpermits, if_true, State.manage, hs]
      rfl

/-- In `manager.stop()` the server gets to its end. -/
theorem Inv.stopping_ends {s : State κ μ} (h : Inv T timeout threads s)
    (hmain : s.main = .stopping) :
    ∃ s', Transition.Reach (State.step T timeout threads) (fun _ a => Left a) s s' ∧
      s'.main = .ended := by
  obtain ⟨m, hreach, hend⟩ := stop_ends h.manager (h.stops hmain)
  refine ⟨{ s with manager := m, main := .ended }, .step (a := .finish) (manage_reach hreach)
    trivial ?_, rfl⟩
  simp [State.step, hmain, hend]

/-- In `scpi.stop()` the server gets to its end once the connections are gone. -/
theorem Inv.closing_ends {s : State κ μ} (h : Inv T timeout threads s) (hmain : s.main = .closing)
    (hactive : s.active = []) :
    ∃ s', Transition.Reach (State.step T timeout threads) (fun _ a => Left a) s s' ∧
      s'.main = .ended := by
  obtain ⟨r, hr⟩ := Option.isSome_iff_exists.mp (h.rests (by simp [hmain]))
  obtain ⟨m, hm⟩ : ∃ m, s.manager.step T timeout threads (.start .serve .stop) = some m := by
    refine ⟨_, EventLoop.step_of_pool rfl (c := ⟨s.manager.shared, Function.update
      s.manager.point .serve (.ready ((serialManager T timeout).method .stop))⟩) ?_⟩
    simp only [Interleaving.step, hr]
    rfl
  have hs : s.step T timeout threads .closed
      = some { s with main := .stopping, manager := m } := by
    simp [State.step, State.manage, hmain, hactive, hm]
  obtain ⟨s', hreach, hend⟩ := (h.step rfl hs).stopping_ends rfl
  exact ⟨s', (Transition.Reach.step .refl (by trivial) hs).trans hreach, hend⟩

/-- In `gather` the server gets to its end once the connections are gone and one of the two tasks
    has ended. -/
theorem Inv.resumes {s : State κ μ} (h : Inv T timeout threads s) (hmain : s.main = .gathering)
    (hactive : s.active = []) (hover : s.web = .raised ∨ s.forever = .done) :
    ∃ s', Transition.Reach (State.step T timeout threads) (fun _ a => Left a) s s' ∧
      s'.main = .ended := by
  have hs : s.step T timeout threads .resume = some { s.close with main := .closing } :=
    if_pos ⟨hmain, hover⟩
  obtain ⟨s', hreach, hend⟩ := (h.step rfl hs).closing_ends rfl hactive
  exact ⟨s', (Transition.Reach.step .refl (by trivial) hs).trans hreach, hend⟩

/-- **With the last client gone**, `serve` comes to its end. -/
theorem Inv.ends {s : State κ μ} (h : Inv T timeout threads s) (hactive : s.active = [])
    (hleaving : s.Leaving) :
    ∃ s', Transition.Reach (State.step T timeout threads) (fun _ a => Left a) s s' ∧
      s'.main = .ended := by
  cases hmain : s.main with
  | starting =>
      rw [State.Leaving, hmain] at hleaving
      exact hleaving.elim
  | gathering =>
      have hexiting : ∀ s : State κ μ, Inv T timeout threads s → s.main = .gathering →
          s.active = [] → s.forever = .exiting → ∃ s',
            Transition.Reach (State.step T timeout threads) (fun _ a => Left a) s s' ∧
              s'.main = .ended := by
        intro s h hmain hactive hforever
        have hs : s.step T timeout threads .forever = some { s with forever := .done } := by
          simp [State.step, State.goesOn, hforever, hactive]
        obtain ⟨s', hreach, hend⟩ := (h.step rfl hs).resumes hmain hactive (.inr rfl)
        exact ⟨s', (Transition.Reach.step .refl (by trivial) hs).trans hreach, hend⟩
      rw [State.Leaving, hmain] at hleaving
      cases hforever : s.forever with
      | serving => exact h.resumes hmain hactive (.inl (hleaving.resolve_right (absurd hforever)))
      | closing =>
          have hs : s.step T timeout threads .forever = some { s with forever := .exiting } := by
            simp [State.step, State.goesOn, hforever, hactive]
          obtain ⟨s', hreach, hend⟩ := hexiting _ (h.step rfl hs) hmain hactive rfl
          exact ⟨s', (Transition.Reach.step .refl (by trivial) hs).trans hreach, hend⟩
      | exiting => exact hexiting s h hmain hactive hforever
      | done => exact h.resumes hmain hactive (.inr hforever)
  | closing => exact h.closing_ends hmain hactive
  | stopping => exact h.stopping_ends hmain
  | ended => exact ⟨s, .refl, hmain⟩

/-- A connection stays until it is lost. -/
theorem active_step {s s' : State κ μ} {a : Action T timeout κ μ} {k : κ} (hk : k ∈ s.active)
    (ha : a ≠ .lose k) (hs : s.step T timeout threads a = some s') : k ∈ s'.active := by
  cases a with
  | lose j =>
      obtain ⟨-, hs⟩ := Option.ite_none_right_eq_some.mp hs
      obtain rfl := Option.some.inj hs
      have hne : k ≠ j := by
        rintro rfl
        exact ha rfl
      exact List.mem_filter.mpr ⟨hk, by simpa using hne⟩
  | accept j =>
      obtain ⟨-, hs⟩ := Option.ite_none_right_eq_some.mp hs
      obtain rfl := Option.some.inj hs
      exact List.mem_cons_of_mem j hk
  | manager a =>
      obtain ⟨-, hs⟩ := Option.ite_none_right_eq_some.mp hs
      obtain ⟨c, -, rfl⟩ := Option.map_eq_some_iff.mp hs
      exact hk
  | cancel =>
      cases hmain : s.main with
      | gathering =>
          simp only [State.step, hmain] at hs
          obtain rfl := Option.some.inj hs
          obtain ⟨listening, forever, heq⟩ := cancelTasks_eq s
          rw [heq]
          exact hk
      | starting =>
          simp only [State.step, hmain] at hs
          obtain rfl := Option.some.inj hs
          exact hk
      | closing =>
          simp only [State.step, hmain] at hs
          obtain rfl := Option.some.inj hs
          exact hk
      | _ =>
          simp only [State.step, hmain] at hs
          cases hs
  | forever =>
      obtain ⟨-, ⟨-, rfl⟩ | ⟨-, rfl⟩⟩ := goesOn_spec hs
      · exact hk
      · exact hk
  | closed =>
      obtain ⟨-, hs⟩ := Option.ite_none_right_eq_some.mp hs
      obtain ⟨s₁, hs₁, rfl⟩ := Option.map_eq_some_iff.mp hs
      obtain ⟨c, -, rfl⟩ := Option.map_eq_some_iff.mp hs₁
      exact hk
  | _ =>
      obtain ⟨-, hs⟩ := Option.ite_none_right_eq_some.mp hs
      obtain rfl := Option.some.inj hs
      exact hk

/-- **SERVE WAITS FOR ITS CLIENTS**: while one SCPI client stays connected, `serve` does not come
    to `manager.stop()` and does not end, whatever else happens; and as soon as it is on its way
    out and the last client is gone, what is left to do brings it to its end. -/
theorem serve_waits {s : State κ μ} (h : Reachable T timeout threads s) :
    (∀ k ∈ s.active, ∀ s', Transition.Reach (State.step T timeout threads)
        (fun s a => once s a = true ∧ a ≠ .lose k) s s' →
      s'.main ≠ .stopping ∧ s'.main ≠ .ended) ∧
    (s.active = [] → s.Leaving → ∃ s',
      Transition.Reach (State.step T timeout threads) (fun _ a => Left a) s s' ∧
        s'.main = .ended) := by
  refine ⟨?_, (inv_reach h).ends⟩
  intro k hk s' hrun
  have hk' : k ∈ s'.active := hrun.invariant hk fun _ _ _ hk ha hs => active_step hk ha.2 hs
  have hstage := (inv_reach (h.trans (hrun.mono fun _ _ ha => ha.1))).stage
  have hinside : s'.main = .gathering ∨ s'.main = .closing := by
    by_contra hnot
    obtain ⟨hgathering, hclosing⟩ := not_or.mp hnot
    rw [hstage.inactive hgathering hclosing] at hk'
    cases hk'
  constructor <;> intro hmain <;> simp [hmain] at hinside

/-- A client connects, and the server is cancelled. -/
def interrupted : List (Action ⟨"/dev/ttyUSB0".toList, 115200⟩ 2 ℕ Empty) :=
  [.listen, .accept 0, .cancel]

/-- A client that stays keeps a cancelled server from ending. -/
theorem serve_waits_interrupted : ∃ s : State ℕ Empty, s.Leaving ∧ s.active = [0] ∧
    ∀ s', Transition.Reach (State.step ⟨"/dev/ttyUSB0".toList, 115200⟩ 2 4)
      (fun s a => once s a = true ∧ a ≠ .lose 0) s s' → s'.main ≠ .ended := by
  have hrun : (Transition.runWithin (State.step ⟨"/dev/ttyUSB0".toList, 115200⟩ 2 4)
      (fun s a => once s a = true) State.init interrupted).map
        (fun s => (s.main, s.forever, s.active)) = some (.gathering, .closing, [0]) := rfl
  obtain ⟨s, hs, hmain⟩ := Option.map_eq_some_iff.mp hrun
  simp only [Prod.mk.injEq] at hmain
  obtain ⟨hmain, hforever, hactive⟩ := hmain
  refine ⟨s, ?_, hactive, fun s' hreach => ?_⟩
  · rw [State.Leaving, hmain]
    exact .inr (by simp [hforever])
  · exact ((serve_waits (Transition.reach_of_runWithin hs)).1 0 (by simp [hactive]) s' hreach).2

/-! ## What is left behind -/

/-- The task has no call of the manager under way. -/
def State.Rests (s : State κ μ) (t : Party κ μ) : Prop :=
  (s.manager.point t).outcome.isSome = true

/-- A connection ends between two of its commands, and the web server after its tasks, before
    `gather` is over; `serve` is cancelled once; and ports are not lost. -/
def Orderly (s : State κ μ) (a : Action T timeout κ μ) : Prop :=
  match a with
  | .cancel => s.main = .starting ∨ s.main = .gathering
  | .lose k => s.Rests (.scpi k)
  | .webEnds _ => ∀ m, s.Rests (.web m)
  | .resume => s.web ≠ .running
  | .manager (.start (.web _) _) => s.web = .running
  | .manager (.answer .serve .cancel) => False
  | .manager a => OnePort.Unhurried T timeout s.manager.shared a s.manager.shared
  | _ => True

theorem once_of_orderly {s : State κ μ} {a : Action T timeout κ μ} (h : Orderly s a) :
    once s a = true := by
  cases a with
  | cancel => exact decide_eq_true h
  | _ => rfl

/-- Who is at rest, and what has become of `_serial`. -/
structure Quits (s : State κ μ) : Prop where
  scpi : ∀ k, k ∉ s.active → s.Rests (.scpi k)
  web : s.web ≠ .running → ∀ m, s.Rests (.web m)
  idle : s.main ≠ .gathering → s.web ≠ .running
  forgets : s.main = .stopping → Forgets (program (s.manager.point .serve)) ∨
    (program (s.manager.point .serve)).Uses Closing ∧ s.manager.shared.serial = none
  forgotten : s.main = .starting ∨ s.main = .ended → s.manager.shared.serial = none

omit [DecidableEq κ] [DecidableEq μ] in
/-- At the start everybody is at rest. -/
theorem quits_init : Quits (State.init : State κ μ) where
  scpi k _ := rfl
  web _ m := rfl
  idle _ := by simp [State.init]
  forgets h := by cases h
  forgotten _ := rfl

/-- `manager.stop()` goes on. -/
theorem forgets_step {c c' : Interleaving.Config Serial Exc (Option Str) (Party κ μ)
      (Pool (Party κ μ))} {a : Task T timeout κ μ} (hstart : ∀ m, a ≠ .start .serve m)
    (hcancel : a ≠ .answer .serve .cancel)
    (hothers : ∀ t, t ≠ .serve → (c.point t).outcome.isSome = true)
    (h : Forgets (program (c.point .serve)) ∨
      (program (c.point .serve)).Uses Closing ∧ c.shared.serial = none)
    (hs : Interleaving.step (pool T timeout) c a = some c') :
    Forgets (program (c'.point .serve)) ∨
      (program (c'.point .serve)).Uses Closing ∧ c'.shared.serial = none := by
  have hclosed : (program (c.point .serve)).Uses Closing ∧ c.shared.serial = none →
      c'.shared.serial = none := by
    rintro ⟨huses, hnone⟩
    obtain hsame | ⟨t, ser, k, hp, -⟩ := serial_step hs
    · exact hsame.trans hnone
    · -- whoever sets `_serial` is not at rest, and `serve` does not
      by_cases ht : t = .serve
      · subst ht
        rw [hp] at huses
        exact huses.1.elim
      · have hrests := hothers t ht
        rw [hp] at hrests
        cases hrests
  obtain ⟨m, rfl⟩ | hsame | ⟨x, o, k, r, rfl, hp, han, hp'⟩ := program_step hs .serve
  · exact absurd rfl (hstart m)
  · rw [hsame]
    exact h.imp_right fun hright => ⟨hright.1, hclosed hright⟩
  · rw [hp']
    obtain hforgets | hright := h
    · rw [hp] at hforgets
      cases o with
      | acquire =>
          cases x with
          | outcome =>
              obtain ⟨-, han⟩ := Option.ite_none_right_eq_some.mp han
              obtain ⟨rfl, -⟩ := Prod.mk.inj (Option.some.inj han)
              exact .inl (hforgets ())
          | cancel => exact absurd rfl hcancel
      | getSerial =>
          cases x with
          | outcome =>
              obtain ⟨rfl, -⟩ := Prod.mk.inj (Option.some.inj han)
              exact .inl (hforgets _)
          | cancel => cases han
      | setSerial ser =>
          cases x with
          | outcome =>
              obtain ⟨-, hshared⟩ := Prod.mk.inj (Option.some.inj han)
              cases ser with
              | none =>
                  right
                  exact ⟨hforgets r, by rw [← hshared]⟩
              | some ser => exact hforgets.elim
          | cancel => cases han
      | _ => exact hforgets.elim
    · have huses := hright.1
      rw [hp] at huses
      exact .inr ⟨huses.2 r, hclosed hright⟩

omit [DecidableEq κ] [DecidableEq μ] in
/-- Everybody but `serve` is at rest once the last client is gone and the web server has ended. -/
theorem Quits.rests {s : State κ μ} (h : Quits s) (hactive : s.active = [])
    (hweb : s.web ≠ .running) (t : Party κ μ) (ht : t ≠ .serve) : s.Rests t := by
  cases t with
  | scpi k => exact h.scpi k (by simp [hactive])
  | web m => exact h.web hweb m
  | serve => exact absurd rfl ht

/-- While `serve` has not begun, or has ended, everybody is at rest. -/
theorem Quits.all_rest {s : State κ μ} (h : Quits s) (hI : Inv T timeout threads s)
    (hmain : s.main = .starting ∨ s.main = .ended) (t : Party κ μ) : s.Rests t := by
  by_cases ht : t = .serve
  · subst ht
    refine hI.rests ?_
    obtain hmain | hmain := hmain <;> simp [hmain]
  · have hactive : s.active = [] := by
      refine hI.stage.inactive ?_ ?_ <;> obtain hmain | hmain := hmain <;> simp [hmain]
    refine h.rests hactive (h.idle ?_) t ht
    obtain hmain | hmain := hmain <;> simp [hmain]

/-- A step of the manager's tasks keeps whoever should be so at rest. -/
theorem Quits.manage {s s' : State κ μ} (h : Quits s) (hI : Inv T timeout threads s)
    {a : Task T timeout κ μ} (hpermits : s.permits T timeout a = true)
    (ha : Orderly s (.manager a)) (hs : s.manage T timeout threads a = some s') : Quits s' := by
  obtain ⟨m, hm, rfl⟩ := Option.map_eq_some_iff.mp hs
  obtain ⟨-, hc, -⟩ := EventLoop.step_spec hm
  have hserve : ∀ m, a ≠ .start .serve m := by
    rintro m rfl
    cases m <;> cases hpermits
  refine ⟨?_, ?_, h.idle, ?_, ?_⟩
  · intro k hk
    show (m.point (.scpi k)).outcome.isSome = true
    rw [rested_step (h.scpi k hk) ?_ hc]
    · exact h.scpi k hk
    · rintro m rfl
      cases m with
      | call call => exact hk (of_decide_eq_true hpermits)
      | _ => cases hpermits
  · intro hweb n
    show (m.point (.web n)).outcome.isSome = true
    rw [rested_step (h.web hweb n) ?_ hc]
    · exact h.web hweb n
    · rintro m' rfl
      exact hweb ha
  · intro (hmain : s.main = .stopping)
    have hactive : s.active = [] := hI.stage.inactive (by simp [hmain]) (by simp [hmain])
    refine forgets_step hserve ?_ (h.rests hactive (h.idle (by simp [hmain]))) (h.forgets hmain) hc
    rintro rfl
    exact ha
  · intro (hmain : s.main = .starting ∨ s.main = .ended)
    obtain hsame | ⟨t, ser, k, hp, -⟩ := serial_step hc
    · exact hsame.trans (h.forgotten hmain)
    · have hrests := h.all_rest hI hmain t
      rw [State.Rests, hp] at hrests
      cases hrests

theorem Quits.step {s s' : State κ μ} {a : Action T timeout κ μ} (h : Quits s)
    (hI : Inv T timeout threads s) (ha : Orderly s a) (hs : s.step T timeout threads a = some s') :
    Quits s' := by
  cases a with
  | manager a =>
      obtain ⟨hpermits, hs⟩ := Option.ite_none_right_eq_some.mp hs
      exact h.manage hI hpermits ha hs
  | listen =>
      obtain ⟨hmain, hs⟩ := Option.ite_none_right_eq_some.mp hs
      obtain rfl := Option.some.inj hs
      have hidle : s.web ≠ .running := h.idle (by simp [hmain])
      exact ⟨h.scpi, fun _ => h.web hidle, by simp, by simp, by simp⟩
  | refuse =>
      obtain ⟨hmain, hs⟩ := Option.ite_none_right_eq_some.mp hs
      obtain rfl := Option.some.inj hs
      exact ⟨h.scpi, h.web, fun _ => h.idle (by simp [hmain]), by simp,
        fun _ => h.forgotten (.inl hmain)⟩
  | cancel =>
      obtain hmain | hmain := ha
      · simp only [State.step, hmain] at hs
        obtain rfl := Option.some.inj hs
        exact ⟨h.scpi, h.web, fun _ => h.idle (by simp [hmain]), by simp,
          fun _ => h.forgotten (.inl hmain)⟩
      · simp only [State.step, hmain] at hs
        obtain rfl := Option.some.inj hs
        obtain ⟨listening, forever, heq⟩ := cancelTasks_eq s
        rw [heq]
        exact ⟨h.scpi, h.web, h.idle, h.forgets, h.forgotten⟩
  | accept k =>
      obtain ⟨-, hs⟩ := Option.ite_none_right_eq_some.mp hs
      obtain rfl := Option.some.inj hs
      refine ⟨?_, h.web, h.idle, h.forgets, h.forgotten⟩
      intro j hj
      exact h.scpi j fun hmem => hj (List.mem_cons_of_mem k hmem)
  | lose k =>
      obtain ⟨-, hs⟩ := Option.ite_none_right_eq_some.mp hs
      obtain rfl := Option.some.inj hs
      refine ⟨?_, h.web, h.idle, h.forgets, h.forgotten⟩
      intro j hj
      by_cases hjk : j = k
      · subst hjk
        exact ha
      · exact h.scpi j fun hmem => hj (List.mem_filter.mpr ⟨hmem, by simpa using hjk⟩)
  | webEnds web =>
      obtain ⟨⟨-, hweb⟩, hs⟩ := Option.ite_none_right_eq_some.mp hs
      obtain rfl := Option.some.inj hs
      refine ⟨h.scpi, fun _ => ha, fun _ => ?_, h.forgets, h.forgotten⟩
      obtain rfl | rfl := hweb
      · simp
      · simp
  | forever =>
      obtain ⟨-, ⟨-, rfl⟩ | ⟨-, rfl⟩⟩ := goesOn_spec hs
      · exact ⟨h.scpi, h.web, h.idle, h.forgets, h.forgotten⟩
      · exact ⟨h.scpi, h.web, h.idle, h.forgets, h.forgotten⟩
  | resume =>
      obtain ⟨-, hs⟩ := Option.ite_none_right_eq_some.mp hs
      obtain rfl := Option.some.inj hs
      exact ⟨h.scpi, h.web, fun _ => ha, by simp, by simp⟩
  | closed =>
      obtain ⟨⟨hmain, hactive⟩, hs⟩ := Option.ite_none_right_eq_some.mp hs
      obtain ⟨s₁, hs₁, rfl⟩ := Option.map_eq_some_iff.mp hs
      obtain ⟨m, hm, rfl⟩ := Option.map_eq_some_iff.mp hs₁
      have hpoint : m.point = Function.update s.manager.point .serve
          (.ready ((serialManager T timeout).method .stop)) := by
        rw [start_eq (EventLoop.step_spec hm).2.1]
      have hover : s.web ≠ .running := h.idle (by simp [hmain])
      refine ⟨?_, ?_, fun _ => hover, fun _ => .inl ?_, by simp⟩
      · intro k hk
        simpa [State.Rests, hpoint] using h.scpi k hk
      · intro _ n
        simpa [State.Rests, hpoint] using h.web hover n
      · show Forgets (program (m.point .serve))
        rw [hpoint, Function.update_self]
        exact forgets_stop T timeout
  | finish =>
      obtain ⟨⟨hmain, hends⟩, hs⟩ := Option.ite_none_right_eq_some.mp hs
      obtain rfl := Option.some.inj hs
      refine ⟨h.scpi, h.web, fun _ => h.idle (by simp [hmain]), by simp, fun _ => ?_⟩
      -- a program that has ended does not forget anything any more
      obtain hforgets | ⟨-, hnone⟩ := h.forgets hmain
      · cases hp : s.manager.point .serve with
        | waiting o k =>
            rw [hp] at hends
            cases hends
        | ready p =>
            rw [hp] at hends hforgets
            cases p with
            | call o k => cases hends
            | _ => exact hforgets.elim
      · exact hnone

/-- What a step of the server makes of the manager's tasks: nothing, or a step of theirs. -/
theorem manager_step {s s' : State κ μ} {a : Action T timeout κ μ}
    (hs : s.step T timeout threads a = some s') : s'.manager = s.manager ∨
    ∃ b, (a = .manager b ∨ b = .start .serve .stop) ∧ Interleaving.step (pool T timeout)
      s.manager.toConfig b = some s'.manager.toConfig := by
  cases a with
  | manager a =>
      obtain ⟨-, hs⟩ := Option.ite_none_right_eq_some.mp hs
      obtain ⟨m, hm, rfl⟩ := Option.map_eq_some_iff.mp hs
      exact .inr ⟨a, .inl rfl, (EventLoop.step_spec hm).2.1⟩
  | closed =>
      obtain ⟨-, hs⟩ := Option.ite_none_right_eq_some.mp hs
      obtain ⟨s₁, hs₁, rfl⟩ := Option.map_eq_some_iff.mp hs
      obtain ⟨m, hm, rfl⟩ := Option.map_eq_some_iff.mp hs₁
      exact .inr ⟨_, .inr rfl, (EventLoop.step_spec hm).2.1⟩
  | cancel =>
      left
      simp only [State.step] at hs
      split at hs
      · obtain rfl := Option.some.inj hs
        rfl
      · obtain rfl := Option.some.inj hs
        obtain ⟨listening, forever, heq⟩ := cancelTasks_eq s
        rw [heq]
      · obtain rfl := Option.some.inj hs
        rfl
      · cases hs
  | forever =>
      obtain ⟨-, ⟨-, rfl⟩ | ⟨-, rfl⟩⟩ := goesOn_spec hs
      · exact .inl rfl
      · exact .inl rfl
  | _ =>
      left
      obtain ⟨-, hs⟩ := Option.ite_none_right_eq_some.mp hs
      obtain rfl := Option.some.inj hs
      rfl

/-- The manager's steps in an orderly run lose no port. -/
theorem unhurried_of_orderly {s : State κ μ} {a : Task T timeout κ μ}
    (ha : Orderly s (.manager a)) (s' : Pool (Party κ μ)) :
    OnePort.Unhurried T timeout s.manager.shared a s' := by
  cases a with
  | answer t x =>
      cases x with
      | outcome => trivial
      | cancel =>
          cases t with
          | serve => exact ha.elim
          | _ => exact ha
  | env x => exact ha
  | _ => trivial

/-- In an orderly run of the server the manager's tasks lose no port. -/
theorem ports_reach {s : State κ μ}
    (h : Transition.Reach (State.step T timeout threads) Orderly .init s) :
    Interleaving.Reach (pool T timeout) (OnePort.Unhurried T timeout) initial
      s.manager.toConfig := by
  induction h with
  | refl => exact .refl
  | step _ ha hs ih =>
      obtain hsame | ⟨b, rfl | rfl, hb⟩ := manager_step hs
      · rwa [hsame]
      · exact .step ih (unhurried_of_orderly ha _) hb
      · exact .step ih (by trivial) hb

theorem quits_reach {s : State κ μ}
    (h : Transition.Reach (State.step T timeout threads) Orderly .init s) : Quits s := by
  induction h with
  | refl => exact quits_init
  | step hreach ha hs ih =>
      exact ih.step (inv_reach (hreach.mono fun _ _ ha => once_of_orderly ha)) ha hs

/-- **THE PORT IS CLOSED AT EXIT**: where `serve` has ended after an orderly run, nobody listens,
    no SCPI client is connected, nobody has the lock and no port is open. -/
theorem port_closed_at_exit {s : State κ μ}
    (h : Transition.Reach (State.step T timeout threads) Orderly .init s)
    (hmain : s.main = .ended) :
    s.listening = false ∧ s.active = [] ∧ s.manager.shared.holder = none ∧
      ∀ port, s.manager.shared.opened port = false := by
  have hI : Inv T timeout threads s := inv_reach (h.mono fun _ _ ha => once_of_orderly ha)
  have hquits : Quits s := quits_reach h
  have hstage := hI.stage
  rw [Stage, hmain] at hstage
  have hrests : ∀ t, s.Rests t := hquits.all_rest hI (.inr hmain)
  -- nobody who is at rest has the lock
  obtain ⟨ph, hports, hagrees⟩ := OnePort.inv_reach T timeout (ports_reach h)
  have hfree : s.manager.shared.holder = none := by
    cases hholder : s.manager.shared.holder with
    | none => rfl
    | some t =>
        obtain ⟨r, hr⟩ := Option.isSome_iff_exists.mp (hrests t)
        obtain ⟨g, hg, rfl⟩ := (hagrees t).outcome hr
        have hinside := hports.inside t hholder
        rw [hg] at hinside
        exact absurd rfl hinside.1
  refine ⟨hstage.1, hstage.2, hfree, ?_⟩
  intro port
  by_contra hopen
  have hserial := hports.free hfree port (by simpa using hopen)
  rw [hquits.forgotten (.inr hmain)] at hserial
  cases hserial

/-! ### A client that sets the range -/

/-- The adapter of the default configuration. -/
def port : SerialTransport := ⟨"/dev/ttyUSB0".toList, 115200⟩

/-- A task asks for something and gets it. -/
def asks (t : Party Unit Empty) : List (Action port 2 Unit Empty) :=
  [.manager (.invoke t), .manager (.answer t .outcome)]

/-- A task has a job done. -/
def has (t : Party Unit Empty) (i : ℕ) : List (Action port 2 Unit Empty) :=
  [.manager (.invoke t), .manager (.env (.begin_ i)), .manager (.env (.finish i (.returned none))),
    .manager (.answer t .outcome)]

/-- A client opens the port with its first command. -/
def session : List (Action port 2 Unit Empty) :=
  let asks := asks (.scpi ())
  [.listen, .accept (), .manager (.start (.scpi ()) (.call (.write AUTO_RANGE none)))]
    ++ asks ++ asks ++ asks ++ has (.scpi ()) 0 ++ asks ++ asks ++ has (.scpi ()) 1
    ++ asks ++ has (.scpi ()) 2 ++ asks

/-- The server is cancelled while the client is there. -/
def exit : List (Action port 2 Unit Empty) :=
  [.webEnds .returned, .cancel, .lose (), .forever, .forever, .resume, .closed]
    ++ asks .serve ++ asks .serve ++ asks .serve ++ asks .serve ++ has .serve 3 ++ asks .serve
    ++ [.finish]

/-- An orderly run, step by step. -/
def calm (s : State Unit Empty) : Action port 2 Unit Empty → Bool
  | .cancel => s.main = .starting ∨ s.main = .gathering
  | .lose k => (s.manager.point (.scpi k)).outcome.isSome
  | .resume => s.web ≠ .running
  | .manager (.answer _ .cancel) => false
  | .manager (.env (.finish _ (.raised _))) => false
  | _ => true

theorem orderly_of_calm {s : State Unit Empty} {a : Action port 2 Unit Empty}
    (h : calm s a = true) : Orderly s a := by
  cases a with
  | cancel => simpa [calm, Orderly] using h
  | lose k => exact h
  | resume => simpa [calm, Orderly] using h
  | webEnds web => exact fun m => m.elim
  | manager a =>
      cases a with
      | start t m =>
          cases t with
          | web m => exact m.elim
          | _ => trivial
      | invoke t => trivial
      | answer t x =>
          cases x with
          | outcome => cases t <;> trivial
          | cancel => cases h
      | env x =>
          cases x with
          | begin_ i => trivial
          | finish i x =>
              cases x with
              | returned response => trivial
              | raised e => cases h
  | _ => trivial

/-- A session of one client, from the first command to the exit. -/
theorem port_closed_at_exit_session : ∃ s : State Unit Empty,
    s.manager.shared.constructed = 1 ∧ s.main = .ended ∧
      ∀ port, s.manager.shared.opened port = false := by
  have hrun : (Transition.runWithin (State.step port 2 4) (fun s a => calm s a = true) State.init
      (session ++ exit)).map (fun s => (s.manager.shared.constructed, s.main))
        = some (1, .ended) := rfl
  obtain ⟨s, hs, hmain⟩ := Option.map_eq_some_iff.mp hrun
  simp only [Prod.mk.injEq] at hmain
  have horderly := (Transition.reach_of_runWithin hs).mono fun _ _ h => orderly_of_calm h
  exact ⟨s, hmain.1, hmain.2, (port_closed_at_exit horderly hmain.2).2.2.2⟩

end Runner
