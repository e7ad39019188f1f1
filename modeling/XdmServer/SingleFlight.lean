import XdmServer.Interleaving
import XdmServer.Serial

/-! # Single flight on the serial line

    Any number of tasks call the methods of one manager over one `SerialTransport`.
    The event loop runs their coroutines; `asyncio.to_thread` queues a job, and a
    worker begins it and ends it when it likes.  Cancelling a task that awaits a job
    raises `CancelledError` in the task at once: a job still queued is withdrawn, a job
    that has begun runs on.

    The lock belongs to the task, not to the worker: a cancelled task gives the lock
    back while its `_transact_blocking` is still running.  `single_flight` says that
    this is the only way to lose single flight. -/

namespace SingleFlight

open PyText Coroutine Commands Device Interleaving

/-! ## The worker pool -/

/-- How far a worker thread has come with its job. -/
inductive Progress (job : Job) where
  | queued
  | running
  | withdrawn
  | done (r : Except Exc job.Res)

/-- A job handed to `asyncio.to_thread`, and how far it has come. -/
structure Worker where
  job : Job
  progress : Progress job

/-- Its job has not begun. -/
def Worker.isQueued (w : Worker) : Bool :=
  match w.progress with
  | .queued => true
  | _ => false

/-- Its job has begun and has not ended. -/
def Worker.isRunning (w : Worker) : Bool :=
  match w.progress with
  | .running => true
  | _ => false

/-- A `_transact_blocking` that is running. -/
def Worker.transacting (w : Worker) : Bool := w.isRunning && w.job.isTransaction

/-- The result of a job that is done. -/
def Worker.result (w : Worker) (job : Job) : Option (Except Exc job.Res) :=
  match w with
  | ⟨job', .done r⟩ => if h : job' = job then some (h ▸ r) else none
  | _ => none

/-- A job still queued is withdrawn; one that has begun runs on. -/
def Worker.withdraw (w : Worker) : Worker :=
  if w.isQueued then ⟨w.job, .withdrawn⟩ else w

/-- The lock, the transport's `_serial`, the ports it constructed, the workers, and
    which of them each task awaits. -/
structure Pool (ι : Type) where
  holder : Option ι
  serial : Option Handle
  opened : Handle → Bool
  constructed : Nat
  workers : List Worker
  awaited : ι → Option Nat

/-- How a task is resumed: with the outcome it waits for, or with `CancelledError`. -/
inductive Resume where
  | outcome
  | cancel

/-- What a job comes to. -/
inductive Outcome where
  | returned (response : Option Str)
  | raised (e : Exc)

/-- What the executor may do: begin a job, or end one with an outcome. -/
inductive WorkerStep where
  | begin_ (i : Nat)
  | finish (i : Nat) (x : Outcome)

variable {ι : Type} [DecidableEq ι]

/-- Another entry for worker `i`. -/
def Pool.setWorker (s : Pool ι) (i : Nat) (w : Worker) : Pool ι :=
  { s with workers := s.workers.set i w }

/-- A job ends. -/
def Pool.finish (s : Pool ι) (i : Nat) : Job → Outcome → Pool ι
  | job, .raised e => s.setWorker i ⟨job, .done (.error e)⟩
  | .construct port baudRate, .returned _ =>
      { s.setWorker i ⟨.construct port baudRate, .done (.ok s.constructed)⟩ with
        opened := Function.update s.opened s.constructed true, constructed := s.constructed + 1 }
  | .transactBlocking command expects timeout, .returned response =>
      s.setWorker i ⟨.transactBlocking command expects timeout, .done (.ok response)⟩
  | .close ser, .returned _ =>
      { s.setWorker i ⟨.close ser, .done (.ok ())⟩ with
        opened := Function.update s.opened ser false }

/-- A step of the executor; `none` where it cannot be. -/
def Pool.workerStep (s : Pool ι) : WorkerStep → Option (Pool ι)
  | .begin_ i =>
      match s.workers[i]? with
      | some w => if w.isQueued then some (s.setWorker i ⟨w.job, .running⟩) else none
      | none => none
  | .finish i x =>
      match s.workers[i]? with
      | some w => if w.isRunning then some (s.finish i w.job x) else none
      | none => none

/-- `asyncio.to_thread` queues its job. -/
def Pool.invoke (s : Pool ι) (t : ι) : SerialOp → Pool ι
  | .toThread job => { s with
      workers := s.workers ++ [⟨job, .queued⟩]
      awaited := Function.update s.awaited t (some s.workers.length) }
  | _ => s

/-- The awaiting task is no longer waiting. -/
def Pool.forget (s : Pool ι) (t : ι) : Pool ι :=
  { s with awaited := Function.update s.awaited t none }

/-- The outcome of what a task waits for; `none` while it has none.  Only a wait that
    suspends the task can be cancelled. -/
def Pool.answer (s : Pool ι) (t : ι) :
    (o : SerialOp) → Resume → Option (Except Exc o.Res × Pool ι)
  | .acquire, .outcome =>
      if s.holder.isNone then some (.ok (), { s with holder := some t }) else none
  | .acquire, .cancel => some (.error .cancelledError, s)
  | .release, .outcome => some (.ok (), { s with holder := none })
  | .getSerial, .outcome => some (.ok s.serial, s)
  | .setSerial ser, .outcome => some (.ok (), { s with serial := ser })
  | .handleIsOpen ser, .outcome => some (.ok (s.opened ser), s)
  | .toThread job, .outcome =>
      match s.awaited t with
      | some i => ((s.workers[i]?).bind fun w => w.result job).map fun r => (r, s.forget t)
      | none => none
  | .toThread _, .cancel =>
      match s.awaited t with
      | some i => (s.workers[i]?).map fun w =>
          (.error .cancelledError, (s.setWorker i w.withdraw).forget t)
      | none => none
  | _, .cancel => none

variable (T : SerialTransport) (timeout : Rat)

/-- Tasks calling the manager's methods, and the workers. -/
def pool : System Serial Exc (Option Str) ι (Pool ι) where
  Entry := Method
  Choice := Resume
  Env := WorkerStep
  code := (serialManager T timeout).method
  start s _ _ := some s
  invoke := Pool.invoke
  answer := Pool.answer
  env := Pool.workerStep

/-- Nothing has been called yet. -/
def initial : Config Serial Exc (Option Str) ι (Pool ι) where
  shared := ⟨none, none, fun _ => false, 0, [], fun _ => none⟩
  point _ := .ready (.ret none)

/-! ## The discipline of the lock -/

/-- Where a task stands with the lock. -/
inductive Ghost where
  | free
  | holding

/-- While it waits: for the lock, or holding the lock, for a job or anything else. -/
inductive Held where
  | queueing
  | holding
  | awaiting

/-- A task reads and sets the transport, and hands jobs to workers, under the lock only. -/
def lockProtocol : Protocol Serial Exc where
  Ghost := Ghost
  Held := Held
  invoke g o h := match o with
    | .acquire => g = .free ∧ h = .queueing
    | .toThread _ => g = .holding ∧ h = .awaiting
    | _ => g = .holding ∧ h = .holding
  answer _ o r g := match o, r with
    | .acquire, .ok _ => g = .holding
    | .acquire, .error _ => g = .free
    | .release, _ => g = .free
    | _, _ => g = .holding

/-- The coroutine keeps the lock it was given, however it ends. -/
def InLock {α : Type} (p : Coro Serial Exc α) : Prop := lockProtocol.Maintains (· = .holding) p

/-- The operations within the lock. -/
def Inside : SerialOp → Prop
  | .acquire => False
  | .release => False
  | _ => True

theorem inLock_of_uses {α : Type} {p : Coro Serial Exc α} (hp : p.Uses Inside) : InLock p := by
  refine Protocol.maintains_of_uses hp fun o ho => Protocol.maintains_op ?_
  intro g hg
  cases o with
  | acquire => exact ho.elim
  | release => exact ho.elim
  | toThread job => exact ⟨.awaiting, ⟨hg, rfl⟩, fun _ _ h => h⟩
  | _ => exact ⟨.holding, ⟨hg, rfl⟩, fun _ _ h => h⟩

/-- An operation without a transaction may be made under the lock. -/
theorem inside_plain (o : SerialOp) (h : o.Plain) : Inside o := by
  cases o with
  | acquire => exact h
  | release => exact h
  | _ => trivial

/-- Whatever it sends, the manager leaves the lock to `hold`. -/
theorem inside_confined : (serialManager T timeout).Confined (fun _ => True) Inside :=
  serialManager_confined T timeout inside_plain (fun _ _ _ _ => trivial) trivial

theorem inLock_connect : InLock (serialManager T timeout).connect :=
  inLock_of_uses (inside_confined T timeout).connect

theorem inLock_close : InLock SerialTransport.close :=
  inLock_of_uses (SerialTransport.plain_close.mono inside_plain)

theorem inLock_exchange (command : Str) (expects : Bool) (limit : Rat) :
    InLock ((serialManager T timeout).exchange command expects limit) :=
  inLock_of_uses ((inside_confined T timeout).exchange trivial expects limit)

/-- `async with` takes the lock and gives it back, whatever happens inside. -/
theorem wp_hold {α : Type} {body : Coro Serial Exc α} (h : InLock body) :
    lockProtocol.wp (serialLock.hold body) (fun _ g => g = .free) .free := by
  refine (Protocol.wp_bind ..).mpr ((Protocol.wp_op ..).mpr
    ⟨.queueing, ⟨rfl, rfl⟩, fun r g hg => ?_⟩)
  rcases r with e | u
  · exact hg
  · obtain rfl : g = .holding := hg
    refine (Protocol.wp_tryFinally ..).mpr (Protocol.wp_mono (h _ rfl) ?_)
    rintro r g rfl
    refine (Protocol.wp_op ..).mpr ⟨.holding, ⟨rfl, rfl⟩, fun r' g hg => ?_⟩
    rcases r' with e | u <;> exact hg

/-- **Every method of the manager** leaves the lock free when it ends. -/
theorem wp_method (m : Method) :
    lockProtocol.wp ((serialManager T timeout).method m) (fun _ g => g = .free) .free := by
  cases m with
  | start =>
      have hstart := wp_hold (inLock_connect T timeout)
      exact Protocol.wp_then hstart fun _ => .inl ⟨none, rfl⟩
  | stop =>
      have hstop := wp_hold inLock_close
      exact Protocol.wp_then hstop fun _ => .inl ⟨none, rfl⟩
  | call c =>
      cases c with
      | query command limit =>
          have htransact := wp_hold (inLock_exchange T timeout command true
            (limit.getD timeout))
          refine Protocol.wp_then (Protocol.wp_then htransact fun r => ?_) fun r =>
            .inl ⟨some r, rfl⟩
          cases r with
          | some r => exact .inl ⟨r, rfl⟩
          | none => exact .inr ⟨.assertionError, rfl⟩
      | write command limit =>
          have htransact := wp_hold (inLock_exchange T timeout command false
            (limit.getD timeout))
          exact Protocol.wp_then (Protocol.wp_then htransact fun _ => .inl ⟨(), rfl⟩) fun _ =>
            .inl ⟨none, rfl⟩

/-! ## The invariant -/

/-- The task has the lock, as far as its own steps tell. -/
def HasLock : Phase lockProtocol → Prop
  | .ready .holding => True
  | .waiting .holding => True
  | .waiting .awaiting => True
  | _ => False

/-- A job that has still to run, or a transaction that is running: what must not be
    left behind. -/
def Worker.live (w : Worker) : Bool := w.isQueued || w.transacting

/-- **The two layers**: the holder of the lock is the task that has it, and every live
    job is the one that this task awaits. -/
structure Inv (s : Pool ι) (ph : ι → Phase lockProtocol) : Prop where
  holder : ∀ t, HasLock (ph t) ↔ s.holder = some t
  awaited : ∀ i w, s.workers[i]? = some w → w.live = true →
    ∃ t, s.holder = some t ∧ ph t = .waiting .awaiting ∧ s.awaited t = some i

/-- Nobody is cancelled while its own `_transact_blocking` is running. -/
def Uninterrupted (s : Pool ι) (a : Action (pool T timeout : System Serial Exc _ ι _))
    (_ : Pool ι) : Prop :=
  match a with
  | .answer t .cancel => ∀ i w, s.awaited t = some i → s.workers[i]? = some w →
      w.transacting = false
  | _ => True

omit [DecidableEq ι] in
/-- No job is live while the holder of the lock is not waiting for one. -/
theorem Inv.quiet {s : Pool ι} {ph : ι → Phase lockProtocol} (h : Inv s ph) {t : ι}
    (ht : HasLock (ph t)) (hnot : ph t ≠ .waiting .awaiting) {i : Nat} {w : Worker}
    (hw : s.workers[i]? = some w) : w.live = false := by
  by_contra hlive
  -- a live job is awaited by the holder of the lock, and that is `t`
  obtain ⟨u, hu, hph, -⟩ := h.awaited i w hw (by simpa using hlive)
  have htu : t = u := Option.some.inj (((h.holder t).mp ht).symm.trans hu)
  subst htu
  exact hnot hph

/-- A step of a task that neither takes nor gives the lock, and awaited no job. -/
theorem Inv.sync {s s' : Pool ι} {ph : ι → Phase lockProtocol} (h : Inv s ph) {t : ι}
    {φ : Phase lockProtocol} (hφ : HasLock φ ↔ HasLock (ph t)) (hnot : ph t ≠ .waiting .awaiting)
    (hholder : s'.holder = s.holder) (hworkers : s'.workers = s.workers)
    (hawaited : s'.awaited = s.awaited) : Inv s' (Function.update ph t φ) where
  holder := by
    rw [hholder]
    exact forall_update (R := fun u φ => HasLock φ ↔ s.holder = some u) (hφ.trans (h.holder t))
      fun u _ => h.holder u
  awaited i w hw hlive := by
    rw [hworkers] at hw
    obtain ⟨u, hu, hph, ha⟩ := h.awaited i w hw hlive
    have hut : u ≠ t := fun he => hnot (he ▸ hph)
    exact ⟨u, hholder.trans hu, by rw [Function.update_of_ne hut, hph], by rw [hawaited, ha]⟩

/-- Taking the free lock. -/
theorem Inv.acquire {s : Pool ι} {ph : ι → Phase lockProtocol} (h : Inv s ph) (t : ι)
    (hfree : s.holder = none) :
    Inv { s with holder := some t } (Function.update ph t (.ready .holding)) where
  holder := by
    refine forall_update (R := fun u φ => HasLock φ ↔ some t = some u) (iff_of_true trivial rfl) ?_
    intro u hu
    rw [h.holder u, hfree]
    exact iff_of_false (fun he => nomatch he) fun he => hu (Option.some.inj he).symm
  awaited i w hw hlive := by
    obtain ⟨u, hu, -⟩ := h.awaited i w hw hlive
    exact nomatch hfree.symm.trans hu

/-- Giving the lock back. -/
theorem Inv.release {s : Pool ι} {ph : ι → Phase lockProtocol} (h : Inv s ph) {t : ι}
    (ht : ph t = .waiting .holding) :
    Inv { s with holder := none } (Function.update ph t (.ready .free)) where
  holder := by
    refine forall_update (R := fun u φ => HasLock φ ↔ none = some u)
      (iff_of_false (fun he => he) fun he => nomatch he) fun u hu => ?_
    rw [h.holder u]
    refine iff_of_false (fun he => hu ?_) fun he => nomatch he
    have hold : s.holder = some t := (h.holder t).mp (by rw [ht]; trivial)
    exact Option.some.inj (he.symm.trans hold)
  awaited i w hw hlive := by
    have hquiet := h.quiet (t := t) (by rw [ht]; trivial)
      (by rw [ht]; exact fun he => nomatch he) hw
    exact nomatch hlive.symm.trans hquiet

/-- Handing a job to a worker. -/
theorem Inv.toThread {s : Pool ι} {ph : ι → Phase lockProtocol} (h : Inv s ph) {t : ι}
    (ht : ph t = .ready .holding) (job : Job) :
    Inv (s.invoke t (.toThread job)) (Function.update ph t (.waiting .awaiting)) where
  holder := by
    have hold : s.holder = some t := (h.holder t).mp (by rw [ht]; trivial)
    exact forall_update (R := fun u φ => HasLock φ ↔ s.holder = some u) (iff_of_true trivial hold)
      fun u _ => h.holder u
  awaited i w hw hlive := by
    have hold : s.holder = some t := (h.holder t).mp (by rw [ht]; trivial)
    refine ⟨t, hold, Function.update_self .., ?_⟩
    show Function.update s.awaited t _ t = _
    rw [Function.update_self]
    -- the jobs that were there before are dead: the holder was not waiting for one
    have hi : i = s.workers.length := by
      by_contra hne
      have hw' : (s.workers ++ [⟨job, .queued⟩])[i]? = some w := hw
      have hlt : i < s.workers.length := by
        have := (List.getElem?_eq_some_iff.mp hw').1
        rw [List.length_append, List.length_singleton] at this
        omega
      rw [List.getElem?_append_left hlt] at hw'
      have hquiet := h.quiet (t := t) (by rw [ht]; trivial)
        (by rw [ht]; exact fun he => nomatch he) hw'
      exact nomatch hlive.symm.trans hquiet
    rw [hi]

omit [DecidableEq ι] in
/-- A worker's step, or the withdrawal of a job, makes no dead job live. -/
theorem Inv.setWorker {s : Pool ι} {ph : ι → Phase lockProtocol} (h : Inv s ph) {i : Nat}
    {w v : Worker} (hw : s.workers[i]? = some w) (hlive : v.live = true → w.live = true)
    {s' : Pool ι} (hholder : s'.holder = s.holder) (hworkers : s'.workers = s.workers.set i v)
    (hawaited : s'.awaited = s.awaited) : Inv s' ph where
  holder u := by
    rw [hholder]
    exact h.holder u
  awaited j u hu hulive := by
    rw [hworkers] at hu
    have hlt : i < s.workers.length := (List.getElem?_eq_some_iff.mp hw).1
    have hbefore : ∃ u', s.workers[j]? = some u' ∧ u'.live = true := by
      by_cases hj : i = j
      · subst hj
        rw [List.getElem?_set_self hlt] at hu
        obtain rfl := Option.some.inj hu
        exact ⟨w, hw, hlive hulive⟩
      · rw [List.getElem?_set_ne hj] at hu
        exact ⟨u, hu, hulive⟩
    obtain ⟨u', hu', hlive'⟩ := hbefore
    obtain ⟨t, ht, hph, ha⟩ := h.awaited j u' hu' hlive'
    exact ⟨t, hholder.trans ht, hph, by rw [hawaited, ha]⟩

/-- The awaited job is dead, and the task goes on. -/
theorem Inv.resume {s : Pool ι} {ph : ι → Phase lockProtocol} (h : Inv s ph) {t : ι}
    (ht : ph t = .waiting .awaiting) {i : Nat} (hi : s.awaited t = some i)
    (hdead : ∀ w, s.workers[i]? = some w → w.live = false) :
    Inv (s.forget t) (Function.update ph t (.ready .holding)) where
  holder := by
    have hold : s.holder = some t := (h.holder t).mp (by rw [ht]; trivial)
    exact forall_update (R := fun u φ => HasLock φ ↔ s.holder = some u) (iff_of_true trivial hold)
      fun u _ => h.holder u
  awaited j w hw hlive := by
    obtain ⟨u, hu, -, ha⟩ := h.awaited j w hw hlive
    have hold : s.holder = some t := (h.holder t).mp (by rw [ht]; trivial)
    obtain rfl : t = u := Option.some.inj (hold.symm.trans hu)
    obtain rfl : i = j := Option.some.inj (hi.symm.trans ha)
    exact nomatch hlive.symm.trans (hdead w hw)

/-! ## Every step keeps the invariant -/

/-- A job that is withdrawn runs no more, unless it was running. -/
theorem Worker.live_withdraw {w : Worker} (h : w.transacting = false) :
    w.withdraw.live = false := by
  unfold Worker.withdraw
  by_cases hq : w.isQueued = true
  · rw [if_pos hq]
    rfl
  · rw [if_neg hq, Worker.live, h, Bool.eq_false_iff.mpr hq]
    rfl

/-- A job with a result runs no more. -/
theorem Worker.live_of_result {w : Worker} {job : Job} {r : Except Exc job.Res}
    (h : w.result job = some r) : w.live = false := by
  obtain ⟨job', p⟩ := w
  cases p with
  | done _ => rfl
  | _ => exact nomatch h

omit [DecidableEq ι] in
/-- A step of a worker keeps the invariant. -/
theorem inv_workerStep {s s' : Pool ι} {ph : ι → Phase lockProtocol} {x : WorkerStep}
    (h : Inv s ph) (hs : s.workerStep x = some s') : Inv s' ph := by
  cases x with
  | begin_ i =>
      simp only [Pool.workerStep] at hs
      split at hs
      · next w hw =>
          split at hs
          · next hq =>
              obtain rfl := Option.some.inj hs
              exact h.setWorker hw (fun _ => by rw [Worker.live, hq]; rfl) rfl rfl rfl
          · exact nomatch hs
      · exact nomatch hs
  | finish i x =>
      simp only [Pool.workerStep] at hs
      split at hs
      · next w hw =>
          split at hs
          · obtain rfl := Option.some.inj hs
            -- a job that ends is dead, whatever it ended with
            obtain ⟨job, p⟩ := w
            cases x with
            | raised e =>
                refine h.setWorker hw (v := ⟨job, .done (.error e)⟩) (fun hl => nomatch hl) ?_ ?_ ?_
                  <;> cases job <;> rfl
            | returned response =>
                cases job with
                | construct port baudRate =>
                    exact h.setWorker hw
                      (v := ⟨.construct port baudRate, .done (.ok s.constructed)⟩)
                      (fun hl => nomatch hl) rfl rfl rfl
                | transactBlocking command expects timeout =>
                    exact h.setWorker hw
                      (v := ⟨.transactBlocking command expects timeout, .done (.ok response)⟩)
                      (fun hl => nomatch hl) rfl rfl rfl
                | close ser =>
                    exact h.setWorker hw (v := ⟨.close ser, .done (.ok ())⟩)
                      (fun hl => nomatch hl) rfl rfl rfl
          · exact nomatch hs
      · exact nomatch hs

/-- Each uninterrupted step keeps the invariant. -/
theorem sound : Sound lockProtocol (pool T timeout : System Serial Exc _ ι _)
    (Uninterrupted T timeout) (fun _ g => g = .free) Inv where
  start := by
    rintro s s' ph t m g r hI hph rfl - hs
    obtain rfl := Option.some.inj hs
    refine ⟨.free, wp_method T timeout m, ?_⟩
    rw [← hph, Function.update_eq_self]
    exact hI
  invoke := by
    rintro s ph t o g h hI hph hinv -
    have hquiet : ph t ≠ .waiting .awaiting := by
      rw [hph]
      exact fun he => nomatch he
    cases o with
    | acquire =>
        obtain ⟨rfl, rfl⟩ := hinv
        exact hI.sync (by rw [hph]; exact Iff.rfl) hquiet rfl rfl rfl
    | toThread job =>
        obtain ⟨rfl, rfl⟩ := hinv
        exact hI.toThread hph job
    | _ =>
        obtain ⟨rfl, rfl⟩ := hinv
        exact hI.sync (by rw [hph]; exact Iff.rfl) hquiet rfl rfl rfl
  answer := by
    rintro s s' ph t o h x r hI hph ⟨g, hinv⟩ hok hs
    cases o with
    | acquire =>
        obtain ⟨rfl, rfl⟩ := hinv
        cases x with
        | outcome =>
            simp only [pool, Pool.answer] at hs
            split at hs
            · next hfree =>
                obtain ⟨rfl, rfl⟩ := Prod.mk.inj (Option.some.inj hs)
                exact ⟨.holding, rfl, hI.acquire t (Option.isNone_iff_eq_none.mp hfree)⟩
            · exact nomatch hs
        | cancel =>
            obtain ⟨rfl, rfl⟩ := Prod.mk.inj (Option.some.inj hs)
            refine ⟨.free, rfl, hI.sync ?_ ?_ rfl rfl rfl⟩ <;> rw [hph]
            · exact Iff.rfl
            · exact fun he => nomatch he
    | release =>
        obtain ⟨rfl, rfl⟩ := hinv
        cases x with
        | outcome =>
            obtain ⟨rfl, rfl⟩ := Prod.mk.inj (Option.some.inj hs)
            exact ⟨.free, rfl, hI.release hph⟩
        | cancel => exact nomatch hs
    | toThread job =>
        obtain ⟨rfl, rfl⟩ := hinv
        refine ⟨.holding, by cases r <;> rfl, ?_⟩
        cases x with
        | outcome =>
            simp only [pool, Pool.answer] at hs
            split at hs
            · next i hi =>
                obtain ⟨r', hr', he⟩ := Option.map_eq_some_iff.mp hs
                obtain ⟨w, hw, hres⟩ := Option.bind_eq_some_iff.mp hr'
                obtain ⟨rfl, rfl⟩ := Prod.mk.inj he
                -- the task goes on because its job has a result
                refine hI.resume hph hi fun w' hw' => ?_
                obtain rfl : w = w' := Option.some.inj (hw.symm.trans hw')
                exact Worker.live_of_result hres
            · exact nomatch hs
        | cancel =>
            simp only [pool, Pool.answer] at hs
            split at hs
            · next i hi =>
                obtain ⟨w, hw, he⟩ := Option.map_eq_some_iff.mp hs
                obtain ⟨rfl, rfl⟩ := Prod.mk.inj he
                -- the job was still queued, or no transaction: it cannot touch the line any more
                have hdead := Worker.live_withdraw (hok i w hi hw)
                have hI' : Inv (s.setWorker i w.withdraw) ph :=
                  hI.setWorker hw (fun hl => nomatch hdead.symm.trans hl) rfl rfl rfl
                refine hI'.resume hph hi fun w' hw' => ?_
                have hlt : i < s.workers.length := (List.getElem?_eq_some_iff.mp hw).1
                obtain rfl : w.withdraw = w' :=
                  Option.some.inj ((List.getElem?_set_self hlt).symm.trans hw')
                exact hdead
            · exact nomatch hs
    | _ =>
        obtain ⟨rfl, rfl⟩ := hinv
        cases x with
        | outcome =>
            obtain ⟨rfl, rfl⟩ := Prod.mk.inj (Option.some.inj hs)
            refine ⟨.holding, by trivial, hI.sync ?_ ?_ rfl rfl rfl⟩ <;> rw [hph]
            · exact Iff.rfl
            · exact fun he => nomatch he
        | cancel => exact nomatch hs
  env := by
    intro s s' ph x hI _ hs
    exact inv_workerStep hI hs

/-! ## Single flight -/

/-- The worker `i` is running a `_transact_blocking`. -/
def Pool.Transacting (s : Pool ι) (i : Nat) : Prop :=
  ∃ w, s.workers[i]? = some w ∧ w.transacting = true

/-- At most one `_transact_blocking` is running, and no other and no `ser.close()` can
    begin while one is. -/
structure OneAtATime (c : Config Serial Exc (Option Str) ι (Pool ι)) : Prop where
  one : ∀ i j, c.shared.Transacting i → c.shared.Transacting j → i = j
  alone : ∀ i c' w, step (pool T timeout) c (.env (.begin_ i)) = some c' →
    c.shared.workers[i]? = some w → w.job.isTransaction = true ∨ w.job.isClose = true →
    ∀ j, ¬ c.shared.Transacting j

omit [DecidableEq ι] in
/-- Two live jobs are one: both are awaited by the holder of the lock. -/
theorem Inv.live_unique {s : Pool ι} {ph : ι → Phase lockProtocol} (h : Inv s ph) {i j : Nat}
    {w v : Worker} (hw : s.workers[i]? = some w) (hv : s.workers[j]? = some v)
    (hwl : w.live = true) (hvl : v.live = true) : i = j := by
  obtain ⟨t, ht, -, hi⟩ := h.awaited i w hw hwl
  obtain ⟨u, hu, -, hj⟩ := h.awaited j v hv hvl
  obtain rfl : t = u := Option.some.inj (ht.symm.trans hu)
  exact Option.some.inj (hi.symm.trans hj)

/-- A worker within a transaction runs. -/
theorem Worker.live_of_transacting {w : Worker} (h : w.transacting = true) : w.live = true := by
  rw [Worker.live, h, Bool.or_true]

/-- **SINGLE FLIGHT**: along every run of any tasks calling `start`, `stop`, `query` and
    `write`, with any cancellations but those that hit a task while its own
    `_transact_blocking` is running, at most one transaction is on the line, and neither
    another transaction nor a close begins while one is. -/
theorem single_flight {c : Config Serial Exc (Option Str) ι (Pool ι)}
    (h : Reach (pool T timeout) (Uninterrupted T timeout) initial c) :
    OneAtATime T timeout c := by
  have hstart : Inv (ι := ι) initial.shared fun _ => .ready .free :=
    ⟨fun t => iff_of_false (fun h => h) fun h => (nomatch h), fun i w hw => (nomatch hw)⟩
  obtain ⟨ph, hI, -⟩ := (sound T timeout).reach hstart (fun _ => rfl) h
  refine ⟨?_, ?_⟩
  · rintro i j ⟨w, hw, hwt⟩ ⟨v, hv, hvt⟩
    exact hI.live_unique hw hv (Worker.live_of_transacting hwt) (Worker.live_of_transacting hvt)
  · rintro i c' w hstep hw - j ⟨v, hv, hvt⟩
    -- only a queued job begins, and a queued job is live
    have hq : w.isQueued = true := by
      obtain ⟨s, hs, -⟩ := Option.map_eq_some_iff.mp hstep
      by_contra hq
      simp only [pool, Pool.workerStep, hw, if_neg hq] at hs
      exact nomatch hs
    have hij : i = j := hI.live_unique hw hv (by rw [Worker.live, hq]; rfl)
      (Worker.live_of_transacting hvt)
    subst hij
    obtain rfl : w = v := Option.some.inj (hw.symm.trans hv)
    obtain ⟨job, p⟩ := w
    cases p with
    | queued => exact nomatch hvt
    | _ => exact nomatch hq

/-- The action is no cancellation of a task whose own transaction is running. -/
def spares (s : Pool ι) : Action (pool T timeout : System Serial Exc _ ι _) → Bool
  | .answer t .cancel => ((s.awaited t).bind fun i => s.workers[i]?).all fun w => !w.transacting
  | _ => true

/-- A cancellation that spares the transactions leaves them uninterrupted. -/
theorem uninterrupted_of_spares {s : Pool ι} {a : Action (pool T timeout : System Serial Exc _ ι _)}
    (h : spares T timeout s a = true) (s' : Pool ι) : Uninterrupted T timeout s a s' := by
  cases a with
  | answer t x =>
      cases x with
      | outcome => trivial
      | cancel =>
          intro i w hi hw
          simpa [spares, hi, hw] using h
  | _ => trivial

/-- A task asks for something and gets it. -/
def go (t : ι) : List (Action (pool T timeout : System Serial Exc _ ι _)) :=
  [.invoke t, .answer t .outcome]

/-- A job from its beginning to its end. -/
def work (i : Nat) : List (Action (pool T timeout : System Serial Exc _ ι _)) :=
  [.env (.begin_ i), .env (.finish i (.returned none))]

/-- A poll loop starts the manager, and its query goes on the line. -/
def polling (t : ι) : List (Action (pool T timeout : System Serial Exc _ ι _)) :=
  let go := go T timeout t
  [.start t .start] ++ go ++ go
    ++ [.invoke t] ++ work T timeout 0 ++ [.answer t .outcome] ++ go
    ++ go ++ [.invoke t] ++ work T timeout 1 ++ [.answer t .outcome] ++ go
    ++ [.start t (.call (.query FUNCTION none))] ++ go ++ go ++ go ++ go
    ++ [.invoke t, .env (.begin_ 2)]

/-- The loop is cancelled there, and the query of a SCPI client goes on the line. -/
def overlap : List (Action (pool T timeout : System Serial Exc _ Bool _)) :=
  let go := go T timeout true
  polling T timeout false ++ [.answer false .cancel, .invoke false, .answer false .outcome]
    ++ [.start true (.call (.query MEASURE none))] ++ go ++ go ++ go ++ go
    ++ [.invoke true, .env (.begin_ 3)]

omit [DecidableEq ι] in
theorem transacting_iff {s : Pool ι} {i : Nat} :
    s.Transacting i ↔ (s.workers.map Worker.transacting)[i]? = some true := by
  rw [List.getElem?_map, Option.map_eq_some_iff]
  exact Iff.rfl

/-- **Single flight is lost** when a task is cancelled while its transaction is running. -/
theorem not_single_flight :
    ¬ ∀ (ι : Type) (_ : DecidableEq ι) (T : SerialTransport) (timeout : Rat)
      (c : Config Serial Exc (Option Str) ι (Pool ι)),
      Reach (pool T timeout) Free initial c → OneAtATime T timeout c := by
  intro h
  have hrun : ((run (pool ⟨"/dev/ttyUSB0".toList, 115200⟩ 2) initial (overlap _ 2)).map
      fun c => c.shared.workers.map Worker.transacting) = some [false, false, true, true] := rfl
  obtain ⟨c, hc, hworkers⟩ := Option.map_eq_some_iff.mp hrun
  have hone := (h Bool inferInstance _ 2 c (reach_of_run hc fun _ _ _ _ => trivial)).one
  have htwo : c.shared.Transacting 2 := transacting_iff.mpr (by rw [hworkers]; rfl)
  have hthree : c.shared.Transacting 3 := transacting_iff.mpr (by rw [hworkers]; rfl)
  exact absurd (hone 2 3 htwo hthree) (by decide)

/-- The poll loop and two clients. -/
inductive Caller where
  | loop
  | first
  | second
  deriving DecidableEq

/-- While the loop's query is on the line, the query of a client that waits for the lock is
    cancelled, and another client comes; the loop is cancelled after its answer has come. -/
def contended : List (Action (pool T timeout : System Serial Exc _ Caller _)) :=
  let go := go T timeout Caller.second
  polling T timeout .loop
    ++ [.start .first (.call (.query MEASURE none)), .invoke .first, .answer .first .cancel]
    ++ [.start .second (.call (.query RATE_QUERY none)), .invoke .second]
    ++ [.env (.finish 2 (.returned none))]
    ++ [.answer .loop .cancel, .invoke .loop, .answer .loop .outcome]
    ++ [.answer .second .outcome] ++ go ++ go ++ go ++ [.invoke .second, .env (.begin_ 3)]

/-- Single flight over two cancellations, while the last client's query is on the line. -/
theorem single_flight_contended :
    ∃ c : Config Serial Exc (Option Str) Caller (Pool Caller),
      run (pool ⟨"/dev/ttyUSB0".toList, 115200⟩ 2) initial (contended _ 2) = some c ∧
      c.shared.Transacting 3 ∧ OneAtATime ⟨"/dev/ttyUSB0".toList, 115200⟩ 2 c := by
  have hrun : ((runWithin (pool ⟨"/dev/ttyUSB0".toList, 115200⟩ 2)
      (fun s a _ => spares _ 2 s a = true) initial (contended _ 2)).map
        fun c => c.shared.workers.map Worker.transacting)
      = some [false, false, false, true] := rfl
  obtain ⟨c, hc, hworkers⟩ := Option.map_eq_some_iff.mp hrun
  have hreach : Reach (pool ⟨"/dev/ttyUSB0".toList, 115200⟩ 2)
      (fun s a _ => spares _ 2 s a = true) initial c := reach_of_runWithin hc
  have honline : c.shared.Transacting 3 := transacting_iff.mpr (by rw [hworkers]; rfl)
  exact ⟨c, run_of_runWithin hc, honline,
    single_flight _ 2 (hreach.mono fun _ _ s' h => uninterrupted_of_spares _ 2 h s')⟩

end SingleFlight
