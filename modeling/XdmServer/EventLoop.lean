import XdmServer.LockReturns
import XdmServer.Transition
import Mathlib.Data.PNat.Defs

/-! # The order of the waiters and the number of the threads

    In `pool` whoever waits for a free lock may take it, and a job may begin as soon as it is
    queued.  `asyncio.Lock` serves its waiters in the order in which they came, and the executor
    behind `asyncio.to_thread` has a bounded number of threads, on which the jobs of cancelled
    tasks run on.  Here are both: every step is a step of the pool, so that what holds of every
    run of the pool holds of every run here, and some steps have to wait for their turn.

    `lock_returns` says what comes of it: nobody has the lock for good, and nobody waits for it
    in vain or longer than for those who were there before. -/

namespace EventLoop

open PyText Coroutine Commands Device Interleaving SingleFlight LockReturns

/-! ## The event loop -/

/-- The tasks and the workers, and who waits for the lock, in the order in which they came. -/
structure State (ι : Type) extends Config Serial Exc (Option Str) ι (Pool ι) where
  waiters : List ι

variable (T : SerialTransport) (timeout : Rat) (threads : ℕ+) {ι : Type} [DecidableEq ι]

/-- What the tasks and the workers do. -/
abbrev Task (ι : Type) [DecidableEq ι] := Action (pool T timeout : System Serial Exc _ ι _)

/-- The task waits for the lock. -/
def Queues : Point Serial Exc (Option Str) → Bool
  | .waiting .acquire _ => true
  | _ => false

/-- The task is about to ask for the lock. -/
def Asks : Point Serial Exc (Option Str) → Bool
  | .ready (.call .acquire _) => true
  | _ => false

namespace State

/-- Nothing has been called yet. -/
def init : State ι := ⟨initial, []⟩

/-- The threads on which a job is running. -/
def busy (s : State ι) : ℕ := s.shared.workers.countP Worker.isRunning

/-- The lock goes to the first of its waiters, and the first job that is queued to a thread
    that is not busy. -/
def permits (s : State ι) : Task T timeout ι → Bool
  | .answer t .outcome => !Queues (s.point t) || s.waiters.head? == some t
  | .env (.begin_ i) =>
      (s.shared.workers.take i).all (fun w => !w.isQueued) && decide (s.busy < threads)
  | _ => true

/-- Who asks for the lock goes to the end of the queue, and leaves it with the lock or with
    `CancelledError`. -/
def queue (s : State ι) : Task T timeout ι → List ι
  | .invoke t => if Asks (s.point t) then s.waiters ++ [t] else s.waiters
  | .answer t _ => if Queues (s.point t) then s.waiters.filter (· ≠ t) else s.waiters
  | _ => s.waiters

/-- One step: an action that the queues permit, and what becomes of the waiters. -/
def step (s : State ι) (a : Task T timeout ι) : Option (State ι) :=
  if s.permits T timeout threads a then
    (Interleaving.step (pool T timeout) s.toConfig a).map fun c =>
      { c with waiters := s.queue T timeout a }
  else none

end State

/-! ## Every step is one of the pool's -/

variable {T timeout threads}

/-- **What a step does**: a step of the pool whose turn it is. -/
theorem step_spec {s s' : State ι} {a : Task T timeout ι}
    (hs : s.step T timeout threads a = some s') : s.permits T timeout threads a = true ∧
      Interleaving.step (pool T timeout) s.toConfig a = some s'.toConfig ∧
      s'.waiters = s.queue T timeout a := by
  obtain ⟨hpermits, hs⟩ := Option.ite_none_right_eq_some.mp hs
  obtain ⟨c, hc, rfl⟩ := Option.map_eq_some_iff.mp hs
  exact ⟨hpermits, hc, rfl⟩

/-- A step of the pool that the queues permit is a step. -/
theorem step_of_pool {s : State ι} {a : Task T timeout ι}
    {c : Config Serial Exc (Option Str) ι (Pool ι)}
    (hpermits : s.permits T timeout threads a = true)
    (hc : Interleaving.step (pool T timeout) s.toConfig a = some c) :
    s.step T timeout threads a = some { c with waiters := s.queue T timeout a } := by
  rw [State.step, if_pos hpermits, hc]
  rfl

variable (T timeout threads)

/-- The states that runs reach from the start. -/
abbrev Reachable (s : State ι) : Prop :=
  Transition.Reach (State.step T timeout threads) Transition.Free .init s

variable {T timeout threads}

/-- A run of the event loop is one of the pool. -/
theorem Reachable.pool {s : State ι} (h : Reachable T timeout threads s) :
    Reach (SingleFlight.pool T timeout) Free initial s.toConfig := by
  induction h with
  | refl => exact .refl
  | step _ _ hs ih => exact .step ih trivial (step_spec hs).2.1

theorem Reachable.step {s s' : State ι} {a : Task T timeout ι}
    (h : Reachable T timeout threads s) (hs : s.step T timeout threads a = some s') :
    Reachable T timeout threads s' :=
  Transition.Reach.step h trivial hs

theorem Reachable.tended {s : State ι} (h : Reachable T timeout threads s) :
    Tended s.toConfig :=
  tended_reach T timeout h.pool

/-! ## The queue of the lock -/

/-- The queue holds those who wait for the lock. -/
def InLine (s : State ι) : Prop := ∀ t, t ∈ s.waiters ↔ Queues (s.point t) = true

omit [DecidableEq ι] in
theorem not_queues_of_outcome {q : Point Serial Exc (Option Str)} {r : Except Exc (Option Str)}
    (h : q.outcome = some r) : Queues q = false := by
  cases q with
  | ready p => rfl
  | waiting o k => cases h

/-- One step keeps the waiters in line. -/
theorem InLine.step {s s' : State ι} {a : Task T timeout ι} (h : InLine s)
    (hs : s.step T timeout threads a = some s') : InLine s' := by
  obtain ⟨-, hstep, hqueue⟩ := step_spec hs
  -- the task that moves, and all the others
  have hmoves : ∀ {t : ι} {q : Point Serial Exc (Option Str)},
      s'.point = Function.update s.point t q → (∀ u, u ≠ t → (u ∈ s'.waiters ↔ u ∈ s.waiters)) →
      (t ∈ s'.waiters ↔ Queues q = true) → InLine s' := by
    intro t q hpoint hothers hself u
    rw [hpoint]
    by_cases hu : u = t
    · subst hu
      rw [Function.update_self]
      exact hself
    · rw [Function.update_of_ne hu, hothers u hu]
      exact h u
  obtain ⟨t, m, r, p, rfl, hr, -, hc⟩ | ⟨t, o, k, rfl, hp, hc⟩ |
    ⟨t, x, o, k, r, p, rfl, hp, -, hc⟩ | ⟨x, p, rfl, -, hc⟩ := step_cases hstep
  · have hqueue : s'.waiters = s.waiters := hqueue
    refine hmoves (congrArg Config.point hc) (fun u _ => by rw [hqueue]) ?_
    rw [hqueue, h t, not_queues_of_outcome hr]
    exact iff_of_false (by simp) (by simp [Queues])
  · refine hmoves (congrArg Config.point hc) ?_ ?_
    · intro u hu
      rw [hqueue, State.queue]
      split <;> simp [hu]
    · rw [hqueue, State.queue, hp]
      cases o with
      | acquire => simp [Asks, Queues]
      | _ => simp [Asks, Queues, h t, hp]
  · refine hmoves (congrArg Config.point hc) ?_ ?_
    · intro u hu
      rw [hqueue, State.queue]
      split <;> simp [hu]
    · rw [hqueue, State.queue, hp]
      cases o with
      | acquire => simp [Queues]
      | _ => simp [Queues, h t, hp]
  · intro t
    have hqueue : s'.waiters = s.waiters := hqueue
    have hpoint : s'.point = s.point := by rw [hc]
    rw [hqueue, hpoint]
    exact h t

/-- The waiters are in line in every run. -/
theorem Reachable.inLine {s : State ι} (h : Reachable T timeout threads s) : InLine s := by
  induction h with
  | refl =>
      intro t
      exact iff_of_false (by simp [State.init]) (by simp [State.init, initial, Queues])
  | step _ _ hs ih => exact ih.step hs

/-! ## The threads -/

/-- What the workers of a list have left to do. -/
def load : List Worker → ℕ
  | [] => 0
  | w :: workers => steps w.progress + load workers

/-- A step of a worker lessens the load. -/
theorem load_set_lt {workers : List Worker} {i : ℕ} {v w : Worker} (h : workers[i]? = some w)
    (hlt : steps v.progress < steps w.progress) : load (workers.set i v) < load workers := by
  induction workers generalizing i with
  | nil => cases h
  | cons u workers ih =>
      cases i with
      | zero =>
          obtain rfl := Option.some.inj h
          exact Nat.add_lt_add_right hlt (load workers)
      | succ i => exact Nat.add_lt_add_left (ih h) (steps u.progress)

/-- **What a worker's step does** to the rest, and that it comes to an end. -/
theorem env_spec {s s' : State ι} {x : WorkerStep}
    (hs : s.step T timeout threads (.env x) = some s') : s'.point = s.point ∧
      s'.waiters = s.waiters ∧ s'.shared.holder = s.shared.holder ∧
      s'.shared.awaited = s.shared.awaited ∧ load s'.shared.workers < load s.shared.workers := by
  obtain ⟨-, hstep, hqueue⟩ := step_spec hs
  obtain ⟨p, hp, hc⟩ := Option.map_eq_some_iff.mp hstep
  obtain ⟨hholder, hawaited, job, q, q', hw, hworkers, -, hsteps⟩ := workerStep_spec hp
  have hshared : s'.shared = p := by rw [← hc]
  have hpoint : s'.point = s.point := by rw [← hc]
  refine ⟨hpoint, hqueue, hshared ▸ hholder, hshared ▸ hawaited, ?_⟩
  rw [hshared, hworkers]
  exact load_set_lt hw hsteps

/-- A job that is running can come to its end. -/
theorem finishes {s : State ι} {i : ℕ} {w : Worker} (hw : s.shared.workers[i]? = some w)
    (hrunning : w.isRunning = true) : ∃ x s', s.step T timeout threads (.env x) = some s' := by
  have hs : s.shared.workerStep (.finish i (.raised .runtimeError))
      = some (s.shared.finish i w.job (.raised .runtimeError)) := by
    simp only [Pool.workerStep, hw, if_pos hrunning]
  refine ⟨.finish i (.raised .runtimeError), _, step_of_pool rfl
    (c := ⟨s.shared.finish i w.job (.raised .runtimeError), s.point⟩) ?_⟩
  simp only [Interleaving.step, pool, hs]
  rfl

/-- **No two jobs are queued**: each is waited for by the task that has the lock. -/
theorem queued_unique {s : State ι} (h : Reachable T timeout threads s) {i j : ℕ} {w v : Worker}
    (hw : s.shared.workers[i]? = some w) (hv : s.shared.workers[j]? = some v)
    (hwq : w.isQueued = true) (hvq : v.isQueued = true) : i = j := by
  obtain ⟨t, ht⟩ := h.tended.queued i w hw hwq
  obtain ⟨u, hu⟩ := h.tended.queued j v hv hvq
  have htu : t = u := Option.some.inj ((holder_of_awaited T timeout h.pool ht).symm.trans
    (holder_of_awaited T timeout h.pool hu))
  subst htu
  exact Option.some.inj (ht.symm.trans hu)

/-- A queued job goes to a thread that is not busy. -/
theorem begins {s : State ι} (h : Reachable T timeout threads s) {i : ℕ} {w : Worker}
    (hw : s.shared.workers[i]? = some w) (hqueued : w.isQueued = true)
    (hbusy : s.busy < threads) : ∃ x s', s.step T timeout threads (.env x) = some s' := by
  have hs : s.shared.workerStep (.begin_ i) = some (s.shared.setWorker i ⟨w.job, .running⟩) := by
    simp only [Pool.workerStep, hw, if_pos hqueued]
  have hfirst : (s.shared.workers.take i).all (fun w => !w.isQueued) = true := by
    rw [List.all_eq_true]
    intro v hv
    obtain ⟨j, hj, hget⟩ := List.mem_take_iff_getElem.mp hv
    have hv : s.shared.workers[j]? = some v := by
      rw [List.getElem?_eq_some_iff]
      exact ⟨by omega, hget⟩
    cases hvq : v.isQueued with
    | false => rfl
    | true => exact absurd (queued_unique h hv hw hvq hqueued) (by omega)
  have hpermits : s.permits T timeout threads (.env (.begin_ i)) = true := by
    rw [State.permits, hfirst, decide_eq_true hbusy]
    rfl
  refine ⟨.begin_ i, _, step_of_pool hpermits
    (c := ⟨s.shared.setWorker i ⟨w.job, .running⟩, s.point⟩) ?_⟩
  simp only [Interleaving.step, pool, hs]
  rfl

/-- **The workers are never stuck**: a job that is queued can begin, or a thread is busy with
    another one, which can come to its end. -/
theorem some_worker {s : State ι}
    (h : Reachable T timeout threads s) {i : ℕ} {w : Worker}
    (hw : s.shared.workers[i]? = some w) (hw' : w.isQueued = true ∨ w.isRunning = true) :
    ∃ x s', s.step T timeout threads (.env x) = some s' := by
  obtain hqueued | hrunning := hw'
  · by_cases hbusy : s.busy < threads
    · exact begins h hw hqueued hbusy
    · have hpos : 0 < s.busy := threads.pos.trans_le (Nat.not_lt.mp hbusy)
      obtain ⟨v, hv, hrunning⟩ := List.countP_pos_iff.mp hpos
      obtain ⟨j, hj⟩ := List.mem_iff_getElem?.mp hv
      exact finishes hj hrunning
  · exact finishes hw hrunning

/-! ## The holder -/

omit [DecidableEq ι] in
/-- Who has the lock neither asks for it nor waits for it. -/
theorem within_apart {c : Config Serial Exc (Option Str) ι (Pool ι)} {u : ι} {m : ℕ}
    (h : Within c u m) : Asks (c.point u) = false ∧ Queues (c.point u) = false := by
  obtain ⟨φ, hagrees, hlock, -⟩ := h
  cases hp : c.point u with
  | ready p =>
      refine ⟨?_, rfl⟩
      rw [hp] at hagrees
      cases φ with
      | waiting held => exact hagrees.elim
      | ready g =>
          cases p with
          | call o k =>
              cases o with
              | acquire =>
                  obtain ⟨held, ⟨rfl, -⟩, -⟩ := hagrees
                  exact hlock.elim
              | _ => rfl
          | _ => rfl
  | waiting o k =>
      refine ⟨rfl, ?_⟩
      rw [hp] at hagrees
      cases φ with
      | ready g => exact hagrees.elim
      | waiting held =>
          cases o with
          | acquire =>
              obtain ⟨⟨g, -, rfl⟩, -⟩ := hagrees
              exact hlock.elim
          | _ => rfl

/-- The steps of `u` and of the workers, without a cancellation. -/
def Unaided (u : ι) : Task T timeout ι → Prop
  | .invoke t => t = u
  | .answer t .outcome => t = u
  | .env _ => True
  | _ => False

/-- They concern nobody else. -/
theorem unaided_spec {s s' : State ι} {u : ι} {m : ℕ} {a : Task T timeout ι}
    (hwithin : Within s.toConfig u m) (ha : Unaided u a)
    (hs : s.step T timeout threads a = some s') :
    s'.waiters = s.waiters ∧ ∀ t, t ≠ u → s'.point t = s.point t := by
  obtain ⟨hasks, hqueues⟩ := within_apart hwithin
  obtain ⟨-, hstep, hqueue⟩ := step_spec hs
  obtain ⟨t, e, r, p, rfl, -, -, -⟩ | ⟨t, o, k, rfl, hp, hc⟩ |
    ⟨t, x, o, k, r, p, rfl, hp, -, hc⟩ | ⟨x, p, rfl, -, hc⟩ := step_cases hstep
  · exact ha.elim
  · obtain rfl : t = u := ha
    refine ⟨by rw [hqueue, State.queue, hasks]; rfl, fun v hv => ?_⟩
    have hpoint : s'.point = Function.update s.point t (.waiting o k) := by rw [hc]
    rw [hpoint, Function.update_of_ne hv]
  · obtain rfl : t = u := by
      cases x with
      | outcome => exact ha
      | cancel => exact ha.elim
    refine ⟨by rw [hqueue, State.queue, hqueues]; rfl, fun v hv => ?_⟩
    have hpoint : s'.point = Function.update s.point t (.ready (k r)) := by rw [hc]
    rw [hpoint, Function.update_of_ne hv]
  · have hpoint : s'.point = s.point := by rw [hc]
    exact ⟨hqueue, fun v _ => by rw [hpoint]⟩

/-- What a task waits for that is not the lock comes, or some worker can go on until it does. -/
theorem answers {s : State ι} (h : Reachable T timeout threads s)
    {t : ι} {o : SerialOp} {k : Except Exc o.Res → Coro Serial Exc (Option Str)}
    (hp : s.point t = .waiting o k) (ho : Queues (s.point t) = false) :
    (∃ s' r, s.step T timeout threads (.answer t .outcome) = some s' ∧
      s'.point t = .ready (k r)) ∨
    ∃ x s', s.step T timeout threads (.env x) = some s' := by
  have hanswers : ∀ r p, s.shared.answer t o .outcome = some (r, p) → ∃ s' r,
      s.step T timeout threads (.answer t .outcome) = some s' ∧ s'.point t = .ready (k r) := by
    intro r p hr
    have hpermits : s.permits T timeout threads (.answer t .outcome) = true := by
      rw [State.permits, ho]
      rfl
    have hs := step_of_pool hpermits (c := ⟨p, Function.update s.point t (.ready (k r))⟩)
      (by simp only [Interleaving.step, hp, pool, hr]; rfl)
    exact ⟨_, r, hs, Function.update_self ..⟩
  cases o with
  | acquire =>
      rw [hp] at ho
      cases ho
  | toThread job =>
      obtain ⟨i, hi⟩ := h.tended.tended t job k hp
      obtain ⟨job', k', p, hp', hw, hnot⟩ := h.tended.waits t i hi
      obtain rfl := SerialOp.toThread.inj (Point.waiting.inj (hp.symm.trans hp')).1
      cases p with
      | queued => exact .inr (some_worker h hw (.inl rfl))
      | running => exact .inr (some_worker h hw (.inr rfl))
      | withdrawn => exact absurd rfl hnot
      | done r =>
          refine .inl (hanswers r (s.shared.forget t) ?_)
          simp only [Pool.answer, hi, hw, Option.bind_some, Worker.result]
          rfl
  | _ => exact .inl (hanswers _ _ rfl)

/-- **The holder is never stuck**: it can take a step, or a worker can. -/
theorem proceeds {s : State ι} (h : Reachable T timeout threads s)
    {u : ι} (hu : s.shared.holder = some u) :
    ∃ a s', Unaided u a ∧ s.step T timeout threads a = some s' := by
  have hwithin := within_reach T timeout h.pool hu
  obtain ⟨hasks, hqueues⟩ := within_apart hwithin
  cases hp : s.point u with
  | ready p =>
      cases p with
      | call o k =>
          refine ⟨.invoke u, _, rfl, step_of_pool rfl
            (c := ⟨s.shared.invoke u o, Function.update s.point u (.waiting o k)⟩) ?_⟩
          simp only [Interleaving.step, hp]
          rfl
      | _ =>
          -- a task that has ended has given the lock back
          obtain ⟨φ, hagrees, hlock, -⟩ := hwithin
          obtain ⟨g, rfl, rfl⟩ := hagrees.outcome (by rw [hp]; rfl)
          exact hlock.elim
  | waiting o k =>
      obtain ⟨s', r, hs, -⟩ | ⟨x, s', hs⟩ := answers h hp hqueues
      · exact ⟨.answer u .outcome, s', rfl, hs⟩
      · exact ⟨.env x, s', trivial, hs⟩

variable (T timeout threads) in
/-- Left to itself and the workers, `u` has given the lock back, and nobody else has moved. -/
structure Released (u : ι) (s s' : State ι) : Prop where
  reach : Transition.Reach (State.step T timeout threads) (fun _ a => Unaided u a) s s'
  free : s'.shared.holder = none
  waiters : s'.waiters = s.waiters
  point : ∀ t, t ≠ u → s'.point t = s.point t

/-- One such step before the others. -/
theorem Released.after {u : ι} {s s₁ s' : State ι} {a : Task T timeout ι} {m : ℕ}
    (h : Released T timeout threads u s₁ s') (hwithin : Within s.toConfig u m)
    (ha : Unaided u a) (hs : s.step T timeout threads a = some s₁) :
    Released T timeout threads u s s' := by
  obtain ⟨hwaiters, hpoint⟩ := unaided_spec hwithin ha hs
  have hfirst : Transition.Reach (State.step T timeout threads) (fun _ a => Unaided u a) s s₁ :=
    .step .refl ha hs
  exact ⟨hfirst.trans h.reach, h.free, h.waiters.trans hwaiters,
    fun t ht => (h.point t ht).trans (hpoint t ht)⟩

/-- **Left to itself and the workers**, the holder gives the lock back. -/
theorem releases {m l : ℕ} {s : State ι}
    (h : Reachable T timeout threads s) {u : ι} (hu : s.shared.holder = some u)
    (hwithin : Within s.toConfig u m) (hload : load s.shared.workers ≤ l) :
    ∃ s', Released T timeout threads u s s' := by
  -- its own steps are counted, and between two of them the workers run out of work
  induction m using Nat.strongRecOn generalizing s l with
  | ind m ihm =>
      induction l using Nat.strongRecOn generalizing s with
      | ind l ihl =>
          obtain ⟨a, s₁, ha, hs⟩ := proceeds h hu
          obtain ⟨-, hstep, -⟩ := step_spec hs
          by_cases hmoves : Moves T timeout u s.shared a
          · by_cases hholder : s₁.shared.holder = some u
            · obtain ⟨hpos, hwithin'⟩ := hwithin.own T timeout h.tended hmoves hstep hholder
              obtain ⟨s', hs'⟩ := ihm (m - 1) (by omega) (h.step hs) hholder hwithin'
                (Nat.le_refl _)
              exact ⟨s', hs'.after hwithin ha hs⟩
            · have hfree := hwithin.free T timeout hu hmoves hstep hholder
              have hthere : Released T timeout threads u s₁ s₁ :=
                ⟨.refl, hfree, rfl, fun _ _ => rfl⟩
              exact ⟨s₁, hthere.after hwithin ha hs⟩
          · -- a step of a worker for which `u` does not wait
            cases a with
            | env x =>
                obtain ⟨-, -, hholder, -, hless⟩ := env_spec hs
                obtain ⟨s', hs'⟩ := ihl (load s₁.shared.workers) (by omega) (h.step hs)
                  (hholder.trans hu) (hwithin.other T timeout h.tended hmoves hstep) (Nat.le_refl _)
                exact ⟨s', hs'.after hwithin ha hs⟩
            | invoke t => exact absurd ha hmoves
            | answer t x =>
                cases x with
                | outcome => exact absurd ha hmoves
                | cancel => exact ha.elim
            | start t e => exact ha.elim

/-- From any state, the lock can come to be free. -/
theorem frees {s : State ι} (h : Reachable T timeout threads s) :
    ∃ s', Transition.Reach (State.step T timeout threads)
        (fun _ a => Undisturbed T timeout a) s s' ∧
      s'.shared.holder = none ∧ s'.waiters = s.waiters ∧
      ∀ t, Queues (s.point t) = true → s'.point t = s.point t := by
  cases hholder : s.shared.holder with
  | none => exact ⟨s, .refl, hholder, rfl, fun _ _ => rfl⟩
  | some u =>
      have hwithin := within_reach T timeout h.pool hholder
      obtain ⟨s', hreleased⟩ := releases h hholder hwithin (Nat.le_refl _)
      have hcalm : ∀ (_ : State ι) (a : Task T timeout ι), Unaided u a →
          Undisturbed T timeout a := by
        intro _ a ha
        cases a with
        | start t e => exact ha.elim
        | answer t x =>
            cases x with
            | outcome => trivial
            | cancel => exact ha.elim
        | _ => trivial
      refine ⟨s', hreleased.reach.mono hcalm, hreleased.free, hreleased.waiters,
        fun t ht => hreleased.point t ?_⟩
      rintro rfl
      rw [(within_apart hwithin).2] at ht
      cases ht

/-! ## The waiters -/

variable (T timeout threads) in
/-- The first of the waiters can have a free lock. -/
theorem takes {s : State ι} {t : ι} {rest : List ι}
    {k : Except Exc SerialOp.acquire.Res → Coro Serial Exc (Option Str)}
    (hfree : s.shared.holder = none) (hfirst : s.waiters = t :: rest)
    (hp : s.point t = .waiting .acquire k) :
    s.step T timeout threads (.answer t .outcome) = some
      { shared := { s.shared with holder := some t }
        point := Function.update s.point t (.ready (k (.ok ())))
        waiters := s.waiters.filter (· ≠ t) } := by
  have hpermits : s.permits T timeout threads (.answer t .outcome) = true := by
    simp [State.permits, hfirst]
  have hs := step_of_pool hpermits
    (c := ⟨{ s.shared with holder := some t }, Function.update s.point t (.ready (k (.ok ())))⟩)
    (by simp only [Interleaving.step, hp, pool, Pool.answer, hfree]; rfl)
  have hqueue : s.queue T timeout (.answer t .outcome) = s.waiters.filter (· ≠ t) := by
    have hqueues : Queues (s.point t) = true := by
      rw [hp]
      rfl
    exact if_pos hqueues
  rw [hs, hqueue]

theorem waiting_of_queues {q : Point Serial Exc (Option Str)} (h : Queues q = true) :
    ∃ k, q = .waiting .acquire k := by
  cases q with
  | ready p => cases h
  | waiting o k =>
      cases o with
      | acquire => exact ⟨k, rfl⟩
      | _ => cases h

/-- **Each waiter has its turn**: those before it get the lock and give it back. -/
theorem turns {n : ℕ} {s : State ι}
    (h : Reachable T timeout threads s) (hn : s.waiters.length ≤ n) {t : ι}
    {k : Except Exc SerialOp.acquire.Res → Coro Serial Exc (Option Str)}
    (hp : s.point t = .waiting .acquire k) :
    ∃ s', Transition.Reach (State.step T timeout threads)
        (fun _ a => Undisturbed T timeout a) s s' ∧
      s'.shared.holder = some t ∧ s'.point t = .ready (k (.ok ())) := by
  have hmem : t ∈ s.waiters := (h.inLine t).mpr (by rw [hp]; rfl)
  induction n generalizing s with
  | zero =>
      rw [List.length_eq_zero_iff.mp (Nat.le_zero.mp hn)] at hmem
      cases hmem
  | succ n ih =>
      obtain ⟨s₁, hreach, hfree, hwaiters, hpoint⟩ := frees h
      have h₁ : Reachable T timeout threads s₁ := h.trans (hreach.mono fun _ _ _ => trivial)
      have hp₁ : s₁.point t = .waiting .acquire k := (hpoint t (by rw [hp]; rfl)).trans hp
      cases hfirst : s₁.waiters with
      | nil =>
          rw [hfirst] at hwaiters
          rw [← hwaiters] at hmem
          cases hmem
      | cons v rest =>
          obtain ⟨k', hv⟩ := waiting_of_queues ((h₁.inLine v).mp (by rw [hfirst]; exact .head rest))
          have hs := takes T timeout threads hfree hfirst hv
          have hstep := hreach.trans (Transition.Reach.step .refl (by trivial) hs)
          by_cases htv : t = v
          · subst htv
            obtain ⟨-, hk⟩ := Point.waiting.inj (hp₁.symm.trans hv)
            obtain rfl := eq_of_heq hk
            exact ⟨_, hstep, rfl, Function.update_self ..⟩
          · -- `v` is not in the queue any more
            have hshort : (s₁.waiters.filter (· ≠ v)).length ≤ n := by
              have hle : (rest.filter (· ≠ v)).length ≤ rest.length := List.length_filter_le ..
              rw [hfirst, List.filter_cons_of_neg (by simp)]
              rw [← hwaiters, hfirst, List.length_cons] at hn
              omega
            obtain ⟨s', hreach', hholder, hready⟩ := ih (h₁.step hs) hshort
              ((Function.update_of_ne htv ..).trans hp₁)
              (List.mem_filter.mpr ⟨hwaiters ▸ hmem, by simpa using htv⟩)
            exact ⟨s', hstep.trans hreach', hholder, hready⟩

/-- Those who were in the queue before `t`. -/
def ahead (t : ι) (l : List ι) : List ι := l.takeWhile (· ≠ t)

/-- Whoever comes later comes behind. -/
theorem ahead_append {t : ι} {l : List ι} (h : t ∈ l) (l' : List ι) :
    ahead t (l ++ l') = ahead t l := by
  induction l with
  | nil => cases h
  | cons v l ih =>
      by_cases hv : v = t
      · simp [ahead, hv]
      · have hmem : t ∈ l := (List.mem_cons.mp h).resolve_left (Ne.symm hv)
        simpa [ahead, hv] using ih hmem

/-- Who leaves the queue lets nobody in before `t`. -/
theorem ahead_filter_subset {t w : ι} (hw : w ≠ t) (l : List ι) :
    ahead t (l.filter (· ≠ w)) ⊆ ahead t l := by
  induction l with
  | nil => exact List.Subset.refl _
  | cons v l ih =>
      by_cases hv : v = t
      · subst hv
        simp [ahead, Ne.symm hw]
      · by_cases hvw : v = w
        · subst hvw
          have hahead : ahead t (v :: l) = v :: ahead t l := by simp [ahead, hv]
          rw [List.filter_cons_of_neg (by simp), hahead]
          exact List.Subset.trans ih (List.subset_cons_self v _)
        · have hahead : ∀ l, ahead t (v :: l) = v :: ahead t l := by simp [ahead, hv]
          rw [List.filter_cons_of_pos (by simpa using hvw), hahead, hahead]
          exact List.cons_subset_cons v ih

/-- An answer leaves the lock as it is, gives it back, or gives it to who waits for it. -/
theorem holder_answer {s s' : Pool ι} {t : ι} {o : SerialOp} {x : Resume}
    {r : Except Exc o.Res} (hs : s.answer t o x = some (r, s')) :
    s'.holder = s.holder ∨ s'.holder = none ∨ o = .acquire ∧ x = .outcome ∧ s'.holder = some t := by
  cases o with
  | acquire =>
      cases x with
      | outcome =>
          obtain ⟨-, hs⟩ := Option.ite_none_right_eq_some.mp hs
          obtain ⟨-, rfl⟩ := Prod.mk.inj (Option.some.inj hs)
          exact .inr (.inr ⟨rfl, rfl, rfl⟩)
      | cancel =>
          obtain ⟨-, rfl⟩ := Prod.mk.inj (Option.some.inj hs)
          exact .inl rfl
  | release =>
      cases x with
      | outcome =>
          obtain ⟨-, rfl⟩ := Prod.mk.inj (Option.some.inj hs)
          exact .inr (.inl rfl)
      | cancel => cases hs
  | toThread job => exact .inl (holder_toThread hs)
  | _ =>
      cases x with
      | outcome =>
          obtain ⟨-, rfl⟩ := Prod.mk.inj (Option.some.inj hs)
          exact .inl rfl
      | cancel => cases hs

/-- Between `s` and `s'` the lock was for those only who were before `t`, and `t` still waits. -/
structure Fair (t : ι) (s s' : State ι) : Prop where
  waits : t ∈ s'.waiters
  before : ahead t s'.waiters ⊆ ahead t s.waiters
  holder : ∀ v, s'.shared.holder = some v → s.shared.holder = some v ∨ v ∈ ahead t s.waiters

/-- Where the lock and its queue stay as they are. -/
theorem Fair.same {s s' : State ι} {t : ι} (hmem : t ∈ s.waiters)
    (hwaiters : s'.waiters = s.waiters) (hholder : s'.shared.holder = s.shared.holder) :
    Fair t s s' where
  waits := hwaiters ▸ hmem
  before := by
    rw [hwaiters]
    exact List.Subset.refl _
  holder v hv := .inl (hholder ▸ hv)

theorem Fair.trans {s s₁ s' : State ι} {t : ι} (h : Fair t s s₁) (h' : Fair t s₁ s') :
    Fair t s s' where
  waits := h'.waits
  before := List.Subset.trans h'.before h.before
  holder v hv := by
    obtain hv | hv := h'.holder v hv
    · exact h.holder v hv
    · exact .inr (h.before hv)

/-- The first of the waiters is before any other. -/
theorem mem_ahead_of_head {t w : ι} {l : List ι} (hl : l.head? = some w) (hw : w ≠ t) :
    w ∈ ahead t l := by
  cases l with
  | nil => cases hl
  | cons v rest =>
      obtain rfl := Option.some.inj hl
      simp [ahead, hw]

/-- **Nobody comes before `t`** in a step that does not answer it. -/
theorem fair_step {s s' : State ι} {t : ι} {a : Task T timeout ι} (hmem : t ∈ s.waiters)
    (ha : ∀ x, a ≠ .answer t x) (hs : s.step T timeout threads a = some s') : Fair t s s' := by
  obtain ⟨hpermits, hstep, hqueue⟩ := step_spec hs
  obtain ⟨w, e, r, p, rfl, -, hstart, hc⟩ | ⟨w, o, k, rfl, hp, hc⟩ |
    ⟨w, x, o, k, r, p, rfl, hp, han, hc⟩ | ⟨x, p, rfl, hen, hc⟩ := step_cases hstep
  · obtain rfl := Option.some.inj hstart
    exact .same hmem hqueue (by rw [hc])
  · have hholder : s'.shared.holder = s.shared.holder := by
      have hshared : s'.shared = s.shared.invoke w o := by rw [hc]; rfl
      rw [hshared]
      cases o <;> rfl
    cases hasks : Asks (s.point w) with
    | false => exact .same hmem (by rw [hqueue, State.queue, hasks]; rfl) hholder
    | true =>
        have hwaiters : s'.waiters = s.waiters ++ [w] := by
          rw [hqueue, State.queue, hasks]
          rfl
        refine ⟨?_, ?_, fun v hv => .inl (hholder ▸ hv)⟩
        · rw [hwaiters]
          exact List.mem_append_left [w] hmem
        · rw [hwaiters, ahead_append hmem]
          exact List.Subset.refl _
  · have hw : w ≠ t := by
      rintro rfl
      exact ha x rfl
    have hshared : s'.shared = p := by rw [hc]
    -- whoever gets the lock by an answer is the first of the waiters, and that is not `t`
    have hholder : ∀ v, s'.shared.holder = some v →
        s.shared.holder = some v ∨ v ∈ ahead t s.waiters := by
      intro v hv
      rw [hshared] at hv
      obtain hsame | hnone | ⟨rfl, rfl, hw'⟩ := holder_answer han
      · exact .inl (hsame.symm.trans hv)
      · rw [hnone] at hv
        cases hv
      · obtain rfl := Option.some.inj (hw'.symm.trans hv)
        have hqueues : Queues (s.point w) = true := by
          rw [hp]
          rfl
        have hfirst : s.waiters.head? = some w := by
          simpa [State.permits, hqueues] using hpermits
        exact .inr (mem_ahead_of_head hfirst hw)
    cases hqueues : Queues (s.point w) with
    | false =>
        have hwaiters : s'.waiters = s.waiters := by
          rw [hqueue, State.queue, hqueues]
          rfl
        refine ⟨hwaiters ▸ hmem, ?_, hholder⟩
        rw [hwaiters]
        exact List.Subset.refl _
    | true =>
        have hwaiters : s'.waiters = s.waiters.filter (· ≠ w) := by
          rw [hqueue, State.queue, hqueues]
          rfl
        refine ⟨?_, ?_, hholder⟩
        · rw [hwaiters]
          exact List.mem_filter.mpr ⟨hmem, by simpa using Ne.symm hw⟩
        · rw [hwaiters]
          exact ahead_filter_subset hw s.waiters
  · have hshared : s'.shared = p := by rw [hc]
    exact .same hmem hqueue (by rw [hshared]; exact (workerStep_spec hen).1)

/-- **Nobody comes before `t`** along a run in which it waits. -/
theorem fair_reach {s s' : State ι} {t : ι} (hmem : t ∈ s.waiters)
    (hreach : Transition.Reach (State.step T timeout threads) (fun _ a => ∀ x, a ≠ .answer t x)
      s s') : Fair t s s' := by
  induction hreach with
  | refl => exact .same hmem rfl rfl
  | step _ ha hs ih => exact ih.trans (fair_step ih.waits ha hs)

/-! ## The lock comes back -/

variable (T timeout threads)

/-- Runs in which `u` keeps the lock, and how many of their steps are its own or its
    worker's. -/
inductive Keeps (u : ι) (s : State ι) : ℕ → State ι → Prop
  | refl : Keeps u s 0 s
  | own {n : ℕ} {s₁ s₂ : State ι} {a : Task T timeout ι} :
      Keeps u s n s₁ → Moves T timeout u s₁.shared a →
      s₁.step T timeout threads a = some s₂ → s₂.shared.holder = some u →
      Keeps u s (n + 1) s₂
  | other {n : ℕ} {s₁ s₂ : State ι} {a : Task T timeout ι} :
      Keeps u s n s₁ → ¬ Moves T timeout u s₁.shared a →
      s₁.step T timeout threads a = some s₂ → s₂.shared.holder = some u →
      Keeps u s n s₂

variable {T timeout threads}

/-- **The countdown**, along a run. -/
theorem Keeps.spec {s s' : State ι} {u : ι} {m n : ℕ} (hkeeps : Keeps T timeout threads u s n s')
    (h : Reachable T timeout threads s) (hu : s.shared.holder = some u)
    (hwithin : Within s.toConfig u m) : Reachable T timeout threads s' ∧
      s'.shared.holder = some u ∧ n ≤ m ∧ Within s'.toConfig u (m - n) := by
  induction hkeeps with
  | refl => exact ⟨h, hu, Nat.zero_le m, hwithin⟩
  | own _ ha hs hholder ih =>
      obtain ⟨h₁, -, hle, hwithin₁⟩ := ih
      obtain ⟨hpos, hafter⟩ := hwithin₁.own T timeout h₁.tended ha (step_spec hs).2.1 hholder
      rw [Nat.sub_sub] at hafter
      exact ⟨h₁.step hs, hholder, by omega, hafter⟩
  | other _ ha hs hholder ih =>
      obtain ⟨h₁, -, hle, hwithin₁⟩ := ih
      exact ⟨h₁.step hs, hholder, hle,
        hwithin₁.other T timeout h₁.tended ha (step_spec hs).2.1⟩

/-- **THE LOCK COMES BACK**: in every run of any tasks calling the manager's methods, cancelled
    wherever it may be, a task that has the lock makes at most 76 more steps with it, those of
    its worker included; until then it, or a worker, can always take one, and need not be
    cancelled for that; such steps alone can lead to where the lock is free; and whoever waits
    for the lock can have its turn, before which nobody gets the lock that was not before it in
    the queue. -/
theorem lock_returns {s : State ι} (h : Reachable T timeout threads s)
    {u : ι} (hu : s.shared.holder = some u) :
    (∀ n s', Keeps T timeout threads u s n s' → n ≤ 76 ∧
      ∃ a s'', Unaided u a ∧ s'.step T timeout threads a = some s'') ∧
    (∃ s', Transition.Reach (State.step T timeout threads) (fun _ a => Unaided u a) s s' ∧
      s'.shared.holder = none) ∧
    ∀ t ∈ s.waiters,
      (∃ s', Transition.Reach (State.step T timeout threads)
          (fun _ a => Undisturbed T timeout a) s s' ∧ s'.shared.holder = some t) ∧
      ∀ s', Transition.Reach (State.step T timeout threads) (fun _ a => ∀ x, a ≠ .answer t x)
        s s' → ∀ v, s'.shared.holder = some v → v = u ∨ v ∈ ahead t s.waiters := by
  have hwithin := within_reach T timeout h.pool hu
  refine ⟨?_, ?_, ?_⟩
  · intro n s' hkeeps
    obtain ⟨h', hu', hle, -⟩ := hkeeps.spec h hu hwithin
    exact ⟨hle, proceeds h' hu'⟩
  · obtain ⟨s', hreleased⟩ := releases h hu hwithin (Nat.le_refl _)
    exact ⟨s', hreleased.reach, hreleased.free⟩
  · intro t ht
    refine ⟨?_, ?_⟩
    · obtain ⟨k, hp⟩ := waiting_of_queues ((h.inLine t).mp ht)
      obtain ⟨s', hreach, hholder, -⟩ := turns h (Nat.le_refl _) hp
      exact ⟨s', hreach, hholder⟩
    · intro s' hreach v hv
      obtain hv | hv := (fair_reach ht hreach).holder v hv
      · exact .inl (Option.some.inj (hv.symm.trans hu))
      · exact .inr hv

/-- With one thread: a poll loop is cancelled while its query is on the line, and leaves the
    thread busy; the query of a client is queued behind it, and another client waits for the
    lock. -/
def queued : List (Task ⟨"/dev/ttyUSB0".toList, 115200⟩ 2 Caller) :=
  let go := go ⟨"/dev/ttyUSB0".toList, 115200⟩ 2 Caller.first
  polling _ 2 .loop ++ [.answer .loop .cancel, .invoke .loop, .answer .loop .outcome]
    ++ [.start .first (.call (.query MEASURE none))] ++ go ++ go ++ go ++ go ++ [.invoke .first]
    ++ [.start .second (.call (.query FUNCTION none)), .invoke .second]

/-- One thread, a leftover job, a waiter, and the lock in the hands of another. -/
theorem lock_returns_queued : ∃ s : State Caller,
    Reachable ⟨"/dev/ttyUSB0".toList, 115200⟩ 2 1 s ∧ s.busy = 1 ∧ s.shared.holder = some .first ∧
    (∃ s', Transition.Reach (State.step ⟨"/dev/ttyUSB0".toList, 115200⟩ 2 1)
      (fun _ a => Unaided .first a) s s' ∧ s'.shared.holder = none) ∧
    ∃ s', Transition.Reach (State.step ⟨"/dev/ttyUSB0".toList, 115200⟩ 2 1)
      (fun _ a => Undisturbed _ 2 a) s s' ∧ s'.shared.holder = some .second := by
  have hrun : ((Transition.runWithin (State.step ⟨"/dev/ttyUSB0".toList, 115200⟩ 2 1)
      (fun _ _ => True) State.init queued).map fun s => (s.busy, s.shared.holder, s.waiters))
        = some (1, some .first, [.second]) := rfl
  obtain ⟨s, hs, hstands⟩ := Option.map_eq_some_iff.mp hrun
  simp only [Prod.mk.injEq] at hstands
  obtain ⟨hbusy, hholder, hwaiters⟩ := hstands
  have hreach : Reachable ⟨"/dev/ttyUSB0".toList, 115200⟩ 2 1 s :=
    (Transition.reach_of_runWithin hs).mono fun _ _ _ => trivial
  obtain ⟨-, hfree, hturns⟩ := lock_returns hreach hholder
  exact ⟨s, hreach, hbusy, hholder, hfree, (hturns .second (by rw [hwaiters]; exact .head [])).1⟩

end EventLoop
