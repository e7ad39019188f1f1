import XdmServer.SingleFlight

/-! # The way to the release

    `SingleFlight` says what cannot happen on the line; here is what has to.  Between its
    `acquire` and its `release` a method of the manager makes a bounded number of steps,
    whatever comes out of each and wherever it is cancelled; and it never waits for anything
    but a worker that is there.  `Within` counts these steps down.  What the order of the
    waiters and the number of the threads make of it is said in `EventLoop`. -/

namespace LockReturns

open PyText Coroutine Commands Device Interleaving SingleFlight

/-! ## The countdown -/

/-- The operations that a method makes with the lock in its hands, `release` included. -/
def budget : Nat := 19

/-- Where a task stands with the lock, and how many operations it has left there. -/
inductive Ghost where
  | free
  | holding (left : Nat)

/-- How far a holder of the lock has come. -/
inductive Held where
  | queueing
  | holding (left : Nat)
  | releasing

/-- Each operation under the lock counts, and the last of them gives it back. -/
def countdown : Protocol Serial Exc where
  Ghost := Ghost
  Held := Held
  invoke g o h := match o with
    | .acquire => g = .free ∧ h = .queueing
    | .release => ∃ n, g = .holding (n + 1) ∧ h = .releasing
    | _ => ∃ n, g = .holding (n + 1) ∧ h = .holding n
  answer h o r g := match o, r with
    | .acquire, .ok _ => g = .holding budget
    | .acquire, .error _ => g = .free
    | .release, _ => g = .free
    | _, _ => ∃ n, h = .holding n ∧ g = .holding n

/-- The coroutine makes at most `n` operations, and keeps the lock. -/
def Costs {α : Type} (n : Nat) (p : Coro Serial Exc α) : Prop :=
  ∀ m, countdown.wp p (fun _ g => ∃ j, m ≤ j ∧ g = .holding j) (.holding (n + m))

section Costs

variable {α β : Type} {n k : Nat}

theorem costs_pure (a : α) : Costs n (pure a : Coro Serial Exc α) := by
  intro m
  exact ⟨n + m, Nat.le_add_left m n, rfl⟩

theorem costs_raise (e : Exc) : Costs n (.raise e : Coro Serial Exc α) := by
  intro m
  exact ⟨n + m, Nat.le_add_left m n, rfl⟩

theorem costs_op {o : SerialOp} (ho : Inside o) (hn : 0 < n) :
    Costs n (.op o : Coro Serial Exc _) := by
  intro m
  obtain ⟨i, rfl⟩ : ∃ i, n = i + 1 := ⟨n - 1, by omega⟩
  refine (Protocol.wp_op ..).mpr ⟨.holding (i + m), ?_, ?_⟩
  · cases o with
    | acquire => exact ho.elim
    | release => exact ho.elim
    | _ => exact ⟨i + m, by rw [Nat.add_right_comm], rfl⟩
  · intro r g hg
    cases o with
    | acquire => exact ho.elim
    | release => exact ho.elim
    | _ =>
        obtain ⟨j, hj, rfl⟩ := hg
        obtain rfl := Held.holding.inj hj
        exact ⟨i + m, Nat.le_add_left m i, rfl⟩

/-- What the first part leaves, the second may spend. -/
theorem Costs.andThen {p : Coro Serial Exc α} {f : Except Exc α → Coro Serial Exc β}
    (hp : Costs n p) (hn : n ≤ k) (hf : ∀ r, Costs (k - n) (f r)) : Costs k (p.andThen f) := by
  intro m
  have hp := hp (k - n + m)
  rw [← Nat.add_assoc, Nat.add_sub_cancel' hn] at hp
  refine (Protocol.wp_andThen ..).mpr (Protocol.wp_mono hp ?_)
  rintro r g ⟨j, hj, rfl⟩
  have hr := (hf r) (j - (k - n))
  rw [Nat.add_sub_cancel' (by omega)] at hr
  refine Protocol.wp_mono hr ?_
  rintro r' g ⟨i, hi, rfl⟩
  exact ⟨i, by omega, rfl⟩

/-- What the first part leaves is for the second. -/
theorem Costs.bind {p : Coro Serial Exc α} {f : α → Coro Serial Exc β} (hp : Costs n p)
    (hn : n ≤ k) (hf : ∀ a, Costs (k - n) (f a)) : Costs k (p >>= f) := by
  refine Costs.andThen hp hn fun r => ?_
  cases r with
  | ok a => exact hf a
  | error e => exact costs_raise e

/-- What the body leaves is for the handler. -/
theorem Costs.tryExcept {p : Coro Serial Exc α} {f : Exc → Coro Serial Exc α} (hp : Costs n p)
    (hn : n ≤ k) (hf : ∀ e, Costs (k - n) (f e)) : Costs k (p.tryExcept f) := by
  refine Costs.andThen hp hn fun r => ?_
  cases r with
  | ok a => exact costs_pure a
  | error e => exact hf e

end Costs

/-! ## What the methods cost -/

variable (T : SerialTransport) (timeout : Rat)

/-- `is_open` looks at two attributes. -/
theorem costs_isOpen : Costs 2 SerialTransport.isOpen := by
  refine (costs_op (o := .getSerial) (n := 1) trivial (by decide)).bind (by decide) fun ser => ?_
  cases ser with
  | some ser => exact costs_op (o := .handleIsOpen ser) trivial (by decide)
  | none => exact costs_pure _

/-- `open` costs four operations at most. -/
theorem costs_open : Costs 4 T.open_ := by
  have hconstruct : Costs 2 T.construct := by
    refine (costs_op (o := .toThread (.construct T.port T.baudRate)) (n := 1) trivial
      (by decide)).bind (by decide) fun ser => ?_
    exact costs_op (o := .setSerial (some ser)) trivial (by decide)
  refine costs_isOpen.bind (by decide) fun isOpen => ?_
  cases isOpen with
  | true => exact costs_pure _
  | false =>
      refine hconstruct.tryExcept (by decide) fun e => ?_
      cases e <;> exact costs_raise _

theorem costs_close : Costs 4 SerialTransport.close := by
  refine (costs_op (o := .getSerial) (n := 1) trivial (by decide)).bind (by decide) fun ser => ?_
  refine (costs_op (o := .setSerial none) (n := 1) trivial (by decide)).bind (by decide) fun _ => ?_
  cases ser with
  | none => exact costs_pure _
  | some ser =>
      refine (costs_op (o := .handleIsOpen ser) (n := 1) trivial (by decide)).bind (by decide)
        fun isOpen => ?_
      cases isOpen with
      | true => exact costs_op (o := .toThread (.close ser)) trivial (by decide)
      | false => exact costs_pure _

theorem costs_transact (command : Str) (expects : Bool) (limit : Rat) :
    Costs 2 (SerialTransport.transact command expects limit) := by
  refine (costs_op (o := .getSerial) (n := 1) trivial (by decide)).bind (by decide) fun ser => ?_
  cases ser with
  | some ser =>
      exact costs_op (o := .toThread (.transactBlocking command expects limit)) trivial (by decide)
  | none => exact costs_raise _

/-- Closing whatever the outcome costs no more than closing. -/
theorem costs_safeClose : Costs 4 (serialManager T timeout).safeClose := by
  refine costs_close.tryExcept (by decide) fun e => ?_
  cases e with
  | transportError e => exact costs_pure _
  | _ => exact costs_raise _

/-- Opening and greeting together. -/
theorem costs_connect : Costs 6 (serialManager T timeout).connect :=
  (costs_open T).bind (by decide) fun _ =>
    (costs_transact LOCAL false timeout).bind (by decide) fun _ => costs_pure _

/-- **The longest of them**: a reconnection that fails is closed, and so is the transaction. -/
theorem costs_exchange (command : Str) (expects : Bool) (limit : Rat) :
    Costs 18 ((serialManager T timeout).exchange command expects limit) := by
  have hfails : ∀ {α : Type} (e : Exc),
      Costs 4 ((serialManager T timeout).safeClose >>= fun _ => (.raise e : Coro Serial Exc α)) :=
    fun e => (costs_safeClose T timeout).bind (by decide) fun _ => costs_raise e
  have hreconnect : Costs 10 (serialManager T timeout).reconnect := by
    refine (costs_connect T timeout).tryExcept (by decide) fun e => ?_
    cases e with
    | transportError e => exact hfails _
    | _ => exact costs_raise _
  have hopen : Costs 12 (serialManager T timeout).ensureOpen := by
    refine costs_isOpen.bind (by decide) fun isOpen => ?_
    cases isOpen with
    | true => exact costs_pure _
    | false => exact hreconnect
  refine hopen.bind (by decide) fun _ =>
    (costs_transact command expects limit).tryExcept (by decide) fun e => ?_
  cases e with
  | transportError e => exact hfails _
  | _ => exact costs_raise _

/-- `async with` gives the lock back within the budget. -/
theorem wp_hold {α : Type} {n : Nat} {body : Coro Serial Exc α} (h : Costs n body)
    (hn : n < budget) : countdown.wp (serialLock.hold body) (fun _ g => g = .free) .free := by
  refine (Protocol.wp_bind ..).mpr ((Protocol.wp_op ..).mpr ⟨.queueing, ⟨rfl, rfl⟩, ?_⟩)
  rintro (e | u) g hg
  · exact hg
  · obtain rfl : g = .holding budget := hg
    have hbody := h (budget - n)
    rw [Nat.add_sub_cancel' (Nat.le_of_lt hn)] at hbody
    refine (Protocol.wp_tryFinally ..).mpr (Protocol.wp_mono hbody ?_)
    rintro r g ⟨j, hj, rfl⟩
    obtain ⟨i, rfl⟩ : ∃ i, j = i + 1 := ⟨j - 1, by omega⟩
    refine (Protocol.wp_op ..).mpr ⟨.releasing, ⟨i, rfl, rfl⟩, ?_⟩
    rintro (e | u) g hg <;> exact hg

/-- A method takes the lock, counts down, and gives it back. -/
theorem wp_method (m : Method) :
    countdown.wp ((serialManager T timeout).method m) (fun _ g => g = .free) .free := by
  cases m with
  | start =>
      have hstart := wp_hold (costs_connect T timeout) (by decide)
      exact Protocol.wp_then hstart fun _ => .inl ⟨none, rfl⟩
  | stop =>
      have hstop := wp_hold costs_close (by decide)
      exact Protocol.wp_then hstop fun _ => .inl ⟨none, rfl⟩
  | call c =>
      cases c with
      | query command limit =>
          have htransact := wp_hold (costs_exchange T timeout command true
            (limit.getD timeout)) (by decide)
          refine Protocol.wp_then (Protocol.wp_then htransact fun r => ?_) fun r =>
            .inl ⟨some r, rfl⟩
          cases r with
          | some r => exact .inl ⟨r, rfl⟩
          | none => exact .inr ⟨.assertionError, rfl⟩
      | write command limit =>
          have htransact := wp_hold (costs_exchange T timeout command false
            (limit.getD timeout)) (by decide)
          exact Protocol.wp_then (Protocol.wp_then htransact fun _ => .inl ⟨(), rfl⟩) fun _ =>
            .inl ⟨none, rfl⟩

/-! ## Who holds the lock -/

variable {ι : Type} [DecidableEq ι]

/-- The task has the lock, as far as its own steps tell. -/
def HasLock : Phase countdown → Prop
  | .ready (.holding _) | .waiting (.holding _) | .waiting .releasing => True
  | _ => False

/-- The operations that the task has left, the one it waits for included. -/
def level : Phase countdown → Nat
  | .ready (.holding n) => n
  | .waiting (.holding n) => n + 1
  | .waiting .releasing => 1
  | _ => 0

/-- The holder of the lock is the task that has it, and nobody has more than the budget. -/
structure Inv (s : Pool ι) (ph : ι → Phase countdown) : Prop where
  holder : ∀ t, HasLock (ph t) ↔ s.holder = some t
  level : ∀ t, level (ph t) ≤ budget

/-- A step that neither takes nor gives the lock. -/
theorem Inv.sync {s s' : Pool ι} {ph : ι → Phase countdown} (h : Inv s ph) {t : ι}
    {φ : Phase countdown} (hφ : HasLock φ ↔ HasLock (ph t))
    (hlevel : LockReturns.level φ ≤ LockReturns.level (ph t)) (hholder : s'.holder = s.holder) :
    Inv s' (Function.update ph t φ) where
  holder := by
    rw [hholder]
    exact forall_update (R := fun u φ => HasLock φ ↔ s.holder = some u) (hφ.trans (h.holder t))
      fun u _ => h.holder u
  level := forall_update (R := fun _ φ => LockReturns.level φ ≤ budget)
    (hlevel.trans (h.level t)) fun u _ => h.level u

/-- The worker that takes the step. -/
def index : WorkerStep → Nat
  | .begin_ i => i
  | .finish i _ => i

/-- The steps that a worker has left, and one for the task to hear of it. -/
def steps {job : Job} : Progress job → Nat
  | .queued => 3
  | .running => 2
  | _ => 1

omit [DecidableEq ι] in
/-- **What a worker's step does**: its own job gets one step further. -/
theorem workerStep_spec {s s' : Pool ι} {x : WorkerStep} (hs : s.workerStep x = some s') :
    s'.holder = s.holder ∧ s'.awaited = s.awaited ∧ ∃ job p p',
      s.workers[index x]? = some ⟨job, p⟩ ∧ s'.workers = s.workers.set (index x) ⟨job, p'⟩ ∧
      p' ≠ .withdrawn ∧ steps p' < steps p := by
  cases x with
  | begin_ i =>
      simp only [Pool.workerStep] at hs
      split at hs
      · next w hw =>
          obtain ⟨job, p⟩ := w
          obtain ⟨hq, hs⟩ := Option.ite_none_right_eq_some.mp hs
          obtain rfl := Option.some.inj hs
          refine ⟨rfl, rfl, job, p, .running, hw, rfl, by simp, ?_⟩
          cases p <;> simp [Worker.isQueued, steps] at hq ⊢
      · cases hs
  | finish i x =>
      simp only [Pool.workerStep] at hs
      split at hs
      · next w hw =>
          obtain ⟨job, p⟩ := w
          obtain ⟨hr, hs⟩ := Option.ite_none_right_eq_some.mp hs
          obtain rfl := Option.some.inj hs
          have hsteps : steps p = 2 := by
            cases p <;> simp [Worker.isRunning, steps] at hr ⊢
          have hdone : ∃ r : Except Exc job.Res, (s.finish i job x).holder = s.holder ∧
              (s.finish i job x).awaited = s.awaited ∧
              (s.finish i job x).workers = s.workers.set i ⟨job, .done r⟩ := by
            cases x with
            | raised e => exact ⟨.error e, by cases job <;> exact ⟨rfl, rfl, rfl⟩⟩
            | returned response =>
                cases job with
                | construct port baudRate => exact ⟨.ok s.constructed, rfl, rfl, rfl⟩
                | transactBlocking command expects limit => exact ⟨.ok response, rfl, rfl, rfl⟩
                | close ser => exact ⟨.ok (), rfl, rfl, rfl⟩
          obtain ⟨r, hholder, hawaited, hworkers⟩ := hdone
          refine ⟨hholder, hawaited, job, p, .done r, hw, hworkers, by simp, ?_⟩
          rw [hsteps]
          exact Nat.lt_succ_self 1
      · cases hs

/-- A task that is resumed from a worker has the lock as before. -/
theorem holder_toThread {s s' : Pool ι} {t : ι} {job : Job} {x : Resume}
    {r : Except Exc job.Res} (hs : s.answer t (.toThread job) x = some (r, s')) :
    s'.holder = s.holder := by
  cases x with
  | outcome =>
      simp only [Pool.answer] at hs
      split at hs
      · obtain ⟨r', -, he⟩ := Option.map_eq_some_iff.mp hs
        obtain ⟨-, rfl⟩ := Prod.mk.inj he
        rfl
      · cases hs
  | cancel =>
      simp only [Pool.answer] at hs
      split at hs
      · obtain ⟨w, -, he⟩ := Option.map_eq_some_iff.mp hs
        obtain ⟨-, rfl⟩ := Prod.mk.inj he
        rfl
      · cases hs

/-- Each step of the pool keeps the countdown. -/
theorem sound : Sound countdown (pool T timeout : System Serial Exc _ ι _) Free
    (fun _ g => g = .free) Inv where
  start := by
    rintro s s' ph t m g r hI hph rfl - hs
    obtain rfl := Option.some.inj hs
    refine ⟨.free, wp_method T timeout m, ?_⟩
    rw [← hph, Function.update_eq_self]
    exact hI
  invoke := by
    rintro s ph t o g h hI hph hinv -
    cases o with
    | acquire =>
        obtain ⟨rfl, rfl⟩ := hinv
        exact hI.sync (by rw [hph]; exact Iff.rfl) (by rw [hph]; exact Nat.le_refl 0) rfl
    | release =>
        obtain ⟨n, rfl, rfl⟩ := hinv
        exact hI.sync (by rw [hph]; exact Iff.rfl) (by rw [hph]; exact Nat.le_add_left 1 n) rfl
    | _ =>
        obtain ⟨n, rfl, rfl⟩ := hinv
        exact hI.sync (by rw [hph]; exact Iff.rfl) (by rw [hph]; exact Nat.le_refl (n + 1)) rfl
  answer := by
    rintro s s' ph t o h x r hI hph ⟨g, hinv⟩ - hs
    cases o with
    | acquire =>
        obtain ⟨rfl, rfl⟩ := hinv
        cases x with
        | outcome =>
            simp only [pool, Pool.answer] at hs
            split at hs
            · next hfree =>
                obtain ⟨rfl, rfl⟩ := Prod.mk.inj (Option.some.inj hs)
                refine ⟨.holding budget, rfl, ?_, ?_⟩
                · refine forall_update (R := fun u φ => HasLock φ ↔ some t = some u)
                    (iff_of_true trivial rfl) ?_
                  intro u hu
                  rw [hI.holder u, Option.isNone_iff_eq_none.mp hfree]
                  exact iff_of_false (by simp) fun he => hu (Option.some.inj he).symm
                · exact forall_update (R := fun _ φ => level φ ≤ budget) (Nat.le_refl budget)
                    fun u _ => hI.level u
            · cases hs
        | cancel =>
            obtain ⟨rfl, rfl⟩ := Prod.mk.inj (Option.some.inj hs)
            exact ⟨.free, rfl, hI.sync (by rw [hph]; exact Iff.rfl) (Nat.zero_le _) rfl⟩
    | release =>
        obtain ⟨n, rfl, rfl⟩ := hinv
        cases x with
        | outcome =>
            obtain ⟨rfl, rfl⟩ := Prod.mk.inj (Option.some.inj hs)
            refine ⟨.free, rfl, ?_, ?_⟩
            · refine forall_update (R := fun u φ => HasLock φ ↔ none = some u)
                (iff_of_false id (by simp)) ?_
              intro u hu
              have hold : s.holder = some t := (hI.holder t).mp (by rw [hph]; trivial)
              rw [hI.holder u, hold]
              exact iff_of_false (fun he => hu (Option.some.inj he).symm) (by simp)
            · exact forall_update (R := fun _ φ => level φ ≤ budget) (Nat.zero_le _)
                fun u _ => hI.level u
        | cancel => cases hs
    | toThread job =>
        obtain ⟨n, rfl, rfl⟩ := hinv
        exact ⟨.holding n, ⟨n, rfl, rfl⟩, hI.sync (by rw [hph]; exact Iff.rfl)
          (by rw [hph]; exact Nat.le_succ n) (holder_toThread hs)⟩
    | _ =>
        obtain ⟨n, rfl, rfl⟩ := hinv
        cases x with
        | outcome =>
            obtain ⟨rfl, rfl⟩ := Prod.mk.inj (Option.some.inj hs)
            exact ⟨.holding n, ⟨n, rfl, rfl⟩, hI.sync (by rw [hph]; exact Iff.rfl)
              (by rw [hph]; exact Nat.le_succ n) rfl⟩
        | cancel => cases hs
  env := by
    intro s s' ph x hI _ hs
    refine ⟨?_, hI.level⟩
    rw [(workerStep_spec hs).1]
    exact hI.holder

/-! ## What a task waits for -/

/-- Each task that waits for a worker has one of its own, with its job, and the job has not
    been withdrawn; and each job that is queued is waited for. -/
structure Tended (c : Config Serial Exc (Option Str) ι (Pool ι)) : Prop where
  waits : ∀ t i, c.shared.awaited t = some i → ∃ job k p,
    c.point t = .waiting (.toThread job) k ∧ c.shared.workers[i]? = some ⟨job, p⟩ ∧
      p ≠ .withdrawn
  tended : ∀ t job k, c.point t = .waiting (.toThread job) k →
    ∃ i, c.shared.awaited t = some i
  apart : ∀ t u i, c.shared.awaited t = some i → c.shared.awaited u = some i → t = u
  queued : ∀ i w, c.shared.workers[i]? = some w → w.isQueued = true →
    ∃ t, c.shared.awaited t = some i

omit [DecidableEq ι] in
/-- At the start nobody waits for a worker. -/
theorem tended_initial : Tended (initial : Config Serial Exc (Option Str) ι (Pool ι)) where
  waits t i h := by cases h
  tended t job k h := by cases h
  apart t u i h := by cases h
  queued i w h := by cases h

/-- A step of a task that neither was waiting for a worker nor waits for one now. -/
theorem Tended.sync {c : Config Serial Exc (Option Str) ι (Pool ι)} (h : Tended c) {t : ι}
    {q : Point Serial Exc (Option Str)} {s : Pool ι}
    (hbefore : ∀ job k, c.point t ≠ .waiting (.toThread job) k)
    (hafter : ∀ job k, q ≠ .waiting (.toThread job) k) (hworkers : s.workers = c.shared.workers)
    (hawaited : s.awaited = c.shared.awaited) : Tended ⟨s, Function.update c.point t q⟩ := by
  constructor
  · intro u i hu
    rw [hawaited] at hu
    obtain ⟨job, k, p, hpoint, hw, hp⟩ := h.waits u i hu
    have hne : u ≠ t := by
      rintro rfl
      exact hbefore job k hpoint
    exact ⟨job, k, p, (Function.update_of_ne hne ..).trans hpoint, by rw [hworkers, hw], hp⟩
  · intro u job k hu
    rw [hawaited]
    by_cases hne : u = t
    · subst hne
      exact absurd ((Function.update_self ..).symm.trans hu) (hafter job k)
    · exact h.tended u job k ((Function.update_of_ne hne ..).symm.trans hu)
  · rw [hawaited]
    exact h.apart
  · rw [hworkers, hawaited]
    exact h.queued

/-- **A job is handed over.** -/
theorem Tended.toThread {c : Config Serial Exc (Option Str) ι (Pool ι)} (h : Tended c) {t : ι}
    {job : Job} {k : Except Exc job.Res → Coro Serial Exc (Option Str)}
    (hbefore : ∀ job k, c.point t ≠ .waiting (.toThread job) k) :
    Tended ⟨c.shared.invoke t (.toThread job),
      Function.update c.point t (.waiting (.toThread job) k)⟩ := by
  have hlt : ∀ u i, c.shared.awaited u = some i → i < c.shared.workers.length := by
    intro u i hu
    obtain ⟨_, _, _, -, hw, -⟩ := h.waits u i hu
    exact (List.getElem?_eq_some_iff.mp hw).1
  have hother : ∀ u, u ≠ t → (c.shared.invoke t (.toThread job)).awaited u
      = c.shared.awaited u := fun u hu => Function.update_of_ne hu ..
  have hself : (c.shared.invoke t (.toThread job)).awaited t = some c.shared.workers.length :=
    Function.update_self ..
  constructor
  · intro u i hu
    by_cases hne : u = t
    · subst hne
      obtain rfl := Option.some.inj (hself.symm.trans hu)
      refine ⟨job, k, .queued, Function.update_self .., ?_, by simp⟩
      simp [Pool.invoke]
    · rw [hother u hne] at hu
      obtain ⟨job', k', p, hpoint, hw, hp⟩ := h.waits u i hu
      refine ⟨job', k', p, ?_, ?_, hp⟩
      · exact (Function.update_of_ne hne ..).trans hpoint
      · show (c.shared.workers ++ [_])[i]? = _
        rw [List.getElem?_append_left (hlt u i hu), hw]
  · intro u job' k' hu
    by_cases hne : u = t
    · subst hne
      exact ⟨_, hself⟩
    · rw [hother u hne]
      exact h.tended u job' k' ((Function.update_of_ne hne ..).symm.trans hu)
  · intro u v i hu hv
    by_cases hut : u = t
    · by_cases hvt : v = t
      · exact hut.trans hvt.symm
      · -- the new job's number is nobody else's
        subst hut
        rw [hother v hvt] at hv
        obtain rfl := Option.some.inj (hself.symm.trans hu)
        exact absurd (hlt v _ hv) (Nat.lt_irrefl _)
    · rw [hother u hut] at hu
      by_cases hvt : v = t
      · subst hvt
        obtain rfl := Option.some.inj (hself.symm.trans hv)
        exact absurd (hlt u _ hu) (Nat.lt_irrefl _)
      · rw [hother v hvt] at hv
        exact h.apart u v i hu hv
  · intro i w hw hqueued
    have hw : (c.shared.workers ++ [⟨job, .queued⟩])[i]? = some w := hw
    by_cases hi : i < c.shared.workers.length
    · rw [List.getElem?_append_left hi] at hw
      obtain ⟨u, hu⟩ := h.queued i w hw hqueued
      have hne : u ≠ t := by
        rintro rfl
        obtain ⟨job', k', _, hp, -⟩ := h.waits u i hu
        exact hbefore job' k' hp
      exact ⟨u, (hother u hne).trans hu⟩
    · have hlast : i = c.shared.workers.length := by
        have := (List.getElem?_eq_some_iff.mp hw).1
        rw [List.length_append, List.length_singleton] at this
        omega
      exact ⟨t, by rw [hlast, hself]⟩

/-- **A task goes on**; what it awaited may have been withdrawn. -/
theorem Tended.resume {c : Config Serial Exc (Option Str) ι (Pool ι)} (h : Tended c) {t : ι}
    {i : Nat} (hi : c.shared.awaited t = some i) {s : Pool ι}
    {q : Point Serial Exc (Option Str)} (hafter : ∀ job k, q ≠ .waiting (.toThread job) k)
    (hworkers : ∀ j, j ≠ i → s.workers[j]? = c.shared.workers[j]?)
    (hdequeued : ∀ w, s.workers[i]? = some w → w.isQueued = false)
    (hawaited : s.awaited = Function.update c.shared.awaited t none) :
    Tended ⟨s, Function.update c.point t q⟩ := by
  have hgone : ∀ u j, s.awaited u = some j → u ≠ t ∧ c.shared.awaited u = some j := by
    intro u j hu
    rw [hawaited] at hu
    by_cases hne : u = t
    · subst hne
      rw [Function.update_self] at hu
      cases hu
    · rw [Function.update_of_ne hne] at hu
      exact ⟨hne, hu⟩
  constructor
  · intro u j hu
    obtain ⟨hne, hu⟩ := hgone u j hu
    obtain ⟨job, k, p, hpoint, hw, hp⟩ := h.waits u j hu
    have hj : j ≠ i := by
      rintro rfl
      exact hne (h.apart u t j hu hi)
    exact ⟨job, k, p, (Function.update_of_ne hne ..).trans hpoint, (hworkers j hj).trans hw, hp⟩
  · intro u job k hu
    by_cases hne : u = t
    · subst hne
      exact absurd ((Function.update_self ..).symm.trans hu) (hafter job k)
    · obtain ⟨j, hj⟩ := h.tended u job k ((Function.update_of_ne hne ..).symm.trans hu)
      refine ⟨j, ?_⟩
      show s.awaited u = some j
      rw [hawaited, Function.update_of_ne hne]
      exact hj
  · intro u v j hu hv
    exact h.apart u v j (hgone u j hu).2 (hgone v j hv).2
  · intro j w hw hqueued
    have hj : j ≠ i := by
      rintro rfl
      exact absurd hqueued (by rw [hdequeued w hw]; decide)
    obtain ⟨u, hu⟩ := h.queued j w ((hworkers j hj).symm.trans hw) hqueued
    refine ⟨u, ?_⟩
    have hne : u ≠ t := by
      rintro rfl
      exact hj (Option.some.inj (hu.symm.trans hi))
    show s.awaited u = some j
    rw [hawaited, Function.update_of_ne hne, hu]

omit [DecidableEq ι] in
/-- **A worker's step** concerns its own job. -/
theorem Tended.work {c : Config Serial Exc (Option Str) ι (Pool ι)} (h : Tended c) {s : Pool ι}
    {i : Nat} {job : Job} {p : Progress job} (hw : ∃ p', c.shared.workers[i]? = some ⟨job, p'⟩)
    (hp : p ≠ .withdrawn) (hqueued : p ≠ .queued)
    (hworkers : s.workers = c.shared.workers.set i ⟨job, p⟩)
    (hawaited : s.awaited = c.shared.awaited) : Tended ⟨s, c.point⟩ := by
  obtain ⟨p', hw⟩ := hw
  have hlt : i < c.shared.workers.length := (List.getElem?_eq_some_iff.mp hw).1
  constructor
  · intro u j hu
    rw [hawaited] at hu
    obtain ⟨job', k, q, hpoint, hj, hq⟩ := h.waits u j hu
    by_cases hij : i = j
    · subst hij
      obtain ⟨rfl, -⟩ := Worker.mk.inj (Option.some.inj (hw.symm.trans hj))
      refine ⟨job, k, p, hpoint, ?_, hp⟩
      rw [hworkers, List.getElem?_set_self hlt]
    · refine ⟨job', k, q, hpoint, ?_, hq⟩
      rw [hworkers, List.getElem?_set_ne hij, hj]
  · intro u job' k hu
    rw [hawaited]
    exact h.tended u job' k hu
  · rw [hawaited]
    exact h.apart
  · intro j w hw hq
    rw [hawaited]
    have hw : s.workers[j]? = some w := hw
    rw [hworkers] at hw
    by_cases hij : i = j
    · subst hij
      obtain rfl := Option.some.inj ((List.getElem?_set_self hlt).symm.trans hw)
      cases p with
      | queued => exact absurd rfl hqueued
      | _ => cases hq
    · rw [List.getElem?_set_ne hij] at hw
      exact h.queued j w hw hq

/-- What is withdrawn is not queued any more. -/
theorem isQueued_withdraw (w : Worker) : w.withdraw.isQueued = false := by
  unfold Worker.withdraw
  split
  · rfl
  · next h => simpa using h

/-- **What an answer does** to the workers: it concerns the one that was waited for, and that
    one is not queued any more. -/
theorem answer_spec {s s' : Pool ι} {t : ι} {o : SerialOp} {x : Resume}
    {r : Except Exc o.Res} (hs : s.answer t o x = some (r, s')) :
    (s'.workers = s.workers ∧ s'.awaited = s.awaited ∧ ∀ job, o ≠ .toThread job) ∨
    ∃ i, s.awaited t = some i ∧ (∀ j, j ≠ i → s'.workers[j]? = s.workers[j]?) ∧
      (∀ w, s'.workers[i]? = some w → w.isQueued = false) ∧
      s'.awaited = Function.update s.awaited t none := by
  cases o with
  | acquire =>
      refine .inl ?_
      cases x with
      | outcome =>
          simp only [Pool.answer] at hs
          split at hs
          · obtain ⟨-, rfl⟩ := Prod.mk.inj (Option.some.inj hs)
            exact ⟨rfl, rfl, by simp⟩
          · cases hs
      | cancel =>
          obtain ⟨-, rfl⟩ := Prod.mk.inj (Option.some.inj hs)
          exact ⟨rfl, rfl, by simp⟩
  | toThread job =>
      refine .inr ?_
      cases x with
      | outcome =>
          simp only [Pool.answer] at hs
          split at hs
          · next i hi =>
              obtain ⟨r', hr', he⟩ := Option.map_eq_some_iff.mp hs
              obtain ⟨w, hw, hresult⟩ := Option.bind_eq_some_iff.mp hr'
              obtain ⟨-, rfl⟩ := Prod.mk.inj he
              refine ⟨i, hi, fun _ _ => rfl, fun w' hw' => ?_, rfl⟩
              obtain rfl := Option.some.inj (hw.symm.trans hw')
              have hdead := Worker.live_of_result hresult
              rw [Worker.live, Bool.or_eq_false_iff] at hdead
              exact hdead.1
          · cases hs
      | cancel =>
          simp only [Pool.answer] at hs
          split at hs
          · next i hi =>
              obtain ⟨w, hw, he⟩ := Option.map_eq_some_iff.mp hs
              obtain ⟨-, rfl⟩ := Prod.mk.inj he
              refine ⟨i, hi, fun j hj => List.getElem?_set_ne (Ne.symm hj), fun w' hw' => ?_, rfl⟩
              have hlt : i < s.workers.length := (List.getElem?_eq_some_iff.mp hw).1
              obtain rfl := Option.some.inj ((List.getElem?_set_self hlt).symm.trans hw')
              exact isQueued_withdraw w
          · cases hs
  | _ =>
      refine .inl ?_
      cases x with
      | outcome =>
          obtain ⟨-, rfl⟩ := Prod.mk.inj (Option.some.inj hs)
          exact ⟨rfl, rfl, by simp⟩
      | cancel => cases hs

/-- **Every step keeps the workers apart.** -/
theorem Tended.step {c c' : Config Serial Exc (Option Str) ι (Pool ι)}
    {a : Action (pool T timeout : System Serial Exc _ ι _)} (h : Tended c)
    (hs : Interleaving.step (pool T timeout) c a = some c') : Tended c' := by
  obtain ⟨t, m, r, s, rfl, hr, hst, rfl⟩ | ⟨t, o, k, rfl, hp, rfl⟩ |
    ⟨t, x, o, k, r, s, rfl, hp, han, rfl⟩ | ⟨x, s, rfl, hen, rfl⟩ := step_cases hs
  · obtain rfl := Option.some.inj hst
    refine h.sync ?_ (by simp) rfl rfl
    intro job k hwaits
    rw [hwaits] at hr
    cases hr
  · have hbefore : ∀ job k, c.point t ≠ .waiting (.toThread job) k := by
      intro job k hwaits
      rw [hp] at hwaits
      cases hwaits
    cases o with
    | toThread job => exact h.toThread hbefore
    | _ =>
        refine h.sync hbefore ?_ rfl rfl
        intro job k hwaits
        cases hwaits
  · obtain ⟨hworkers, hawaited, hother⟩ | ⟨i, hi, hworkers, hdequeued, hawaited⟩ :=
      answer_spec han
    · refine h.sync ?_ (by simp) hworkers hawaited
      intro job k' hwaits
      rw [hp] at hwaits
      obtain ⟨rfl, -⟩ := Point.waiting.inj hwaits
      exact hother job rfl
    · exact h.resume hi (by simp) hworkers hdequeued hawaited
  · obtain ⟨-, hawaited, job, p, p', hw, hworkers, hp', hsteps⟩ := workerStep_spec hen
    have hqueued : p' ≠ .queued := by
      rintro rfl
      have hp : steps p ≤ 3 := by cases p <;> simp [steps]
      exact absurd hsteps (Nat.not_lt.mpr hp)
    exact h.work ⟨p, hw⟩ hp' hqueued hworkers hawaited

/-! ## The way to the release -/

/-- The steps of task `u`, and of the worker that it waits for. -/
def Moves (u : ι) (s : Pool ι) : Action (pool T timeout : System Serial Exc _ ι _) → Prop
  | .invoke t => t = u
  | .answer t _ => t = u
  | .env x => s.awaited u = some (index x)
  | .start _ _ => False

/-- No new call, and no cancellation. -/
def Undisturbed : Action (pool T timeout : System Serial Exc _ ι _) → Prop
  | .start _ _ => False
  | .answer _ .cancel => False
  | _ => True

/-- The steps that the job awaited by `u` has left. -/
def pending (s : Pool ι) (u : ι) : Nat :=
  match (s.awaited u).bind fun i => s.workers[i]? with
  | some w => steps w.progress
  | none => 1

omit [DecidableEq ι] in
/-- A job that is waited for has one to three steps left. -/
theorem pending_pos (s : Pool ι) (u : ι) : 1 ≤ pending s u ∧ pending s u ≤ 3 := by
  unfold pending
  split
  · next w hw => cases w.progress <;> simp [steps]
  · simp

omit [DecidableEq ι] in
/-- The steps left depend on the worker of the task only. -/
theorem pending_congr {s s' : Pool ι} {u : ι} (hawaited : s'.awaited u = s.awaited u)
    (hworkers : ∀ i, s.awaited u = some i → s'.workers[i]? = s.workers[i]?) :
    pending s' u = pending s u := by
  unfold pending
  rw [hawaited]
  cases hi : s.awaited u with
  | none => rfl
  | some i => simp only [Option.bind_some, hworkers i hi]

/-- The steps that `u` and its worker have left before the lock is back. -/
def left (s : Pool ι) (u : ι) : Phase countdown → Nat
  | .ready (.holding n) => 4 * n
  | .waiting (.holding n) => 4 * n + pending s u
  | .waiting .releasing => 1
  | _ => 0

/-- `u` has the lock, and gives it back within `m` steps of its own and of its worker. -/
def Within (c : Config Serial Exc (Option Str) ι (Pool ι)) (u : ι) (m : Nat) : Prop :=
  ∃ φ, Agrees countdown (fun _ g => g = .free) (c.point u) φ ∧ HasLock φ ∧ left c.shared u φ ≤ m

omit [DecidableEq ι] in
/-- What a holder that waits has invoked, and what is left to it. -/
theorem Within.waiting {c : Config Serial Exc (Option Str) ι (Pool ι)} {u : ι} {m : Nat}
    {o : SerialOp} {k : Except Exc o.Res → Coro Serial Exc (Option Str)} (h : Within c u m)
    (hp : c.point u = .waiting o k) : o = .release ∨
      ∃ n, 4 * n + pending c.shared u ≤ m ∧
        ∀ r, countdown.wp (k r) (fun _ g => g = .free) (.holding n) := by
  obtain ⟨φ, hagrees, hlock, hleft⟩ := h
  rw [hp] at hagrees
  cases φ with
  | ready g => exact hagrees.elim
  | waiting held =>
      obtain ⟨⟨g, hinv⟩, hk⟩ := hagrees
      cases o with
      | acquire =>
          obtain ⟨rfl, rfl⟩ := hinv
          exact hlock.elim
      | release => exact .inl rfl
      | _ =>
          obtain ⟨n, rfl, rfl⟩ := hinv
          exact .inr ⟨n, hleft, fun r => hk r _ ⟨n, rfl, rfl⟩⟩

/-- **A step of the holder, or of its worker**, is one less. -/
theorem Within.own {c c' : Config Serial Exc (Option Str) ι (Pool ι)} {u : ι} {m : Nat}
    {a : Action (pool T timeout : System Serial Exc _ ι _)} (h : Within c u m) (ht : Tended c)
    (ha : Moves T timeout u c.shared a) (hs : Interleaving.step (pool T timeout) c a = some c')
    (hholder : c'.shared.holder = some u) : 0 < m ∧ Within c' u (m - 1) := by
  obtain ⟨t, e, r, s, rfl, -, -, -⟩ | ⟨t, o, k, rfl, hp, rfl⟩ |
    ⟨t, x, o, k, r, s, rfl, hp, han, rfl⟩ | ⟨x, s, rfl, hen, rfl⟩ := step_cases hs
  · exact ha.elim
  · obtain rfl : t = u := ha
    obtain ⟨φ, hagrees, hlock, hleft⟩ := h
    rw [hp] at hagrees
    cases φ with
    | waiting held => exact hagrees.elim
    | ready g =>
        obtain ⟨held, hinv, hk⟩ := hagrees
        cases o with
        | acquire =>
            obtain ⟨rfl, rfl⟩ := hinv
            exact hlock.elim
        | release =>
            obtain ⟨n, rfl, rfl⟩ := hinv
            have hleft : 4 * (n + 1) ≤ m := hleft
            refine ⟨by omega, .waiting .releasing, ?_, trivial, ?_⟩
            · show Agrees _ _ (Function.update c.point t _ t) _
              rw [Function.update_self]
              exact ⟨⟨_, n, rfl, rfl⟩, hk⟩
            · show 1 ≤ m - 1
              omega
        | _ =>
            obtain ⟨n, rfl, rfl⟩ := hinv
            have hleft : 4 * (n + 1) ≤ m := hleft
            refine ⟨by omega, .waiting (.holding n), ?_, trivial, ?_⟩
            · show Agrees _ _ (Function.update c.point t _ t) _
              rw [Function.update_self]
              exact ⟨⟨_, n, rfl, rfl⟩, hk⟩
            · refine Nat.le_trans (Nat.add_le_add_left (pending_pos _ t).2 (4 * n)) ?_
              omega
  · obtain rfl : t = u := ha
    obtain rfl | ⟨n, hleft, hk⟩ := h.waiting hp
    · -- after a `release`, nobody has the lock
      cases x with
      | outcome =>
          obtain ⟨-, rfl⟩ := Prod.mk.inj (Option.some.inj han)
          cases hholder
      | cancel => cases han
    · obtain ⟨hpending, -⟩ := pending_pos c.shared t
      refine ⟨by omega, .ready (.holding n), ?_, trivial, ?_⟩
      · show Agrees _ _ (Function.update c.point t _ t) _
        rw [Function.update_self]
        exact hk r
      · show 4 * n ≤ m - 1
        omega
  · have ha : c.shared.awaited u = some (index x) := ha
    obtain ⟨-, hawaited, job, p, p', hw, hworkers, -, hsteps⟩ := workerStep_spec hen
    obtain ⟨job', k, q, hp, hw', -⟩ := ht.waits u _ ha
    obtain ⟨rfl, hq⟩ := Worker.mk.inj (Option.some.inj (hw.symm.trans hw'))
    obtain hrelease | ⟨n, hleft, hk⟩ := h.waiting hp
    · cases hrelease
    · have hlt : index x < c.shared.workers.length := (List.getElem?_eq_some_iff.mp hw).1
      have hbefore : pending c.shared u = steps p := by
        simp only [pending, ha, Option.bind_some, hw]
      have hafter : pending s u = steps p' := by
        simp only [pending, hawaited, ha, Option.bind_some, hworkers, List.getElem?_set_self hlt]
      refine ⟨by omega, .waiting (.holding n), ?_, trivial, ?_⟩
      · show Agrees _ _ (c.point u) _
        rw [hp]
        refine ⟨⟨_, n, rfl, rfl⟩, ?_⟩
        rintro r g ⟨n', hn, rfl⟩
        obtain rfl := Held.holding.inj hn
        exact hk r
      · show 4 * n + pending s u ≤ m - 1
        omega

/-- **A step of anybody else** leaves the holder what it has. -/
theorem Within.other {c c' : Config Serial Exc (Option Str) ι (Pool ι)} {u : ι} {m : Nat}
    {a : Action (pool T timeout : System Serial Exc _ ι _)} (h : Within c u m) (ht : Tended c)
    (ha : ¬ Moves T timeout u c.shared a)
    (hs : Interleaving.step (pool T timeout) c a = some c') : Within c' u m := by
  obtain ⟨φ, hagrees, hlock, hleft⟩ := h
  have hsame : ∀ {s : Pool ι} {point : ι → Point Serial Exc (Option Str)},
      pending s u = pending c.shared u → point u = c.point u → Within ⟨s, point⟩ u m := by
    intro s point hpending hpoint
    refine ⟨φ, ?_, hlock, ?_⟩
    · show Agrees _ _ (point u) φ
      rw [hpoint]
      exact hagrees
    · cases φ with
      | ready g => cases g <;> exact hleft
      | waiting held =>
          cases held with
          | holding n =>
              show 4 * n + pending s u ≤ m
              rw [hpending]
              exact hleft
          | _ => exact hleft
  have hlt : ∀ i, c.shared.awaited u = some i → i < c.shared.workers.length := by
    intro i hi
    obtain ⟨_, _, _, -, hw, -⟩ := ht.waits u i hi
    exact (List.getElem?_eq_some_iff.mp hw).1
  obtain ⟨t, e, r, s, rfl, hr, hst, rfl⟩ | ⟨t, o, k, rfl, hp, rfl⟩ |
    ⟨t, x, o, k, r, s, rfl, hp, han, rfl⟩ | ⟨x, s, rfl, hen, rfl⟩ := step_cases hs
  · -- who has the lock has not ended
    have htu : u ≠ t := by
      rintro rfl
      obtain ⟨g, rfl, rfl⟩ := hagrees.outcome hr
      exact hlock
    obtain rfl := Option.some.inj hst
    exact hsame rfl (Function.update_of_ne htu ..)
  · have htu : u ≠ t := fun heq => ha heq.symm
    refine hsame ?_ (Function.update_of_ne htu ..)
    cases o with
    | toThread job =>
        refine pending_congr (Function.update_of_ne htu ..) fun i hi => ?_
        exact List.getElem?_append_left (hlt i hi)
    | _ => rfl
  · have htu : u ≠ t := fun heq => ha heq.symm
    refine hsame ?_ (Function.update_of_ne htu ..)
    obtain ⟨hworkers, hawaited, -⟩ | ⟨i, hi, hworkers, -, hawaited⟩ := answer_spec han
    · exact pending_congr (by rw [hawaited]) fun j _ => by rw [hworkers]
    · refine pending_congr (by rw [hawaited, Function.update_of_ne htu]) fun j hj => ?_
      refine hworkers j ?_
      rintro rfl
      exact htu (ht.apart u t j hj hi)
  · obtain ⟨-, hawaited, job, p, p', hw, hworkers, -, -⟩ := workerStep_spec hen
    refine hsame (pending_congr (by rw [hawaited]) fun j hj => ?_) rfl
    have hne : index x ≠ j := by
      rintro rfl
      exact ha hj
    rw [hworkers, List.getElem?_set_ne hne]

/-- **The lock is free** once the holder has given it back. -/
theorem Within.free {c c' : Config Serial Exc (Option Str) ι (Pool ι)} {u : ι} {m : Nat}
    {a : Action (pool T timeout : System Serial Exc _ ι _)} (h : Within c u m)
    (hu : c.shared.holder = some u) (ha : Moves T timeout u c.shared a)
    (hs : Interleaving.step (pool T timeout) c a = some c')
    (hholder : c'.shared.holder ≠ some u) : c'.shared.holder = none := by
  obtain ⟨t, e, r, s, rfl, -, -, -⟩ | ⟨t, o, k, rfl, hp, rfl⟩ |
    ⟨t, x, o, k, r, s, rfl, hp, han, rfl⟩ | ⟨x, s, rfl, hen, rfl⟩ := step_cases hs
  · exact ha.elim
  · refine absurd ?_ hholder
    cases o <;> exact hu
  · cases o with
    | acquire =>
        obtain rfl : t = u := ha
        obtain hrelease | - := h.waiting hp
        · cases hrelease
        · cases x with
          | outcome =>
              simp only [pool, Pool.answer, hu] at han
              cases han
          | cancel =>
              obtain ⟨-, rfl⟩ := Prod.mk.inj (Option.some.inj han)
              exact absurd hu hholder
    | release =>
        cases x with
        | outcome =>
            obtain ⟨-, rfl⟩ := Prod.mk.inj (Option.some.inj han)
            rfl
        | cancel => cases han
    | toThread job => exact absurd ((holder_toThread han).trans hu) hholder
    | _ =>
        cases x with
        | outcome =>
            obtain ⟨-, rfl⟩ := Prod.mk.inj (Option.some.inj han)
            exact absurd hu hholder
        | cancel => cases han
  · exact absurd ((workerStep_spec hen).1.trans hu) hholder

/-! ## Every run -/

/-- Whoever waits for a worker has one, in every run. -/
theorem tended_reach {c : Config Serial Exc (Option Str) ι (Pool ι)}
    (h : Reach (pool T timeout) Free initial c) : Tended c := by
  induction h with
  | refl => exact tended_initial
  | step _ _ hs ih => exact ih.step T timeout hs

/-- The countdown holds in every run, with the programs of the tasks at their phases. -/
theorem inv_reach {c : Config Serial Exc (Option Str) ι (Pool ι)}
    (h : Reach (pool T timeout) Free initial c) : ∃ ph, Inv c.shared ph ∧
      ∀ t, Agrees countdown (fun _ g => g = .free) (c.point t) (ph t) := by
  have hstart : Inv (ι := ι) initial.shared fun _ => .ready .free :=
    ⟨fun t => iff_of_false id (by simp [initial]), fun t => Nat.zero_le _⟩
  exact (sound T timeout).reach hstart (fun _ => rfl) h

/-- Whoever waits for a worker has the lock. -/
theorem holder_of_awaited {c : Config Serial Exc (Option Str) ι (Pool ι)}
    (h : Reach (pool T timeout) Free initial c) {t : ι} {i : Nat}
    (hi : c.shared.awaited t = some i) : c.shared.holder = some t := by
  obtain ⟨ph, hI, hagrees⟩ := inv_reach T timeout h
  obtain ⟨job, k, p, hp, -⟩ := (tended_reach T timeout h).waits t i hi
  refine (hI.holder t).mp ?_
  have hA := hagrees t
  rw [hp] at hA
  cases hph : ph t with
  | ready g =>
      rw [hph] at hA
      exact hA.elim
  | waiting held =>
      rw [hph] at hA
      obtain ⟨⟨g, n, -, rfl⟩, -⟩ := hA
      trivial

/-- Whoever has the lock gives it back within the budget. -/
theorem within_reach {c : Config Serial Exc (Option Str) ι (Pool ι)}
    (h : Reach (pool T timeout) Free initial c) {u : ι} (hu : c.shared.holder = some u) :
    Within c u (4 * budget) := by
  obtain ⟨ph, hI, hagrees⟩ := inv_reach T timeout h
  refine ⟨ph u, hagrees u, (hI.holder u).mpr hu, ?_⟩
  have hlevel := hI.level u
  obtain ⟨-, hpending⟩ := pending_pos c.shared u
  cases hph : ph u with
  | ready g =>
      rw [hph] at hlevel
      cases g with
      | free => exact Nat.zero_le _
      | holding n => exact Nat.mul_le_mul_left 4 hlevel
  | waiting held =>
      rw [hph] at hlevel
      cases held with
      | queueing => exact Nat.zero_le _
      | releasing => exact (by decide : 1 ≤ 4 * budget)
      | holding n =>
          have hlevel : n + 1 ≤ budget := hlevel
          show 4 * n + pending c.shared u ≤ 4 * budget
          omega

end LockReturns
