import XdmServer.Broadcast

/-! # The recorder

    `web/recorder.py` on a broadcaster.  Every `start` that finds no task creates one,
    with a subscription of its own; tasks are numbered in that order.  A step of a
    task is what `_run` does between two places where it waits: it has not run yet, it
    waits in `queue.get`, or it waits in `insert_reading`.  `stop` cancels the task and
    waits for its end; a cancelled task gets its `CancelledError` at its next step.

    `κ` names the other subscriptions of the broadcaster. -/

namespace Recorder

open Broadcast

variable {κ R : Type}

/-- Whose a subscription is: that of a task of the recorder, or another one. -/
inductive Holder (κ : Type) where
  | task (k : Nat)
  | other (j : κ)
  deriving DecidableEq

/-- The sizes of the queues: the recorder takes the default. -/
def Holder.maxsize (size : κ → Nat) : Holder κ → Nat
  | .task _ => defaultMaxsize
  | .other j => size j

/-- Where a task of `_run` waits. -/
inductive Stage (R : Type) where
  | scheduled
  | getting
  | inserting (reading : R)
  | ended

/-- A recording task: where it stands, and whether it has been cancelled. -/
structure Task (R : Type) where
  stage : Stage R
  cancelled : Bool

/-- The reading that is being inserted. -/
def Task.inFlight (task : Task R) : List R :=
  match task.stage with
  | .inserting reading => [reading]
  | _ => []

/-- The recorder with the hub it listens to and the rows it has inserted. -/
structure State (κ R : Type) where
  hub : Broadcast.State (Holder κ) R
  /-- `_task` -/
  task : Option Nat
  created : Nat
  tasks : Nat → Task R
  /-- The rows inserted by the recorder, with the task that inserted them. -/
  rows : List (Nat × R)
  /-- The readings published while `_task` was set, with the task it was. -/
  covered : List (Nat × R)
  /-- The tasks that a `stop` has cancelled and waits for. -/
  stopping : List Nat
  /-- The tasks whose `stop` has returned. -/
  returned : List Nat

/-- What another user of the broadcaster does. -/
inductive Visit where
  | enter
  | exit
  | next
  deriving DecidableEq

/-- What another subscriber does, as an event of the hub. -/
def Visit.event (j : κ) : Visit → Event (Holder κ) R
  | .enter => .enter (.other j)
  | .exit => .exit (.other j)
  | .next => .next (.other j)

/-- What may come next. -/
inductive Action (κ R : Type) where
  | start
  | stop
  | stopReturns (k : Nat)
  | publish (reading : R)
  | visit (j : κ) (v : Visit)
  /-- A step of task `k`.  If it was inserting, `stored` says whether the row reached
      the table; it did not if `insert_reading` raised. -/
  | resume (k : Nat) (stored : Bool)

namespace State

/-- Nothing has been started; the other subscriptions have the given sizes. -/
def init (size : κ → Nat) : State κ R where
  hub := .init (Holder.maxsize size)
  task := none
  created := 0
  tasks _ := ⟨.scheduled, false⟩
  rows := []
  covered := []
  stopping := []
  returned := []

/-- The readings in the queue of task `k`. -/
def queue (s : State κ R) (k : Nat) : List R := (s.hub.subscription (.task k)).queue.items

/-- The subscription of task `k` is entered in the broadcaster. -/
def Registered (s : State κ R) (k : Nat) : Prop := .task k ∈ s.hub.broadcaster.subscriptions

/-- Task `k` gets to another place of its program. -/
def setStage (s : State κ R) (k : Nat) (stage : Stage R) : State κ R :=
  { s with tasks := Function.update s.tasks k { s.tasks k with stage := stage } }

/-- `Recorder.start`. -/
def start (s : State κ R) : State κ R :=
  match s.task with
  | none => { s with
      task := some s.created
      created := s.created + 1
      tasks := Function.update s.tasks s.created ⟨.scheduled, false⟩ }
  | some _ => s

/-- `Recorder.stop`, up to where it waits for the task. -/
def stop (s : State κ R) : State κ R :=
  match s.task with
  | none => s
  | some k => { s with
      task := none
      tasks := Function.update s.tasks k { s.tasks k with cancelled := true }
      stopping := k :: s.stopping }

/-- A `stop` returns when the task it waits for has ended. -/
def stopReturns (s : State κ R) (k : Nat) : Option (State κ R) :=
  match (s.tasks k).stage with
  | .ended =>
      if k ∈ s.stopping then
        some { s with stopping := s.stopping.erase k, returned := k :: s.returned }
      else none
  | _ => none

variable [DecidableEq κ]

/-- `async with self._broadcaster.subscribe()`, entering and leaving. -/
def enter (s : State κ R) (k : Nat) : State κ R := { s with hub := s.hub.enter (.task k) }

/-- The subscription of task `k` ends. -/
def leave (s : State κ R) (k : Nat) : State κ R := { s with hub := s.hub.exit (.task k) }

/-- `async for reading in subscription`: go on with the next reading if there is one,
    else wait in `queue.get`. -/
def get (s : State κ R) (k : Nat) : State κ R :=
  match s.hub.next (.task k) with
  | some (reading, hub) => { s with hub := hub }.setStage k (.inserting reading)
  | none => s.setStage k .getting

/-- The row of an insert, if it reached the table. -/
def insert (s : State κ R) (k : Nat) (reading : R) (stored : Bool) : State κ R :=
  if stored then { s with rows := s.rows ++ [(k, reading)] } else s

/-- A step of task `k`. -/
def resume (s : State κ R) (k : Nat) (stored : Bool) : Option (State κ R) :=
  if k < s.created then
    match (s.tasks k).cancelled, (s.tasks k).stage with
    | _, .ended => none
    | false, .scheduled => some ((s.enter k).get k)
    | false, .getting => if s.queue k = [] then none else some (s.get k)
    -- an exception of `insert_reading` is logged, and the loop goes on
    | false, .inserting reading => some ((s.insert k reading stored).get k)
    -- a task that is cancelled before its first step never enters its body
    | true, .scheduled => some (s.setStage k .ended)
    | true, .getting => some ((s.leave k).setStage k .ended)
    | true, .inserting reading =>
        some (((s.insert k reading stored).leave k).setStage k .ended)
  else none

/-- `Broadcaster.publish`, by whoever publishes. -/
def publish (s : State κ R) (reading : R) : State κ R where
  __ := s
  hub := s.hub.publish reading
  covered := match s.task with
    | some k => s.covered ++ [(k, reading)]
    | none => s.covered

/-- One action; `none` where it cannot be. -/
def step (s : State κ R) : Action κ R → Option (State κ R)
  | .start => some s.start
  | .stop => some s.stop
  | .stopReturns k => s.stopReturns k
  | .publish reading => some (s.publish reading)
  | .visit j v => (s.hub.step (v.event j)).map fun hub => { s with hub := hub }
  | .resume k stored => s.resume k stored

/-- What the running task has been handed and not stored yet. -/
def pending (s : State κ R) : List (Nat × R) :=
  match s.task with
  | some k => ((s.tasks k).inFlight ++ s.queue k).map fun reading => (k, reading)
  | none => []

/-- The rows inserted by task `k`. -/
def rowsOf (s : State κ R) (k : Nat) : List R := (s.rows.filter (·.1 = k)).map Prod.snd

/-- The readings published between the `start` that created task `k` and the `stop`
    that cancelled it. -/
def coveredBy (s : State κ R) (k : Nat) : List R := (s.covered.filter (·.1 = k)).map Prod.snd

end State

variable [DecidableEq κ]

/-- No `insert_reading` raises. -/
def Writes (s : State κ R) : Action κ R → Prop
  | .resume k stored => (s.tasks k).cancelled = false → stored = true
  | _ => True

/-- A reading is published only if there is no running task or the running task has
    registered and has room in its queue, and `stop` is called only when the running
    task has nothing in its queue and no insert under way. -/
def Orderly (s : State κ R) : Action κ R → Prop
  | .publish _ => ∀ k, s.task = some k →
      s.Registered k ∧ ¬ (s.hub.subscription (.task k)).queue.Full
  | .stop => s.pending = []
  | _ => True

instance (s : State κ R) : (a : Action κ R) → Decidable (Writes s a)
  | .resume k stored => inferInstanceAs (Decidable ((s.tasks k).cancelled = false → stored = true))
  | .start | .stop | .stopReturns _ | .publish _ | .visit _ _ => inferInstanceAs (Decidable True)

instance (s : State κ R) (k : Nat) : Decidable (s.Registered k) :=
  inferInstanceAs (Decidable (_ ∈ _))

instance (s : State κ R) : (a : Action κ R) → Decidable (Orderly s a)
  | .publish _ => inferInstanceAs (Decidable (∀ k ∈ s.task, s.Registered k ∧
      ¬ (s.hub.subscription (.task k)).queue.Full))
  | .stop => inferInstanceAs (Decidable (s.pending = []))
  | .start | .stopReturns _ | .visit _ _ | .resume _ _ => inferInstanceAs (Decidable True)

/-! ## Steps of one task -/

/-- Only task `k`, its queue and its registration have changed, and the rows. -/
structure Moved (s s' : State κ R) (k : Nat) : Prop where
  task : s'.task = s.task
  created : s'.created = s.created
  covered : s'.covered = s.covered
  stopping : s'.stopping = s.stopping
  returned : s'.returned = s.returned
  tasks : ∀ j, j ≠ k → s'.tasks j = s.tasks j
  queue : ∀ j, j ≠ k → s'.queue j = s.queue j
  registered : ∀ j, j ≠ k → (s'.Registered j ↔ s.Registered j)

omit [DecidableEq κ] in
theorem Moved.trans {s s₁ s₂ : State κ R} {k : Nat} (h₁ : Moved s s₁ k) (h₂ : Moved s₁ s₂ k) :
    Moved s s₂ k where
  task := h₂.task.trans h₁.task
  created := h₂.created.trans h₁.created
  covered := h₂.covered.trans h₁.covered
  stopping := h₂.stopping.trans h₁.stopping
  returned := h₂.returned.trans h₁.returned
  tasks j hj := (h₂.tasks j hj).trans (h₁.tasks j hj)
  queue j hj := (h₂.queue j hj).trans (h₁.queue j hj)
  registered j hj := (h₂.registered j hj).trans (h₁.registered j hj)

omit [DecidableEq κ] in
theorem moved_setStage (s : State κ R) (k : Nat) (stage : Stage R) :
    Moved s (s.setStage k stage) k :=
  ⟨rfl, rfl, rfl, rfl, rfl, fun _ hj => Function.update_of_ne hj _ _, fun _ _ => rfl,
    fun _ _ => Iff.rfl⟩

theorem moved_enter (s : State κ R) (k : Nat) : Moved s (s.enter k) k := by
  refine ⟨rfl, rfl, rfl, rfl, rfl, fun _ _ => rfl, fun _ _ => rfl, ?_⟩
  intro j hj
  simp [State.enter, State.Registered, Broadcast.State.enter, hj]

theorem moved_leave (s : State κ R) (k : Nat) : Moved s (s.leave k) k := by
  refine ⟨rfl, rfl, rfl, rfl, rfl, fun _ _ => rfl, fun _ _ => rfl, ?_⟩
  intro j hj
  simp [State.leave, State.Registered, Broadcast.State.exit, hj]

omit [DecidableEq κ] in
theorem moved_insert (s : State κ R) (k : Nat) (reading : R) (stored : Bool) :
    Moved s (s.insert k reading stored) k := by
  cases stored <;>
    exact ⟨rfl, rfl, rfl, rfl, rfl, fun _ _ => rfl, fun _ _ => rfl, fun _ _ => Iff.rfl⟩

/-- What task `k` has been handed and not stored yet. -/
def State.handed (s : State κ R) (k : Nat) : List R := (s.tasks k).inFlight ++ s.queue k

/-- **What `get` does**: the reading at the head of the queue, if any, is the one under
    way; nothing is lost between the two. -/
theorem get_spec (s : State κ R) (k : Nat) :
    Moved s (s.get k) k ∧ (s.get k).rows = s.rows ∧ (s.get k).handed k = s.queue k ∧
      ((s.get k).tasks k).cancelled = (s.tasks k).cancelled := by
  cases hnext : s.hub.next (.task k) with
  | none =>
      simp only [State.get, hnext]
      refine ⟨moved_setStage s k .getting, rfl, ?_, ?_⟩
      · simp [State.handed, State.setStage, Task.inFlight, State.queue]
      · simp [State.setStage]
  | some y =>
      obtain ⟨reading, hub⟩ := y
      obtain ⟨hitems, hsame, hothers⟩ := Broadcast.next_eq_some hnext
      simp only [State.get, hnext]
      refine ⟨⟨rfl, rfl, rfl, rfl, rfl, ?_, ?_, ?_⟩, rfl, ?_, ?_⟩
      · intro j hj
        exact Function.update_of_ne hj _ _
      · intro j hj
        have hne : (.task j : Holder κ) ≠ .task k := fun h => hj (Holder.task.inj h)
        simp only [State.queue, State.setStage, hothers _ hne]
      · intro j _
        simp only [State.Registered, State.setStage, hsame]
      · simp [State.handed, State.setStage, Task.inFlight, State.queue, hitems]
      · simp [State.setStage]

/-- **A step of a task that has not been cancelled**, no insert raising: a reading that
    leaves the hands of the task has become the next row. -/
theorem resume_running {s s' : State κ R} {k : Nat} (h : s.resume k true = some s')
    (hc : (s.tasks k).cancelled = false) :
    Moved s s' k ∧ (s'.tasks k).cancelled = false ∧
      s'.rows ++ (s'.handed k).map (fun r => (k, r)) =
        s.rows ++ (s.handed k).map (fun r => (k, r)) := by
  obtain ⟨_, h⟩ := Option.ite_none_right_eq_some.mp h
  rw [hc] at h
  cases hstage : (s.tasks k).stage with
  | scheduled =>
      simp only [hstage, Option.some.injEq] at h
      subst h
      obtain ⟨hmoved, hrows, hhanded, hcancel⟩ := get_spec (s.enter k) k
      refine ⟨(moved_enter s k).trans hmoved, hcancel.trans hc, ?_⟩
      rw [hrows, hhanded, State.handed, Task.inFlight, hstage]
      rfl
  | getting =>
      simp only [hstage] at h
      obtain ⟨_, h⟩ := Option.ite_none_left_eq_some.mp h
      obtain rfl := Option.some.inj h
      obtain ⟨hmoved, hrows, hhanded, hcancel⟩ := get_spec s k
      refine ⟨hmoved, hcancel.trans hc, ?_⟩
      rw [hrows, hhanded, State.handed, Task.inFlight, hstage]
      rfl
  | inserting reading =>
      simp only [hstage, Option.some.injEq] at h
      subst h
      obtain ⟨hmoved, hrows, hhanded, hcancel⟩ := get_spec (s.insert k reading true) k
      refine ⟨(moved_insert s k reading true).trans hmoved, hcancel.trans hc, ?_⟩
      rw [hrows, hhanded, State.handed, Task.inFlight, hstage]
      simp [State.insert, State.queue]
  | ended => exact absurd h (by simp [hstage])

/-- **A step of a cancelled task** that was not inserting is its end. -/
theorem resume_cancelled {s s' : State κ R} {k : Nat} {stored : Bool}
    (h : s.resume k stored = some s') (hc : (s.tasks k).cancelled = true)
    (hidle : (s.tasks k).inFlight = []) :
    Moved s s' k ∧ (s'.tasks k).cancelled = true ∧ (s'.tasks k).inFlight = [] ∧
      s'.rows = s.rows := by
  obtain ⟨_, h⟩ := Option.ite_none_right_eq_some.mp h
  rw [hc] at h
  cases hstage : (s.tasks k).stage with
  | scheduled =>
      simp only [hstage, Option.some.injEq] at h
      subst h
      refine ⟨moved_setStage s k .ended, ?_, ?_, rfl⟩
      · simpa [State.setStage] using hc
      · simp [State.setStage, Task.inFlight]
  | getting =>
      simp only [hstage, Option.some.injEq] at h
      subst h
      refine ⟨(moved_leave s k).trans (moved_setStage _ k .ended), ?_, ?_, rfl⟩
      · simpa [State.setStage, State.leave] using hc
      · simp [State.setStage, Task.inFlight]
  | inserting reading => exact absurd hidle (by simp [Task.inFlight, hstage])
  | ended => exact absurd h (by simp [hstage])

/-! ## The invariant -/

/-- What orderly runs keep. -/
structure Inv (s : State κ R) : Prop where
  /-- What was published to the recorder is stored or in the hands of its task. -/
  stored : s.covered = s.rows ++ s.pending
  current : ∀ k, s.task = some k → k < s.created ∧ (s.tasks k).cancelled = false
  past : ∀ k, k < s.created → s.task ≠ some k →
    (s.tasks k).cancelled = true ∧ (s.tasks k).inFlight = []
  future : ∀ k, s.created ≤ k → s.queue k = [] ∧ ¬ s.Registered k
  stopped : ∀ k, k ∈ s.stopping ∨ k ∈ s.returned → k < s.created ∧ s.task ≠ some k

omit [DecidableEq κ] in
theorem inv_init (size : κ → Nat) : Inv (State.init size : State κ R) where
  stored := rfl
  current _ h := absurd h (by simp [State.init])
  past k h := absurd h (Nat.not_lt_zero k)
  future k _ := by
    constructor
    · rfl
    · simp [State.Registered, State.init, Broadcast.State.init]
  stopped k h := by simp [State.init] at h

omit [DecidableEq κ] in
theorem Inv.start {s : State κ R} (hI : Inv s) : Inv s.start := by
  cases htask : s.task with
  | some k =>
      simp only [State.start, htask]
      exact hI
  | none =>
      have hstored := hI.stored
      simp only [State.pending, htask] at hstored
      simp only [State.start, htask]
      constructor
      · -- the new task has been handed nothing: its queue is empty
        have hqueue := (hI.future s.created (Nat.le_refl _)).1
        simp only [State.queue] at hqueue
        simpa [State.pending, State.queue, Task.inFlight, hqueue] using hstored
      · intro k hk
        obtain rfl := Option.some.inj hk
        exact ⟨Nat.lt_succ_self _, by simp⟩
      · intro k hk hne
        have hk' : k ≠ s.created := fun h => hne (congrArg some h.symm)
        have hlt : k < s.created := by
          simp only at hk
          omega
        simpa only [Function.update_of_ne hk'] using hI.past k hlt (by simp [htask])
      · intro k hk
        exact hI.future k (Nat.le_of_succ_le hk)
      · intro k hk
        obtain ⟨hlt, _⟩ := hI.stopped k hk
        simp only [Option.some.injEq, ne_eq]
        omega

omit [DecidableEq κ] in
/-- With nothing in its hands the running task may be cancelled. -/
theorem Inv.stop {s : State κ R} (hI : Inv s) (hdone : s.pending = []) : Inv s.stop := by
  cases htask : s.task with
  | none =>
      simp only [State.stop, htask]
      exact hI
  | some k =>
      have hlt := (hI.current k htask).1
      have hstored := hI.stored
      rw [hdone, List.append_nil] at hstored
      have hhanded : (s.tasks k).inFlight ++ s.queue k = [] := by
        simpa only [State.pending, htask, List.map_eq_nil_iff] using hdone
      simp only [State.stop, htask]
      constructor
      · simpa [State.pending] using hstored
      · intro j hj
        exact absurd hj (by simp)
      · intro j hj _
        by_cases hjk : j = k
        · subst hjk
          simpa [Task.inFlight] using (List.append_eq_nil_iff.mp hhanded).1
        · have hne : s.task ≠ some j := by
            rw [htask]
            exact fun h => hjk (Option.some.inj h).symm
          simpa only [Function.update_of_ne hjk] using hI.past j hj hne
      · exact hI.future
      · intro j hj
        refine ⟨?_, by simp⟩
        simp only [List.mem_cons] at hj
        obtain (rfl | hj) | hj := hj
        · exact hlt
        · exact (hI.stopped j (.inl hj)).1
        · exact (hI.stopped j (.inr hj)).1

omit [DecidableEq κ] in
theorem Inv.stopReturns {s s' : State κ R} {k : Nat} (hI : Inv s)
    (h : s.stopReturns k = some s') : Inv s' := by
  cases hstage : (s.tasks k).stage with
  | ended =>
      simp only [State.stopReturns, hstage] at h
      obtain ⟨hk, h⟩ := Option.ite_none_right_eq_some.mp h
      obtain rfl := Option.some.inj h
      refine ⟨hI.stored, hI.current, hI.past, hI.future, ?_⟩
      intro j hj
      obtain hj | hj := hj
      · exact hI.stopped j (.inl (List.mem_of_mem_erase hj))
      · obtain rfl | hj := List.mem_cons.mp hj
        · exact hI.stopped j (.inl hk)
        · exact hI.stopped j (.inr hj)
  | scheduled => exact absurd h (by simp [State.stopReturns, hstage])
  | getting => exact absurd h (by simp [State.stopReturns, hstage])
  | inserting reading => exact absurd h (by simp [State.stopReturns, hstage])

/-- A reading that finds the running task registered and with room is in its hands. -/
theorem Inv.publish {s : State κ R} {reading : R} (hI : Inv s)
    (hok : Orderly s (.publish reading)) : Inv (s.publish reading) := by
  refine ⟨?_, hI.current, hI.past, ?_, hI.stopped⟩
  · have hstored := hI.stored
    cases htask : s.task with
    | none => simpa only [State.publish, State.pending, htask] using hstored
    | some k =>
        obtain ⟨hreg, hroom⟩ := hok k htask
        have hitems := Broadcast.publish_items hreg hroom reading
        simp only [State.pending, htask] at hstored
        simp [State.publish, State.pending, State.queue, htask, hstored, hitems]
  · intro k hk
    obtain ⟨hqueue, hreg⟩ := hI.future k hk
    refine ⟨?_, hreg⟩
    have hsame := Broadcast.publish_other hreg reading
    simp only [State.publish, State.queue] at hqueue ⊢
    rw [hsame, hqueue]

/-- The other subscriptions do not touch those of the recorder. -/
theorem Inv.visit {s : State κ R} {j : κ} {v : Visit} {hub : Broadcast.State (Holder κ) R}
    (hI : Inv s) (h : s.hub.step (v.event j) = some hub) : Inv { s with hub := hub } := by
  have hreader : ∀ k : Nat, hub.reader (.task k) = s.hub.reader (.task k) := by
    intro k
    refine Broadcast.step_other h ?_
    cases v <;> simp [Visit.event, Event.own]
  have hqueue : ∀ k, ({ s with hub := hub } : State κ R).queue k = s.queue k := fun k =>
    congrArg (fun x => x.queue.items) (hreader k)
  have hreg : ∀ k, ({ s with hub := hub } : State κ R).Registered k ↔ s.Registered k := fun k =>
    decide_eq_decide.mp (congrArg Channel.Reader.registered (hreader k))
  refine ⟨?_, hI.current, hI.past, ?_, hI.stopped⟩
  · have hstored := hI.stored
    simpa only [State.pending, hqueue] using hstored
  · intro k hk
    rw [hqueue, hreg]
    exact hI.future k hk

/-- **A step of any task keeps the invariant**, no insert raising. -/
theorem Inv.resume {s s' : State κ R} {k : Nat} {stored : Bool} (hI : Inv s)
    (hok : Writes s (.resume k stored)) (h : s.resume k stored = some s') : Inv s' := by
  have hlt : k < s.created := (Option.ite_none_right_eq_some.mp h).1
  by_cases htask : s.task = some k
  · obtain ⟨_, hc⟩ := hI.current k htask
    obtain rfl := hok hc
    obtain ⟨hmoved, hc', hrows⟩ := resume_running h hc
    constructor
    · have hstored := hI.stored
      simp only [State.pending, htask] at hstored
      simp only [State.pending, hmoved.covered, hmoved.task, htask]
      exact hstored.trans hrows.symm
    · intro j hj
      rw [hmoved.task, htask] at hj
      obtain rfl := Option.some.inj hj
      rw [hmoved.created]
      exact ⟨hlt, hc'⟩
    · intro j hj hne
      rw [hmoved.created] at hj
      rw [hmoved.task] at hne
      have hjk : j ≠ k := fun hjk => hne (hjk ▸ htask)
      rw [hmoved.tasks j hjk]
      exact hI.past j hj hne
    · intro j hj
      rw [hmoved.created] at hj
      have hjk : j ≠ k := by omega
      rw [hmoved.queue j hjk, hmoved.registered j hjk]
      exact hI.future j hj
    · intro j hj
      rw [hmoved.stopping, hmoved.returned] at hj
      rw [hmoved.created, hmoved.task]
      exact hI.stopped j hj
  · obtain ⟨hc, hidle⟩ := hI.past k hlt htask
    obtain ⟨hmoved, hc', hidle', hrows⟩ := resume_cancelled h hc hidle
    constructor
    · have hstored := hI.stored
      rw [hmoved.covered, hrows, hstored]
      -- what the running task holds is not the business of a cancelled one
      cases hcur : s.task with
      | none => simp only [State.pending, hmoved.task, hcur]
      | some j =>
          have hjk : j ≠ k := fun hjk => htask (hjk ▸ hcur)
          simp only [State.pending, hmoved.task, hcur, hmoved.tasks j hjk, hmoved.queue j hjk]
    · intro j hj
      rw [hmoved.task] at hj
      have hjk : j ≠ k := fun hjk => htask (hjk ▸ hj)
      rw [hmoved.created, hmoved.tasks j hjk]
      exact hI.current j hj
    · intro j hj hne
      rw [hmoved.created] at hj
      rw [hmoved.task] at hne
      by_cases hjk : j = k
      · subst hjk
        exact ⟨hc', hidle'⟩
      · rw [hmoved.tasks j hjk]
        exact hI.past j hj hne
    · intro j hj
      rw [hmoved.created] at hj
      have hjk : j ≠ k := by omega
      rw [hmoved.queue j hjk, hmoved.registered j hjk]
      exact hI.future j hj
    · intro j hj
      rw [hmoved.stopping, hmoved.returned] at hj
      rw [hmoved.created, hmoved.task]
      exact hI.stopped j hj

/-- **Every orderly step keeps the invariant.** -/
theorem Inv.step {s s' : State κ R} {a : Action κ R} (hI : Inv s) (hw : Writes s a)
    (hok : Orderly s a) (h : s.step a = some s') : Inv s' := by
  cases a with
  | start =>
      obtain rfl := Option.some.inj h
      exact hI.start
  | stop =>
      obtain rfl := Option.some.inj h
      exact hI.stop hok
  | stopReturns k => exact hI.stopReturns h
  | publish reading =>
      obtain rfl := Option.some.inj h
      exact hI.publish hok
  | visit j v =>
      obtain ⟨hub, hhub, rfl⟩ := Option.map_eq_some_iff.mp h
      exact hI.visit hhub
  | resume k stored => exact hI.resume hw h

/-! ## What is stored -/

omit [DecidableEq κ] in
/-- Nothing in the hands of the running task belongs to another. -/
theorem pending_filter {s : State κ R} {k : Nat} (hk : s.task ≠ some k) :
    s.pending.filter (·.1 = k) = [] := by
  cases htask : s.task with
  | none => simp [State.pending, htask]
  | some j =>
      have hjk : j ≠ k := fun h => hk (htask.trans (congrArg some h))
      simp [State.pending, htask, hjk]

/-- **Where the recorder loses nothing**: once a `stop` has returned, the rows of the
    task it stopped are the readings published in its time, in this order; and all rows
    together are in publish order. -/
theorem recorder_loses_nothing {size : κ → Nat} {s : State κ R}
    (hr : Transition.Reach State.step (fun s a => Writes s a ∧ Orderly s a)
      (State.init size) s) :
    (∀ k, k ∈ s.returned → s.rowsOf k = s.coveredBy k) ∧ s.rows <+: s.covered := by
  have hI : Inv s := hr.invariant (inv_init size) fun s a s' hI hok h => hI.step hok.1 hok.2 h
  constructor
  · intro k hk
    have hnone := pending_filter (hI.stopped k (.inr hk)).2
    rw [State.rowsOf, State.coveredBy, hI.stored, List.filter_append, hnone, List.append_nil]
  · exact ⟨s.pending, hI.stored.symm⟩

/-- Once a task has had its first step, a reading is stored. -/
def storedRun : List (Action Empty Nat) :=
  [.start, .resume 0 true, .publish 7, .resume 0 true, .resume 0 true, .stop, .resume 0 true,
    .stopReturns 0]

theorem recorder_loses_nothing_stored :
    ∃ s : State Empty Nat, Transition.Reach State.step (fun s a => Writes s a ∧ Orderly s a)
      (State.init Empty.elim) s ∧ s.coveredBy 0 = [7] ∧ s.rowsOf 0 = [7] := by
  have hrun : ∃ s : State Empty Nat,
      Transition.runWithin State.step (fun s a => Writes s a ∧ Orderly s a)
        (State.init Empty.elim) storedRun = some s ∧ 0 ∈ s.returned ∧ s.coveredBy 0 = [7] :=
    ⟨_, rfl, by decide⟩
  obtain ⟨s, hs, hk, hcovered⟩ := hrun
  have hr := Transition.reach_of_runWithin hs
  exact ⟨s, hr, hcovered, ((recorder_loses_nothing hr).1 0 hk).trans hcovered⟩

/-- A reading that is published before the task has had its first step. -/
def hastyRun : List (Action Empty Nat) :=
  [.start, .publish 7, .resume 0 true, .stop, .resume 0 true, .stopReturns 0]

/-- It is lost, though no insert raises. -/
theorem recorder_loses_a_reading :
    ¬ ∀ s : State Empty Nat, Transition.Reach State.step Writes (State.init Empty.elim) s →
      ∀ k, k ∈ s.returned → s.rowsOf k = s.coveredBy k := by
  intro hclaim
  have hrun : ∃ s : State Empty Nat,
      Transition.runWithin State.step Writes (State.init Empty.elim) hastyRun = some s ∧
        0 ∈ s.returned ∧ s.rowsOf 0 ≠ s.coveredBy 0 := ⟨_, rfl, by decide⟩
  obtain ⟨s, hs, hk, hne⟩ := hrun
  exact hne (hclaim s (Transition.reach_of_runWithin hs) 0 hk)

end Recorder
