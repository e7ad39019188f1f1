import XdmServer.Recorder

/-! # The recorder stores a reading at most once

    `Recorder` says in which runs nothing is lost.  Here runs are any: inserts raise, queues
    are full, tasks are cancelled wherever they wait, `start` and `stop` come in any order.

    What a task stores is then still a part of what was published in its time, in the order
    of the publications: no reading is stored twice, none that was not published, and none
    before an earlier one. -/

namespace AtMostOnce

open Recorder

variable {κ R : Type}

/-- What a task may still store: once it is cancelled, only the reading under way. -/
def due (s : State κ R) (k : Nat) : List R :=
  if s.task = some k then s.handed k else (s.tasks k).inFlight

/-- The running task may store whatever it is handed. -/
theorem due_running {s : State κ R} {k : Nat} (h : s.task = some k) : due s k = s.handed k :=
  if_pos h

/-- A task that was stopped may store only what it is inserting. -/
theorem due_past {s : State κ R} {k : Nat} (h : s.task ≠ some k) :
    due s k = (s.tasks k).inFlight :=
  if_neg h

/-! ## Rows -/

theorem rowsOf_insert_other {s : State κ R} {j k : Nat} (hj : j ≠ k) (reading : R)
    (stored : Bool) : (s.insert k reading stored).rowsOf j = s.rowsOf j := by
  cases stored with
  | false => rfl
  | true => simp [State.insert, State.rowsOf, Ne.symm hj]

/-- An insert is a row of its task, if it reaches the table. -/
theorem rowsOf_insert_self (s : State κ R) (k : Nat) (reading : R) (stored : Bool) :
    (s.insert k reading stored).rowsOf k = s.rowsOf k ++ if stored then [reading] else [] := by
  cases stored with
  | false => exact (List.append_nil _).symm
  | true => simp [State.insert, State.rowsOf]

/-- Rows are all that `rowsOf` looks at. -/
theorem rowsOf_congr {s s' : State κ R} (h : s'.rows = s.rows) (k : Nat) :
    s'.rowsOf k = s.rowsOf k := by
  rw [State.rowsOf, State.rowsOf, h]

/-- A publication adds to what the running task is to store. -/
theorem coveredBy_publish [DecidableEq κ] (s : State κ R) (reading : R) (k : Nat) :
    (s.publish reading).coveredBy k
      = s.coveredBy k ++ if s.task = some k then [reading] else [] := by
  cases htask : s.task with
  | none => simp [State.publish, State.coveredBy, htask]
  | some j =>
      by_cases hjk : j = k
      · subst hjk
        simp [State.publish, State.coveredBy, htask]
      · have hne : ¬ (some j = some k) := fun h => hjk (Option.some.inj h)
        simp [State.publish, State.coveredBy, htask, hjk]

/-! ## One step of a task -/

variable [DecidableEq κ]

/-- What a step of task `k` can be. -/
inductive Resumed (s : State κ R) (k : Nat) (stored : Bool) : State κ R → Prop where
  /-- It enters its body. -/
  | entered (hc : (s.tasks k).cancelled = false) (hstage : (s.tasks k).stage = .scheduled) :
      Resumed s k stored ((s.enter k).get k)
  /-- It has waited for a reading. -/
  | took (hc : (s.tasks k).cancelled = false) (hstage : (s.tasks k).stage = .getting) :
      Resumed s k stored (s.get k)
  /-- It has inserted a reading. -/
  | inserted {reading : R} (hc : (s.tasks k).cancelled = false)
      (hstage : (s.tasks k).stage = .inserting reading) :
      Resumed s k stored ((s.insert k reading stored).get k)
  /-- It is cancelled before its first step. -/
  | unstarted (hc : (s.tasks k).cancelled = true) (hstage : (s.tasks k).stage = .scheduled) :
      Resumed s k stored (s.setStage k .ended)
  /-- It is cancelled while it waits for a reading. -/
  | left (hc : (s.tasks k).cancelled = true) (hstage : (s.tasks k).stage = .getting) :
      Resumed s k stored ((s.leave k).setStage k .ended)
  /-- It is cancelled while it inserts one. -/
  | interrupted {reading : R} (hc : (s.tasks k).cancelled = true)
      (hstage : (s.tasks k).stage = .inserting reading) :
      Resumed s k stored (((s.insert k reading stored).leave k).setStage k .ended)

theorem resumed {s s' : State κ R} {k : Nat} {stored : Bool}
    (h : s.resume k stored = some s') : Resumed s k stored s' := by
  obtain ⟨-, h⟩ := Option.ite_none_right_eq_some.mp h
  cases hc : (s.tasks k).cancelled with
  | false =>
      rw [hc] at h
      cases hstage : (s.tasks k).stage with
      | scheduled =>
          simp only [hstage, Option.some.injEq] at h
          exact h ▸ .entered hc hstage
      | getting =>
          simp only [hstage] at h
          obtain ⟨-, h⟩ := Option.ite_none_left_eq_some.mp h
          exact Option.some.inj h ▸ .took hc hstage
      | inserting reading =>
          simp only [hstage, Option.some.injEq] at h
          exact h ▸ .inserted hc hstage
      | ended => exact absurd h (by simp [hstage])
  | true =>
      rw [hc] at h
      cases hstage : (s.tasks k).stage with
      | scheduled =>
          simp only [hstage, Option.some.injEq] at h
          exact h ▸ .unstarted hc hstage
      | getting =>
          simp only [hstage, Option.some.injEq] at h
          exact h ▸ .left hc hstage
      | inserting reading =>
          simp only [hstage, Option.some.injEq] at h
          exact h ▸ .interrupted hc hstage
      | ended => exact absurd h (by simp [hstage])

/-- **A step of a task** moves nothing into its hands that was not in its queue, and stores
    nothing but the reading it was inserting. -/
structure Stored (s s' : State κ R) (k : Nat) : Prop where
  moved : Moved s s' k
  cancelled : (s'.tasks k).cancelled = (s.tasks k).cancelled
  others : ∀ j, j ≠ k → s'.rowsOf j = s.rowsOf j
  running : (s.tasks k).cancelled = false →
    (s'.rowsOf k ++ s'.handed k).Sublist (s.rowsOf k ++ s.handed k)
  past : (s.tasks k).cancelled = true →
    (s'.rowsOf k ++ (s'.tasks k).inFlight).Sublist (s.rowsOf k ++ (s.tasks k).inFlight)

/-- A step that ends in `get`, of a task that has not been cancelled. -/
theorem stored_get {s s₁ : State κ R} {k : Nat} (hmoved : Moved s s₁ k)
    (hc : (s.tasks k).cancelled = false) (hc₁ : (s₁.tasks k).cancelled = false)
    (hothers : ∀ j, j ≠ k → s₁.rowsOf j = s.rowsOf j)
    (hrows : (s₁.rowsOf k ++ s₁.queue k).Sublist (s.rowsOf k ++ s.handed k)) :
    Stored s (s₁.get k) k := by
  obtain ⟨hget, hsame, hhanded, hcancel⟩ := get_spec s₁ k
  refine ⟨hmoved.trans hget, ?_, ?_, ?_, ?_⟩
  · rw [hcancel, hc₁, hc]
  · intro j hj
    rw [rowsOf_congr hsame, hothers j hj]
  · intro _
    rw [rowsOf_congr hsame, hhanded]
    exact hrows
  · intro htrue
    rw [hc] at htrue
    cases htrue

omit [DecidableEq κ] in
/-- A step that is the end of a cancelled task. -/
theorem stored_end {s s₁ : State κ R} {k : Nat} (hmoved : Moved s s₁ k)
    (hc : (s.tasks k).cancelled = true) (hc₁ : (s₁.tasks k).cancelled = true)
    (hothers : ∀ j, j ≠ k → s₁.rowsOf j = s.rowsOf j)
    (hrows : (s₁.rowsOf k).Sublist (s.rowsOf k ++ (s.tasks k).inFlight)) :
    Stored s (s₁.setStage k .ended) k := by
  refine ⟨hmoved.trans (moved_setStage s₁ k .ended), ?_, hothers, ?_, ?_⟩
  · simp [State.setStage, hc, hc₁]
  · intro hfalse
    rw [hc] at hfalse
    cases hfalse
  · intro _
    have hidle : ((s₁.setStage k .ended).tasks k).inFlight = [] := by
      simp [State.setStage, Recorder.Task.inFlight]
    rw [hidle, List.append_nil]
    exact hrows

omit [DecidableEq κ] in
/-- What a task that is at `stage` has been handed. -/
theorem handed_eq {s : State κ R} {k : Nat} {stage : Stage R} (h : (s.tasks k).stage = stage) :
    s.handed k = (⟨stage, false⟩ : Recorder.Task R).inFlight ++ s.queue k := by
  rw [State.handed, Recorder.Task.inFlight, h]
  rfl

omit [DecidableEq κ] in
theorem tasks_insert (s : State κ R) (k : Nat) (reading : R) (stored : Bool) :
    (s.insert k reading stored).tasks = s.tasks := by
  cases stored <;> rfl

omit [DecidableEq κ] in
theorem hub_insert (s : State κ R) (k : Nat) (reading : R) (stored : Bool) :
    (s.insert k reading stored).hub = s.hub := by
  cases stored <;> rfl

/-- What an insert adds is part of what was under way. -/
theorem sublist_inserted (reading : R) (stored : Bool) :
    (if stored then [reading] else []).Sublist [reading] := by
  cases stored with
  | false => exact List.nil_sublist _
  | true => exact .refl _

/-- A step of a task stores what it was inserting, and nothing else. -/
theorem resume_stored {s s' : State κ R} {k : Nat} {stored : Bool}
    (h : s.resume k stored = some s') : Stored s s' k := by
  have hmoved : Moved s s k := ⟨rfl, rfl, rfl, rfl, rfl, fun _ _ => rfl, fun _ _ => rfl,
    fun _ _ => Iff.rfl⟩
  cases resumed h with
  | entered hc hstage =>
      refine stored_get (moved_enter s k) hc hc (fun _ _ => rfl) ?_
      rw [handed_eq hstage]
      exact .refl _
  | took hc hstage =>
      refine stored_get hmoved hc hc (fun _ _ => rfl) ?_
      rw [handed_eq hstage]
      exact .refl _
  | @inserted reading hc hstage =>
      refine stored_get (moved_insert s k reading stored) hc (by rw [tasks_insert, hc])
        (fun j hj => rowsOf_insert_other hj reading stored) ?_
      have hqueue : (s.insert k reading stored).queue k = s.queue k := by
        rw [State.queue, hub_insert]
        rfl
      rw [handed_eq hstage, rowsOf_insert_self, hqueue, List.append_assoc]
      exact (List.Sublist.refl _).append ((sublist_inserted reading stored).append (.refl _))
  | unstarted hc hstage =>
      exact stored_end hmoved hc hc (fun _ _ => rfl) (List.sublist_append_left _ _)
  | left hc hstage =>
      exact stored_end (moved_leave s k) hc hc (fun _ _ => rfl) (List.sublist_append_left _ _)
  | @interrupted reading hc hstage =>
      have hsame : ((s.insert k reading stored).leave k).tasks = s.tasks :=
        tasks_insert s k reading stored
      have hrows : ((s.insert k reading stored).leave k).rowsOf k
          = s.rowsOf k ++ if stored then [reading] else [] :=
        rowsOf_insert_self s k reading stored
      refine stored_end ((moved_insert s k reading stored).trans (moved_leave _ k)) hc
        (by rw [hsame, hc]) (fun j hj => rowsOf_insert_other hj reading stored) ?_
      have hflight : (s.tasks k).inFlight = [reading] := by
        rw [Recorder.Task.inFlight, hstage]
      rw [hrows, hflight]
      exact (List.Sublist.refl _).append (sublist_inserted reading stored)

/-! ## The invariant -/

/-- A publication lands in the queue of a registered task, unless it is full. -/
theorem queue_publish (s : State κ R) (reading : R) (k : Nat) :
    (s.publish reading).queue k = s.queue k ∨
      s.Registered k ∧ (s.publish reading).queue k = s.queue k ++ [reading] := by
  by_cases hreg : s.Registered k
  · by_cases hfull : (s.hub.subscription (.task k)).queue.Full
    · have hdelivered := Broadcast.deliverAll_apply reading s.hub.broadcaster.nodup
        s.hub.subscription (.task k)
      rw [if_pos (show Holder.task k ∈ s.hub.broadcaster.subscriptions from hreg)] at hdelivered
      have hput : (s.hub.subscription (.task k)).queue.putNowait reading = none := dif_pos hfull
      refine .inl ?_
      simp only [State.queue, State.publish, Broadcast.State.publish, hdelivered,
        Broadcast.Subscription.deliver, hput]
    · exact .inr ⟨hreg, Broadcast.publish_items hreg hfull reading⟩
  · have hother := Broadcast.publish_other hreg reading
    exact .inl (congrArg (fun x => x.queue.items) hother)

/-- What every run keeps. -/
structure Owed (s : State κ R) : Prop where
  /-- What is stored and what is still due was published in the time of the task. -/
  owed : ∀ k, (s.rowsOf k ++ due s k).Sublist (s.coveredBy k)
  current : ∀ k, s.task = some k → k < s.created ∧ (s.tasks k).cancelled = false
  past : ∀ k, k < s.created → s.task ≠ some k → (s.tasks k).cancelled = true
  future : ∀ k, s.created ≤ k → s.queue k = [] ∧ ¬ s.Registered k

omit [DecidableEq κ] in
/-- At the start nothing is stored and nothing due. -/
theorem owed_init (size : κ → Nat) : Owed (State.init size : State κ R) where
  owed k := by simp [due, State.init, State.rowsOf, State.coveredBy, Recorder.Task.inFlight]
  current k h := by simp [State.init] at h
  past k h := absurd h (Nat.not_lt_zero k)
  future k _ := by
    constructor
    · rfl
    · simp [State.Registered, State.init, Broadcast.State.init]

omit [DecidableEq κ] in
/-- A new task has been handed nothing. -/
theorem Owed.start {s : State κ R} (h : Owed s) : Owed s.start := by
  cases htask : s.task with
  | some k =>
      simp only [State.start, htask]
      exact h
  | none =>
      simp only [State.start, htask]
      constructor
      · intro k
        have howed := h.owed k
        by_cases hk : k = s.created
        · subst hk
          rw [due_running rfl]
          have hqueue : (s.hub.subscription (.task s.created)).queue.items = [] :=
            (h.future s.created (Nat.le_refl _)).1
          have hnothing : State.handed { s with
              task := some s.created
              created := s.created + 1
              tasks := Function.update s.tasks s.created ⟨.scheduled, false⟩ } s.created = [] := by
            simp [State.handed, State.queue, Recorder.Task.inFlight, hqueue]
          rw [hnothing, List.append_nil]
          exact (List.sublist_append_left _ _).trans howed
        · rw [due_past (fun hnew => hk (Option.some.inj hnew).symm)]
          rw [due_past (by simp [htask])] at howed
          simp only [Function.update_of_ne hk]
          exact howed
      · intro k hk
        obtain rfl := Option.some.inj hk
        exact ⟨Nat.lt_succ_self _, by simp⟩
      · intro k hk hne
        have hne' : k ≠ s.created := fun heq => hne (congrArg some heq.symm)
        have hlt : k < s.created := Nat.lt_of_le_of_ne (Nat.lt_succ_iff.mp hk) hne'
        simpa only [Function.update_of_ne hne'] using h.past k hlt (by simp [htask])
      · intro k hk
        exact h.future k (Nat.le_of_succ_le hk)

omit [DecidableEq κ] in
/-- A task that is cancelled has only the reading under way still to store. -/
theorem Owed.stop {s : State κ R} (h : Owed s) : Owed s.stop := by
  cases htask : s.task with
  | none =>
      simp only [State.stop, htask]
      exact h
  | some k =>
      simp only [State.stop, htask]
      refine ⟨?_, fun j hj => absurd hj (by simp), ?_, h.future⟩
      · intro j
        have howed := h.owed j
        rw [due_past (by simp)]
        by_cases hjk : j = k
        · subst hjk
          rw [due_running htask, State.handed, ← List.append_assoc] at howed
          simp only [Function.update_self]
          exact (List.sublist_append_left _ _).trans howed
        · rw [due_past (by rw [htask]; exact fun heq => hjk (Option.some.inj heq).symm)] at howed
          simp only [Function.update_of_ne hjk]
          exact howed
      · intro j hj _
        by_cases hjk : j = k
        · simp [hjk]
        · have hne : s.task ≠ some j := by
            rw [htask]
            exact fun heq => hjk (Option.some.inj heq).symm
          simpa only [Function.update_of_ne hjk] using h.past j hj hne

/-- **A publication** is covered before it is due. -/
theorem Owed.publish {s : State κ R} (h : Owed s) (reading : R) : Owed (s.publish reading) := by
  refine ⟨?_, h.current, h.past, ?_⟩
  · intro k
    have howed := h.owed k
    rw [coveredBy_publish]
    by_cases htask : s.task = some k
    · have hhanded : ((s.publish reading).handed k).Sublist (s.handed k ++ [reading]) := by
        show (((s.tasks k).inFlight ++ (s.publish reading).queue k)).Sublist _
        rw [State.handed, List.append_assoc]
        refine (List.Sublist.refl _).append ?_
        rcases queue_publish s reading k with hsame | ⟨-, hmore⟩
        · rw [hsame]
          exact List.sublist_append_left _ _
        · rw [hmore]
      rw [due_running htask] at howed
      rw [due_running (show (s.publish reading).task = some k from htask), if_pos htask]
      have hmore := (List.Sublist.refl (s.rowsOf k)).append hhanded
      rw [← List.append_assoc] at hmore
      exact hmore.trans (howed.append (.refl _))
    · rw [due_past htask] at howed
      rw [due_past (show (s.publish reading).task ≠ some k from htask), if_neg htask,
        List.append_nil]
      exact howed
  · intro k hk
    obtain ⟨hqueue, hreg⟩ := h.future k hk
    refine ⟨?_, hreg⟩
    rcases queue_publish s reading k with hsame | ⟨hyes, -⟩
    · rw [hsame, hqueue]
    · exact absurd hyes hreg

/-- **A step of any task.** -/
theorem Owed.resume {s s' : State κ R} {k : Nat} {stored : Bool} (h : Owed s)
    (hs : s.resume k stored = some s') : Owed s' := by
  have hlt : k < s.created := (Option.ite_none_right_eq_some.mp hs).1
  obtain ⟨hmoved, hcancel, hothers, hrunning, hpast⟩ := resume_stored hs
  have hcovered : s'.coveredBy k = s.coveredBy k := by
    rw [State.coveredBy, State.coveredBy, hmoved.covered]
  constructor
  · intro j
    by_cases hjk : j = k
    · subst hjk
      have howed := h.owed j
      rw [hcovered]
      by_cases htask : s.task = some j
      · have htask' : s'.task = some j := hmoved.task.trans htask
        rw [due_running htask] at howed
        rw [due_running htask']
        exact (hrunning (h.current j htask).2).trans howed
      · have htask' : s'.task ≠ some j := by
          rw [hmoved.task]
          exact htask
        rw [due_past htask] at howed
        rw [due_past htask']
        exact (hpast (h.past j hlt htask)).trans howed
    · have howed := h.owed j
      have hdue : due s' j = due s j := by
        simp only [due, hmoved.task, State.handed, hmoved.tasks j hjk, hmoved.queue j hjk]
      rw [hothers j hjk, hdue, State.coveredBy, hmoved.covered]
      exact howed
  · intro j hj
    rw [hmoved.task] at hj
    rw [hmoved.created]
    by_cases hjk : j = k
    · subst hjk
      rw [hcancel]
      exact h.current j hj
    · rw [hmoved.tasks j hjk]
      exact h.current j hj
  · intro j hj hne
    rw [hmoved.created] at hj
    rw [hmoved.task] at hne
    by_cases hjk : j = k
    · subst hjk
      rw [hcancel]
      exact h.past j hj hne
    · rw [hmoved.tasks j hjk]
      exact h.past j hj hne
  · intro j hj
    rw [hmoved.created] at hj
    have hjk : j ≠ k := by omega
    rw [hmoved.queue j hjk, hmoved.registered j hjk]
    exact h.future j hj

/-- The other subscriptions do not touch those of the recorder. -/
theorem Owed.visit {s : State κ R} {j : κ} {v : Visit}
    {hub : Broadcast.State (Holder κ) R} (h : Owed s)
    (hs : s.hub.step (v.event j) = some hub) : Owed { s with hub := hub } := by
  have hreader : ∀ k : Nat, hub.reader (.task k) = s.hub.reader (.task k) := by
    intro k
    refine Broadcast.step_other hs ?_
    cases v <;> simp [Visit.event, Broadcast.Event.own]
  have hqueue : ∀ k, ({ s with hub := hub } : State κ R).queue k = s.queue k := fun k =>
    congrArg (fun x => x.queue.items) (hreader k)
  have hreg : ∀ k, ({ s with hub := hub } : State κ R).Registered k ↔ s.Registered k := fun k =>
    decide_eq_decide.mp (congrArg Channel.Reader.registered (hreader k))
  refine ⟨?_, h.current, h.past, ?_⟩
  · intro k
    have hdue : due { s with hub := hub } k = due s k := by
      simp only [due, State.handed, hqueue]
    rw [hdue]
    exact h.owed k
  · intro k hk
    rw [hqueue, hreg]
    exact h.future k hk

/-- **Every step keeps the invariant.** -/
theorem Owed.step {s s' : State κ R} {a : Recorder.Action κ R} (h : Owed s)
    (hs : s.step a = some s') : Owed s' := by
  cases a with
  | start =>
      obtain rfl := Option.some.inj hs
      exact h.start
  | stop =>
      obtain rfl := Option.some.inj hs
      exact h.stop
  | stopReturns k =>
      simp only [State.step, State.stopReturns] at hs
      split at hs
      · obtain ⟨-, hs⟩ := Option.ite_none_right_eq_some.mp hs
        obtain rfl := Option.some.inj hs
        exact ⟨h.owed, h.current, h.past, h.future⟩
      · cases hs
  | publish reading =>
      obtain rfl := Option.some.inj hs
      exact h.publish reading
  | visit j v =>
      obtain ⟨hub, hhub, rfl⟩ := Option.map_eq_some_iff.mp hs
      exact h.visit hhub
  | resume k stored => exact h.resume hs

/-! ## What is stored -/

/-- What is stored was owed, in every run. -/
theorem owed_reach {size : κ → Nat} {s : State κ R}
    (hr : Transition.Reach State.step Transition.Free (State.init size) s) : Owed s :=
  hr.invariant (owed_init size) fun _ _ _ h _ hs => h.step hs

/-- The entries of one task among those of all. -/
theorem count_of_task [DecidableEq R] (entries : List (Nat × R)) (k : Nat) (reading : R) :
    ((entries.filter (·.1 = k)).map Prod.snd).count reading = entries.count (k, reading) := by
  induction entries with
  | nil => rfl
  | cons entry entries ih =>
      obtain ⟨j, r⟩ := entry
      by_cases hj : j = k
      · subst hj
        rw [List.filter_cons_of_pos (by simp), List.map_cons, List.count_cons, List.count_cons, ih]
        simp
      · have hne : ((j, r) == (k, reading)) = false := by simp [hj]
        rw [List.filter_cons_of_neg (by simpa using hj), ih, List.count_cons, hne]
        rfl

/-- **THE RECORDER STORES AT MOST ONCE**: whichever inserts raise, queues are full and tasks
    are cancelled, the rows of a task are a part of the readings published in its time, in
    their order; and no reading is in the table more often than it was published. -/
theorem stores_at_most_once [DecidableEq R] {size : κ → Nat} {s : State κ R}
    (hr : Transition.Reach State.step Transition.Free (State.init size) s) :
    (∀ k, (s.rowsOf k).Sublist (s.coveredBy k)) ∧
      ∀ k reading, s.rows.count (k, reading) ≤ s.covered.count (k, reading) := by
  have howed := owed_reach hr
  have hsublist : ∀ k, (s.rowsOf k).Sublist (s.coveredBy k) := fun k =>
    (List.sublist_append_left _ _).trans (howed.owed k)
  refine ⟨hsublist, ?_⟩
  intro k reading
  have hcount := (hsublist k).count_le reading
  rwa [State.rowsOf, count_of_task, State.coveredBy, count_of_task] at hcount

/-- A failed insert, a cancelled one that still reaches the table, and a second task that is
    given a reading before the first has ended. -/
def restarted : List (Recorder.Action Empty Nat) :=
  [.start, .resume 0 true, .publish 7, .publish 8, .resume 0 true, .resume 0 false, .stop,
    .start, .resume 1 true, .publish 9, .resume 0 true, .resume 1 true, .resume 1 true,
    .stopReturns 0]

/-- Two tasks, one after the other: a failed insert, a cancelled one, and a lost reading. -/
theorem stores_at_most_once_restarted :
    ∃ s : State Empty Nat, Transition.Reach State.step Transition.Free (State.init Empty.elim) s ∧
      s.rows = [(0, 8), (1, 9)] ∧ s.covered = [(0, 7), (0, 8), (1, 9)] ∧
      (∀ k, (s.rowsOf k).Sublist (s.coveredBy k)) ∧
      ∀ k reading, s.rows.count (k, reading) ≤ s.covered.count (k, reading) := by
  have hrun : ∃ s : State Empty Nat, Transition.runWithin State.step Transition.Free
      (State.init Empty.elim) restarted = some s ∧ s.rows = [(0, 8), (1, 9)] ∧
        s.covered = [(0, 7), (0, 8), (1, 9)] := ⟨_, rfl, rfl, rfl⟩
  obtain ⟨s, hs, hrows, hcovered⟩ := hrun
  have hr := Transition.reach_of_runWithin hs
  exact ⟨s, hr, hrows, hcovered, stores_at_most_once hr⟩

end AtMostOnce
