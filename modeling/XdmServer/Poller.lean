import XdmServer.Segments
import XdmServer.Broadcast
import XdmServer.Driver
import Mathlib.Data.Finset.Card

/-! # The poller

    `web/poller.py`: viewers enter and leave `Poller.subscribe`, and while there are
    any, a task polls the meter and publishes.  Viewers are named by `ι`, tasks of
    `_loop` are numbered as they are created.  A step of a task is what it does between
    two places where it waits: a call of the driver on the manager, or `asyncio.sleep`;
    reading the clock and publishing do not wait.  A context has left once its
    `finally` has begun; the last one then waits for the task it has cancelled. -/

namespace Poller

open Coroutine Device Driver

variable {ι V : Type}

/-- Where a task of `_loop` waits. -/
inductive Stage (V : Type) where
  | scheduled
  | polling (o : (Server V).Op)
      (k : Except Exc ((Server V).Res o) → Coro (Server V) Exc (Reading V))
  | sleeping
  | ended

/-- A polling task: where it stands, and whether it has been cancelled. -/
structure Loop (V : Type) where
  stage : Stage V
  cancelled : Bool

/-- How the body of a context ends. -/
inductive Way where
  | normally
  | byException
  | byCancellation
  deriving DecidableEq

/-- A `subscribe` context.  `stopping` waits in `_stop` for the end of a task. -/
inductive Viewer where
  | outside
  | inside
  | stopping (task : Nat) (way : Way)
  | left (way : Way)
  deriving DecidableEq

/-- The poller with its viewers and the hub it publishes to. -/
structure State (ι V : Type) where
  /-- `_subscribers` -/
  subscribers : Nat
  /-- `_task` -/
  task : Option Nat
  created : Nat
  loops : Nat → Loop V
  viewer : ι → Viewer
  hub : Broadcast.State ι (Reading V)
  /-- What has been published, with the task that did. -/
  published : List (Nat × Reading V)

/-- What may come next: something a viewer does, or a step of a polling task. -/
inductive Action (ι V : Type) where
  | enter (i : ι)
  | leave (i : ι) (way : Way)
  | stopReturns (i : ι)
  /-- A viewer takes the next reading of its subscription. -/
  | next (i : ι)
  /-- A step of task `k`: how the operation it waits for comes out, unless the task
      has been cancelled, and what the clock shows. -/
  | resume (k : Nat) (outcome : (o : (Server V).Op) → Except Exc ((Server V).Res o)) (now : Rat)

/-- The operations that do not wait: reading the clock, and publishing. -/
def immediate (now : Rat) :
    (o : (Server V).Op) → Option ((Server V).Res o × List (Reading V))
  | .inr .time => some (now, [])
  | .inr (.publish reading) => some ((), [reading])
  | _ => none

/-- Where `_loop` stands after a segment of `poll_once`: `except Exception` swallows
    every outcome but a `CancelledError`. -/
def Stage.after : Rest (Server V) Exc (Reading V) → Stage V
  | .waiting o k => .polling o k
  | .ended (.error .cancelledError) => .ended
  | .ended _ => .sleeping

variable [DecidableEq ι]

namespace State

/-- Nobody is subscribed, and nothing is polled. -/
def init : State ι V where
  subscribers := 0
  task := none
  created := 0
  loops _ := ⟨.scheduled, false⟩
  viewer _ := .outside
  hub := .init fun _ => Broadcast.defaultMaxsize
  published := []

/-- `_ensure_running`. -/
def ensureRunning (s : State ι V) : State ι V :=
  match s.task with
  | none => { s with
      task := some s.created
      created := s.created + 1
      loops := Function.update s.loops s.created ⟨.scheduled, false⟩ }
  | some _ => s

/-- `subscribe`, up to its `yield`. -/
def enter (s : State ι V) (i : ι) : State ι V :=
  let s := { s with subscribers := s.subscribers + 1 }.ensureRunning
  { s with hub := s.hub.enter i, viewer := Function.update s.viewer i .inside }

/-- `_stop`, up to where it waits for the task. -/
def stop (s : State ι V) (i : ι) (way : Way) : State ι V :=
  match s.task with
  | none => { s with viewer := Function.update s.viewer i (.left way) }
  | some k => { s with
      task := none
      loops := Function.update s.loops k { s.loops k with cancelled := true }
      viewer := Function.update s.viewer i (.stopping k way) }

/-- `subscribe`, from the end of its body on. -/
def leave (s : State ι V) (i : ι) (way : Way) : State ι V :=
  let s := { s with hub := s.hub.exit i, subscribers := s.subscribers - 1 }
  if s.subscribers = 0 then s.stop i way
  else { s with viewer := Function.update s.viewer i (.left way) }

/-- A pending `_stop` returns when the task it waits for has ended. -/
def stopReturns (s : State ι V) (i : ι) : Option (State ι V) :=
  match s.viewer i with
  | .stopping k way =>
      match (s.loops k).stage with
      | .ended => some { s with viewer := Function.update s.viewer i (.left way) }
      | _ => none
  | _ => none

/-- Task `k` gets to another place of its loop. -/
def setStage (s : State ι V) (k : Nat) (stage : Stage V) : State ι V :=
  { s with loops := Function.update s.loops k { s.loops k with stage := stage } }

/-- Task `k` does a segment of `poll_once`. -/
def poll (s : State ι V) (k : Nat) (now : Rat) (p : Coro (Server V) Exc (Reading V)) :
    State ι V :=
  let segment := p.segment (immediate now)
  { s.setStage k (.after segment.2) with
    hub := segment.1.foldl Broadcast.State.publish s.hub
    published := s.published ++ segment.1.map fun reading => (k, reading) }

/-- A step of task `k`.  A cancelled task is resumed with a `CancelledError`, another
    one never is. -/
def resume (float : PyText.Str → Option V) (s : State ι V) (k : Nat)
    (outcome : (o : (Server V).Op) → Except Exc ((Server V).Res o)) (now : Rat) :
    Option (State ι V) :=
  if k < s.created then
    match (s.loops k).cancelled, (s.loops k).stage with
    | _, .ended => none
    | false, .scheduled => some (s.poll k now (pollOnce float))
    | false, .sleeping => some (s.poll k now (pollOnce float))
    | false, .polling o rest =>
        match outcome o with
        | .error .cancelledError => none
        | r => some (s.poll k now (rest r))
    | true, .polling _ rest => some (s.poll k now (rest (.error .cancelledError)))
    -- before its first step, and in `asyncio.sleep`, nothing catches it
    | true, .scheduled => some (s.setStage k .ended)
    | true, .sleeping => some (s.setStage k .ended)
  else none

/-- One action; `none` where it cannot be. -/
def step (float : PyText.Str → Option V) (s : State ι V) : Action ι V → Option (State ι V)
  | .enter i => if s.viewer i = .outside then some (s.enter i) else none
  | .leave i way => if s.viewer i = .inside then some (s.leave i way) else none
  | .stopReturns i => s.stopReturns i
  | .next i => (s.hub.next i).map fun (_, hub) => { s with hub := hub }
  | .resume k outcome now => s.resume float k outcome now

/-- What task `k` has published. -/
def publishedBy (s : State ι V) (k : Nat) : List (Reading V) :=
  (s.published.filter (·.1 = k)).map Prod.snd

end State

/-! ## What a poll does with a cancellation -/

/-- Parsing does not catch a cancellation. -/
theorem propagates_parsed {S : Signature} {α : Type} (x : Option α) :
    (parsed x : Coro S Exc α).Propagates .cancelledError := by
  cases x with
  | some a => trivial
  | none =>
      intro h
      cases h

/-- **A poll is cancelled at once**, and raises a `CancelledError` only then. -/
theorem propagates_pollOnce (float : PyText.Str → Option V) :
    (pollOnce float).Propagates .cancelledError := by
  have hfunction : getFunction.Propagates .cancelledError :=
    (Coro.propagates_op _).bind fun raw => propagates_parsed _
  have hread : (readMeasurement float).Propagates .cancelledError := by
    refine hfunction.bind fun function => ?_
    refine (Coro.propagates_op _).bind fun raw => ?_
    exact (propagates_parsed _).bind fun value => trivial
  refine hread.inl.bind fun measurement => ?_
  refine (Coro.propagates_op _).bind fun timestamp => ?_
  exact (Coro.propagates_op _).bind fun _ => trivial

/-! ## Steps of one task -/

/-- A task that waits inside of a poll ends at once when it is cancelled. -/
def Stage.Proper : Stage V → Prop
  | .polling o k => (Coro.call o k).Propagates .cancelledError
  | _ => True

/-- A poll that lets a cancellation through leads on into the loop. -/
theorem proper_after {rest : Rest (Server V) Exc (Reading V)}
    (h : rest.Propagates .cancelledError) :
    (Stage.after rest).Proper ∧ Stage.after rest ≠ .ended := by
  cases rest with
  | waiting o k =>
      refine ⟨h, ?_⟩
      intro hend
      cases hend
  | ended r =>
      cases r with
      | ok reading =>
          refine ⟨trivial, ?_⟩
          intro hend
          cases hend
      | error e =>
          cases e with
          | cancelledError => exact absurd rfl h
          | _ =>
              refine ⟨trivial, ?_⟩
              intro hend
              cases hend

/-- Only task `k` has moved, and it may have published. -/
structure Moved (s s' : State ι V) (k : Nat) : Prop where
  subscribers : s'.subscribers = s.subscribers
  task : s'.task = s.task
  created : s'.created = s.created
  viewer : s'.viewer = s.viewer
  loops : ∀ j, j ≠ k → s'.loops j = s.loops j
  published : ∀ j, j ≠ k → s'.publishedBy j = s.publishedBy j
  cancelled : (s'.loops k).cancelled = (s.loops k).cancelled

omit [DecidableEq ι] in
theorem moved_setStage (s : State ι V) (k : Nat) (stage : Stage V) :
    Moved s (s.setStage k stage) k := by
  refine ⟨rfl, rfl, rfl, rfl, fun j hj => Function.update_of_ne hj _ _, fun _ _ => rfl, ?_⟩
  simp [State.setStage]

theorem moved_poll (s : State ι V) (k : Nat) (now : Rat) (p : Coro (Server V) Exc (Reading V)) :
    Moved s (s.poll k now p) k := by
  refine ⟨rfl, rfl, rfl, rfl, fun j hj => Function.update_of_ne hj _ _, ?_, ?_⟩
  · intro j hj
    simp [State.publishedBy, State.poll, List.filter_map, Function.comp_def, Ne.symm hj]
  · simp [State.poll, State.setStage]

/-- After a segment the task stands where the rest of the poll says. -/
theorem poll_stage (s : State ι V) (k : Nat) (now : Rat)
    (p : Coro (Server V) Exc (Reading V)) :
    ((s.poll k now p).loops k).stage = .after (p.segment (immediate now)).2 := by
  simp [State.poll, State.setStage]

/-- **A step of a task that has not been cancelled** leaves it alive. -/
theorem resume_running {float : PyText.Str → Option V} {s s' : State ι V} {k : Nat}
    {outcome : (o : (Server V).Op) → Except Exc ((Server V).Res o)} {now : Rat}
    (h : s.resume float k outcome now = some s') (hc : (s.loops k).cancelled = false)
    (hproper : (s.loops k).stage.Proper) :
    Moved s s' k ∧ (s'.loops k).stage.Proper ∧ (s'.loops k).stage ≠ .ended := by
  have hpoll : ∀ p : Coro (Server V) Exc (Reading V), p.Propagates .cancelledError →
      Moved s (s.poll k now p) k ∧ ((s.poll k now p).loops k).stage.Proper ∧
        ((s.poll k now p).loops k).stage ≠ .ended := by
    intro p hp
    rw [poll_stage]
    exact ⟨moved_poll s k now p, proper_after hp.segment⟩
  obtain ⟨_, h⟩ := Option.ite_none_right_eq_some.mp h
  rw [hc] at h
  cases hstage : (s.loops k).stage with
  | scheduled =>
      simp only [hstage, Option.some.injEq] at h
      subst h
      exact hpoll _ (propagates_pollOnce float)
  | sleeping =>
      simp only [hstage, Option.some.injEq] at h
      subst h
      exact hpoll _ (propagates_pollOnce float)
  | polling o rest =>
      rw [hstage] at hproper
      simp only [hstage] at h
      split at h
      · exact absurd h (by simp)
      · next hne =>
          obtain rfl := Option.some.inj h
          exact hpoll _ (hproper.2 _ hne)
  | ended => exact absurd h (by simp [hstage])

/-- **A step of a cancelled task** is its end, and publishes nothing. -/
theorem resume_cancelled {float : PyText.Str → Option V} {s s' : State ι V} {k : Nat}
    {outcome : (o : (Server V).Op) → Except Exc ((Server V).Res o)} {now : Rat}
    (h : s.resume float k outcome now = some s') (hc : (s.loops k).cancelled = true)
    (hproper : (s.loops k).stage.Proper) :
    Moved s s' k ∧ (s'.loops k).stage = .ended ∧ s'.published = s.published := by
  obtain ⟨_, h⟩ := Option.ite_none_right_eq_some.mp h
  rw [hc] at h
  have hend : Moved s (s.setStage k .ended) k ∧
      ((s.setStage k .ended).loops k).stage = .ended ∧
      (s.setStage k .ended).published = s.published :=
    ⟨moved_setStage s k .ended, by simp [State.setStage], rfl⟩
  cases hstage : (s.loops k).stage with
  | scheduled =>
      simp only [hstage, Option.some.injEq] at h
      subst h
      exact hend
  | sleeping =>
      simp only [hstage, Option.some.injEq] at h
      subst h
      exact hend
  | polling o rest =>
      rw [hstage] at hproper
      simp only [hstage, Option.some.injEq] at h
      subst h
      refine ⟨moved_poll s k now _, ?_, ?_⟩
      · rw [poll_stage, hproper.1]
        rfl
      · simp [State.poll, hproper.1, Coro.segment, State.setStage]
  | ended => exact absurd h (by simp [hstage])

/-! ## The invariant -/

/-- What every run keeps. -/
structure Inv (s : State ι V) : Prop where
  count : ∃ inside : Finset ι, (∀ i, i ∈ inside ↔ s.viewer i = .inside) ∧
    inside.card = s.subscribers
  running : s.task.isSome ↔ 0 < s.subscribers
  current : ∀ k, s.task = some k → k < s.created ∧ (s.loops k).cancelled = false
  past : ∀ k, k < s.created → s.task ≠ some k → (s.loops k).cancelled = true
  alive : ∀ k, (s.loops k).cancelled = false → (s.loops k).stage ≠ .ended
  proper : ∀ k, (s.loops k).stage.Proper
  stopping : ∀ i k way, s.viewer i = .stopping k way → k < s.created ∧ s.task ≠ some k

omit [DecidableEq ι] in
theorem inv_init : Inv (State.init : State ι V) where
  count := ⟨∅, by simp [State.init], rfl⟩
  running := by simp [State.init]
  current k h := by simp [State.init] at h
  past k h := absurd h (Nat.not_lt_zero k)
  alive k _ h := by simp [State.init] at h
  proper k := trivial
  stopping i k way h := by simp [State.init] at h

/-- A task there is after `_ensure_running`, and everything else stays as it was. -/
theorem Inv.enter {s : State ι V} {i : ι} (hI : Inv s) (hi : s.viewer i = .outside) :
    Inv (s.enter i) := by
  have hcount : ∃ inside : Finset ι,
      (∀ j, j ∈ inside ↔ Function.update s.viewer i .inside j = .inside) ∧
        inside.card = s.subscribers + 1 := by
    obtain ⟨inside, hmem, hcard⟩ := hI.count
    have hout : i ∉ inside := by simp [hmem, hi]
    refine ⟨insert i inside, ?_, ?_⟩
    · intro j
      by_cases hj : j = i
      · simp [hj]
      · simp [hj, hmem]
    · rw [Finset.card_insert_of_notMem hout, hcard]
  have hstopping : ∀ j k way, Function.update s.viewer i .inside j = .stopping k way →
      k < s.created ∧ s.task ≠ some k := by
    intro j k way hj
    by_cases hji : j = i
    · simp [hji] at hj
    · rw [Function.update_of_ne hji] at hj
      exact hI.stopping j k way hj
  cases htask : s.task with
  | some k =>
      have hcurrent := hI.current
      have hpast := hI.past
      rw [htask] at hcurrent hpast hstopping
      simp only [State.enter, State.ensureRunning, htask]
      exact ⟨hcount, by simp, hcurrent, hpast, hI.alive, hI.proper, hstopping⟩
  | none =>
      simp only [State.enter, State.ensureRunning, htask]
      constructor
      · exact hcount
      · simp
      · intro k hk
        obtain rfl := Option.some.inj hk
        exact ⟨Nat.lt_succ_self _, by simp⟩
      · intro k hk hne
        have hk' : k ≠ s.created := fun h => hne (congrArg some h.symm)
        have hlt : k < s.created := by
          simp only at hk
          omega
        simpa only [Function.update_of_ne hk'] using hI.past k hlt (by simp [htask])
      · intro k hk
        by_cases hk' : k = s.created
        · simp [hk']
        · simp only [Function.update_of_ne hk'] at hk ⊢
          exact hI.alive k hk
      · intro k
        by_cases hk' : k = s.created
        · simp [hk', Stage.Proper]
        · simp only [Function.update_of_ne hk']
          exact hI.proper k
      · intro j k way hj
        obtain ⟨hlt, _⟩ := hstopping j k way hj
        simp only [Option.some.injEq, ne_eq]
        omega

/-- **Leaving**: the task goes with the last viewer, and only with it. -/
theorem Inv.leave {s : State ι V} {i : ι} {way : Way} (hI : Inv s)
    (hi : s.viewer i = .inside) : Inv (s.leave i way) := by
  obtain ⟨inside, hmem, hcard⟩ := hI.count
  have hin : i ∈ inside := (hmem i).mpr hi
  have hpos : 0 < s.subscribers := hcard ▸ Finset.card_pos.mpr ⟨i, hin⟩
  have hcount : ∀ v : Viewer, v ≠ .inside → ∃ inside : Finset ι,
      (∀ j, j ∈ inside ↔ Function.update s.viewer i v j = .inside) ∧
        inside.card = s.subscribers - 1 := by
    intro v hv
    refine ⟨inside.erase i, ?_, ?_⟩
    · intro j
      by_cases hj : j = i
      · simp [hj, hv]
      · simp [hj, hmem]
    · rw [Finset.card_erase_of_mem hin, hcard]
  have hothers : ∀ v j k way', Function.update s.viewer i v j = .stopping k way' → j ≠ i →
      k < s.created ∧ s.task ≠ some k := by
    intro v j k way' hj hji
    rw [Function.update_of_ne hji] at hj
    exact hI.stopping j k way' hj
  by_cases hlast : s.subscribers - 1 = 0
  · obtain ⟨k, htask⟩ := Option.isSome_iff_exists.mp (hI.running.mpr hpos)
    have hlt := (hI.current k htask).1
    simp only [State.leave, hlast, if_true, State.stop, htask]
    constructor
    · simpa [hlast] using hcount (.stopping k way) (by simp)
    · simp
    · intro j hj
      exact absurd hj (by simp)
    · intro j hj _
      by_cases hjk : j = k
      · simp [hjk]
      · have hne : s.task ≠ some j := by
          rw [htask]
          exact fun h => hjk (Option.some.inj h).symm
        simpa only [Function.update_of_ne hjk] using hI.past j hj hne
    · intro j hj
      by_cases hjk : j = k
      · simp [hjk] at hj
      · simp only [Function.update_of_ne hjk] at hj ⊢
        exact hI.alive j hj
    · intro j
      by_cases hjk : j = k
      · simpa [hjk] using hI.proper k
      · simp only [Function.update_of_ne hjk]
        exact hI.proper j
    · intro j k' way' hj
      refine ⟨?_, by simp⟩
      by_cases hji : j = i
      · simp only [hji, Function.update_self, Viewer.stopping.injEq] at hj
        exact hj.1 ▸ hlt
      · exact (hothers _ j k' way' hj hji).1
  · simp only [State.leave, if_neg hlast]
    refine ⟨hcount (.left way) (by simp), ?_, hI.current, hI.past, hI.alive, hI.proper, ?_⟩
    · simp only [hI.running]
      omega
    · intro j k way' hj
      by_cases hji : j = i
      · simp [hji] at hj
      · exact hothers _ j k way' hj hji

/-- **The end of a pending `_stop`** is the viewer's own affair. -/
theorem stopReturns_spec {s s' : State ι V} {i : ι} (h : s.stopReturns i = some s') :
    ∃ k way, s.viewer i = .stopping k way ∧ (s.loops k).stage = .ended ∧
      s' = { s with viewer := Function.update s.viewer i (.left way) } := by
  cases hi : s.viewer i with
  | stopping k way =>
      simp only [State.stopReturns, hi] at h
      split at h
      · next hend => exact ⟨k, way, rfl, hend, (Option.some.inj h).symm⟩
      · exact absurd h (by simp)
  | outside => exact absurd h (by simp [State.stopReturns, hi])
  | inside => exact absurd h (by simp [State.stopReturns, hi])
  | left way => exact absurd h (by simp [State.stopReturns, hi])

/-- A viewer whose `_stop` returns is gone. -/
theorem Inv.stopReturns {s s' : State ι V} {i : ι} (hI : Inv s)
    (h : s.stopReturns i = some s') : Inv s' := by
  obtain ⟨k, way, hi, _, rfl⟩ := stopReturns_spec h
  refine ⟨?_, hI.running, hI.current, hI.past, hI.alive, hI.proper, ?_⟩
  · obtain ⟨inside, hmem, hcard⟩ := hI.count
    refine ⟨inside, ?_, hcard⟩
    intro j
    by_cases hji : j = i
    · simp [hji, hmem, hi]
    · simp [hji, hmem]
  · intro j k' way' hj
    by_cases hji : j = i
    · simp [hji] at hj
    · simp only [Function.update_of_ne hji] at hj
      exact hI.stopping j k' way' hj

omit [DecidableEq ι] in
/-- A task that moves keeps the invariant if it is alive, or cancelled. -/
theorem Inv.moved {s s' : State ι V} {k : Nat} (hI : Inv s) (hmoved : Moved s s' k)
    (hproper : (s'.loops k).stage.Proper)
    (halive : (s.loops k).cancelled = false → (s'.loops k).stage ≠ .ended) : Inv s' := by
  have hcancelled : ∀ j, (s'.loops j).cancelled = (s.loops j).cancelled := by
    intro j
    by_cases hj : j = k
    · subst hj
      exact hmoved.cancelled
    · rw [hmoved.loops j hj]
  constructor
  · rw [hmoved.viewer, hmoved.subscribers]
    exact hI.count
  · rw [hmoved.task, hmoved.subscribers]
    exact hI.running
  · intro j hj
    rw [hmoved.task] at hj
    rw [hmoved.created, hcancelled]
    exact hI.current j hj
  · intro j hj hne
    rw [hmoved.created] at hj
    rw [hmoved.task] at hne
    rw [hcancelled]
    exact hI.past j hj hne
  · intro j hj
    rw [hcancelled] at hj
    by_cases hjk : j = k
    · subst hjk
      exact halive hj
    · rw [hmoved.loops j hjk]
      exact hI.alive j hj
  · intro j
    by_cases hjk : j = k
    · subst hjk
      exact hproper
    · rw [hmoved.loops j hjk]
      exact hI.proper j
  · intro i j way hj
    rw [hmoved.viewer] at hj
    rw [hmoved.created, hmoved.task]
    exact hI.stopping i j way hj

theorem Inv.resume {float : PyText.Str → Option V} {s s' : State ι V} {k : Nat}
    {outcome : (o : (Server V).Op) → Except Exc ((Server V).Res o)} {now : Rat} (hI : Inv s)
    (h : s.resume float k outcome now = some s') : Inv s' := by
  cases hc : (s.loops k).cancelled with
  | false =>
      obtain ⟨hmoved, hproper, halive⟩ := resume_running h hc (hI.proper k)
      exact hI.moved hmoved hproper fun _ => halive
  | true =>
      obtain ⟨hmoved, hend, _⟩ := resume_cancelled h hc (hI.proper k)
      refine hI.moved hmoved ?_ ?_
      · rw [hend]
        trivial
      · intro hfalse
        rw [hc] at hfalse
        cases hfalse

/-- **Every step keeps the invariant.** -/
theorem Inv.step {float : PyText.Str → Option V} {s s' : State ι V} {a : Action ι V}
    (hI : Inv s) (h : s.step float a = some s') : Inv s' := by
  cases a with
  | enter i =>
      obtain ⟨hi, h⟩ := Option.ite_none_right_eq_some.mp h
      obtain rfl := Option.some.inj h
      exact hI.enter hi
  | leave i way =>
      obtain ⟨hi, h⟩ := Option.ite_none_right_eq_some.mp h
      obtain rfl := Option.some.inj h
      exact hI.leave hi
  | stopReturns i => exact hI.stopReturns h
  | next i =>
      obtain ⟨⟨reading, hub⟩, _, rfl⟩ := Option.map_eq_some_iff.mp h
      exact ⟨hI.count, hI.running, hI.current, hI.past, hI.alive, hI.proper, hI.stopping⟩
  | resume k outcome now => exact hI.resume h

/-! ## Polling on demand -/

/-- A step of a cancelled task, or of anybody else, adds nothing to what it published. -/
theorem step_quiet {float : PyText.Str → Option V} {s s' : State ι V} {a : Action ι V} {k : Nat}
    (hI : Inv s) (hk : k < s.created) (hc : (s.loops k).cancelled = true)
    (h : s.step float a = some s') :
    k < s'.created ∧ (s'.loops k).cancelled = true ∧ s'.publishedBy k = s.publishedBy k := by
  cases a with
  | enter i =>
      obtain ⟨_, h⟩ := Option.ite_none_right_eq_some.mp h
      obtain rfl := Option.some.inj h
      have hne : k ≠ s.created := Nat.ne_of_lt hk
      cases htask : s.task with
      | some j =>
          simp only [State.enter, State.ensureRunning, htask]
          exact ⟨hk, hc, rfl⟩
      | none =>
          simp only [State.enter, State.ensureRunning, htask, Function.update_of_ne hne]
          exact ⟨Nat.lt_succ_of_lt hk, hc, rfl⟩
  | leave i way =>
      obtain ⟨_, h⟩ := Option.ite_none_right_eq_some.mp h
      obtain rfl := Option.some.inj h
      by_cases hlast : s.subscribers - 1 = 0
      · cases htask : s.task with
        | none =>
            simp only [State.leave, hlast, if_true, State.stop, htask]
            exact ⟨hk, hc, rfl⟩
        | some j =>
            simp only [State.leave, hlast, if_true, State.stop, htask]
            refine ⟨hk, ?_, rfl⟩
            by_cases hkj : k = j
            · simp [hkj]
            · simpa only [Function.update_of_ne hkj] using hc
      · simp only [State.leave, if_neg hlast]
        exact ⟨hk, hc, rfl⟩
  | stopReturns i =>
      obtain ⟨_, _, _, _, rfl⟩ := stopReturns_spec h
      exact ⟨hk, hc, rfl⟩
  | next i =>
      obtain ⟨⟨reading, hub⟩, _, rfl⟩ := Option.map_eq_some_iff.mp h
      exact ⟨hk, hc, rfl⟩
  | resume j outcome now =>
      by_cases hkj : k = j
      · subst hkj
        obtain ⟨hmoved, _, hpublished⟩ := resume_cancelled h hc (hI.proper k)
        refine ⟨hmoved.created ▸ hk, hmoved.cancelled.trans hc, ?_⟩
        rw [State.publishedBy, State.publishedBy, hpublished]
      · have hmoved : Moved s s' j := by
          cases hcj : (s.loops j).cancelled with
          | false => exact (resume_running h hcj (hI.proper j)).1
          | true => exact (resume_cancelled h hcj (hI.proper j)).1
        rw [hmoved.created, hmoved.loops k hkj]
        exact ⟨hk, hc, hmoved.published k hkj⟩

/-- The invariant holds in every run. -/
theorem inv_reach {float : PyText.Str → Option V} {s s' : State ι V} (hI : Inv s)
    (hr : Transition.Reach (State.step float) Transition.Free s s') : Inv s' :=
  hr.invariant hI fun _ _ _ hI _ h => hI.step h

/-- **A task that has been cancelled publishes nothing any more.** -/
theorem reach_quiet {float : PyText.Str → Option V} {s s' : State ι V} {k : Nat} (hI : Inv s)
    (hk : k < s.created) (hc : (s.loops k).cancelled = true)
    (hr : Transition.Reach (State.step float) Transition.Free s s') :
    s'.publishedBy k = s.publishedBy k := by
  have hall : Inv s' ∧ k < s'.created ∧ (s'.loops k).cancelled = true ∧
      s'.publishedBy k = s.publishedBy k := by
    refine hr.invariant (I := fun x => Inv x ∧ k < x.created ∧ (x.loops k).cancelled = true ∧
      x.publishedBy k = s.publishedBy k) ⟨hI, hk, hc, rfl⟩ ?_
    rintro x a y ⟨hIx, hkx, hcx, hx⟩ _ h
    obtain ⟨hky, hcy, hy⟩ := step_quiet hIx hkx hcx h
    exact ⟨hIx.step h, hky, hcy, hy.trans hx⟩
  exact hall.2.2.2

/-- **On-demand polling is exact**, in every state a run reaches. -/
theorem polling_on_demand {float : PyText.Str → Option V} {s : State ι V}
    (hr : Transition.Reach (State.step float) Transition.Free State.init s) :
    (∃ inside : Finset ι, (∀ i, i ∈ inside ↔ s.viewer i = .inside) ∧
      s.subscribers = inside.card) ∧
    (s.task.isSome ↔ 0 < s.subscribers) ∧
    (∀ k, k < s.created → (s.loops k).cancelled = false →
      s.task = some k ∧ (s.loops k).stage ≠ .ended) ∧
    (∀ k, k < s.created → (s.loops k).cancelled = true → ∀ s',
      Transition.Reach (State.step float) Transition.Free s s' →
        s'.publishedBy k = s.publishedBy k) ∧
    (∀ i s', s.step float (.enter i) = some s' → ∃ k, s'.task = some k ∧
      (s'.loops k).cancelled = false ∧ (s'.loops k).stage ≠ .ended) ∧
    ∀ i k way, s.viewer i = .stopping k way → s.task ≠ some k ∧
      ∀ s', s.step float (.stopReturns i) = some s' →
        s'.task = s.task ∧ s'.loops = s.loops := by
  have hI : Inv s := inv_reach inv_init hr
  refine ⟨?_, hI.running, ?_, fun k hk hc s' hr' => reach_quiet hI hk hc hr', ?_, ?_⟩
  · obtain ⟨inside, hmem, hcard⟩ := hI.count
    exact ⟨inside, hmem, hcard.symm⟩
  · intro k hk hc
    refine ⟨?_, hI.alive k hc⟩
    by_contra hne
    rw [hI.past k hk hne] at hc
    cases hc
  · intro i s' h
    have hI' : Inv s' := hI.step h
    have hpos : 0 < s'.subscribers := by
      obtain ⟨inside, hmem, hcard⟩ := hI'.count
      have hi : s'.viewer i = .inside := by
        obtain ⟨_, h⟩ := Option.ite_none_right_eq_some.mp h
        obtain rfl := Option.some.inj h
        simp [State.enter]
      exact hcard ▸ Finset.card_pos.mpr ⟨i, (hmem i).mpr hi⟩
    obtain ⟨k, hk⟩ := Option.isSome_iff_exists.mp (hI'.running.mpr hpos)
    have hc := (hI'.current k hk).2
    exact ⟨k, hk, hc, hI'.alive k hc⟩
  · intro i k way hi
    refine ⟨(hI.stopping i k way hi).2, ?_⟩
    intro s' h
    obtain ⟨_, _, _, _, rfl⟩ := stopReturns_spec h
    exact ⟨rfl, rfl⟩

/-- A viewer arrives while the last one still waits for the task it has stopped. -/
def handover : List (Action Bool Nat) :=
  [.enter true, .resume 0 (fun _ => .error .valueError) 0, .leave true .byException,
    .enter false, .resume 1 (fun _ => .error .valueError) 0,
    .resume 0 (fun _ => .error .valueError) 0]

/-- The first task still ends for one viewer while the second polls for the other. -/
theorem polling_on_demand_handover :
    ∃ s : State Bool Nat, Transition.Reach (State.step fun _ => none) Transition.Free .init s ∧
      s.viewer true = .stopping 0 .byException ∧ s.task = some 1 ∧
      (s.loops 1).stage ≠ .ended := by
  have hrun : ∃ s : State Bool Nat,
      Transition.runWithin (State.step fun _ => none) Transition.Free .init handover = some s ∧
        s.viewer true = .stopping 0 .byException ∧ 1 < s.created ∧
        (s.loops 1).cancelled = false := ⟨_, rfl, rfl, by decide, rfl⟩
  obtain ⟨s, hs, hstop, hcreated, hc⟩ := hrun
  have hr := Transition.reach_of_runWithin hs
  have hall := polling_on_demand hr
  exact ⟨s, hr, hstop, hall.2.2.1 1 hcreated hc⟩

end Poller
