import XdmServer.AtMostOnce
import XdmServer.Poller
import XdmServer.Storage

/-! # The web application

    `create_app` puts the poller and the recorder on one broadcaster, and the recorder and the
    requests on one database.  Its `lifespan` connects the database and starts the recorder
    before anything is served, and afterwards stops the recorder and closes the database.

    A connection to `/ws/live` is a viewer of the poller; its endpoint waits for the next
    reading of its subscription, or in `send_json`.  That its client has gone it learns there,
    from the `WebSocketDisconnect` of a send. -/

namespace App

open Coroutine Device Driver
open Recorder (Holder)

variable {ι : Type}

/-- Where `lifespan` stands: before it, at its `yield`, in `recorder.stop`, and after it. -/
inductive Phase where
  | starting
  | serving
  | stopping
  | closed
  deriving DecidableEq

/-- A connection to `/ws/live`. -/
structure Client where
  /-- The client is not there any more. -/
  gone : Bool
  /-- What the endpoint is sending. -/
  sending : Option (Reading Rat)
  /-- What it has sent. -/
  sent : List (Reading Rat)
  /-- What was published while it was subscribed. -/
  heard : List (Reading Rat)

/-- The application: its parts, and what has become of each connection. -/
structure State (ι : Type) where
  phase : Phase
  poller : Poller.State (Holder ι) Rat
  recorder : Recorder.State ι (Reading Rat)
  /-- There is one broadcaster. -/
  shared : recorder.hub = poller.hub
  clients : ι → Client
  database : Storage.Database
  /-- The readings that requests have inserted. -/
  taken : List (Reading Rat)

/-- What may happen next in the application. -/
inductive Action (ι : Type) where
  /-- `lifespan` up to its `yield`. -/
  | startup
  /-- `lifespan` from its `finally` on, up to where `recorder.stop` waits for task `k`. -/
  | shutdown
  /-- The rest of it. -/
  | stopped (k : Nat)
  | connect (i : ι)
  | disconnect (i : ι)
  /-- The endpoint gets the next reading. -/
  | next (i : ι)
  /-- `send_json` returns. -/
  | sent (i : ι)
  /-- `send_json` raises `WebSocketDisconnect`. -/
  | broken (i : ι)
  /-- The endpoint is cancelled. -/
  | cancel (i : ι)
  | stopReturns (i : ι)
  /-- A step of the poller's task `k`. -/
  | poll (k : Nat) (outcome : (o : (Server Rat).Op) → Except Exc ((Server Rat).Res o)) (now : Rat)
  /-- A step of the recorder's task `k`.  If it was inserting, `stored` says whether the row
      reached the table. -/
  | record (k : Nat) (stored : Bool)
  /-- A request stores the reading it has taken. -/
  | insert (reading : Reading Rat)

/-- What a step of the poller publishes. -/
def emitted (p p' : Poller.State (Holder ι) Rat) : List (Reading Rat) :=
  (p'.published.drop p.published.length).map Prod.snd

variable [DecidableEq ι]

namespace State

/-- Before `lifespan`, with the database of a file that may be there already. -/
def init (file : Storage.Database) : State ι where
  phase := .starting
  poller := .init
  recorder := .init fun _ => Broadcast.defaultMaxsize
  shared := by
    have hsize : Holder.maxsize (fun _ : ι => Broadcast.defaultMaxsize)
        = fun _ => Broadcast.defaultMaxsize := by
      funext h
      cases h <;> rfl
    show Broadcast.State.init _ = Broadcast.State.init _
    rw [hsize]
  clients _ := ⟨false, none, [], []⟩
  database := file.close
  taken := []

/-- The poller has made a step, and everybody who is subscribed gets what it published. -/
def withPoller (s : State ι) (p : Poller.State (Holder ι) Rat) : State ι :=
  { s with
    poller := p
    recorder := { (emitted s.poller p).foldl Recorder.State.publish s.recorder with hub := p.hub }
    shared := rfl
    clients := fun i =>
      if s.poller.viewer (.other i) = .inside then
        { s.clients i with heard := (s.clients i).heard ++ emitted s.poller p }
      else s.clients i }

/-- The recorder has made a step. -/
def withRecorder (s : State ι) (r : Recorder.State ι (Reading Rat)) : State ι :=
  { s with recorder := r, poller := { s.poller with hub := r.hub }, shared := rfl }

/-- Another record for a connection. -/
def setClient (s : State ι) (i : ι) (client : Client) : State ι :=
  { s with clients := Function.update s.clients i client }

/-- What a connection is sending. -/
def setSending (s : State ι) (i : ι) (sending : Option (Reading Rat)) : State ι :=
  s.setClient i { s.clients i with sending := sending }

/-- The row that a step of the recorder's task `k` adds to the table. -/
def store (s : State ι) (k : Nat) (stored : Bool) : Option Storage.Database :=
  match (s.recorder.tasks k).stage, stored with
  | .inserting reading, true => (s.database.insertReading reading).toOption
  | _, _ => some s.database

/-- `lifespan`, up to its `yield`. -/
def startup (s : State ι) : State ι :=
  { s.withRecorder s.recorder.start with phase := .serving, database := s.database.connect }

/-- `recorder.stop()`. -/
def shutdown (s : State ι) : State ι :=
  { s.withRecorder s.recorder.stop with phase := .stopping }

/-- `database.close()`. -/
def stopped (s : State ι) (r : Recorder.State ι (Reading Rat)) : State ι :=
  { s.withRecorder r with phase := .closed, database := s.database.close }

/-- `__anext__` of the subscription of a connection that is not sending. -/
def next (s : State ι) (i : ι) : Option (State ι) :=
  if s.poller.viewer (.other i) = .inside ∧ (s.clients i).sending = none then
    (s.poller.hub.next (.other i)).map fun x =>
      (s.withPoller { s.poller with hub := x.2 }).setSending i (some x.1)
  else none

/-- `send_json` has sent the reading. -/
def sent (s : State ι) (i : ι) : Option (State ι) :=
  match (s.clients i).sending, (s.clients i).gone with
  | some reading, false => some (s.setClient i { s.clients i with
      sending := none, sent := (s.clients i).sent ++ [reading] })
  | _, _ => none

/-- The endpoint leaves `poller.subscribe()`. -/
def leave (float : PyText.Str → Option Rat) (s : State ι) (i : ι) (way : Poller.Way) :
    Option (State ι) :=
  (s.poller.step float (.leave (.other i) way)).map fun p =>
    (s.withPoller p).setSending i none

/-- One step; `none` where it cannot be. -/
def step (float : PyText.Str → Option Rat) (s : State ι) : Action ι → Option (State ι)
  | .startup => if s.phase = .starting then some s.startup else none
  | .shutdown => if s.phase = .serving then some s.shutdown else none
  | .stopped k =>
      if s.phase = .stopping then (s.recorder.stopReturns k).map s.stopped else none
  | .connect i =>
      if s.phase = .serving then
        (s.poller.step float (.enter (.other i))).map s.withPoller
      else none
  | .disconnect i => some (s.setClient i { s.clients i with gone := true })
  | .next i => s.next i
  | .sent i => s.sent i
  -- a send to a client that has gone
  | .broken i =>
      if (s.clients i).sending.isSome ∧ (s.clients i).gone then s.leave float i .byException
      else none
  | .cancel i => s.leave float i .byCancellation
  | .stopReturns i => (s.poller.step float (.stopReturns (.other i))).map s.withPoller
  | .poll k outcome now => (s.poller.step float (.resume k outcome now)).map s.withPoller
  | .record k stored =>
      (s.recorder.resume k stored).bind fun r =>
        (s.store k stored).map fun database => { s.withRecorder r with database := database }
  | .insert reading =>
      if s.phase = .serving then
        (s.database.insertReading reading).toOption.map fun database =>
          { s with database := database, taken := s.taken ++ [reading] }
      else none

end State

/-- The states of all runs that begin with the database of this file. -/
abbrev Reachable (float : PyText.Str → Option Rat) (file : Storage.Database) (s : State ι) : Prop :=
  Transition.Reach (State.step float) Transition.Free (State.init file) s

/-! ## Steps of the poller -/

/-- A viewer's step: its own place and its own subscription change. -/
structure Visited (p p' : Poller.State (Holder ι) Rat) (i : ι) (v : Recorder.Visit) : Prop where
  published : p'.published = p.published
  hub : p.hub.step (v.event i) = some p'.hub
  viewer : ∀ h, h ≠ .other i → p'.viewer h = p.viewer h
  inside : p'.viewer (.other i) = .inside ↔ v ≠ .exit
  entered : p'.viewer (.other i) ≠ .outside

/-- Entering is one event of the hub. -/
theorem visited_enter (p : Poller.State (Holder ι) Rat) (i : ι) :
    Visited p (p.enter (.other i)) i .enter := by
  have hviewer : (p.enter (.other i)).viewer = Function.update p.viewer (.other i) .inside := by
    cases htask : p.task <;> simp [Poller.State.enter, Poller.State.ensureRunning, htask]
  constructor
  · cases htask : p.task <;> simp [Poller.State.enter, Poller.State.ensureRunning, htask]
  · cases htask : p.task <;> simp [Poller.State.enter, Poller.State.ensureRunning, htask] <;> rfl
  · intro h hne
    rw [hviewer, Function.update_of_ne hne]
  · rw [hviewer, Function.update_self]
    simp
  · rw [hviewer, Function.update_self]
    simp

theorem visited_leave (p : Poller.State (Holder ι) Rat) (i : ι) (way : Poller.Way) :
    Visited p (p.leave (.other i) way) i .exit := by
  have hleave : ∃ v, v ≠ Poller.Viewer.inside ∧ v ≠ Poller.Viewer.outside ∧
      (p.leave (.other i) way).viewer = Function.update p.viewer (.other i) v ∧
      (p.leave (.other i) way).published = p.published ∧
      (p.leave (.other i) way).hub = p.hub.exit (.other i) := by
    by_cases hlast : p.subscribers - 1 = 0
    · cases htask : p.task with
      | none =>
          refine ⟨.left way, by simp, by simp, ?_⟩
          simp [Poller.State.leave, hlast, Poller.State.stop, htask]
      | some k =>
          refine ⟨.stopping k way, by simp, by simp, ?_⟩
          simp [Poller.State.leave, hlast, Poller.State.stop, htask]
    · refine ⟨.left way, by simp, by simp, ?_⟩
      simp [Poller.State.leave, hlast]
  obtain ⟨v, hv, hout, hviewer, hpublished, hhub⟩ := hleave
  refine ⟨hpublished, ?_, ?_, ?_, ?_⟩
  · rw [hhub]
    rfl
  · intro h hne
    rw [hviewer, Function.update_of_ne hne]
  · rw [hviewer, Function.update_self]
    simp [hv]
  · rw [hviewer, Function.update_self]
    exact hout

/-- A step of a poller's task: it publishes, and that is all that others see of it. -/
structure Published (p p' : Poller.State (Holder ι) Rat) : Prop where
  published : p'.published.map Prod.snd = p.published.map Prod.snd ++ emitted p p'
  hub : p'.hub = (emitted p p').foldl Broadcast.State.publish p.hub
  viewer : p'.viewer = p.viewer

/-- A task that only moves on publishes nothing. -/
theorem published_setStage (p : Poller.State (Holder ι) Rat) (k : Nat)
    (stage : Poller.Stage Rat) : Published p (p.setStage k stage) := by
  have hnone : emitted p (p.setStage k stage) = [] := by
    simp [emitted, Poller.State.setStage]
  refine ⟨?_, ?_, rfl⟩
  · rw [hnone, List.append_nil]
    rfl
  · rw [hnone]
    rfl

/-- A poll that begins has not published yet. -/
theorem published_poll (p : Poller.State (Holder ι) Rat) (k : Nat) (now : Rat)
    (q : Coro (Server Rat) Exc (Reading Rat)) : Published p (p.poll k now q) := by
  have hemitted : emitted p (p.poll k now q) = (q.segment (Poller.immediate now)).1 := by
    simp [emitted, Poller.State.poll, Function.comp_def]
  refine ⟨?_, ?_, rfl⟩
  · rw [hemitted]
    simp [Poller.State.poll, Function.comp_def]
  · rw [hemitted]
    rfl

/-- A step of a polling task publishes one reading at most, and the hub has it. -/
theorem published_resume {float : PyText.Str → Option Rat} {p p' : Poller.State (Holder ι) Rat}
    {k : Nat} {outcome : (o : (Server Rat).Op) → Except Exc ((Server Rat).Res o)} {now : Rat}
    (h : p.resume float k outcome now = some p') : Published p p' := by
  obtain ⟨-, h⟩ := Option.ite_none_right_eq_some.mp h
  cases hc : (p.loops k).cancelled with
  | false =>
      rw [hc] at h
      cases hstage : (p.loops k).stage with
      | scheduled =>
          simp only [hstage, Option.some.injEq] at h
          subst h
          exact published_poll p k now _
      | sleeping =>
          simp only [hstage, Option.some.injEq] at h
          subst h
          exact published_poll p k now _
      | polling o rest =>
          simp only [hstage] at h
          split at h
          · cases h
          · obtain rfl := Option.some.inj h
            exact published_poll p k now _
      | ended => exact absurd h (by simp [hstage])
  | true =>
      rw [hc] at h
      cases hstage : (p.loops k).stage with
      | scheduled =>
          simp only [hstage, Option.some.injEq] at h
          subst h
          exact published_setStage p k .ended
      | sleeping =>
          simp only [hstage, Option.some.injEq] at h
          subst h
          exact published_setStage p k .ended
      | polling o rest =>
          simp only [hstage, Option.some.injEq] at h
          subst h
          exact published_poll p k now _
      | ended => exact absurd h (by simp [hstage])

omit [DecidableEq ι] in
theorem emitted_nil {p p' : Poller.State (Holder ι) Rat} (h : p'.published = p.published) :
    emitted p p' = [] := by
  rw [emitted, h, List.drop_length]
  rfl

/-- Nobody hears anything of a step that publishes nothing. -/
theorem clients_withPoller {s : State ι} {p : Poller.State (Holder ι) Rat}
    (h : emitted s.poller p = []) : (s.withPoller p).clients = s.clients := by
  funext i
  simp [State.withPoller, h]

/-! ## A meter -/

/-- What a meter at three volts answers. -/
def threeVolts : (o : (Server Rat).Op) → Except Exc ((Server Rat).Res o)
  | .inl (.query command _) =>
      .ok (if command = Commands.MEASURE then "3".toList else "\"VOLT\"".toList)
  | .inl (.write _ _) => .ok ()
  | .inr _ => .error .valueError

/-- Three volts, and nothing else, are a number. -/
def three (text : PyText.Str) : Option Rat := if text = "3".toList then some 3 else none

end App
