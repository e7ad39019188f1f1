import XdmServer.App

/-! # The recorder in the application

    `lifespan` runs one task of the recorder, from `recorder.start` to the end of
    `recorder.stop`, between `database.connect` and `database.close`.  What the task stores was
    published by the poller; what else is in the table, requests have inserted. -/

namespace App

open Coroutine Device Driver
open Recorder (Holder)

variable {ι : Type} [DecidableEq ι]

/-! ## The invariant -/

/-- The task has entered `async with broadcaster.subscribe()` and not left it. -/
def Listening : Recorder.Stage (Reading Rat) → Prop
  | .getting | .inserting _ => True
  | .scheduled | .ended => False

/-- What every step keeps of the recorder, with the phase of `lifespan`, with whether the
    database is connected and with what the poller has published. -/
structure Recording (r : Recorder.State ι (Reading Rat)) (phase : Phase) (connected : Bool)
    (published : List (Reading Rat)) : Prop where
  owed : AtMostOnce.Owed r
  listening : ∀ k, r.Registered k ↔ Listening (r.tasks k).stage
  covered : (r.covered.map Prod.snd).Sublist published
  /-- There is one task, ever. -/
  created : r.created = if phase = .starting then 0 else 1
  task : r.task = if phase = .serving then some 0 else none
  stopping : r.stopping = if phase = .stopping then [0] else []
  connected : connected = decide (phase = .serving ∨ phase = .stopping)
  ended : phase = .closed → (r.tasks 0).stage = .ended
  rows : ∀ entry ∈ r.rows, entry.1 = 0

/-- The recorder, its phase and its database. -/
def State.Records (s : State ι) : Prop :=
  Recording s.recorder s.phase s.database.connected (s.poller.published.map Prod.snd)

omit [DecidableEq ι] in
/-- At the start the recorder has stored nothing. -/
theorem records_init (file : Storage.Database) : (State.init file : State ι).Records where
  owed := AtMostOnce.owed_init _
  listening k := by
    simp [State.init, Recorder.State.init, Recorder.State.Registered, Broadcast.State.init,
      Listening]
  covered := List.nil_sublist _
  created := rfl
  task := rfl
  stopping := rfl
  connected := rfl
  ended h := by cases h
  rows := by simp [State.init, Recorder.State.init]

/-- What publications do to the recorder. -/
structure Fed (r r' : Recorder.State ι (Reading Rat)) (readings : List (Reading Rat)) : Prop where
  hub : r'.hub = readings.foldl Broadcast.State.publish r.hub
  task : r'.task = r.task
  created : r'.created = r.created
  tasks : r'.tasks = r.tasks
  rows : r'.rows = r.rows
  stopping : r'.stopping = r.stopping
  covered : ∀ published, (r.covered.map Prod.snd).Sublist published →
    (r'.covered.map Prod.snd).Sublist (published ++ readings)
  owed : AtMostOnce.Owed r → AtMostOnce.Owed r'

/-- Readings that are published are fed to the recorder, one after the other. -/
theorem fed_foldl (readings : List (Reading Rat)) (r : Recorder.State ι (Reading Rat)) :
    Fed r (readings.foldl Recorder.State.publish r) readings := by
  induction readings generalizing r with
  | nil => exact ⟨rfl, rfl, rfl, rfl, rfl, rfl, fun _ h => by simpa using h, id⟩
  | cons reading readings ih =>
      obtain ⟨hhub, htask, hcreated, htasks, hrows, hstopping, hcovered, howed⟩ :=
        ih (r.publish reading)
      refine ⟨hhub, htask, hcreated, htasks, hrows, hstopping, ?_, ?_⟩
      · intro published h
        have hone : ((r.publish reading).covered.map Prod.snd).Sublist
            (published ++ [reading]) := by
          cases hrunning : r.task with
          | none =>
              simp only [Recorder.State.publish, hrunning]
              exact h.trans (List.sublist_append_left _ _)
          | some k =>
              simp only [Recorder.State.publish, hrunning, List.map_append]
              exact h.append (.refl _)
        have hall := hcovered _ hone
        rwa [List.append_assoc] at hall
      · exact fun h => howed (h.publish reading)

omit [DecidableEq ι] in
theorem with_hub {r : Recorder.State ι (Reading Rat)}
    {hub : Broadcast.State (Holder ι) (Reading Rat)} (h : r.hub = hub) :
    { r with hub := hub } = r := by
  subst h
  rfl

/-- **What the poller publishes**, the recorder is given. -/
theorem Records.published {s : State ι} {p : Poller.State (Holder ι) Rat} (h : s.Records)
    (hp : Published s.poller p) : (s.withPoller p).Records := by
  have hfed := fed_foldl (emitted s.poller p) s.recorder
  have hsame : (s.withPoller p).recorder
      = (emitted s.poller p).foldl Recorder.State.publish s.recorder := by
    refine with_hub ?_
    rw [hfed.hub, s.shared, hp.hub]
  have hregistered : ∀ k, ((emitted s.poller p).foldl Recorder.State.publish
      s.recorder).Registered k ↔ s.recorder.Registered k := by
    intro k
    rw [Recorder.State.Registered, hfed.hub, Broadcast.foldl_publish_broadcaster]
    rfl
  show Recording (s.withPoller p).recorder s.phase s.database.connected _
  rw [hsame]
  constructor
  · exact hfed.owed h.owed
  · intro k
    rw [hregistered, hfed.tasks]
    exact h.listening k
  · show (List.map Prod.snd _).Sublist (p.published.map Prod.snd)
    rw [hp.published]
    exact hfed.covered _ h.covered
  · exact hfed.created.trans h.created
  · exact hfed.task.trans h.task
  · exact hfed.stopping.trans h.stopping
  · exact h.connected
  · rw [hfed.tasks]
    exact h.ended
  · rw [hfed.rows]
    exact h.rows

/-- A step that publishes nothing. -/
theorem recorder_withPoller {s : State ι} {p : Poller.State (Holder ι) Rat}
    (h : p.published = s.poller.published) :
    (s.withPoller p).recorder = { s.recorder with hub := p.hub } := by
  simp only [State.withPoller, emitted_nil h, List.foldl_nil]

/-- A step of another subscription of the broadcaster. -/
theorem Records.visit {s : State ι} {p : Poller.State (Holder ι) Rat} {i : ι}
    {v : Recorder.Visit} (h : s.Records) (hpublished : p.published = s.poller.published)
    (hhub : s.poller.hub.step (v.event i) = some p.hub) : (s.withPoller p).Records := by
  have hsame := recorder_withPoller hpublished
  have hstep : s.recorder.hub.step (v.event i) = some p.hub := by
    rw [s.shared]
    exact hhub
  have hother : ∀ k : Nat, p.hub.reader (.task k) = s.recorder.hub.reader (.task k) := by
    intro k
    refine Broadcast.step_other hstep ?_
    cases v <;> simp [Recorder.Visit.event, Broadcast.Event.own]
  show Recording (s.withPoller p).recorder s.phase s.database.connected (p.published.map Prod.snd)
  rw [hsame, hpublished]
  refine ⟨h.owed.visit hstep, ?_, h.covered, h.created, h.task, h.stopping, h.connected,
    h.ended, h.rows⟩
  intro k
  refine Iff.trans ?_ (h.listening k)
  exact decide_eq_decide.mp (congrArg Channel.Reader.registered (hother k))

/-! ## Steps of the recorder's task -/

/-- A task that has got as far as its queue stays subscribed. -/
theorem get_listening (r : Recorder.State ι (Reading Rat)) (k : Nat) :
    Listening ((r.get k).tasks k).stage ∧ ((r.get k).Registered k ↔ r.Registered k) := by
  cases hnext : r.hub.next (.task k) with
  | none =>
      simp only [Recorder.State.get, hnext]
      refine ⟨?_, Iff.rfl⟩
      simp [Recorder.State.setStage, Listening]
  | some y =>
      obtain ⟨reading, hub⟩ := y
      obtain ⟨-, hbroadcaster, -⟩ := Broadcast.next_eq_some hnext
      simp only [Recorder.State.get, hnext]
      refine ⟨?_, ?_⟩
      · simp [Recorder.State.setStage, Listening]
      · simp only [Recorder.State.Registered, Recorder.State.setStage, hbroadcaster]

/-- **The task is subscribed** from its first step to its end. -/
theorem resume_listening {r r' : Recorder.State ι (Reading Rat)} {k : Nat} {stored : Bool}
    (h : r.resume k stored = some r') (hl : r.Registered k ↔ Listening (r.tasks k).stage) :
    r'.Registered k ↔ Listening (r'.tasks k).stage := by
  have hget : ∀ x : Recorder.State ι (Reading Rat), x.Registered k →
      ((x.get k).Registered k ↔ Listening ((x.get k).tasks k).stage) := by
    intro x hx
    obtain ⟨hstage, hregistered⟩ := get_listening x k
    exact iff_of_true (hregistered.mpr hx) hstage
  have hleave : ∀ x : Recorder.State ι (Reading Rat),
      ¬ ((x.leave k).setStage k .ended).Registered k := by
    intro x
    simp [Recorder.State.leave, Recorder.State.setStage, Recorder.State.Registered,
      Broadcast.State.exit]
  have hended : ∀ x : Recorder.State ι (Reading Rat),
      ¬ Listening ((x.setStage k .ended).tasks k).stage := by
    intro x
    simp [Recorder.State.setStage, Listening]
  cases AtMostOnce.resumed h with
  | entered =>
      refine hget _ ?_
      simp [Recorder.State.enter, Recorder.State.Registered, Broadcast.State.enter]
  | took _ hstage =>
      rw [hstage] at hl
      exact hget _ (hl.mpr trivial)
  | inserted _ hstage =>
      rw [hstage] at hl
      refine hget _ ?_
      rw [Recorder.State.Registered, AtMostOnce.hub_insert]
      exact hl.mpr trivial
  | unstarted _ hstage =>
      rw [hstage] at hl
      exact iff_of_false hl.mp (hended _)
  | left => exact iff_of_false (hleave _) (hended _)
  | interrupted => exact iff_of_false (hleave _) (hended _)

/-- The row that a step of task `k` adds. -/
def rowOf (r : Recorder.State ι (Reading Rat)) (k : Nat) (stored : Bool) :
    List (Nat × Reading Rat) :=
  match (r.tasks k).stage, stored with
  | .inserting reading, true => [(k, reading)]
  | _, _ => []

/-- A step of the recorder's task stores a row at most. -/
theorem resume_rows {r r' : Recorder.State ι (Reading Rat)} {k : Nat} {stored : Bool}
    (h : r.resume k stored = some r') : r'.rows = r.rows ++ rowOf r k stored := by
  have hget : ∀ x : Recorder.State ι (Reading Rat), (x.get k).rows = x.rows := fun x =>
    (Recorder.get_spec x k).2.1
  have hinsert : ∀ reading, (r.tasks k).stage = .inserting reading →
      (r.insert k reading stored).rows = r.rows ++ rowOf r k stored := by
    intro reading hstage
    cases stored with
    | false => simp [Recorder.State.insert, rowOf, hstage]
    | true => simp [Recorder.State.insert, rowOf, hstage]
  have hnone : (r.tasks k).stage = .scheduled ∨ (r.tasks k).stage = .getting →
      r.rows = r.rows ++ rowOf r k stored := by
    rintro (hstage | hstage) <;> simp [rowOf, hstage]
  cases AtMostOnce.resumed h with
  | entered _ hstage => exact (hget _).trans (hnone (.inl hstage))
  | took _ hstage => exact (hget _).trans (hnone (.inr hstage))
  | inserted _ hstage => exact (hget _).trans (hinsert _ hstage)
  | unstarted _ hstage => exact hnone (.inl hstage)
  | left _ hstage => exact hnone (.inr hstage)
  | interrupted _ hstage => exact hinsert _ hstage

/-- **A step of the task.** -/
theorem Recording.resume {r r' : Recorder.State ι (Reading Rat)} {phase : Phase}
    {connected : Bool} {published : List (Reading Rat)} {k : Nat} {stored : Bool}
    (h : Recording r phase connected published) (hr : r.resume k stored = some r') :
    Recording r' phase connected published := by
  have hlt : k < r.created := (Option.ite_none_right_eq_some.mp hr).1
  obtain rfl : k = 0 := by
    have hcreated := h.created
    split at hcreated <;> omega
  have hmoved := (AtMostOnce.resume_stored hr).moved
  constructor
  · exact h.owed.resume hr
  · intro j
    by_cases hj : j = 0
    · subst hj
      exact resume_listening hr (h.listening 0)
    · rw [hmoved.registered j hj, hmoved.tasks j hj]
      exact h.listening j
  · rw [hmoved.covered]
    exact h.covered
  · exact hmoved.created.trans h.created
  · exact hmoved.task.trans h.task
  · exact hmoved.stopping.trans h.stopping
  · exact h.connected
  · -- a task that has ended takes no step
    intro hclosed
    have hstage := h.ended hclosed
    obtain ⟨-, hr⟩ := Option.ite_none_right_eq_some.mp hr
    cases hc : (r.tasks 0).cancelled <;> simp [hstage, hc] at hr
  · intro entry hentry
    rw [resume_rows hr] at hentry
    rcases List.mem_append.mp hentry with hentry | hentry
    · exact h.rows entry hentry
    · unfold rowOf at hentry
      split at hentry
      · rw [List.mem_singleton.mp hentry]
      · exact absurd hentry List.not_mem_nil

/-! ## Every step -/

omit [DecidableEq ι] in
/-- Starting keeps the table and the recorder in step. -/
theorem Records.startup {s : State ι} (h : s.Records) (hphase : s.phase = .starting) :
    s.startup.Records := by
  have htask : s.recorder.task = none := h.task.trans (if_neg (by simp [hphase]))
  have hcreated : s.recorder.created = 0 := h.created.trans (if_pos hphase)
  have howed := h.owed.start
  have hstart : s.startup.recorder = { s.recorder with
      task := some 0
      created := 1
      tasks := Function.update s.recorder.tasks 0 ⟨.scheduled, false⟩ } := by
    simp only [State.startup, State.withRecorder, Recorder.State.start, htask, hcreated]
  show Recording s.startup.recorder .serving true _
  rw [hstart]
  refine ⟨?_, ?_, h.covered, rfl, rfl, ?_, rfl, ?_, h.rows⟩
  · simpa only [Recorder.State.start, htask, hcreated] using howed
  · intro k
    by_cases hk : k = 0
    · subst hk
      have hregistered := (h.owed.future 0 (by omega)).2
      simp only [Function.update_self]
      exact iff_of_false hregistered id
    · simp only [Function.update_of_ne hk]
      exact h.listening k
  · exact h.stopping.trans (if_neg (by simp [hphase]))
  · intro hclosed
    cases hclosed

omit [DecidableEq ι] in
theorem Records.shutdown {s : State ι} (h : s.Records) (hphase : s.phase = .serving) :
    s.shutdown.Records := by
  have htask : s.recorder.task = some 0 := h.task.trans (if_pos hphase)
  have hstopping : s.recorder.stopping = [] := h.stopping.trans (if_neg (by simp [hphase]))
  have hstop : s.shutdown.recorder = { s.recorder with
      task := none
      tasks := Function.update s.recorder.tasks 0 { s.recorder.tasks 0 with cancelled := true }
      stopping := [0] } := by
    simp only [State.shutdown, State.withRecorder, Recorder.State.stop, htask, hstopping]
  have howed := h.owed.stop
  have hcreated : s.recorder.created = 1 := h.created.trans (if_neg (by simp [hphase]))
  have hconnected : s.database.connected = true := by
    rw [h.connected, hphase]
    rfl
  show Recording s.shutdown.recorder .stopping s.database.connected _
  rw [hstop]
  refine ⟨?_, ?_, h.covered, hcreated, rfl, rfl, hconnected, ?_, h.rows⟩
  · simpa only [Recorder.State.stop, htask, hstopping] using howed
  · intro k
    by_cases hk : k = 0
    · subst hk
      simp only [Function.update_self]
      exact h.listening 0
    · simp only [Function.update_of_ne hk]
      exact h.listening k
  · intro hclosed
    cases hclosed

theorem Records.stopped {s : State ι} {r : Recorder.State ι (Reading Rat)} {k : Nat}
    (h : s.Records) (hphase : s.phase = .stopping) (hr : s.recorder.stopReturns k = some r) :
    (s.stopped r).Records := by
  have hstopping : s.recorder.stopping = [0] := h.stopping.trans (if_pos hphase)
  have hcreated : s.recorder.created = 1 := h.created.trans (if_neg (by simp [hphase]))
  have htask : s.recorder.task = none := h.task.trans (if_neg (by simp [hphase]))
  have howed : AtMostOnce.Owed r := h.owed.step (a := .stopReturns k) hr
  simp only [Recorder.State.stopReturns] at hr
  split at hr
  · next hstage =>
      obtain ⟨hk, hr⟩ := Option.ite_none_right_eq_some.mp hr
      rw [hstopping] at hk
      obtain rfl := List.mem_singleton.mp hk
      obtain rfl := Option.some.inj hr
      refine ⟨howed, h.listening, h.covered, hcreated, htask, ?_, rfl, fun _ => hstage, h.rows⟩
      show s.recorder.stopping.erase 0 = []
      rw [hstopping]
      rfl
  · cases hr

/-- A connection ends. -/
theorem Records.leave {float : PyText.Str → Option Rat} {s s' : State ι} {i : ι}
    {way : Poller.Way} (h : s.Records) (hs : s.leave float i way = some s') : s'.Records := by
  obtain ⟨p, hp, rfl⟩ := Option.map_eq_some_iff.mp hs
  obtain ⟨-, hp⟩ := Option.ite_none_right_eq_some.mp hp
  obtain rfl := Option.some.inj hp
  have hvisited := visited_leave s.poller i way
  exact Records.visit h hvisited.published hvisited.hub

/-- A viewer has waited for the end of a task of the poller. -/
theorem Records.stopReturns {s : State ι} {p : Poller.State (Holder ι) Rat} {i : Holder ι}
    (h : s.Records) (hp : s.poller.stopReturns i = some p) : (s.withPoller p).Records := by
  obtain ⟨_, _, -, -, hp⟩ := Poller.stopReturns_spec hp
  have hhub : p.hub = s.poller.hub := by rw [hp]
  have hpublished : p.published = s.poller.published := by rw [hp]
  have hsame : (s.withPoller p).recorder = s.recorder := by
    rw [recorder_withPoller hpublished]
    exact with_hub (s.shared.trans hhub.symm)
  show Recording (s.withPoller p).recorder s.phase s.database.connected (p.published.map Prod.snd)
  rw [hsame, hpublished]
  exact h

omit [DecidableEq ι] in
/-- **An insert that returns** has found a connection, and added its reading. -/
theorem insertReading_ok {d d' : Storage.Database} {reading : Reading Rat}
    (h : (d.insertReading reading).toOption = some d') : d.connected = true ∧
      d'.connected = true ∧ d'.readings = d.readings ++ [reading] := by
  cases hconnected : d.connected with
  | false =>
      have hraises : d.insertReading reading = .error (.runtimeError
          "Database is not connected".toList) := by
        simp only [Storage.Database.insertReading, Storage.Database.db, hconnected]
        rfl
      rw [hraises] at h
      cases h
  | true =>
      obtain ⟨d'', hinsert, hconnected', hreadings⟩ :=
        Storage.Database.insertReading_eq hconnected reading
      rw [hinsert] at h
      obtain rfl := Option.some.inj h
      exact ⟨rfl, hconnected', hreadings⟩

omit [DecidableEq ι] in
/-- What a step of the recorder's task adds to the table. -/
theorem store_eq {s : State ι} {k : Nat} {stored : Bool} {d : Storage.Database}
    (h : s.store k stored = some d) : d.connected = s.database.connected ∧
      d.readings = s.database.readings ++ (rowOf s.recorder k stored).map Prod.snd := by
  have hother : rowOf s.recorder k stored = [] → s.store k stored = some s.database →
      d.connected = s.database.connected ∧
        d.readings = s.database.readings ++ (rowOf s.recorder k stored).map Prod.snd := by
    intro hnone hsame
    obtain rfl := Option.some.inj (hsame.symm.trans h)
    rw [hnone]
    exact ⟨rfl, (List.append_nil _).symm⟩
  cases hstage : (s.recorder.tasks k).stage with
  | scheduled => exact hother (by simp [rowOf, hstage]) (by simp [State.store, hstage])
  | getting => exact hother (by simp [rowOf, hstage]) (by simp [State.store, hstage])
  | ended => exact hother (by simp [rowOf, hstage]) (by simp [State.store, hstage])
  | inserting reading =>
      cases stored with
      | false => exact hother (by simp [rowOf, hstage]) (by simp [State.store, hstage])
      | true =>
          simp only [State.store, hstage] at h
          obtain ⟨hbefore, hafter, hreadings⟩ := insertReading_ok h
          refine ⟨hafter.trans hbefore.symm, ?_⟩
          simp only [hreadings, rowOf, hstage]
          rfl

/-- **Every step keeps what is true of the recorder.** -/
theorem Records.step {float : PyText.Str → Option Rat} {s s' : State ι} {a : Action ι}
    (h : s.Records) (hs : s.step float a = some s') : s'.Records := by
  cases a with
  | startup =>
      obtain ⟨hphase, hs⟩ := Option.ite_none_right_eq_some.mp hs
      exact Option.some.inj hs ▸ Records.startup h hphase
  | shutdown =>
      obtain ⟨hphase, hs⟩ := Option.ite_none_right_eq_some.mp hs
      exact Option.some.inj hs ▸ Records.shutdown h hphase
  | stopped k =>
      obtain ⟨hphase, hs⟩ := Option.ite_none_right_eq_some.mp hs
      obtain ⟨r, hr, rfl⟩ := Option.map_eq_some_iff.mp hs
      exact Records.stopped h hphase hr
  | connect i =>
      obtain ⟨-, hs⟩ := Option.ite_none_right_eq_some.mp hs
      obtain ⟨p, hp, rfl⟩ := Option.map_eq_some_iff.mp hs
      obtain ⟨-, hp⟩ := Option.ite_none_right_eq_some.mp hp
      obtain rfl := Option.some.inj hp
      have hvisited := visited_enter s.poller i
      exact Records.visit h hvisited.published hvisited.hub
  | disconnect i => exact Option.some.inj hs ▸ h
  | next i =>
      obtain ⟨-, hs⟩ := Option.ite_none_right_eq_some.mp hs
      obtain ⟨⟨reading, hub⟩, hnext, rfl⟩ := Option.map_eq_some_iff.mp hs
      have hstep : s.poller.hub.step (Recorder.Visit.next.event i) = some hub := by
        show (s.poller.hub.next (.other i)).map Prod.snd = some hub
        rw [hnext]
        rfl
      exact Records.visit (p := { s.poller with hub := hub }) h rfl hstep
  | sent i =>
      simp only [State.step, State.sent] at hs
      split at hs
      · exact Option.some.inj hs ▸ h
      · cases hs
  | broken i =>
      obtain ⟨-, hs⟩ := Option.ite_none_right_eq_some.mp hs
      exact Records.leave h hs
  | cancel i => exact Records.leave h hs
  | stopReturns i =>
      obtain ⟨p, hp, rfl⟩ := Option.map_eq_some_iff.mp hs
      exact Records.stopReturns h hp
  | poll k outcome now =>
      obtain ⟨p, hp, rfl⟩ := Option.map_eq_some_iff.mp hs
      exact Records.published h (published_resume hp)
  | record k stored =>
      obtain ⟨r, hr, hs⟩ := Option.bind_eq_some_iff.mp hs
      obtain ⟨database, hdatabase, rfl⟩ := Option.map_eq_some_iff.mp hs
      show Recording r s.phase database.connected (s.poller.published.map Prod.snd)
      rw [(store_eq hdatabase).1]
      exact Recording.resume h hr
  | insert reading =>
      obtain ⟨-, hs⟩ := Option.ite_none_right_eq_some.mp hs
      obtain ⟨database, hdatabase, rfl⟩ := Option.map_eq_some_iff.mp hs
      obtain ⟨hbefore, hafter, -⟩ := insertReading_ok hdatabase
      show Recording s.recorder s.phase database.connected (s.poller.published.map Prod.snd)
      rw [hafter, ← hbefore]
      exact h

/-! ## The table -/

/-- Two lists interleaved, each in its own order. -/
inductive Interleaves {α : Type} : List α → List α → List α → Prop
  | nil : Interleaves [] [] []
  | left {l₁ l₂ l : List α} (a : α) :
      Interleaves l₁ l₂ l → Interleaves (l₁ ++ [a]) l₂ (l ++ [a])
  | right {l₁ l₂ l : List α} (a : α) :
      Interleaves l₁ l₂ l → Interleaves l₁ (l₂ ++ [a]) (l ++ [a])

/-- More may come at the end of the first list. -/
theorem Interleaves.append {α : Type} {l₁ l₂ l : List α} (h : Interleaves l₁ l₂ l)
    (more : List α) : Interleaves (l₁ ++ more) l₂ (l ++ more) := by
  induction more generalizing l₁ l with
  | nil =>
      rw [List.append_nil, List.append_nil]
      exact h
  | cons a more ih =>
      have hrest := ih (h.left a)
      rwa [List.append_assoc, List.append_assoc] at hrest

/-- Behind the readings of the file, the table has those of the recorder's rows and those that
    requests have inserted, interleaved. -/
def Kept (file : Storage.Database) (s : State ι) : Prop :=
  ∃ readings, s.database.readings = file.readings ++ readings ∧
    Interleaves (s.recorder.rows.map Prod.snd) s.taken readings

omit [DecidableEq ι] in
/-- The recorder stores. -/
theorem Kept.record {file : Storage.Database} {s s' : State ι} {rows : List (Nat × Reading Rat)}
    (h : Kept file s) (hrows : s'.recorder.rows = s.recorder.rows ++ rows)
    (htaken : s'.taken = s.taken)
    (hreadings : s'.database.readings = s.database.readings ++ rows.map Prod.snd) :
    Kept file s' := by
  obtain ⟨readings, hall, hmerged⟩ := h
  refine ⟨readings ++ rows.map Prod.snd, ?_, ?_⟩
  · rw [hreadings, hall, List.append_assoc]
  · rw [hrows, htaken, List.map_append]
    exact hmerged.append _

omit [DecidableEq ι] in
/-- Neither the table nor the recorder's rows have changed. -/
theorem Kept.same {file : Storage.Database} {s s' : State ι} (h : Kept file s)
    (hrows : s'.recorder.rows = s.recorder.rows) (htaken : s'.taken = s.taken)
    (hreadings : s'.database.readings = s.database.readings) : Kept file s' := by
  have hsame : s'.recorder.rows = s.recorder.rows ++ [] := hrows.trans (List.append_nil _).symm
  exact h.record hsame htaken (hreadings.trans (List.append_nil _).symm)

/-- The poller has made a step. -/
theorem Kept.withPoller {file : Storage.Database} {s : State ι} (h : Kept file s)
    (p : Poller.State (Holder ι) Rat) : Kept file (s.withPoller p) :=
  h.same (fed_foldl (emitted s.poller p) s.recorder).rows rfl rfl

/-- **Every step** keeps the account of the table. -/
theorem Kept.step {float : PyText.Str → Option Rat} {file : Storage.Database} {s s' : State ι}
    {a : Action ι} (h : Kept file s) (hs : s.step float a = some s') : Kept file s' := by
  have hleave : ∀ {i : ι} {way : Poller.Way}, s.leave float i way = some s' →
      Kept file s' := by
    intro i way hs
    obtain ⟨p, -, rfl⟩ := Option.map_eq_some_iff.mp hs
    exact (h.withPoller p).same rfl rfl rfl
  cases a with
  | startup =>
      obtain ⟨-, hs⟩ := Option.ite_none_right_eq_some.mp hs
      obtain rfl := Option.some.inj hs
      refine h.same ?_ rfl rfl
      cases htask : s.recorder.task <;>
        simp [State.startup, State.withRecorder, Recorder.State.start, htask]
  | shutdown =>
      obtain ⟨-, hs⟩ := Option.ite_none_right_eq_some.mp hs
      obtain rfl := Option.some.inj hs
      refine h.same ?_ rfl rfl
      cases htask : s.recorder.task <;>
        simp [State.shutdown, State.withRecorder, Recorder.State.stop, htask]
  | stopped k =>
      obtain ⟨-, hs⟩ := Option.ite_none_right_eq_some.mp hs
      obtain ⟨r, hr, rfl⟩ := Option.map_eq_some_iff.mp hs
      refine h.same ?_ rfl rfl
      simp only [Recorder.State.stopReturns] at hr
      split at hr
      · obtain ⟨-, hr⟩ := Option.ite_none_right_eq_some.mp hr
        obtain rfl := Option.some.inj hr
        rfl
      · cases hr
  | connect i =>
      obtain ⟨-, hs⟩ := Option.ite_none_right_eq_some.mp hs
      obtain ⟨p, -, rfl⟩ := Option.map_eq_some_iff.mp hs
      exact h.withPoller p
  | disconnect i => exact Option.some.inj hs ▸ h.same rfl rfl rfl
  | next i =>
      obtain ⟨-, hs⟩ := Option.ite_none_right_eq_some.mp hs
      obtain ⟨x, -, rfl⟩ := Option.map_eq_some_iff.mp hs
      exact (h.withPoller { s.poller with hub := x.2 }).same rfl rfl rfl
  | sent i =>
      simp only [State.step, State.sent] at hs
      split at hs
      · exact Option.some.inj hs ▸ h.same rfl rfl rfl
      · cases hs
  | broken i =>
      obtain ⟨-, hs⟩ := Option.ite_none_right_eq_some.mp hs
      exact hleave hs
  | cancel i => exact hleave hs
  | stopReturns i =>
      obtain ⟨p, -, rfl⟩ := Option.map_eq_some_iff.mp hs
      exact h.withPoller p
  | poll k outcome now =>
      obtain ⟨p, -, rfl⟩ := Option.map_eq_some_iff.mp hs
      exact h.withPoller p
  | record k stored =>
      obtain ⟨r, hr, hs⟩ := Option.bind_eq_some_iff.mp hs
      obtain ⟨database, hdatabase, rfl⟩ := Option.map_eq_some_iff.mp hs
      exact h.record (resume_rows hr) rfl (store_eq hdatabase).2
  | insert reading =>
      obtain ⟨-, hs⟩ := Option.ite_none_right_eq_some.mp hs
      obtain ⟨database, hdatabase, rfl⟩ := Option.map_eq_some_iff.mp hs
      obtain ⟨-, -, hreadings⟩ := insertReading_ok hdatabase
      obtain ⟨readings, hall, hmerged⟩ := h
      refine ⟨readings ++ [reading], ?_, hmerged.right reading⟩
      show database.readings = _
      rw [hreadings, hall, List.append_assoc]

/-! ## What holds in every run -/

/-- Table and recorder are in step in every run. -/
theorem records_reach {float : PyText.Str → Option Rat} {file : Storage.Database} {s : State ι}
    (hr : Reachable float file s) : s.Records :=
  hr.invariant (records_init file) fun _ _ _ h _ hs => Records.step h hs

/-- The rows of the file stay in front in every run. -/
theorem kept_reach {float : PyText.Str → Option Rat} {file : Storage.Database} {s : State ι}
    (hr : Reachable float file s) : Kept file s :=
  hr.invariant ⟨[], (List.append_nil _).symm, .nil⟩ fun _ _ _ h _ hs => h.step hs

/-- A cancelled task that has not ended can take a step, and it is its last. -/
theorem resume_last {r : Recorder.State ι (Reading Rat)} {k : Nat} (stored : Bool)
    (hk : k < r.created) (hc : (r.tasks k).cancelled = true)
    (hstage : (r.tasks k).stage ≠ .ended) :
    ∃ r', r.resume k stored = some r' ∧ (r'.tasks k).stage = .ended := by
  have hended : ∀ x : Recorder.State ι (Reading Rat),
      ((x.setStage k .ended).tasks k).stage = .ended := by
    intro x
    simp [Recorder.State.setStage]
  cases hwhere : (r.tasks k).stage with
  | scheduled =>
      refine ⟨r.setStage k .ended, ?_, hended r⟩
      simp only [Recorder.State.resume, if_pos hk, hc, hwhere]
  | getting =>
      refine ⟨(r.leave k).setStage k .ended, ?_, hended (r.leave k)⟩
      simp only [Recorder.State.resume, if_pos hk, hc, hwhere]
  | inserting reading =>
      refine ⟨((r.insert k reading stored).leave k).setStage k .ended, ?_, hended _⟩
      simp only [Recorder.State.resume, if_pos hk, hc, hwhere]
  | ended => exact absurd hwhere hstage

/-- **EVERY ROW HAS A SOURCE**: the table is the rows that were in the file, and behind them the
    recorder's rows and the requests' readings, interleaved; and the recorder's rows are a part
    of what the poller has published, in that order, so a reading that was published is recorded
    at most once. -/
theorem rows_have_sources {float : PyText.Str → Option Rat} {file : Storage.Database}
    {s : State ι} (hr : Reachable float file s) : Kept file s ∧
      (s.recorder.rows.map Prod.snd).Sublist (s.poller.published.map Prod.snd) := by
  have hrecords := records_reach hr
  refine ⟨kept_reach hr, ?_⟩
  have hrows : s.recorder.rows.map Prod.snd = s.recorder.rowsOf 0 := by
    have hfilter : s.recorder.rows.filter (·.1 = 0) = s.recorder.rows :=
      List.filter_eq_self.mpr fun entry hentry => decide_eq_true (hrecords.rows entry hentry)
    rw [Recorder.State.rowsOf, hfilter]
  have howed := (List.sublist_append_left _ _).trans (hrecords.owed.owed 0)
  have hcovered : (s.recorder.coveredBy 0).Sublist (s.recorder.covered.map Prod.snd) :=
    List.filter_sublist.map _
  rw [hrows]
  exact (howed.trans hcovered).trans hrecords.covered

/-- A poll that is recorded, a request that stores a reading of its own, and the shutdown. -/
def aDay : List (Action Unit) :=
  [.startup, .record 0 true, .connect (), .poll 0 threeVolts 0, .poll 0 threeVolts 0,
    .poll 0 threeVolts 7, .record 0 true, .insert ⟨5, "VOLT".toList, 4, "V".toList⟩,
    .record 0 true, .shutdown]

/-- The file of the day before. -/
def yesterday : Storage.Database := ⟨[⟨1, 3, "VOLT".toList, 2, "V".toList⟩], false⟩

/-- One row of yesterday, one of the recorder, one of a request. -/
theorem rows_have_sources_aDay :
    ∃ s : State Unit, Reachable three yesterday s ∧
      s.database.readings.map Reading.timestamp = [3, 5, 7] ∧ Kept yesterday s ∧
      (s.recorder.rows.map Prod.snd).Sublist (s.poller.published.map Prod.snd) := by
  have hrun : (Transition.runWithin (State.step three) Transition.Free (.init yesterday) aDay).map
      (fun s => s.database.readings.map Reading.timestamp) = some [3, 5, 7] := by decide +kernel
  obtain ⟨s, hs, htimes⟩ := Option.map_eq_some_iff.mp hrun
  have hr := Transition.reach_of_runWithin hs
  exact ⟨s, hr, htimes, rows_have_sources hr⟩

/-- **THE DATABASE OUTLIVES THE RECORDER**: it is connected from the start of `lifespan` to the
    end of `recorder.stop`; a task of the recorder that has not ended finds it connected; once
    it is closed the recorder has no subscription; and `recorder.stop` waits for at most one
    step of the task. -/
theorem database_outlives_recorder {float : PyText.Str → Option Rat} {file : Storage.Database}
    {s : State ι} (hr : Reachable float file s) :
    (s.database.connected = true ↔ s.phase = .serving ∨ s.phase = .stopping) ∧
    (∀ k, k < s.recorder.created → (s.recorder.tasks k).stage ≠ .ended →
      s.database.connected = true) ∧
    (s.phase = .closed → ∀ k, ¬ s.recorder.Registered k) ∧
    (s.phase = .stopping → ∃ s', (s' = s ∨ s.step float (.record 0 false) = some s') ∧
      (s'.step float (.stopped 0)).isSome = true) := by
  have h := records_reach hr
  have hconnected : s.database.connected = true ↔ s.phase = .serving ∨ s.phase = .stopping := by
    rw [h.connected, decide_eq_true_iff]
  have hzero : ∀ k, k < s.recorder.created → k = 0 := by
    intro k hk
    have hcreated := h.created
    split at hcreated <;> omega
  refine ⟨hconnected, ?_, ?_, ?_⟩
  · intro k hk hstage
    obtain rfl := hzero k hk
    rw [hconnected]
    cases hphase : s.phase with
    | starting =>
        have hcreated := h.created.trans (if_pos hphase)
        omega
    | serving => exact .inl rfl
    | stopping => exact .inr rfl
    | closed => exact absurd (h.ended hphase) hstage
  · intro hclosed k hregistered
    by_cases hk : k < s.recorder.created
    · obtain rfl := hzero k hk
      have hlistening := (h.listening 0).mp hregistered
      rw [h.ended hclosed] at hlistening
      exact hlistening
    · exact (h.owed.future k (Nat.le_of_not_lt hk)).2 hregistered
  · intro hphase
    have hstopping : s.recorder.stopping = [0] := h.stopping.trans (if_pos hphase)
    have hreturns : ∀ s' : State ι, s'.phase = .stopping → s'.recorder.stopping = [0] →
        (s'.recorder.tasks 0).stage = .ended → (s'.step float (.stopped 0)).isSome = true := by
      intro s' hphase' hstopping' hstage
      simp [State.step, hphase', Recorder.State.stopReturns, hstage, hstopping']
    by_cases hstage : (s.recorder.tasks 0).stage = .ended
    · exact ⟨s, .inl rfl, hreturns s hphase hstopping hstage⟩
    · have hcreated : s.recorder.created = 1 := h.created.trans (if_neg (by simp [hphase]))
      have htask : s.recorder.task = none := h.task.trans (if_neg (by simp [hphase]))
      have hcancelled := h.owed.past 0 (by omega) (by simp [htask])
      obtain ⟨r, hresume, hended⟩ := resume_last false (by omega) hcancelled hstage
      have hstore : s.store 0 false = some s.database := by
        cases hwhere : (s.recorder.tasks 0).stage <;> simp [State.store, hwhere]
      refine ⟨{ s.withRecorder r with database := s.database }, .inr ?_, ?_⟩
      · simp [State.step, hresume, hstore]
      · refine hreturns _ hphase ?_ hended
        exact (AtMostOnce.resume_stored hresume).moved.stopping.trans hstopping

/-- The server stops while the recorder inserts a row. -/
theorem database_outlives_recorder_aDay :
    ∃ s : State Unit, Reachable three yesterday s ∧ s.phase = .stopping ∧
      s.database.connected = true ∧
      ∃ s', (s' = s ∨ s.step three (.record 0 false) = some s') ∧
        (s'.step three (.stopped 0)).isSome = true := by
  have hrun : (Transition.runWithin (State.step three) Transition.Free (.init yesterday) aDay).map
      (fun s => s.phase) = some .stopping := by decide +kernel
  obtain ⟨s, hs, hphase⟩ := Option.map_eq_some_iff.mp hrun
  have hr := Transition.reach_of_runWithin hs
  have hall := database_outlives_recorder hr
  exact ⟨s, hr, hphase, hall.1.mpr (.inr hphase), hall.2.2.2 hphase⟩

end App
