import XdmServer.Database
import XdmServer.Interleaving
import Mathlib.Tactic.Linarith

/-! # Smoothed readings

    `/api/status` and `/api/measurement/smoothed` take a reading, store it, and ask the
    database for a summary of the last `seconds`.  Each of these is an operation of its
    own; between any two, the recorder and other requests insert rows.  The meter, the
    clock and the database answer as they like, within what the database is.

    `answered` says what a request that has answered knows of its window, and the three
    theorems at the end are read off it. -/

namespace Smoothing

open PyText Coroutine Commands Device Driver Interleaving

variable {ι : Type}

/-- A request that is answered with a summary, by its parameters. -/
inductive Request where
  | status (seconds : Rat)
  | smoothed (seconds : Rat) (function : Option Str)

/-- The window that a request asks for. -/
def Request.seconds : Request → Rat
  | .status seconds => seconds
  | .smoothed seconds _ => seconds

/-- The `function` parameter; `/api/status` has none. -/
def Request.function : Request → Option Str
  | .status _ => none
  | .smoothed _ function => function

/-- What a request returns. -/
inductive Answer where
  | nothing
  | status (out : StatusOut Rat)
  | smoothed (out : SmoothedOut Rat)

/-- The `SmoothedOut` of an answer. -/
def Answer.summary : Answer → Option (SmoothedOut Rat)
  | .nothing => none
  | .status out => some out.smoothed
  | .smoothed out => some out

/-- The endpoint's function. -/
def Request.code (float : Str → Option Rat) (database : Bool) :
    Request → Coro (Server Rat) Exc Answer
  | .status seconds => do
      let out ← Driver.status float database seconds
      pure (.status out)
  | .smoothed seconds function => do
      let out ← measurementSmoothed float database seconds function
      pure (.smoothed out)

/-- A request, and what it has had to do with the table. -/
structure Trace where
  request : Request
  /-- The reading it has taken and stored. -/
  own : Option (Reading Rat) := none
  /-- All rows when its `aggregate` was executed, and those that it selected. -/
  table : List (Reading Rat) := []
  window : List (Reading Rat) := []

/-- The table, and the last request of each task. -/
structure State (ι : Type) where
  rows : List (Reading Rat)
  trace : ι → Trace

/-- How an operation comes out. -/
structure Choice where
  call : (c : Call) → Except Exc c.Res
  now : Rat
  /-- What the database raises, if it does. -/
  fails : Option Exc := none

variable [DecidableEq ι]

/-- Another trace for a task. -/
def State.setTrace (s : State ι) (t : ι) (trace : Trace) : State ι :=
  { s with trace := Function.update s.trace t trace }

/-- The clock, the broadcaster and the database. -/
def State.hub (s : State ι) (t : ι) (x : Choice) : (o : HubOp Rat) → Except Exc o.Res × State ι
  | .time => (.ok x.now, s)
  | .publish _ => (.ok (), s)
  | .insertReading reading =>
      match x.fails with
      | some e => (.error e, s)
      | none => (.ok (), { s with rows := Database.insertReading s.rows reading }.setTrace t
          { s.trace t with own := some reading })
  | .aggregate since function =>
      match x.fails with
      | some e => (.error e, s)
      | none => (.ok (Database.aggregate s.rows (some since) none (some function)),
          s.setTrace t { s.trace t with
            table := s.rows
            window := Database.select s.rows (some since) none (some function) })

/-- Requests on one table.  `database` is false where persistence is disabled. -/
def desk (float : Str → Option Rat) (database : Bool) :
    System (Server Rat) Exc Answer ι (State ι) where
  Entry := Request
  Choice := Choice
  Env := Reading Rat
  code := Request.code float database
  start s t request := some (s.setTrace t { request := request })
  invoke s _ _ := s
  answer s t o x := match o with
    | .inl c => some (x.call c, s)
    | .inr o => some (s.hub t x o)
  -- another writer
  env s row := some { s with rows := Database.insertReading s.rows row }

/-- No request has come yet, and the table holds the given rows. -/
def initial (rows : List (Reading Rat)) : Config (Server Rat) Exc Answer ι (State ι) where
  shared := { rows := rows, trace := fun _ => { request := .status 0 } }
  point _ := .ready (.ret .nothing)

/-! ## What a request knows -/

/-- The server made this reading: its unit is that of its function. -/
def ServerMade (reading : Reading Rat) : Prop :=
  ∃ f : Function, reading.function = f.value ∧ reading.unit = UNITS f

/-- The summary is that of the rows. -/
structure Summarises (out : SmoothedOut Rat) (rows : List (Reading Rat)) : Prop where
  value : out.value = (Database.summarise rows).mean
  samples : out.samples = (Database.summarise rows).count
  min : out.min = (Database.summarise rows).min
  max : out.max = (Database.summarise rows).max

/-- The summary that a request has answered with, and the reading it has taken, in terms
    of what it has had to do with the table.  `Made` holds of every row. -/
structure Answered (Made : Reading Rat → Prop) (database : Bool) (reading : Reading Rat)
    (trace : Trace) (out : SmoothedOut Rat) : Prop where
  seconds : 0 < trace.request.seconds
  windowSeconds : out.windowSeconds = trace.request.seconds
  made : ServerMade reading
  own : database = true → trace.own = some reading ∧ reading ∈ trace.table
  absent : database = false → trace.request.function = none
  table : ∀ row ∈ trace.table, Made row
  window : trace.window = Database.select trace.table
    (some (reading.timestamp - trace.request.seconds)) none (some out.function)
  summarises : Summarises out trace.window
  unit : out.unit = reading.unit
  unnamed : trace.request.function = none → out.function = reading.function
  named : ∀ name, trace.request.function = some name → ∃ f : Function, f.name = name ∧
    out.function = f.value

/-- How a request ends: `/api/status` also gives the reading itself. -/
def Ends (Made : Reading Rat → Prop) (database : Bool) (trace : Trace) : Answer → Prop
  | .nothing => True
  | .status out => ∃ reading, Answered Made database reading trace out.smoothed ∧
      out.timestamp = reading.timestamp ∧ out.function = reading.function ∧
      out.value = reading.value ∧ out.smoothed.function = reading.function
  | .smoothed out => ∃ reading, Answered Made database reading trace out

/-- A request traces what it stores and what it is given by the table, on which its own
    row stays. -/
def tracing (Made : Reading Rat → Prop) : Protocol (Server Rat) Exc where
  Ghost := Trace
  Held := Trace
  invoke g o h := h = g ∧ match o with
    | .inr (.insertReading reading) => ServerMade reading
    | _ => True
  answer h o r g := match o, r with
    | .inr (.insertReading reading), .ok _ => g = { h with own := some reading }
    | .inr (.aggregate since function), .ok agg => ∃ rows, (∀ row ∈ rows, Made row) ∧
        (∀ reading ∈ h.own, reading ∈ rows) ∧
        agg = Database.aggregate rows (some since) none (some function) ∧
        g = { h with
          table := rows
          window := Database.select rows (some since) none (some function) }
    | _, _ => g = h

/-! ## The programs -/

section Programs

variable {Made : Reading Rat → Prop} {float : Str → Option Rat}

/-- The driver has nothing to do with the table. -/
theorem maintains_calls {α : Type} (g : Trace) (p : Coro Calls Exc α) :
    (tracing Made).left.Maintains (fun g' => g' = g) p := by
  refine Protocol.maintains_of_ops ?_ p
  intro c g' hg'
  subst hg'
  refine ⟨g', ⟨rfl, trivial⟩, ?_⟩
  intro r g'' h
  exact h

/-- A measurement has the unit of its function. -/
theorem returns_readMeasurement (g : Trace) :
    (tracing Made).left.Returns (readMeasurement float)
      (fun m g' => g' = g ∧ m.unit = UNITS m.function) g := by
  refine ((maintains_calls g getFunction).returns rfl).bind ?_
  rintro function g' rfl
  refine ((maintains_calls g' (query MEASURE)).returns rfl).bind ?_
  rintro raw g'' rfl
  refine (returns_parsed (float raw) _).bind ?_
  rintro value g ⟨rfl, -⟩
  exact Protocol.returns_pure ⟨rfl, rfl⟩

theorem returns_time (g : Trace) :
    (tracing Made).Returns Hub.time (fun _ g' => g' = g) g := by
  refine Protocol.returns_op g ⟨rfl, trivial⟩ ?_
  intro now g' h
  exact h

theorem returns_insertReading {reading : Reading Rat} (h : ServerMade reading) (g : Trace) :
    (tracing Made).Returns (Hub.insertReading reading)
      (fun _ g' => g' = { g with own := some reading }) g := by
  refine Protocol.returns_op g ⟨rfl, h⟩ ?_
  intro _ g' h
  exact h

/-- **`_take_reading`** returns the reading it has stored, if there is where to. -/
theorem returns_takeReading (database : Bool) (request : Request) :
    (tracing Made).Returns (takeReading float database) (fun reading g => ServerMade reading ∧
      g = { request := request, own := if database then some reading else none })
      { request := request } := by
  refine (Protocol.Returns.inl (returns_readMeasurement _)).bind ?_
  rintro m g ⟨rfl, hunit⟩
  refine (returns_time _).bind ?_
  rintro timestamp g rfl
  have hmade : ServerMade (Reading.fromMeasurement m timestamp) := ⟨m.function, rfl, hunit⟩
  cases database with
  | false => exact Protocol.returns_pure ⟨hmade, rfl⟩
  | true =>
      refine (returns_insertReading hmade _).bind ?_
      rintro _ g rfl
      exact Protocol.returns_pure ⟨hmade, rfl⟩

/-- **The aggregate** is that of a window of the table of the moment. -/
theorem returns_aggregate (since : Rat) (function : Str) (g : Trace) :
    (tracing Made).Returns (Hub.aggregate since function) (fun agg g' => ∃ rows,
      (∀ row ∈ rows, Made row) ∧ (∀ reading ∈ g.own, reading ∈ rows) ∧
      agg = Database.aggregate rows (some since) none (some function) ∧
      g' = { g with
        table := rows
        window := Database.select rows (some since) none (some function) }) g := by
  refine Protocol.returns_op g ⟨rfl, trivial⟩ ?_
  intro agg g' h
  exact h

theorem returns_getDatabase (database : Bool) (g : Trace) :
    (tracing Made).Returns (getDatabase database) (fun _ g' => g' = g ∧ database = true) g := by
  cases database with
  | true => exact Protocol.returns_pure ⟨rfl, rfl⟩
  | false => exact Protocol.returns_raise _ _ _

theorem returns_funcValue (function : Option Str) (reading : Reading Rat) (g : Trace) :
    (tracing Made).Returns (funcValue function reading) (fun value g' => g' = g ∧
      (function = none → value = reading.function) ∧
      ∀ name, function = some name → ∃ f : Function, f.name = name ∧ value = f.value) g := by
  cases function with
  | none => exact Protocol.returns_pure ⟨rfl, fun _ => rfl, by simp⟩
  | some name =>
      obtain ⟨f, hname, hparse⟩ | hparse := parseFunction_cases (S := Server Rat) name
      · simp only [funcValue, hparse]
        refine Protocol.returns_pure ⟨rfl, by simp, ?_⟩
        intro name' hname'
        exact ⟨f, hname.trans (Option.some.inj hname'), rfl⟩
      · simp only [funcValue, hparse]
        exact Protocol.returns_raise _ _ _

/-- The summary of the window that has just been selected. -/
theorem summarises_aggregate {rows : List (Reading Rat)} {since : Rat} {function unit : Str}
    {agg : Aggregate Rat} {seconds : Rat}
    (h : agg = Database.aggregate rows (some since) none (some function)) :
    Summarises ⟨function, unit, agg.mean, agg.count, seconds, agg.min, agg.max⟩
      (Database.select rows (some since) none (some function)) := by
  subst h
  exact ⟨rfl, rfl, rfl, rfl⟩

/-- **`/api/status`** ends as it should. -/
theorem returns_status (database : Bool) (seconds : Rat) :
    (tracing Made).Returns (Driver.status float database seconds) (fun out g =>
      Ends Made database g (.status out)) { request := .status seconds } := by
  refine (returns_validateSeconds seconds _).bind ?_
  rintro _ g ⟨rfl, hseconds⟩
  refine (returns_takeReading database _).bind ?_
  rintro reading g ⟨hmade, rfl⟩
  refine (Protocol.Returns.inl ((maintains_calls _ readStateOut).returns rfl)).bind ?_
  rintro state g rfl
  cases database with
  | false =>
      refine Protocol.returns_pure ⟨reading, ?_, rfl, rfl, rfl, rfl⟩
      exact ⟨hseconds, rfl, hmade, by simp, fun _ => rfl, by simp, rfl, ⟨rfl, rfl, rfl, rfl⟩,
        rfl, fun _ => rfl, by simp [Request.function]⟩
  | true =>
      refine (returns_aggregate (reading.timestamp - seconds) reading.function _).bind ?_
      rintro agg g ⟨rows, hrows, hown, hagg, rfl⟩
      refine Protocol.returns_pure ⟨reading, ?_, rfl, rfl, rfl, rfl⟩
      exact ⟨hseconds, rfl, hmade, fun _ => ⟨rfl, hown reading rfl⟩, by simp, hrows, rfl,
        summarises_aggregate hagg, rfl, fun _ => rfl, by simp [Request.function]⟩

/-- **`/api/measurement/smoothed`** ends as it should. -/
theorem returns_measurementSmoothed (database : Bool) (seconds : Rat) (function : Option Str) :
    (tracing Made).Returns (measurementSmoothed float database seconds function) (fun out g =>
      Ends Made database g (.smoothed out)) { request := .smoothed seconds function } := by
  refine (returns_validateSeconds seconds _).bind ?_
  rintro _ g ⟨rfl, hseconds⟩
  refine (returns_getDatabase database _).bind ?_
  rintro _ g ⟨rfl, rfl⟩
  refine (returns_takeReading true _).bind ?_
  rintro reading g ⟨hmade, rfl⟩
  refine (returns_funcValue function reading _).bind ?_
  rintro value g ⟨rfl, hunnamed, hnamed⟩
  refine (returns_aggregate (reading.timestamp - seconds) value _).bind ?_
  rintro agg g ⟨rows, hrows, hown, hagg, rfl⟩
  refine Protocol.returns_pure ⟨reading, ?_⟩
  exact ⟨hseconds, rfl, hmade, fun _ => ⟨rfl, hown reading rfl⟩, by simp, hrows, rfl,
    summarises_aggregate hagg, rfl, hunnamed, hnamed⟩

theorem returns_code (database : Bool) (request : Request) :
    (tracing Made).Returns (request.code float database) (fun a g => Ends Made database g a)
      { request := request } := by
  cases request with
  | status seconds =>
      refine (returns_status database seconds).bind ?_
      intro out g h
      exact Protocol.returns_pure h
  | smoothed seconds function =>
      refine (returns_measurementSmoothed database seconds function).bind ?_
      intro out g h
      exact Protocol.returns_pure h

end Programs

/-! ## Runs -/

/-- The trace of a task, wherever it stands. -/
def traceOf {Made : Reading Rat → Prop} : Phase (tracing Made) → Trace
  | .ready g => g
  | .waiting h => h

/-- The rows are as they should be, and the tasks' own readings are among them. -/
structure Inv (Made : Reading Rat → Prop) (s : State ι) (ph : ι → Phase (tracing Made)) :
    Prop where
  rows : ∀ row ∈ s.rows, Made row
  trace : ∀ t, s.trace t = traceOf (ph t)
  own : ∀ t, ∀ reading ∈ (s.trace t).own, reading ∈ s.rows

/-- What other writers insert is as it should be. -/
def Inserts (Made : Reading Rat → Prop) {float : Str → Option Rat} {database : Bool}
    (_ : State ι) (a : Action (desk float database : System _ _ _ ι _)) (_ : State ι) : Prop :=
  match a with
  | .env row => Made row
  | _ => True

/-- How a task ends, by the last request it served. -/
def ends (Made : Reading Rat → Prop) (database : Bool) :
    Except Exc Answer → (tracing Made).Ghost → Prop :=
  fun r g => ∀ a, r = .ok a → Ends Made database g a

section Runs

variable {Made : Reading Rat → Prop} {float : Str → Option Rat} {database : Bool}

/-- More rows, and a task that has moved on. -/
theorem Inv.setTrace {s : State ι} {ph : ι → Phase (tracing Made)} (hI : Inv Made s ph) {t : ι}
    {φ : Phase (tracing Made)} {rows : List (Reading Rat)} (hrows : ∀ row ∈ rows, Made row)
    (hmore : ∀ row ∈ s.rows, row ∈ rows) (hown : ∀ reading ∈ (traceOf φ).own, reading ∈ rows) :
    Inv Made ({ s with rows := rows }.setTrace t (traceOf φ)) (Function.update ph t φ) := by
  refine ⟨hrows, ?_, ?_⟩
  · intro u
    by_cases hu : u = t
    · simp [State.setTrace, hu]
    · simpa [State.setTrace, hu] using hI.trace u
  · intro u reading hreading
    by_cases hu : u = t
    · simp only [State.setTrace, hu, Function.update_self] at hreading
      exact hown reading hreading
    · simp only [State.setTrace, Function.update_of_ne hu] at hreading
      exact hmore reading (hI.own u reading hreading)

/-- A task that has moved on with the same trace. -/
theorem Inv.keep {s : State ι} {ph : ι → Phase (tracing Made)} (hI : Inv Made s ph) {t : ι}
    {φ : Phase (tracing Made)} (hsame : traceOf φ = traceOf (ph t)) :
    Inv Made s (Function.update ph t φ) := by
  refine ⟨hI.rows, ?_, hI.own⟩
  intro u
  by_cases hu : u = t
  · simpa [hu, hsame] using hI.trace t
  · simpa [hu] using hI.trace u

/-- **An operation on the table** keeps the invariant, and comes out as a task expects. -/
theorem Inv.hub {s : State ι} {ph : ι → Phase (tracing Made)} (hI : Inv Made s ph)
    (hmade : ∀ row, ServerMade row → Made row) {t : ι} {h : Trace} (hph : ph t = .waiting h)
    {o : HubOp Rat} (hinv : ∃ g, (tracing Made).invoke g (.inr o) h) (x : Choice) :
    ∃ g, (tracing Made).answer h (.inr o) (s.hub t x o).1 g ∧
      Inv Made (s.hub t x o).2 (Function.update ph t (.ready g)) := by
  have htrace : s.trace t = h := by
    rw [hI.trace, hph]
    rfl
  have hkeep : Inv Made s (Function.update ph t (.ready h)) := hI.keep (by
    rw [hph]
    rfl)
  cases o with
  | time => exact ⟨h, rfl, hkeep⟩
  | publish reading => exact ⟨h, rfl, hkeep⟩
  | insertReading reading =>
      cases hfails : x.fails with
      | some e =>
          simp only [State.hub, hfails]
          exact ⟨h, rfl, hkeep⟩
      | none =>
          obtain ⟨_, _, hserver⟩ := hinv
          simp only [State.hub, hfails, htrace]
          refine ⟨{ h with own := some reading }, rfl, ?_⟩
          refine hI.setTrace (φ := .ready { h with own := some reading }) ?_ ?_ ?_
          · intro row hrow
            obtain hrow | hrow := List.mem_append.mp hrow
            · exact hI.rows row hrow
            · exact hmade row (List.mem_singleton.mp hrow ▸ hserver)
          · intro row hrow
            exact List.mem_append_left _ hrow
          · intro row hrow
            obtain rfl := Option.some.inj hrow
            exact List.mem_append_right _ (List.mem_singleton_self _)
  | aggregate since function =>
      cases hfails : x.fails with
      | some e =>
          simp only [State.hub, hfails]
          exact ⟨h, rfl, hkeep⟩
      | none =>
          have hown := hI.own t
          rw [htrace] at hown
          simp only [State.hub, hfails, htrace]
          refine ⟨_, ⟨s.rows, hI.rows, hown, rfl, rfl⟩, ?_⟩
          exact hI.setTrace (φ := .ready _) hI.rows (fun _ hrow => hrow) hown

/-- **Every step** keeps the invariant. -/
theorem sound (hmade : ∀ row, ServerMade row → Made row) :
    Sound (tracing Made) (desk float database : System _ _ _ ι _) (Inserts Made)
      (ends Made database) (Inv Made) where
  start {s s' ph t request g r} hI _ _ _ hs := by
    obtain rfl := Option.some.inj hs
    refine ⟨_, returns_code database request, ?_⟩
    refine hI.setTrace (φ := .ready { request := request }) hI.rows (fun _ hrow => hrow) ?_
    intro reading hreading
    cases hreading
  invoke {s ph t o g h} hI hph hinv _ := by
    obtain ⟨rfl, _⟩ := hinv
    refine hI.keep ?_
    rw [hph]
    rfl
  answer {s s' ph t o h x r} hI hph hinv _ hs := by
    cases o with
    | inl c =>
        obtain ⟨rfl, rfl⟩ := Prod.mk.inj (Option.some.inj hs)
        refine ⟨h, rfl, hI.keep ?_⟩
        rw [hph]
        rfl
    | inr o =>
        obtain ⟨rfl, rfl⟩ := Prod.mk.inj (Option.some.inj hs)
        exact hI.hub hmade hph hinv x
  env {s s' ph row} hI hok hs := by
    obtain rfl := Option.some.inj hs
    refine ⟨?_, hI.trace, ?_⟩
    · intro row' hrow'
      obtain hrow' | hrow' := List.mem_append.mp hrow'
      · exact hI.rows row' hrow'
      · exact List.mem_singleton.mp hrow' ▸ hok
    · intro t reading hreading
      exact List.mem_append_left _ (hI.own t reading hreading)

/-- **Every request that has answered** has answered with the summary of its window. -/
theorem answered (hmade : ∀ row, ServerMade row → Made row) {rows : List (Reading Rat)}
    (hrows : ∀ row ∈ rows, Made row) {c : Config (Server Rat) Exc Answer ι (State ι)}
    (hr : Reach (desk float database) (Inserts Made) (initial rows) c) {t : ι} {a : Answer}
    (ht : c.point t = .ready (.ret a)) : Ends Made database (c.shared.trace t) a := by
  have hstart : Inv Made (initial (ι := ι) rows).shared
      fun _ => .ready { request := .status 0 } := by
    refine ⟨hrows, fun _ => rfl, ?_⟩
    intro t reading hreading
    cases hreading
  have hagrees : ∀ u, Agrees (tracing Made) (ends Made database)
      ((initial (ι := ι) rows).point u) (.ready { request := .status 0 }) := by
    intro u a ha
    obtain rfl := Except.ok.inj ha
    trivial
  obtain ⟨ph, hI, hA⟩ := (sound hmade).reach hstart hagrees hr
  obtain ⟨g, hg, hends⟩ := (hA t).outcome (r := .ok a) (by
    rw [ht]
    rfl)
  rw [hI.trace, hg]
  exact hends a rfl

end Runs

/-! ## What a summary says -/

section Answers

variable {float : Str → Option Rat} {database : Bool} {rows : List (Reading Rat)}
  {c : Config (Server Rat) Exc Answer ι (State ι)} {t : ι}

/-- The reading behind a summary. -/
theorem Ends.summary {Made : Reading Rat → Prop} {trace : Trace} {a : Answer}
    {out : SmoothedOut Rat} (h : Ends Made database trace a) (hout : a.summary = some out) :
    ∃ reading, Answered Made database reading trace out := by
  cases a with
  | nothing => exact absurd hout (by simp [Answer.summary])
  | status out' =>
      obtain rfl := Option.some.inj hout
      obtain ⟨reading, h, _⟩ := h
      exact ⟨reading, h⟩
  | smoothed out' =>
      obtain rfl := Option.some.inj hout
      exact h

/-- Where rows may be anything, every run inserts as it should. -/
theorem inserts_any {s s' : State ι} {a : Action (desk float database : System _ _ _ ι _)} :
    Inserts (fun _ => True) s a s' := by
  cases a <;> trivial

theorem answered_any (hr : Reach (desk float database) Free (initial rows) c) {a : Answer}
    (ht : c.point t = .ready (.ret a)) :
    Ends (fun _ => True) database (c.shared.trace t) a :=
  answered (fun _ _ => trivial) (fun _ _ => trivial)
    (hr.mono fun _ _ _ _ => inserts_any) ht

/-- **Function and unit**: a summary is made of rows of its function only, and its unit is
    theirs and that of the function exactly if the function that was asked for, if any,
    has the unit of the one the meter was in. -/
theorem smoothed_unit (hrows : ∀ row ∈ rows, ServerMade row)
    (hr : Reach (desk float database) (Inserts ServerMade) (initial rows) c) {a : Answer}
    (ht : c.point t = .ready (.ret a)) {out : SmoothedOut Rat} (hout : a.summary = some out) :
    Summarises out (c.shared.trace t).window ∧
    (∀ row ∈ (c.shared.trace t).window, row.function = out.function) ∧
    (((∀ row ∈ (c.shared.trace t).window, row.unit = out.unit) ∧
        ∀ f : Function, f.value = out.function → UNITS f = out.unit) ↔
      ∀ name, (c.shared.trace t).request.function = some name →
        ∀ reading ∈ (c.shared.trace t).own, ∀ f g : Function, f.name = name →
          g.value = reading.function → UNITS f = UNITS g) := by
  obtain ⟨reading, h⟩ := (answered (fun _ h => h) hrows hr ht).summary hout
  obtain ⟨g, hfunction, hunit⟩ := h.made
  have hwindow : ∀ row ∈ (c.shared.trace t).window,
      row ∈ (c.shared.trace t).table ∧ row.function = out.function := by
    intro row hrow
    rw [h.window] at hrow
    obtain ⟨hmem, _, _, hf⟩ := Database.mem_select.mp hrow
    exact ⟨hmem, hf _ rfl⟩
  refine ⟨h.summarises, fun row hrow => (hwindow row hrow).2, ?_, ?_⟩
  · rintro ⟨_, hunits⟩ name hname reading' hreading' f g' rfl hg'
    have hdatabase : database = true := by
      by_contra hno
      rw [h.absent (Bool.eq_false_iff.mpr hno)] at hname
      cases hname
    obtain ⟨hown, _⟩ := h.own hdatabase
    obtain rfl := Option.some.inj (hown.symm.trans hreading')
    obtain ⟨f', hf', hvalue⟩ := h.named _ hname
    obtain rfl := name_injective hf'
    obtain rfl := value_injective (hg'.trans hfunction)
    rw [hunits f' hvalue.symm, h.unit, hunit]
  · intro hsame
    -- one function has the reported device string, and its unit is the reported one
    have hunits : ∀ f : Function, f.value = out.function → UNITS f = out.unit := by
      intro f hf
      rw [h.unit, hunit]
      cases hname : (c.shared.trace t).request.function with
      | none =>
          rw [h.unnamed hname, hfunction] at hf
          rw [value_injective hf]
      | some name =>
          have hdatabase : database = true := by
            by_contra hno
            rw [h.absent (Bool.eq_false_iff.mpr hno)] at hname
            cases hname
          obtain ⟨f', hf', hvalue⟩ := h.named name hname
          obtain rfl := value_injective (hf.trans hvalue)
          exact hsame name hname reading (h.own hdatabase).1 f g hf' hfunction.symm
    refine ⟨?_, hunits⟩
    intro row hrow
    obtain ⟨hmem, hrowf⟩ := hwindow row hrow
    obtain ⟨f, hf, hrowunit⟩ := h.table row hmem
    rw [hrowunit]
    exact hunits f (hf.symm.trans hrowf)

/-- **The window** begins `seconds` before the reading, and ends at it exactly if no row of
    the function was dated later when the aggregate was executed. -/
theorem smoothed_window (hr : Reach (desk float database) Free (initial rows) c) {a : Answer}
    (ht : c.point t = .ready (.ret a)) {out : SmoothedOut Rat} (hout : a.summary = some out) :
    ∃ reading, (database = true → (c.shared.trace t).own = some reading) ∧
      Summarises out (c.shared.trace t).window ∧
      ((∀ row ∈ (c.shared.trace t).window,
          row ∈ (c.shared.trace t).table ∧ row.function = out.function ∧
          reading.timestamp - (c.shared.trace t).request.seconds ≤ row.timestamp ∧
          row.timestamp ≤ reading.timestamp) ↔
        ∀ row ∈ (c.shared.trace t).table, row.function = out.function →
          row.timestamp ≤ reading.timestamp) := by
  obtain ⟨reading, h⟩ := (answered_any hr ht).summary hout
  refine ⟨reading, fun hdatabase => (h.own hdatabase).1, h.summarises, ?_, ?_⟩
  · intro hwindow row hrow hf
    by_contra hlater
    have hseconds := h.seconds
    have hmem : row ∈ (c.shared.trace t).window := by
      rw [h.window, Database.mem_select]
      refine ⟨hrow, ?_, by simp, ?_⟩
      · rintro since ⟨⟩
        linarith
      · rintro function ⟨⟩
        exact hf
    exact hlater (hwindow row hmem).2.2.2
  · intro hno row hrow
    rw [h.window] at hrow
    obtain ⟨hmem, hsince, _, hf⟩ := Database.mem_select.mp hrow
    exact ⟨hmem, hf _ rfl, hsince _ rfl, hno row hmem (hf _ rfl)⟩

/-- **A status brackets its own reading**, whatever else is in the table. -/
theorem status_brackets_reading (hr : Reach (desk float true) Free (initial rows) c)
    {out : StatusOut Rat} (ht : c.point t = .ready (.ret (.status out))) :
    out.smoothed.function = out.function ∧ 1 ≤ out.smoothed.samples ∧
    ∃ lo hi m, out.smoothed.min = some lo ∧ out.smoothed.max = some hi ∧
      out.smoothed.value = some m ∧ (lo ≤ out.value ∧ out.value ≤ hi) ∧ lo ≤ m ∧ m ≤ hi := by
  obtain ⟨reading, h, _, hfunction, hvalue, hsame⟩ := answered_any hr ht
  have hseconds := h.seconds
  have hmem : reading ∈ (c.shared.trace t).window := by
    rw [h.window, Database.mem_select]
    refine ⟨(h.own rfl).2, ?_, by simp, ?_⟩
    · rintro since ⟨⟩
      linarith
    · rintro function ⟨⟩
      exact hsame.symm
  obtain ⟨lo, hi, m, hlo, hhi, hm, hcount, hbetween, hmean⟩ :=
    Database.summarise_brackets hmem
  have hs := h.summarises
  refine ⟨hsame.trans hfunction.symm, ?_, lo, hi, m, ?_, ?_, ?_, ?_, hmean⟩
  · rw [hs.samples]
    exact hcount
  · rw [hs.min, hlo]
  · rw [hs.max, hhi]
  · rw [hs.value, hm]
  · rw [hvalue]
    exact hbetween

end Answers

/-! ## Runs of one request -/

/-- A meter in VOLT_DC that measures one volt. -/
def volt : (c : Call) → Except Exc c.Res
  | .query command _ => .ok (if command = FUNCTION then "\"VOLT\"".toList
      else if command = RATE_QUERY then "M".toList else "1".toList)
  | .write _ _ => .ok ()

/-- A `float` for which every text is one. -/
def parse (_ : Str) : Option Rat := some 1

/-- A request that is served in `n` operations, with the clock at 10. -/
def served (request : Request) (n : Nat) :
    List (Action (desk parse true : System _ _ _ Unit _)) :=
  .start () request ::
    (List.replicate n [.invoke (), .answer () { call := volt, now := 10 }]).flatten

/-- The answer of a request, if it has one. -/
def answerOf : Point (Server Rat) Exc Answer → Answer
  | .ready (.ret a) => a
  | _ => .nothing

theorem eq_of_answerOf {q : Point (Server Rat) Exc Answer} (h : (answerOf q).summary ≠ none) :
    q = .ready (.ret (answerOf q)) := by
  cases q with
  | waiting o k => exact absurd rfl h
  | ready p =>
      cases p with
      | ret a => rfl
      | raise e => exact absurd rfl h
      | call o k => exact absurd rfl h

instance (s : State Unit) (a : Action (desk parse true : System _ _ _ Unit _))
    (s' : State Unit) : Decidable (Free s a s') :=
  .isTrue trivial

/-- The request for resistance while the meter measures a voltage. -/
theorem smoothed_wrong_unit :
    ¬ ∀ c : Config (Server Rat) Exc Answer Unit (State Unit),
      Reach (desk parse true) (Inserts ServerMade) (initial []) c → ∀ a out,
        c.point () = .ready (.ret a) → a.summary = some out →
          ∀ f : Function, f.value = out.function → UNITS f = out.unit := by
  intro hclaim
  have hrun : ((run (desk parse true) (initial [])
      (served (.smoothed 60 (some "RESISTANCE".toList)) 5)).map fun c =>
        ((answerOf (c.point ())).summary.map fun out => (out.function, out.unit))) =
      some (some ("RES".toList, "V".toList)) := by
    decide +kernel
  obtain ⟨c, hc, hend⟩ := Option.map_eq_some_iff.mp hrun
  obtain ⟨out, hout, hpair⟩ := Option.map_eq_some_iff.mp hend
  obtain ⟨hfunction, hunit⟩ := Prod.mk.inj hpair
  have hr : Reach (desk parse true) (Inserts ServerMade) (initial []) c :=
    reach_of_run hc (by
      intro a ha s s'
      cases a with
      | env row => exact absurd ha (by simp [served])
      | _ => trivial)
  have hpoint := eq_of_answerOf (q := c.point ()) (by simp [hout])
  have hunits := hclaim c hr _ out hpoint hout .RESISTANCE hfunction.symm
  rw [hunit] at hunits
  exact absurd hunits (by decide)

/-- The request for the function the meter is in. -/
theorem smoothed_unit_voltage :
    ∃ c : Config (Server Rat) Exc Answer Unit (State Unit),
      Reach (desk parse true) (Inserts ServerMade) (initial []) c ∧
      ∃ out, (answerOf (c.point ())).summary = some out ∧ out.samples = 1 ∧
        ∀ f : Function, f.value = out.function → UNITS f = out.unit := by
  have hrun : ((run (desk parse true) (initial [])
      (served (.smoothed 60 (some "VOLT_DC".toList)) 5)).map fun c =>
        ((answerOf (c.point ())).summary.map (·.samples),
          ((c.shared.trace ()).request.function, (c.shared.trace ()).own.map (·.function)))) =
      some (some 1, some "VOLT_DC".toList, some "VOLT".toList) := by
    decide +kernel
  obtain ⟨c, hc, hend⟩ := Option.map_eq_some_iff.mp hrun
  obtain ⟨hsummary, hend⟩ := Prod.mk.inj hend
  obtain ⟨hname, hown⟩ := Prod.mk.inj hend
  obtain ⟨out, hout, hsamples⟩ := Option.map_eq_some_iff.mp hsummary
  have hr : Reach (desk parse true) (Inserts ServerMade) (initial []) c :=
    reach_of_run hc (by
      intro a ha s s'
      cases a with
      | env row => exact absurd ha (by simp [served])
      | _ => trivial)
  have hpoint := eq_of_answerOf (q := c.point ()) (by simp [hout])
  obtain ⟨_, _, hiff⟩ := smoothed_unit (by simp) hr hpoint hout
  refine ⟨c, hr, out, hout, hsamples, (hiff.mpr ?_).2⟩
  intro name hname' reading hreading f g hf hg
  obtain rfl := Option.some.inj (hname.symm.trans hname')
  have hfunction : reading.function = "VOLT".toList := by
    rw [Option.mem_def.mp hreading] at hown
    exact Option.some.inj hown
  obtain rfl : f = .VOLT_DC := name_injective hf
  obtain rfl : g = .VOLT_DC := value_injective (hg.trans hfunction)
  rfl

/-- A row that an earlier clock has dated after the reading. -/
def later : Reading Rat := ⟨100, "VOLT".toList, 7, "V".toList⟩

/-- A summary that goes beyond its reading. -/
theorem smoothed_window_exceeded :
    ¬ ∀ c : Config (Server Rat) Exc Answer Unit (State Unit),
      Reach (desk parse true) Free (initial [later]) c → ∀ a reading,
        c.point () = .ready (.ret a) → (c.shared.trace ()).own = some reading →
          ∀ row ∈ (c.shared.trace ()).window, row.timestamp ≤ reading.timestamp := by
  intro hclaim
  have hrun : ((run (desk parse true) (initial [later])
      (served (.status 60) 9)).map fun c =>
        ((answerOf (c.point ())).summary.isSome,
          ((c.shared.trace ()).own.map (·.timestamp),
            decide (later ∈ (c.shared.trace ()).window)))) =
      some (true, some 10, true) := by
    decide +kernel
  obtain ⟨c, hc, hend⟩ := Option.map_eq_some_iff.mp hrun
  obtain ⟨hsummary, hend⟩ := Prod.mk.inj hend
  obtain ⟨hown, hmem⟩ := Prod.mk.inj hend
  obtain ⟨reading, hown, hts⟩ := Option.map_eq_some_iff.mp hown
  have hr : Reach (desk parse true) Free (initial [later]) c :=
    reach_of_run hc fun _ _ _ _ => trivial
  have hpoint := eq_of_answerOf (q := c.point ()) (by
    intro hnone
    rw [hnone] at hsummary
    cases hsummary)
  have hle := hclaim c hr _ reading hpoint hown later (of_decide_eq_true hmem)
  rw [hts] at hle
  exact absurd hle (by decide +kernel)

/-- A status with nothing later in the table. -/
theorem smoothed_window_status :
    ∃ c : Config (Server Rat) Exc Answer Unit (State Unit),
      Reach (desk parse true) Free (initial []) c ∧ (c.shared.trace ()).window ≠ [] ∧
      ∀ row ∈ (c.shared.trace ()).window, -50 ≤ row.timestamp ∧ row.timestamp ≤ 10 := by
  have hrun : ((run (desk parse true) (initial []) (served (.status 60) 9)).map fun c =>
        ((answerOf (c.point ())).summary.isSome, (c.shared.trace ()).request.seconds,
          (c.shared.trace ()).own.map (·.timestamp),
          (c.shared.trace ()).table.map (·.timestamp), (c.shared.trace ()).window.length)) =
      some (true, 60, some 10, [10], 1) := by
    decide +kernel
  obtain ⟨c, hc, hend⟩ := Option.map_eq_some_iff.mp hrun
  simp only [Prod.mk.injEq] at hend
  obtain ⟨hsummary, hseconds, hown, htable, hlength⟩ := hend
  obtain ⟨out, hout⟩ := Option.isSome_iff_exists.mp hsummary
  obtain ⟨own, hown, hts⟩ := Option.map_eq_some_iff.mp hown
  have hr : Reach (desk parse true) Free (initial []) c :=
    reach_of_run hc fun _ _ _ _ => trivial
  have hpoint := eq_of_answerOf (q := c.point ()) (by simp [hout])
  obtain ⟨reading, hreading, _, hiff⟩ := smoothed_window hr hpoint hout
  obtain rfl := Option.some.inj (hown.symm.trans (hreading rfl))
  have hall := hiff.mpr (by
    intro row hrow _
    have hmem : row.timestamp ∈ ([10] : List Rat) := htable ▸ List.mem_map_of_mem hrow
    rw [List.mem_singleton.mp hmem, hts])
  refine ⟨c, hr, List.ne_nil_of_length_pos (by omega), ?_⟩
  intro row hrow
  obtain ⟨_, _, hlower, hupper⟩ := hall row hrow
  rw [hts, hseconds] at hlower
  rw [hts] at hupper
  exact ⟨by linarith, hupper⟩

/-- A status between two other writers' rows. -/
theorem status_brackets_reading_shared :
    ∃ c : Config (Server Rat) Exc Answer Unit (State Unit),
      Reach (desk parse true) Free (initial [later]) c ∧
      ∃ out lo hi, c.point () = .ready (.ret (.status out)) ∧ out.smoothed.min = some lo ∧
        out.smoothed.max = some hi ∧ lo ≤ out.value ∧ out.value ≤ hi := by
  have hrun : ((run (desk parse true) (initial [later])
      (served (.status 60) 9)).map fun c => match answerOf (c.point ()) with
        | .status _ => true
        | _ => false) = some true := by
    decide +kernel
  obtain ⟨c, hc, hend⟩ := Option.map_eq_some_iff.mp hrun
  cases ha : answerOf (c.point ()) with
  | nothing => simp [ha] at hend
  | smoothed out => simp [ha] at hend
  | status out =>
      have hpoint := eq_of_answerOf (q := c.point ()) (by simp [ha, Answer.summary])
      rw [ha] at hpoint
      have hr : Reach (desk parse true) Free (initial [later]) c :=
        reach_of_run hc fun _ _ _ _ => trivial
      obtain ⟨_, _, lo, hi, _, hlo, hhi, _, hbetween, _⟩ := status_brackets_reading hr hpoint
      exact ⟨c, hr, out, lo, hi, hpoint, hlo, hhi, hbetween.1, hbetween.2⟩

end Smoothing
