import XdmServer.WireLines
import XdmServer.Interleaving
import XdmServer.Mock

/-! # The front panel is not locked

    SCPI clients, the web UI and the poller on one manager over the mock, with failures of
    its transactions and changes at its front panel at any time.

    `in_local` says that the meter is in LOCAL mode whenever nobody is at it, in every run in
    which no line of a client is executed that reads `SYST:REM`. -/

namespace FrontPanel

open PyText Coroutine Commands Device Mock Interleaving

variable {ι V : Type}

/-- What a task is asked to do. -/
inductive Errand where
  | start
  | stop
  | entry (e : WireLines.Entry)
  /-- `POST /api/rate` and `POST /control/rate` -/
  | rate (name : Str)
  /-- `POST /api/auto-range` and `POST /control/auto-range` -/
  | autoRange

/-- The program of an errand, down to the calls of the transport. -/
def Errand.code (float : Str → Option V) (timeout : Rat) : Errand → Coro Line Exc Unit
  | .start => (lineManager timeout).start
  | .stop => (lineManager timeout).stop
  | .entry e => (e.code float).translate (lineManager timeout).perform
  | .rate name => ((do let _ ← Driver.postRate name) : Coro Calls Exc Unit).translate
      (lineManager timeout).perform
  | .autoRange => ((do let _ ← Driver.postAutoRange) : Coro Calls Exc Unit).translate
      (lineManager timeout).perform

/-- What tests do to the mock. -/
inductive Hook where
  | setFrontPanel (function : Option Function) (rate : Option Rate) (autoRange : Option Bool)
  | failNext (message : Str)

/-- The lock, the mock, and what each task is about. -/
structure Panel (ι : Type) where
  holder : Option ι
  meter : MockTransport
  serving : ι → Errand
  /-- How the last transaction of each task has got past the transport: the exception that
      it raised at once, or the command that the meter executes after its latency. -/
  passage : ι → Except Exc Str

section System

variable [DecidableEq ι] (repr : Rat → Str)

/-- What a call of the transport does at once. -/
def Panel.invoke (s : Panel ι) (t : ι) : LineOp → Panel ι
  | .transact command _ _ => { s with
      meter := s.meter.enter.2
      passage := Function.update s.passage t (s.meter.enter.1.map fun _ => command) }
  | _ => s

/-- How a call of the mock comes out. -/
def Panel.answer (s : Panel ι) (t : ι) : (o : LineOp) → Option (Except Exc o.Res × Panel ι)
  | .acquire => if s.holder.isNone then some (.ok (), { s with holder := some t }) else none
  | .release => some (.ok (), { s with holder := none })
  | .isOpen => some (.ok s.meter.isOpen, s)
  | .open_ => some (.ok (), { s with meter := s.meter.open_ })
  | .close => some (.ok (), { s with meter := s.meter.close })
  | .transact command expectResponse timeout =>
      match s.passage t with
      | .error e => some (.error e, s)
      | .ok _ =>
          let x := s.meter.respond repr command expectResponse timeout
          some (x.1, { s with meter := x.2 })

/-- What a test does to the mock. -/
def Panel.hook (s : Panel ι) : Hook → Panel ι
  | .setFrontPanel function rate autoRange => { s with
      meter := s.meter.setFrontPanel function rate autoRange }
  | .failNext message => { s with meter := { s.meter with failNext := some message } }

/-- The server on the mock. -/
def panel (float : Str → Option V) (timeout : Rat) : System Line Exc Unit ι (Panel ι) where
  Entry := Errand
  Choice := Unit
  Env := Hook
  code := Errand.code float timeout
  start s t e := some { s with serving := Function.update s.serving t e }
  invoke := Panel.invoke
  answer s t o _ := s.answer repr t o
  env s x := some (s.hook x)

end System

/-- A new mock, and nothing asked yet. -/
def initial : Config Line Exc Unit ι (Panel ι) where
  shared := ⟨none, {}, fun _ => .stop, fun _ => .ok []⟩
  point _ := .ready (.ret ())

/-- The meter is in LOCAL mode whenever the transport is open and no transaction and no
    connect is in progress. -/
def InLocal (s : Panel ι) : Prop :=
  s.meter.isOpen = true → (∀ t, s.holder = some t → s.serving t = .stop) →
    s.meter.remote = false

/-- A command that does not lock the front panel. -/
def Quiet (command : Str) : Prop := upper (strip command) ≠ REMOTE

instance (command : Str) : Decidable (Quiet command) :=
  inferInstanceAs (Decidable (_ ≠ _))

/-- Whether a client's line is served. -/
def isLine : Errand → Bool
  | .entry (.line _) => true
  | _ => false

/-- The meter executes no `SYST:REM` for a client. -/
def Harmless [DecidableEq ι] {repr : Rat → Str} {float : Str → Option V} {timeout : Rat}
    (s : Panel ι) (a : Action (panel repr float timeout : System _ _ _ ι _)) (_ : Panel ι) : Prop :=
  match a with
  | .answer t _ =>
      isLine (s.serving t) = true → ∀ command, s.passage t = .ok command → Quiet command
  | _ => True

/-! ## What the server sends of its own -/

/-- The transactions of a program are all in `A`. -/
def Says (A : Str → Prop) : LineOp → Prop
  | .transact command _ _ => A command
  | _ => True

/-- The manager makes the transactions it is asked for, and `SYST:LOC`. -/
theorem says_confined {A : Str → Prop} (timeout : Rat) (hlocal : A LOCAL) :
    (lineManager timeout).Confined A (Says A) where
  isOpen := Coro.uses_op trivial
  open_ := Coro.uses_op trivial
  close := Coro.uses_op trivial
  transact h _ _ := Coro.uses_op h
  greeting := hlocal

theorem says_lock {A : Str → Prop} : lineLock.Confined (Says A) :=
  ⟨Coro.uses_op trivial, Coro.uses_op trivial⟩

/-- No command of the driver's vocabulary locks the front panel. -/
theorem quiet_vocabulary : ∀ command ∈ WireLines.vocabulary, Quiet command := by decide

/-- The selection of a function starts with a letter of its own. -/
theorem quiet_configureCommand (f : Function) (rtdType : Str) :
    Quiet (configureCommand f rtdType) := by
  have hbase : CONF_COMMANDS f = 'C' :: (CONF_COMMANDS f).tail := by cases f <;> rfl
  obtain ⟨rest, hrest⟩ : ∃ rest, configureCommand f rtdType = 'C' :: rest := by
    rw [configureCommand_eq, hbase]
    exact ⟨_, rfl⟩
  obtain ⟨rest', -, hstrip, -⟩ := strip_cons rest (c := 'C') (by decide)
  have hupper : (upper (strip (configureCommand f rtdType))).head? = some 'C' := by
    rw [hrest, hstrip, upper_cons, show upperChar 'C' = ['C'] by decide]
    rfl
  have hne : upper (strip (configureCommand f rtdType)) ≠ REMOTE := by
    intro h
    rw [h] at hupper
    exact absurd hupper (by decide)
  exact hne

/-- Of its own the server sends nothing that locks the front panel. -/
theorem quiet_code (float : Str → Option V) (timeout : Rat) {e : Errand} (h : isLine e = false) :
    (e.code float timeout).Uses (Says Quiet) := by
  have hconfined := says_confined timeout (quiet_vocabulary LOCAL (by decide))
  have hspeaks : ∀ {p : Coro Calls Exc Unit}, WireLines.Speaks p →
      (p.translate (lineManager timeout).perform).Uses (Says Quiet) := fun hp =>
    hconfined.translate says_lock (hp.mono fun c => quiet_vocabulary c.command)
  cases e with
  | start => exact says_lock.hold hconfined.connect
  | stop => exact says_lock.hold hconfined.close
  | rate name => exact hspeaks ((WireLines.speaks_postRate name).bind fun _ => Coro.uses_pure _)
  | autoRange => exact hspeaks (WireLines.speaks_postAutoRange.bind fun _ => Coro.uses_pure _)
  | entry e =>
      cases e with
      | line l => cases h
      | driver op => exact hspeaks (WireLines.speaks_driver float op)
      | function name rtdType =>
          exact hconfined.translate says_lock (WireLines.uses_function float
            (fun f _ => quiet_configureCommand f rtdType) quiet_vocabulary)

/-! ## The invariant -/

/-- The command that an operation sends. -/
def commandOf : LineOp → Option Str
  | .transact command _ _ => some command
  | _ => none

/-- A client may send anything, the rest of the server nothing that locks the panel.  A task
    knows whether it serves a client and, while it waits, what it has sent. -/
def speech : Protocol Line Exc where
  Ghost := Bool
  Held := Bool × Option Str
  invoke g o h := h = (g, commandOf o) ∧ (g = true ∨ Says Quiet o)
  answer h _ _ g := g = h.1

/-- Each errand obeys the rule of speech. -/
theorem speech_code (float : Str → Option V) (timeout : Rat) (e : Errand) :
    speech.wp (e.code float timeout) (fun _ _ => True) (isLine e) := by
  cases he : isLine e with
  | true =>
      have hany : speech.Maintains (fun g => g = true) (e.code float timeout) := by
        refine Protocol.maintains_of_ops ?_ _
        rintro o g rfl
        exact ⟨_, ⟨rfl, .inl rfl⟩, fun r g' hans => hans⟩
      exact Protocol.wp_mono (hany true rfl) fun _ _ _ => trivial
  | false =>
      have hquiet : speech.Maintains (fun g => g = false) (e.code float timeout) := by
        refine Protocol.maintains_of_uses (quiet_code float timeout he) fun o ho => ?_
        refine Protocol.maintains_op ?_
        rintro g rfl
        exact ⟨_, ⟨rfl, .inr ho⟩, fun r g' hans => hans⟩
      exact Protocol.wp_mono (hquiet false rfl) fun _ _ _ => trivial

/-- What is true of a task: a command that has got past its transport is the one it waits for. -/
def Knows (s : Panel ι) (t : ι) : Phase speech → Prop
  | .ready g => g = isLine (s.serving t)
  | .waiting h => h.1 = isLine (s.serving t) ∧
      ∀ command command', h.2 = some command → s.passage t = .ok command' → command' = command

/-- The mock is in local mode, and every task stands as its ghost state says. -/
structure Inv (s : Panel ι) (ph : ι → Phase speech) : Prop where
  remote : s.meter.remote = false
  knows : ∀ t, Knows s t (ph t)

/-- What a task knows depends on nothing but what it serves and has sent. -/
theorem Knows.congr {s s' : Panel ι} {t : ι} {φ : Phase speech} (h : Knows s t φ)
    (hserving : s'.serving t = s.serving t) (hpassage : s'.passage t = s.passage t) :
    Knows s' t φ := by
  cases φ with
  | ready g => exact h.trans (congrArg isLine hserving.symm)
  | waiting held =>
      refine ⟨h.1.trans (congrArg isLine hserving.symm), ?_⟩
      rw [hpassage]
      exact h.2

/-- Opening the mock's port leaves its front panel as it is. -/
theorem enter_remote (m : MockTransport) : m.enter.2.remote = m.remote := by
  unfold MockTransport.enter
  cases m.isOpen with
  | false => rfl
  | true => cases m.failNext <;> rfl

section Runs

variable [DecidableEq ι] {repr : Rat → Str} {float : Str → Option V} {timeout : Rat}

/-- Asking for an operation leaves the front panel as it is. -/
theorem Panel.invoke_remote (s : Panel ι) (t : ι) (o : LineOp) :
    (s.invoke t o).meter.remote = s.meter.remote := by
  cases o with
  | transact command expects limit => exact enter_remote s.meter
  | _ => rfl

theorem Panel.invoke_serving (s : Panel ι) (t : ι) (o : LineOp) :
    (s.invoke t o).serving = s.serving := by
  cases o <;> rfl

/-- Asking for an operation leaves the other tasks' passages as they are. -/
theorem Panel.invoke_passage (s : Panel ι) {t u : ι} (o : LineOp) (hu : u ≠ t) :
    (s.invoke t o).passage u = s.passage u := by
  cases o with
  | transact command expects limit => exact Function.update_of_ne hu ..
  | _ => rfl

/-- What gets past the transport is the command of the transaction. -/
theorem Panel.passage_invoke (s : Panel ι) {t : ι} {o : LineOp} {command command' : Str}
    (ho : commandOf o = some command) (h : (s.invoke t o).passage t = .ok command') :
    command' = command := by
  cases o with
  | transact sent expects limit =>
      obtain rfl := Option.some.inj ho
      simp only [Panel.invoke, Function.update_self] at h
      cases henter : s.meter.enter.1 with
      | error e =>
          rw [henter] at h
          cases h
      | ok u =>
          rw [henter] at h
          exact (Except.ok.inj h).symm
  | _ => cases ho

omit [DecidableEq ι] in
/-- **One answer**: the meter stays in LOCAL mode, if what it executes is quiet. -/
theorem Panel.answer_spec {s s' : Panel ι} {t : ι} {o : LineOp} {r : Except Exc o.Res}
    (h : s.answer repr t o = some (r, s')) (hremote : s.meter.remote = false)
    (hquiet : ∀ command command', commandOf o = some command → s.passage t = .ok command' →
      Quiet command) :
    s'.meter.remote = false ∧ s'.serving = s.serving ∧ s'.passage = s.passage := by
  cases o with
  | acquire =>
      simp only [Panel.answer] at h
      split at h
      · obtain ⟨-, rfl⟩ := Prod.mk.inj (Option.some.inj h)
        exact ⟨hremote, rfl, rfl⟩
      · cases h
  | transact command expects limit =>
      simp only [Panel.answer] at h
      split at h
      · obtain ⟨-, rfl⟩ := Prod.mk.inj (Option.some.inj h)
        exact ⟨hremote, rfl, rfl⟩
      · next passed hpassed =>
          obtain ⟨-, rfl⟩ := Prod.mk.inj (Option.some.inj h)
          refine ⟨?_, rfl, rfl⟩
          rw [MockTransport.respond_state]
          exact MockTransport.handle_remote repr (hquiet command passed rfl hpassed) hremote
  | _ =>
      obtain ⟨-, rfl⟩ := Prod.mk.inj (Option.some.inj h)
      exact ⟨hremote, rfl, rfl⟩

/-- Each step keeps the panel unlocked, and every task within the rule of speech. -/
theorem sound : Sound speech (panel repr float timeout : System _ _ _ ι _) Harmless
    (fun _ _ => True) Inv where
  start := by
    intro s s' ph t e g r hI _ _ _ hstart
    obtain rfl := Option.some.inj hstart
    refine ⟨isLine e, speech_code float timeout e, hI.remote, ?_⟩
    refine forall_update (R := Knows _) ?_ fun u hu => ?_
    · exact congrArg isLine (Function.update_self t e s.serving).symm
    · exact (hI.knows u).congr (Function.update_of_ne hu ..) rfl
  invoke := by
    intro s ph t o g h hI hph ⟨hheld, hsays⟩ _
    refine ⟨(s.invoke_remote t o).trans hI.remote, ?_⟩
    refine forall_update (R := Knows _) ?_ fun u hu => ?_
    · have hk := hI.knows t
      rw [hph] at hk
      subst hheld
      refine ⟨?_, ?_⟩
      · show g = isLine ((s.invoke t o).serving t)
        rw [s.invoke_serving t o]
        exact hk
      · exact fun command command' ho hpassage => s.passage_invoke ho hpassage
    · exact (hI.knows u).congr (congrFun (s.invoke_serving t o) u) (s.invoke_passage o hu)
  answer := by
    intro s s' ph t o h x r hI hph ⟨g, hheld, hsays⟩ hok hans
    have hk := hI.knows t
    rw [hph, hheld] at hk
    obtain ⟨hserving, hsent⟩ := hk
    have hquiet : ∀ command command', commandOf o = some command → s.passage t = .ok command' →
        Quiet command := by
      intro command command' ho hpassage
      obtain rfl := hsent command command' ho hpassage
      cases o with
      | transact sent expects limit =>
          obtain rfl := Option.some.inj ho
          obtain hg | hsays := hsays
          · -- a client's line: the condition
            exact hok (hserving.symm.trans hg) _ hpassage
          · exact hsays
      | _ => cases ho
    obtain ⟨hremote, hserving', hpassage'⟩ := Panel.answer_spec hans hI.remote hquiet
    refine ⟨g, by rw [hheld]; rfl, hremote, ?_⟩
    refine forall_update (R := Knows s') ?_ fun u hu => ?_
    · exact hserving.trans (congrArg isLine (congrFun hserving' t).symm)
    · exact (hI.knows u).congr (congrFun hserving' u) (congrFun hpassage' u)
  env := by
    intro s s' ph x hI _ henv
    obtain rfl := Option.some.inj henv
    cases x with
    | setFrontPanel function rate autoRange =>
        exact ⟨hI.remote, fun t => (hI.knows t).congr rfl rfl⟩
    | failNext message => exact ⟨hI.remote, fun t => (hI.knows t).congr rfl rfl⟩

/-- **THE FRONT PANEL IS NEVER LEFT LOCKED**, in any run in which the meter executes no line of
    a client that reads `SYST:REM`. -/
theorem in_local {c : Config Line Exc Unit ι (Panel ι)}
    (hc : Reach (panel repr float timeout) Harmless initial c) : InLocal c.shared := by
  have hstart : Inv (initial : Config Line Exc Unit ι _).shared fun _ => .ready false :=
    ⟨rfl, fun _ => rfl⟩
  obtain ⟨ph, hI, -⟩ := sound.reach hstart (fun _ => trivial) hc
  exact fun _ _ => hI.remote

end Runs

/-! ## Two runs -/

/-- A step of two tasks. -/
abbrev Act : Type :=
  Action (panel (fun _ => "0.0".toList) (fun raw => some raw) 2 : System Line Exc Unit Bool _)

instance (passage : Except Exc Str) :
    Decidable (∀ command, passage = .ok command → Quiet command) :=
  match passage with
  | .error _ => .isTrue fun _ h => absurd h (by simp)
  | .ok command => decidable_of_iff (Quiet command)
      ⟨fun h _ hc => Except.ok.inj hc ▸ h, fun h => h command rfl⟩

instance (s : Panel Bool) (a : Act) (s' : Panel Bool) : Decidable (Harmless s a s') :=
  match a with
  | .answer _ _ => inferInstanceAs (Decidable (_ → _))
  | .start _ _ => .isTrue trivial
  | .invoke _ => .isTrue trivial
  | .env _ => .isTrue trivial

/-- A client's line, without its newline. -/
def line (text : String) (h : newline ∉ text.toList.map fun c => c.toNat.toUInt8) : Errand :=
  .entry (.line ⟨text.toList.map fun c => c.toNat.toUInt8, h⟩)

/-- So many calls of a task on its lock and its transport. -/
def ops (t : Bool) : Nat → List Act
  | 0 => []
  | n + 1 => .invoke t :: .answer t () :: ops t n

/-- A client turns the rate up, while the web UI selects a function; a failure drops the
    connection under the client, and the next call greets the meter again. -/
def shared : List Act :=
  [.start false .start] ++ ops false 4
    ++ [.start false (line "rate f" (by decide)),
      .start true (.entry (.function "TEMPERATURE".toList "PT100".toList))]
    ++ ops false 2 ++ [.invoke true, .env (.failNext "unplugged".toList)] ++ ops false 3
    ++ [.answer true (), .env (.setFrontPanel (some .DIODE) none none)] ++ ops true 5

/-- A session with a client, a poll and a hand at the panel. -/
theorem in_local_shared : ∃ c,
    runWithin (panel (fun _ => "0.0".toList) (fun raw => some raw) 2) Harmless initial shared
      = some c ∧ InLocal c.shared := by
  have hrun : (runWithin (panel (fun _ => "0.0".toList) (fun raw => some raw) 2) Harmless initial
      shared).isSome = true := by
    decide +kernel
  obtain ⟨c, hc⟩ := Option.isSome_iff_exists.mp hrun
  exact ⟨c, hc, in_local (reach_of_runWithin hc)⟩

/-- A client's line, on a transport that is not open yet. -/
def locking : List Act := .start false (line " syst:rem" (by decide)) :: ops false 6

/-- **A locked front panel**: the client's `SYST:REM` goes to the meter as it is. -/
theorem not_in_local :
    ¬ ∀ (ι V : Type) (_ : DecidableEq ι) (repr : Rat → Str) (float : Str → Option V)
      (timeout : Rat) (c : Config Line Exc Unit ι (Panel ι)),
      Reach (panel repr float timeout) Free initial c → InLocal c.shared := by
  intro h
  have hrun : ((run (panel (fun _ => "0.0".toList) (fun raw => some raw) 2) initial locking).map
      fun c => (c.shared.meter.isOpen, c.shared.holder, c.shared.meter.remote))
        = some (true, none, true) := by
    decide +kernel
  obtain ⟨c, hc, hend⟩ := Option.map_eq_some_iff.mp hrun
  obtain ⟨hopen, hend⟩ := Prod.mk.inj hend
  obtain ⟨hfree, hremote⟩ := Prod.mk.inj hend
  have hlocal := h Bool Str inferInstance _ _ 2 c (reach_of_run hc fun _ _ _ _ => trivial) hopen
  have hrest : ∀ t, c.shared.holder = some t → c.shared.serving t = .stop := by
    intro t ht
    rw [hfree] at ht
    cases ht
  rw [hlocal hrest] at hremote
  cases hremote

end FrontPanel
