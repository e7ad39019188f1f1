import XdmServer.ReplyRules
import XdmServer.Interleaving

/-! # Replies that come late

    Calls on one manager over the serial transport, every call of pyserial an operation
    of its own.  The meter may send the reply line to any line it has been sent at any
    later moment; what has arrived and has not been read is dropped by
    `reset_input_buffer`, and when the port is closed or opened.

    `own_reply` says that a query returns the reply to its own line in every run in
    which the first line to arrive between the reset and the read is no other's. -/

namespace LateReplies

open PyText Coroutine Commands Device PortScript Interleaving

variable {ι : Type}

/-- What a task is at: its call; whether it has found the transport closed, so that its
    next transaction is the greeting; whether it has reset the input for a query of its
    own and not read yet; and the number of the last line it has written. -/
structure Task where
  call : Call
  closed : Bool := false
  listening : Bool := false
  own : Option Nat := none

/-- The lock, the port, and what has gone over the line in both directions. -/
structure State (ι : Type) where
  locked : Option ι
  /-- `_serial`, and which ports are open. -/
  serial : Option Handle
  opened : Handle → Bool
  constructed : Nat
  /-- The lines that have arrived and have not been read, with the number of the line
      each of them answers. -/
  buffer : List (Nat × Bytes)
  /-- Every line the meter has been sent, and every line it has sent. -/
  sent : List Bytes
  replies : List (Nat × Bytes)
  task : ι → Task

/-- How an operation comes out. -/
inductive Choice where
  | done
  | raises (e : FlushError)

section Line

variable [DecidableEq ι]

namespace State

/-- Other bookkeeping for a task. -/
def setTask (s : State ι) (t : ι) (task : Task) : State ι :=
  { s with task := Function.update s.task t task }

/-- What a look at the transport tells the task. -/
def look (s : State ι) (t : ι) (isOpen : Bool) : State ι :=
  s.setTask t { s.task t with closed := (s.task t).closed || !isOpen }

/-- The end of a query's wait, one way or the other. -/
def quiet (s : State ι) (t : ι) : State ι :=
  s.setTask t { s.task t with listening := false }

/-- `ser.write`. -/
def write (s : State ι) (t : ι) (data : Bytes) : State ι :=
  { s with sent := s.sent ++ [data] }.setTask t { s.task t with own := some s.sent.length }

/-- The event loop's operations. -/
def loop (s : State ι) (t : ι) : (o : SerialOp) → Choice → Option (Except Exc o.Res × State ι)
  | .acquire, .done => if s.locked = none then some (.ok (), { s with locked := some t }) else none
  | .release, .done => some (.ok (), { s with locked := none }.quiet t)
  | .getSerial, .done => some (.ok s.serial, s.look t s.serial.isSome)
  | .setSerial ser, .done => some (.ok (), { s with serial := ser })
  | .handleIsOpen ser, .done => some (.ok (s.opened ser), s.look t (s.opened ser))
  | .toThread (.construct _ _), .done => some (.ok s.constructed, { s with
      opened := Function.update s.opened s.constructed true
      constructed := s.constructed + 1
      buffer := [] })
  | .toThread (.construct _ _), .raises e => some (.error e.toExc, s)
  | .toThread (.close ser), .done => some (.ok (), { s with
      opened := Function.update s.opened ser false
      buffer := [] })
  | .toThread (.close _), .raises e => some (.error e.toExc, s)
  | _, _ => none

/-- The worker's operations. -/
def worker (s : State ι) (t : ι) : (o : PortOp) → Choice → Option (Except Exc o.Res × State ι)
  | .getSerial, .done => some (.ok s.serial, s)
  | .resetInputBuffer _, .done => some (.ok (), { s with buffer := [] }.setTask t
      { s.task t with
        listening := asks (s.task t).call && !(s.task t).closed
        own := none })
  | .write _ data, .done => some (.ok (), s.write t data)
  -- the line may have gone out nevertheless
  | .write _ data, .raises e => some (.error e.toExc, (s.write t data).quiet t)
  | .flush _, .done => some (.ok (), s.setTask t { s.task t with closed := false })
  | .setTimeout _ _, .done => some (.ok (), s)
  | .readline _, .done =>
      match s.buffer with
      -- the timeout
      | [] => some (.ok [], s.quiet t)
      | line :: rest => some (.ok line.2, { s with buffer := rest }.quiet t)
  | .getSerial, .raises _ => none
  | _, .raises e => some (.error e.toExc, s.quiet t)

/-- The meter replies to the line of this number, if it has not yet. -/
def deliver (s : State ι) (n : Nat) (line : Bytes) : Option (State ι) :=
  if n < s.sent.length ∧ n ∉ s.replies.map Prod.fst ∧ newline ∉ line then
    some { s with
      buffer := s.buffer ++ [(n, line ++ [newline])]
      replies := s.replies ++ [(n, line ++ [newline])] }
  else none

end State

/-- Calls on one manager. -/
def line (T : SerialTransport) (defaultTimeout : Rat) :
    System Wired Exc (Option Str) ι (State ι) where
  Entry := Call
  Choice := Choice
  Env := Nat × Bytes
  code c := ((serialManager T defaultTimeout).call c).translate (wired T)
  start s t c := some (s.setTask t { call := c })
  invoke s _ _ := s
  answer s t o x := match o with
    | .inl o => s.loop t o x
    | .inr o => s.worker t o x
  env s x := s.deliver x.1 x.2

/-- Nothing has been opened yet. -/
def initial : Config Wired Exc (Option Str) ι (State ι) where
  shared := {
    locked := none
    serial := none
    opened := fun _ => false
    constructed := 0
    buffer := []
    sent := []
    replies := []
    task := fun _ => { call := .write [] none } }
  point _ := .ready (.ret none)

/-- While a query listens and nothing has arrived, only the reply to its own line may
    arrive. -/
def Punctual {T : SerialTransport} {defaultTimeout : Rat} (s : State ι)
    (a : Action (line T defaultTimeout : System _ _ _ ι _)) (_ : State ι) : Prop :=
  match a with
  | .env x => ∀ t, (s.task t).listening = true → s.buffer = [] → (s.task t).own = some x.1
  | _ => True

end Line

/-! ## The invariant -/

/-- The task's last line is line `n`, and it is the line of its call. -/
def State.HasSent (s : State ι) (t : ι) (n : Nat) : Prop :=
  (s.task t).own = some n ∧ ∃ data, IsLineOf (s.task t).call data ∧ s.sent[n]? = some data

/-- What the stage of a task says of the state. -/
def State.Fits (s : State ι) (t : ι) : Stage → Prop
  | .outside => (s.task t).listening = false ∧ (s.task t).closed = false
  | .inside closed => (s.task t).listening = false ∧ (s.task t).closed = closed
  | .clear => (s.task t).listening = true ∧ (s.task t).own = none ∧ s.buffer = []
  | .wrote n => (s.task t).listening = true ∧ s.HasSent t n ∧ ∀ x ∈ s.buffer.head?, x.1 = n
  | .got n raw => s.HasSent t n ∧ (n, raw) ∈ s.replies
  | .done n raw => s.HasSent t n ∧ (n, raw) ∈ s.replies
  | .unanswered => True

/-- The bookkeeping of a task agrees with its ghost state. -/
structure Knows (s : State ι) (t : ι) (g : Ghost) : Prop where
  call : (s.task t).call = g.call
  locked : g.stage.holds → s.locked = some t
  fits : s.Fits t g.stage

/-- The ghost state of a task, also while it waits. -/
def ghost : Phase rules → Ghost
  | .ready g => g
  | .waiting h => h

/-- **The invariant**. -/
structure Inv (s : State ι) (ph : ι → Phase rules) : Prop where
  arrived : ∀ x ∈ s.buffer, x ∈ s.replies
  knows : ∀ t, Knows s t (ghost (ph t))

/-- `s'` has whatever `s` had, and `t` is as it was. -/
structure Extends (s s' : State ι) (t : ι) : Prop where
  task : s'.task t = s.task t
  sent : ∀ (n : Nat) (data : Bytes), s.sent[n]? = some data → s'.sent[n]? = some data
  replies : ∀ x ∈ s.replies, x ∈ s'.replies

/-- What has been sent stays sent while the task extends what it did. -/
theorem State.HasSent.extend {s s' : State ι} {t : ι} {n : Nat} (h : Extends s s' t)
    (hn : s.HasSent t n) : s'.HasSent t n := by
  obtain ⟨hown, data, hline, hdata⟩ := hn
  rw [State.HasSent, h.task]
  exact ⟨hown, data, hline, h.sent n data hdata⟩

/-- A line stays sent where the task's own lines and the line's record are the same. -/
theorem State.HasSent.of_eq {s s' : State ι} {t : ι} {n : Nat} (hn : s.HasSent t n)
    (hown : (s'.task t).own = (s.task t).own) (hcall : (s'.task t).call = (s.task t).call)
    (hsent : s'.sent = s.sent) : s'.HasSent t n := by
  rw [State.HasSent, hown, hcall, hsent]
  exact hn

/-- **Frame**: what a task knows is not touched by the steps of others, nor by the loss of
    what has arrived. -/
theorem Knows.extend {s s' : State ι} {t : ι} {g : Ghost} (hk : Knows s t g)
    (h : Extends s s' t) (hlock : g.stage.holds →
      s'.locked = s.locked ∧ (s'.buffer = s.buffer ∨ s'.buffer = [])) : Knows s' t g := by
  obtain ⟨hcall, hlocked, hfits⟩ := hk
  refine ⟨h.task ▸ hcall, fun hh => (hlock hh).1.trans (hlocked hh), ?_⟩
  obtain ⟨c, stage⟩ := g
  cases stage with
  | outside => exact ⟨h.task ▸ hfits.1, h.task ▸ hfits.2⟩
  | inside closed => exact ⟨h.task ▸ hfits.1, h.task ▸ hfits.2⟩
  | clear =>
      refine ⟨h.task ▸ hfits.1, h.task ▸ hfits.2.1, ?_⟩
      obtain hsame | hnone := (hlock trivial).2
      · exact hsame.trans hfits.2.2
      · exact hnone
  | wrote n =>
      refine ⟨h.task ▸ hfits.1, hfits.2.1.extend h, ?_⟩
      obtain hsame | hnone := (hlock trivial).2
      · rw [hsame]
        exact hfits.2.2
      · simp [hnone]
  | got n raw => exact ⟨hfits.1.extend h, h.replies _ hfits.2⟩
  | done n raw => exact ⟨hfits.1.extend h, h.replies _ hfits.2⟩
  | unanswered => trivial

/-- A task with the lock that does not listen has no answer. -/
theorem knows_inside {s : State ι} {t : ι} {c : Call} (hcall : (s.task t).call = c)
    (hlocked : s.locked = some t) (hlistening : (s.task t).listening = false) :
    ∃ g, HoldsFor c g ∧ Knows s t g :=
  ⟨⟨c, .inside (s.task t).closed⟩, ⟨rfl, trivial⟩, hcall, fun _ => hlocked, hlistening, rfl⟩

section Steps

variable [DecidableEq ι]

/-- Only `t` has moved: it may have written, and dropped or read what had arrived. -/
structure Only (s s' : State ι) (t : ι) : Prop where
  task : ∃ task, s'.task = Function.update s.task t task
  sent : ∃ more, s'.sent = s.sent ++ more
  buffer : s'.buffer <:+ s.buffer
  replies : s'.replies = s.replies

/-- It has not written. -/
theorem Only.of_task {s s' : State ι} {t : ι} {task : Task}
    (htask : s'.task = Function.update s.task t task) (hsent : s'.sent = s.sent)
    (hbuffer : s'.buffer <:+ s.buffer) (hreplies : s'.replies = s.replies) : Only s s' t where
  task := ⟨task, htask⟩
  sent := ⟨[], by rw [hsent, List.append_nil]⟩
  buffer := hbuffer
  replies := hreplies

/-- It has neither written nor learnt anything. -/
theorem Only.of_same {s s' : State ι} {t : ι} (htask : s'.task = s.task) (hsent : s'.sent = s.sent)
    (hbuffer : s'.buffer <:+ s.buffer) (hreplies : s'.replies = s.replies) : Only s s' t :=
  .of_task (htask.trans (Function.update_eq_self t s.task).symm) hsent hbuffer hreplies

theorem Only.refl (s : State ι) (t : ι) : Only s s t := .of_same rfl rfl List.suffix_rfl rfl

theorem only_setTask (s : State ι) (t : ι) (task : Task) : Only s (s.setTask t task) t :=
  .of_task rfl rfl List.suffix_rfl rfl

theorem Only.setTask {s s' : State ι} {t : ι} (h : Only s s' t) (task : Task) :
    Only s (s'.setTask t task) t where
  task := by
    obtain ⟨task', ht⟩ := h.task
    refine ⟨task, ?_⟩
    rw [State.setTask, ht, Function.update_idem]
  sent := h.sent
  buffer := h.buffer
  replies := h.replies

theorem only_write (s : State ι) (t : ι) (data : Bytes) : Only s (s.write t data) t where
  task := ⟨_, rfl⟩
  sent := ⟨[data], rfl⟩
  buffer := List.suffix_rfl
  replies := rfl

/-- Another task does not notice. -/
theorem Only.extends {s s' : State ι} {t u : ι} (h : Only s s' t) (hu : u ≠ t) :
    Extends s s' u where
  task := by
    obtain ⟨task, ht⟩ := h.task
    rw [ht, Function.update_of_ne hu]
  sent n data hdata := by
    obtain ⟨more, hmore⟩ := h.sent
    rw [hmore, List.getElem?_append_left (List.getElem?_eq_some_iff.mp hdata).1]
    exact hdata
  replies x hx := h.replies ▸ hx

/-- **An answer moves only the task that gets it.** -/
theorem only_loop {s s' : State ι} {t : ι} {o : SerialOp} {x : Choice} {r : Except Exc o.Res}
    (h : s.loop t o x = some (r, s')) : Only s s' t := by
  cases o with
  | acquire =>
      cases x with
      | done =>
          simp only [State.loop] at h
          split at h
          · obtain ⟨-, rfl⟩ := Prod.mk.inj (Option.some.inj h)
            exact .of_same rfl rfl List.suffix_rfl rfl
          · cases h
      | raises e => cases h
  | release =>
      cases x with
      | done =>
          obtain ⟨-, rfl⟩ := Prod.mk.inj (Option.some.inj h)
          exact .of_task rfl rfl List.suffix_rfl rfl
      | raises e => cases h
  | getSerial =>
      cases x with
      | done =>
          obtain ⟨-, rfl⟩ := Prod.mk.inj (Option.some.inj h)
          exact only_setTask ..
      | raises e => cases h
  | setSerial ser =>
      cases x with
      | done =>
          obtain ⟨-, rfl⟩ := Prod.mk.inj (Option.some.inj h)
          exact .of_same rfl rfl List.suffix_rfl rfl
      | raises e => cases h
  | handleIsOpen ser =>
      cases x with
      | done =>
          obtain ⟨-, rfl⟩ := Prod.mk.inj (Option.some.inj h)
          exact only_setTask ..
      | raises e => cases h
  | toThread job =>
      cases job with
      | transactBlocking command expects timeout => cases x <;> cases h
      | construct port baudRate =>
          cases x <;> obtain ⟨-, rfl⟩ := Prod.mk.inj (Option.some.inj h)
          · exact .of_same rfl rfl List.nil_suffix rfl
          · exact .refl ..
      | close ser =>
          cases x <;> obtain ⟨-, rfl⟩ := Prod.mk.inj (Option.some.inj h)
          · exact .of_same rfl rfl List.nil_suffix rfl
          · exact .refl ..

/-- A step of the worker of `t` moves only `t`. -/
theorem only_worker {s s' : State ι} {t : ι} {o : PortOp} {x : Choice} {r : Except Exc o.Res}
    (h : s.worker t o x = some (r, s')) : Only s s' t := by
  cases o with
  | getSerial =>
      cases x with
      | done =>
          obtain ⟨-, rfl⟩ := Prod.mk.inj (Option.some.inj h)
          exact .refl ..
      | raises e => cases h
  | resetInputBuffer ser =>
      cases x <;> obtain ⟨-, rfl⟩ := Prod.mk.inj (Option.some.inj h)
      · exact .of_task rfl rfl List.nil_suffix rfl
      · exact only_setTask ..
  | write ser data =>
      cases x <;> obtain ⟨-, rfl⟩ := Prod.mk.inj (Option.some.inj h)
      · exact only_write ..
      · exact (only_write ..).setTask _
  | flush ser =>
      cases x <;> obtain ⟨-, rfl⟩ := Prod.mk.inj (Option.some.inj h) <;> exact only_setTask ..
  | setTimeout ser timeout =>
      cases x <;> obtain ⟨-, rfl⟩ := Prod.mk.inj (Option.some.inj h)
      · exact .refl ..
      · exact only_setTask ..
  | readline ser =>
      cases x with
      | raises e =>
          obtain ⟨-, rfl⟩ := Prod.mk.inj (Option.some.inj h)
          exact only_setTask ..
      | done =>
          simp only [State.worker] at h
          split at h <;> obtain ⟨-, rfl⟩ := Prod.mk.inj (Option.some.inj h)
          · exact only_setTask ..
          · next line rest hbuffer =>
              refine .of_task rfl rfl ?_ rfl
              rw [hbuffer]
              exact List.suffix_cons ..

/-! What a task knows after a step of its own. -/

@[simp] theorem State.setTask_self (s : State ι) (t : ι) (task : Task) :
    (s.setTask t task).task t = task := Function.update_self ..

@[simp] theorem State.setTask_buffer (s : State ι) (t : ι) (task : Task) :
    (s.setTask t task).buffer = s.buffer := rfl

/-- The task has looked whether the transport is open. -/
theorem Knows.look {s : State ι} {t : ι} {g : Ghost} (hk : Knows s t g) (hg : g.stage.holds)
    (isOpen : Bool) :
    Knows (s.look t isOpen) t ⟨g.call, if isOpen then g.stage else g.stage.shut⟩ := by
  obtain ⟨c, stage⟩ := g
  obtain ⟨hcall, hlocked, hfits⟩ := hk
  refine ⟨by simpa [State.look] using hcall, fun _ => hlocked hg, ?_⟩
  cases stage with
  | inside closed =>
      obtain ⟨hlistening, hclosed⟩ := hfits
      cases isOpen <;> simp [State.look, State.Fits, Stage.shut, hlistening, hclosed]
  | clear => cases isOpen <;> simpa [State.look, State.Fits, Stage.shut] using hfits
  | wrote n =>
      have hn : (s.look t isOpen).HasSent t n :=
        hfits.2.1.of_eq (by simp [State.look]) (by simp [State.look]) rfl
      have hlistening : ((s.look t isOpen).task t).listening = true := by
        simpa [State.look] using hfits.1
      cases isOpen <;> exact ⟨hlistening, hn, hfits.2.2⟩
  | got n raw =>
      have hn : (s.look t isOpen).HasSent t n :=
        hfits.1.of_eq (by simp [State.look]) (by simp [State.look]) rfl
      cases isOpen <;> exact ⟨hn, hfits.2⟩
  | _ => exact hg.elim

/-- The task has given the lock back. -/
theorem Knows.release {s : State ι} {t : ι} {g : Ghost} (hk : Knows s t g)
    (hg : g.stage.holds) :
    Knows ({ s with locked := none }.quiet t) t ⟨g.call, g.stage.closing⟩ := by
  obtain ⟨c, stage⟩ := g
  obtain ⟨hcall, hlocked, hfits⟩ := hk
  refine ⟨by simpa [State.quiet] using hcall, ?_, ?_⟩
  · cases stage <;> exact False.elim
  · cases stage with
    | got n raw =>
        exact ⟨hfits.1.of_eq (by simp [State.quiet]) (by simp [State.quiet]) rfl, hfits.2⟩
    | done n raw => exact hg.elim
    | _ => trivial

/-- **The event loop keeps its rules.** -/
theorem Knows.loop {s s' : State ι} {t : ι} {o : SerialOp} {x : Choice} {r : Except Exc o.Res}
    {g h : Ghost} (hk : Knows s t h) (hinv : loopRules.invoke g o h)
    (hans : s.loop t o x = some (r, s')) :
    ∃ g', loopRules.answer h o r g' ∧ Knows s' t g' := by
  obtain ⟨rfl, hinv⟩ := hinv
  have hsame : ∀ {s' : State ι}, s'.task = s.task → s'.locked = s.locked → s'.sent = s.sent →
      s'.buffer = s.buffer ∨ s'.buffer = [] → s'.replies = s.replies → Knows s' t h := by
    intro s' htask hlocked hsent hbuffer hreplies
    refine hk.extend ⟨congrFun htask t, ?_, ?_⟩ fun _ => ⟨hlocked, hbuffer⟩
    · exact fun n data hdata => hsent ▸ hdata
    · exact fun x hx => hreplies ▸ hx
  cases o with
  | acquire =>
      cases x with
      | raises e => cases hans
      | done =>
          simp only [State.loop] at hans
          split at hans
          · obtain ⟨rfl, rfl⟩ := Prod.mk.inj (Option.some.inj hans)
            obtain ⟨hcall, -, hfits⟩ := hk
            rw [hinv] at hfits
            exact ⟨⟨h.call, .inside false⟩, ⟨rfl, rfl⟩, hcall, fun _ => rfl, hfits⟩
          · cases hans
  | release =>
      cases x with
      | raises e => cases hans
      | done =>
          obtain ⟨rfl, rfl⟩ := Prod.mk.inj (Option.some.inj hans)
          exact ⟨⟨h.call, h.stage.closing⟩, ⟨rfl, rfl⟩, hk.release hinv⟩
  | getSerial =>
      cases x with
      | raises e => cases hans
      | done =>
          obtain ⟨rfl, rfl⟩ := Prod.mk.inj (Option.some.inj hans)
          refine ⟨_, ?_, hk.look hinv s.serial.isSome⟩
          cases s.serial <;> exact ⟨rfl, rfl⟩
  | setSerial ser =>
      cases x with
      | raises e => cases hans
      | done =>
          obtain ⟨rfl, rfl⟩ := Prod.mk.inj (Option.some.inj hans)
          exact ⟨h, ⟨rfl, rfl⟩, hsame rfl rfl rfl (.inl rfl) rfl⟩
  | handleIsOpen ser =>
      cases x with
      | raises e => cases hans
      | done =>
          obtain ⟨rfl, rfl⟩ := Prod.mk.inj (Option.some.inj hans)
          refine ⟨_, ?_, hk.look hinv (s.opened ser)⟩
          cases s.opened ser <;> exact ⟨rfl, rfl⟩
  | toThread job =>
      cases job with
      | transactBlocking command expects timeout => cases x <;> cases hans
      | construct port baudRate =>
          cases x <;> obtain ⟨rfl, rfl⟩ := Prod.mk.inj (Option.some.inj hans)
          · exact ⟨h, ⟨rfl, rfl⟩, hsame rfl rfl rfl (.inr rfl) rfl⟩
          · exact ⟨h, ⟨rfl, rfl⟩, hk⟩
      | close ser =>
          cases x <;> obtain ⟨rfl, rfl⟩ := Prod.mk.inj (Option.some.inj hans)
          · exact ⟨h, ⟨rfl, rfl⟩, hsame rfl rfl rfl (.inr rfl) rfl⟩
          · exact ⟨h, ⟨rfl, rfl⟩, hk⟩

/-- What had arrived is dropped before a query of the task's own. -/
theorem Knows.reset {s : State ι} {t : ι} {c : Call} {closed : Bool}
    (hk : Knows s t ⟨c, .inside closed⟩) :
    Knows ({ s with buffer := [] }.setTask t
      { s.task t with listening := asks (s.task t).call && !(s.task t).closed, own := none }) t
      (if closed = false ∧ asks c = true then ⟨c, .clear⟩ else ⟨c, .inside closed⟩) := by
  obtain ⟨hcall, hlocked, -, hclosed⟩ := hk
  dsimp only at hcall hclosed
  by_cases h : closed = false ∧ asks c = true
  · rw [if_pos h]
    refine ⟨by simpa using hcall, fun _ => hlocked trivial, ?_⟩
    simp [State.Fits, hcall, hclosed, h]
  · rw [if_neg h]
    refine ⟨by simpa using hcall, fun _ => hlocked trivial, ?_⟩
    simp only [State.Fits, State.setTask_self, hcall, hclosed, and_true]
    cases closed <;> simp_all

/-- The task has written its line. -/
theorem Knows.write {s : State ι} {t : ι} {g : Ghost} {data : Bytes} (hk : Knows s t g)
    (h : (g.stage = .clear ∧ IsLineOf g.call data) ∨ ∃ closed, g.stage = .inside closed) :
    Knows (s.write t data) t
      (if g.stage = .clear then ⟨g.call, .wrote s.sent.length⟩ else g) := by
  obtain ⟨c, stage⟩ := g
  obtain ⟨hcall, hlocked, hfits⟩ := hk
  dsimp only at h hcall hlocked hfits ⊢
  obtain ⟨rfl, hline⟩ | ⟨closed, rfl⟩ := h
  · rw [if_pos rfl]
    obtain ⟨hlistening, -, hbuffer⟩ := hfits
    refine ⟨by simpa [State.write] using hcall, fun _ => hlocked trivial, ?_⟩
    refine ⟨by simpa [State.write] using hlistening, ⟨by simp [State.write], data, ?_, ?_⟩, ?_⟩
    · simpa [State.write, hcall] using hline
    · simp [State.write, State.setTask]
    · simp [State.write, hbuffer]
  · rw [if_neg (by simp)]
    refine ⟨by simpa [State.write] using hcall, fun _ => hlocked trivial, ?_⟩
    simpa [State.write, State.Fits] using hfits

/-- The flush has returned. -/
theorem Knows.flush {s : State ι} {t : ι} {g : Ghost} (hk : Knows s t g) (hg : g.stage.holds) :
    Knows (s.setTask t { s.task t with closed := false }) t ⟨g.call, g.stage.flushed⟩ := by
  obtain ⟨c, stage⟩ := g
  obtain ⟨hcall, hlocked, hfits⟩ := hk
  refine ⟨by simpa using hcall, fun _ => hlocked hg, ?_⟩
  cases stage with
  | inside closed => simpa [State.Fits, Stage.flushed] using hfits.1
  | clear => simpa [State.Fits, Stage.flushed] using hfits
  | wrote n =>
      refine ⟨by simpa using hfits.1, ?_, hfits.2.2⟩
      exact hfits.2.1.of_eq (by simp) (by simp) rfl
  | got n raw => exact ⟨hfits.1.of_eq (by simp) (by simp) rfl, hfits.2⟩
  | _ => exact hg.elim

/-- The first line to have arrived answers the task's own. -/
theorem Knows.read {s : State ι} {t : ι} {c : Call} {n : Nat} {line : Nat × Bytes}
    {rest : List (Nat × Bytes)} (harrived : ∀ x ∈ s.buffer, x ∈ s.replies)
    (hk : Knows s t ⟨c, .wrote n⟩) (hbuffer : s.buffer = line :: rest) :
    Knows ({ s with buffer := rest }.quiet t) t ⟨c, .got n line.2⟩ := by
  obtain ⟨hcall, hlocked, -, hn, hfirst⟩ := hk
  refine ⟨by simpa [State.quiet] using hcall, fun _ => hlocked trivial, ?_, ?_⟩
  · exact hn.of_eq (by simp [State.quiet]) (by simp [State.quiet]) rfl
  · have hline : line.1 = n := hfirst line (by simp [hbuffer])
    show (n, line.2) ∈ s.replies
    rw [← hline]
    exact harrived line (by simp [hbuffer])

/-- **The worker keeps its rules.** -/
theorem Knows.worker {s s' : State ι} {t : ι} {o : PortOp} {x : Choice} {r : Except Exc o.Res}
    {g h : Ghost} (harrived : ∀ x ∈ s.buffer, x ∈ s.replies) (hk : Knows s t h)
    (hinv : rules.invoke g (.inr o) h) (hans : s.worker t o x = some (r, s')) :
    ∃ g', rules.answer h (.inr o) r g' ∧ Knows s' t g' := by
  obtain ⟨rfl, hg, hinv⟩ := hinv
  have hlocked := hk.locked hg
  have hquiet : ∃ g', HoldsFor h.call g' ∧ Knows (s.quiet t) t g' :=
    knows_inside (by simpa [State.quiet] using hk.call) hlocked (by simp [State.quiet])
  cases o with
  | getSerial =>
      cases x with
      | raises e => cases hans
      | done =>
          obtain ⟨rfl, rfl⟩ := Prod.mk.inj (Option.some.inj hans)
          exact ⟨h, rfl, hk⟩
  | resetInputBuffer ser =>
      cases x <;> obtain ⟨rfl, rfl⟩ := Prod.mk.inj (Option.some.inj hans)
      · obtain ⟨c, stage⟩ := h
        obtain ⟨closed, rfl⟩ := hinv
        refine ⟨_, ?_, hk.reset⟩
        simp only [rules, Stage.inside.injEq]
      · exact hquiet
  | write ser data =>
      cases x <;> obtain ⟨rfl, rfl⟩ := Prod.mk.inj (Option.some.inj hans)
      · refine ⟨_, ?_, hk.write hinv⟩
        simp only [rules]
        split
        · exact ⟨_, rfl⟩
        · rfl
      · exact knows_inside (by simpa [State.quiet, State.write] using hk.call) hlocked
          (by simp [State.quiet])
  | flush ser =>
      cases x <;> obtain ⟨rfl, rfl⟩ := Prod.mk.inj (Option.some.inj hans)
      · exact ⟨_, rfl, hk.flush hg⟩
      · exact hquiet
  | setTimeout ser timeout =>
      cases x <;> obtain ⟨rfl, rfl⟩ := Prod.mk.inj (Option.some.inj hans)
      · exact ⟨h, rfl, hk⟩
      · exact hquiet
  | readline ser =>
      cases x with
      | raises e =>
          obtain ⟨rfl, rfl⟩ := Prod.mk.inj (Option.some.inj hans)
          exact hquiet
      | done =>
          obtain ⟨c, stage⟩ := h
          obtain ⟨n, rfl⟩ := hinv
          simp only [State.worker] at hans
          split at hans <;> obtain ⟨rfl, rfl⟩ := Prod.mk.inj (Option.some.inj hans)
          · -- the timeout
            exact hquiet
          · next line rest hbuffer =>
              have hread := hk.read harrived hbuffer
              cases hraw : line.2.isEmpty with
              | false =>
                  refine ⟨_, ?_, hread⟩
                  simp [rules, hraw]
              | true =>
                  obtain ⟨g', hg', hk'⟩ := knows_inside hread.call (hread.locked trivial)
                    (by simp [State.quiet])
                  refine ⟨g', ?_, hk'⟩
                  simpa [rules, hraw] using hg'

end Steps

/-! ## Whole runs -/

section Runs

variable [DecidableEq ι] (T : SerialTransport) (timeout : Rat)

omit [DecidableEq ι] in
/-- Nobody else holds a lock that `t` holds, or can take. -/
theorem Inv.alone {s : State ι} {ph : ι → Phase rules} (hI : Inv s ph) {t u : ι} (hu : u ≠ t)
    (h : s.locked = none ∨ s.locked = some t) : ¬ (ghost (ph u)).stage.holds := by
  intro hholds
  have hlocked := (hI.knows u).locked hholds
  obtain h | h := h
  · rw [h] at hlocked
    cases hlocked
  · rw [h] at hlocked
    exact hu (Option.some.inj hlocked).symm

/-- A step of the task that holds the lock, or takes it, keeps the invariant. -/
theorem Inv.answered {s s' : State ι} {ph : ι → Phase rules} (hI : Inv s ph) {t : ι} {g : Ghost}
    (hlock : s.locked = none ∨ s.locked = some t) (honly : Only s s' t) (hk : Knows s' t g) :
    Inv s' (Function.update ph t (.ready g)) where
  arrived x hx := by
    rw [honly.replies]
    exact hI.arrived x (honly.buffer.subset hx)
  knows := forall_update (R := fun u φ => Knows s' u (ghost φ)) hk fun u hu =>
    (hI.knows u).extend (honly.extends hu) fun hholds => absurd hholds (hI.alone hu hlock)

/-- Only the holder of the lock, or whoever finds it free, gets an answer from the event loop. -/
theorem loop_locked {s s' : State ι} {t : ι} {o : SerialOp} {x : Choice} {r : Except Exc o.Res}
    {g h : Ghost} (hk : Knows s t h) (hinv : loopRules.invoke g o h)
    (hans : s.loop t o x = some (r, s')) : s.locked = none ∨ s.locked = some t := by
  obtain ⟨rfl, hinv⟩ := hinv
  cases o with
  | acquire =>
      cases x with
      | raises e => cases hans
      | done =>
          simp only [State.loop] at hans
          split at hans
          · next hfree => exact .inl hfree
          · cases hans
  | toThread job =>
      cases job with
      | transactBlocking command expects timeout => cases x <;> cases hans
      | _ => exact .inr (hk.locked hinv)
  | _ => exact .inr (hk.locked hinv)

theorem loopRules_of_rules {g h : Ghost} {o : SerialOp} (hinv : rules.invoke g (.inl o) h) :
    loopRules.invoke g o h := by
  cases o with
  | toThread job =>
      cases job with
      | transactBlocking command expects timeout => exact hinv.elim
      | _ => exact hinv
  | _ => exact hinv

/-- A ghost state is not touched by the wait for an operation. -/
theorem held_eq {g h : Ghost} {o : Wired.Op} (hinv : rules.invoke g o h) : h = g := by
  obtain o | o := o
  · exact (loopRules_of_rules hinv).1
  · exact hinv.1

omit [DecidableEq ι] in
/-- A reply that is punctual is the own one of whoever listens. -/
theorem Knows.deliver {s s' : State ι} {n : Nat} {line : Bytes} {t : ι} {g : Ghost}
    (hk : Knows s t g) (h : s.deliver n line = some s')
    (hpunctual : (s.task t).listening = true → s.buffer = [] → (s.task t).own = some n) :
    Knows s' t g := by
  simp only [State.deliver] at h
  split at h
  · obtain rfl := Option.some.inj h
    obtain ⟨c, stage⟩ := g
    obtain ⟨hcall, hlocked, hfits⟩ := hk
    refine ⟨hcall, hlocked, ?_⟩
    cases stage with
    | clear =>
        obtain ⟨hlistening, hown, hbuffer⟩ := hfits
        rw [hpunctual hlistening hbuffer] at hown
        cases hown
    | wrote m =>
        refine ⟨hfits.1, hfits.2.1, ?_⟩
        intro x hx
        cases hbuffer : s.buffer with
        | nil =>
            have hown := hpunctual hfits.1 hbuffer
            rw [hfits.2.1.1] at hown
            simp only [hbuffer, List.nil_append, List.head?_cons, Option.mem_some] at hx
            rw [← hx]
            exact (Option.some.inj hown).symm
        | cons y rest =>
            simp only [hbuffer, List.cons_append, List.head?_cons, Option.mem_some] at hx
            exact hfits.2.2 x (by simp [hbuffer, hx])
    | got m raw => exact ⟨hfits.1, List.mem_append_left _ hfits.2⟩
    | done m raw => exact ⟨hfits.1, List.mem_append_left _ hfits.2⟩
    | _ => exact hfits
  · cases h

/-- Each step keeps the invariant while replies come in time. -/
theorem sound : Sound rules (line T timeout : System _ _ _ ι _) Punctual
    (fun r g => Answered r .done g) Inv where
  start := by
    intro s s' ph t e g r hI _ _ _ hstart
    obtain rfl := Option.some.inj hstart
    refine ⟨⟨e, .outside⟩, Protocol.wp_mono (wp_call T timeout e) fun _ _ h => h.2, ?_⟩
    refine ⟨hI.arrived, ?_⟩
    refine forall_update (R := fun u φ => Knows _ u (ghost φ)) ?_ fun u hu => ?_
    · exact ⟨by simp [ghost]; rfl, False.elim, by simp [ghost, State.Fits]⟩
    · exact (hI.knows u).extend ((only_setTask ..).extends hu) fun _ => ⟨rfl, .inl rfl⟩
  invoke := by
    intro s ph t o g h hI hph hinv _
    refine ⟨hI.arrived, ?_⟩
    refine forall_update (R := fun u φ => Knows _ u (ghost φ)) ?_ fun u _ => hI.knows u
    have hk := hI.knows t
    rw [hph] at hk
    rw [held_eq hinv]
    exact hk
  answer := by
    intro s s' ph t o h x r hI hph ⟨g, hinv⟩ _ hans
    have hk := hI.knows t
    rw [hph] at hk
    obtain o | o := o
    · have hloop := loopRules_of_rules hinv
      obtain ⟨g', hanswer, hk'⟩ := hk.loop hloop hans
      exact ⟨g', hanswer, hI.answered (loop_locked hk hloop hans) (only_loop hans) hk'⟩
    · obtain ⟨g', hanswer, hk'⟩ := hk.worker hI.arrived hinv hans
      obtain ⟨rfl, hg, -⟩ := hinv
      exact ⟨g', hanswer, hI.answered (.inr (hk.locked hg)) (only_worker hans) hk'⟩
  env := by
    intro s s' ph x hI hok henv
    refine ⟨?_, fun t => (hI.knows t).deliver henv (hok t)⟩
    have hdeliver : s.deliver x.1 x.2 = some s' := henv
    simp only [State.deliver] at hdeliver
    split at hdeliver
    · obtain rfl := Option.some.inj hdeliver
      intro y hy
      obtain hy | hy := List.mem_append.mp hy
      · exact List.mem_append_left _ (hI.arrived y hy)
      · exact List.mem_append_right _ hy
    · cases hdeliver

omit [DecidableEq ι] in
/-- At the start nobody has sent anything. -/
theorem initial_knows : Inv (initial : Config Wired Exc (Option Str) ι _).shared
    fun _ => .ready ⟨.write [] none, .outside⟩ where
  arrived x hx := by cases hx
  knows _ := ⟨rfl, False.elim, rfl, rfl⟩

/-- The meter's reply to the line that the task's own call wrote. -/
def State.OwnReply (s : State ι) (t : ι) (r : Str) : Prop :=
  ∃ n raw, s.HasSent t n ∧ (n, raw) ∈ s.replies ∧ r = strip (decodeAscii raw)

/-- **REPLIES DO NOT SLIP TO A LATER COMMAND**, in any run in which, while a query listens and
    nothing has arrived, no reply to another line arrives: what a query returns is the meter's
    reply to the line that this query wrote. -/
theorem own_reply {c : Config Wired Exc (Option Str) ι (State ι)}
    (hc : Reach (line T timeout) Punctual initial c) (t : ι) (r : Str)
    (hr : (c.point t).outcome = some (.ok (some r))) : c.shared.OwnReply t r := by
  have hstart : ∀ t : ι, Agrees rules (fun r g => Answered r .done g)
      ((initial : Config Wired Exc (Option Str) ι _).point t)
      (.ready ⟨.write [] none, .outside⟩) := fun _ s hs => by cases hs
  obtain ⟨ph, hI, hagrees⟩ := (sound T timeout).reach initial_knows hstart hc
  obtain ⟨g, hg, hanswered⟩ := (hagrees t).outcome hr
  obtain ⟨n, raw, hdone, hraw⟩ := hanswered r rfl
  have hk := hI.knows t
  rw [hg] at hk
  have hfits : c.shared.Fits t (.done n raw) := hdone ▸ hk.fits
  exact ⟨n, raw, hfits.1, hfits.2, hraw⟩

end Runs

/-! ## Two runs -/

/-- A transport. -/
def port : SerialTransport := ⟨"/dev/ttyUSB0".toList, 115200⟩

/-- A step of two tasks. -/
abbrev Act : Type := Action (line port 2 : System Wired Exc (Option Str) Bool _)

/-- So many operations of a task, one after the other. -/
def ops (t : Bool) : Nat → List Act
  | 0 => []
  | n + 1 => .invoke t :: .answer t .done :: ops t n

/-- The meter's reply to the line of this number. -/
def reply (n : Nat) (text : String) : Act :=
  .env (n, text.toList.map fun c => c.toNat.toUInt8)

instance (s : State Bool) (a : Act) (s' : State Bool) : Decidable (Punctual s a s') :=
  match a with
  | .env x => decidable_of_iff
      (∀ t, (s.task t).listening = true → s.buffer = [] → (s.task t).own = some x.1) Iff.rfl
  | .start _ _ => .isTrue trivial
  | .invoke _ => .isTrue trivial
  | .answer _ _ => .isTrue trivial

/-- A query greets (line 0) and writes `FUNC1?` (line 1), while another one waits for the lock;
    its `readline` raises, and its connection is dropped.  The reply to `FUNC1?` comes when the
    other query has greeted in its turn (line 2) and not reset the input yet, and the reply to
    its `MEAS1?` (line 3) in time. -/
def inTime : List Act :=
  [.start false (.query "FUNC1?".toList none)] ++ ops false 16
    ++ [.start true (.query "MEAS1?".toList none), .invoke true]
    ++ [.invoke false, .answer false (.raises (.portError (.osError "gone".toList)))]
    ++ ops false 5 ++ [.answer true .done] ++ ops true 9 ++ [reply 1 "VOLT"] ++ ops true 6
    ++ [reply 3 "1.25"] ++ ops true 2

/-- Two tasks: one reply comes late and is dropped, the other is its own. -/
theorem own_reply_inTime : ∃ c, runWithin (line port 2) Punctual initial inTime = some c ∧
    c.shared.replies.map Prod.fst = [1, 3] ∧ c.shared.OwnReply true "1.25".toList := by
  have hrun : ((runWithin (line port 2) Punctual initial inTime).map fun c =>
      ((c.point true).outcome, c.shared.replies.map Prod.fst))
        = some (some (.ok (some "1.25".toList)), [1, 3]) := by
    decide +kernel
  obtain ⟨c, hc, hend⟩ := Option.map_eq_some_iff.mp hrun
  obtain ⟨hr, hreplies⟩ := Prod.mk.inj hend
  exact ⟨c, hc, hreplies, own_reply port 2 (reach_of_runWithin hc) true _ hr⟩

/-- `FUNC1?` (line 1) times out, and its connection is dropped.  The next query greets (line 2),
    resets the input and writes `MEAS1?` (line 3) before the reply to `FUNC1?` comes. -/
def tooLate : List Act :=
  [.start false (.query "FUNC1?".toList none)] ++ ops false 22
    ++ [.start false (.query "MEAS1?".toList none)] ++ ops false 14 ++ [reply 1 "VOLT"]
    ++ ops false 4

/-- **A reply that comes too late** is the answer to the next command. -/
theorem not_own_reply :
    ¬ ∀ (ι : Type) (_ : DecidableEq ι) (T : SerialTransport) (timeout : Rat)
      (c : Config Wired Exc (Option Str) ι (State ι)), Reach (line T timeout) Free initial c →
      ∀ t r, (c.point t).outcome = some (.ok (some r)) → c.shared.OwnReply t r := by
  intro h
  have hrun : ((run (line port 2) initial tooLate).map fun c =>
      ((c.point false).outcome, (c.shared.task false).own, c.shared.replies.map Prod.fst))
        = some (some (.ok (some "VOLT".toList)), some 3, [1]) := by
    decide +kernel
  obtain ⟨c, hc, hend⟩ := Option.map_eq_some_iff.mp hrun
  obtain ⟨hr, hend⟩ := Prod.mk.inj hend
  obtain ⟨hown, hreplies⟩ := Prod.mk.inj hend
  obtain ⟨n, raw, ⟨hn, -⟩, hmem, -⟩ :=
    h Bool inferInstance port 2 c (reach_of_run hc fun _ _ _ _ => trivial) false _ hr
  obtain rfl : n = 3 := Option.some.inj (hn.symm.trans hown)
  have hthree : 3 ∈ c.shared.replies.map Prod.fst := List.mem_map_of_mem hmem
  rw [hreplies] at hthree
  simp at hthree

end LateReplies
