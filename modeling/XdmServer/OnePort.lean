import XdmServer.SingleFlight

/-! # One port at a time

    The transport owns what `serial.Serial` returns, and `ser.close()` is the only way to be
    rid of it.  Between the constructor and the assignment to `_serial`, and between `_serial
    = None` and the end of `ser.close()`, the port is in the hands of the task that holds the
    lock: a task that is cancelled there drops it, and it stays open.  `one_port` says that
    this, and a `ser.close()` that raises, are the only ways to lose a port. -/

namespace OnePort

open PyText Coroutine Commands Device Interleaving SingleFlight

/-! ## Custody of the port -/

/-- What the holder of the lock knows of `_serial` and of the open ports. -/
inductive Ghost where
  | free
  /-- No port is open but `_serial`. -/
  | holding
  /-- So it is, and this is `_serial`. -/
  | saw (ser : Option Handle)
  /-- No port is open. -/
  | shut
  /-- No port is open but the one that has just been constructed. -/
  | made (ser : Handle)
  /-- No port is open but the one that `_serial` was. -/
  | lost (ser : Handle)

/-- Nothing is in the task's hands. -/
def Ghost.Neutral : Ghost → Prop
  | .holding | .saw _ | .shut => True
  | _ => False

/-- A task with nothing in its hands still has the lock. -/
theorem Ghost.Neutral.ne_free {g : Ghost} (h : g.Neutral) : g ≠ .free := by
  rintro rfl
  exact h

/-- No port is open. -/
def Ghost.Shut : Ghost → Prop
  | .saw none | .shut => True
  | _ => False

/-- After `_serial = None`. -/
def Ghost.dropped : Option Handle → Ghost
  | some ser => .lost ser
  | none => .shut

/-- After a look at `ser.is_open`. -/
def Ghost.looked (g : Ghost) : Bool → Ghost
  | true => g
  | false => .shut

/-- What a job may be asked for. -/
def Hands (g : Ghost) : Job → Prop
  | .construct _ _ => g.Shut
  | .transactBlocking _ _ _ => g.Neutral
  | .close ser => g = .lost ser

theorem Hands.ne_free {g : Ghost} {job : Job} (h : Hands g job) : g ≠ .free := by
  rintro rfl
  cases job with
  | close ser => cases h
  | _ => exact h

/-- What is known when a job has come to its end; a `close` that has raised is not covered. -/
def Settles (g : Ghost) : (job : Job) → Except Exc job.Res → Ghost → Prop
  | .construct _ _, .ok ser, g' => g' = .made ser
  | .close _, .ok _, g' => g' = .shut
  | .close _, .error _, _ => False
  | _, _, g' => g' = g

theorem Settles.ne_free {g g' : Ghost} {job : Job} {r : Except Exc job.Res}
    (h : Settles g job r g') (hg : Hands g job) : g' ≠ .free := by
  have hne := hg.ne_free
  cases job <;> cases r <;> simp_all [Settles]

/-- While a task waits: what it knew, and the job if it waits for one. -/
inductive Held where
  | plain (g : Ghost)
  | awaiting (g : Ghost) (job : Job)

/-- A port is constructed where none is open, and closed by whoever took it. -/
def custody : Protocol Serial Exc where
  Ghost := Ghost
  Held := Held
  invoke g o h := match o with
    | .acquire => g = .free ∧ h = .plain .free
    | .release => g.Neutral ∧ h = .plain g
    | .getSerial => g.Neutral ∧ h = .plain g
    | .setSerial (some ser) => g = .made ser ∧ h = .plain g
    | .setSerial none => (∃ ser, g = .saw ser) ∧ h = .plain g
    | .handleIsOpen ser => (g = .saw (some ser) ∨ g = .lost ser) ∧ h = .plain g
    | .toThread job => Hands g job ∧ h = .awaiting g job
  answer h o r g := match o, r with
    | .acquire, .ok _ => g = .holding
    | .acquire, .error _ => g = .free
    | .release, _ => g = .free
    | .getSerial, .ok ser => g = .saw ser
    | .setSerial (some _), .ok _ => g = .holding
    | .setSerial none, .ok _ => ∃ ser, h = .plain (.saw ser) ∧ g = .dropped ser
    | .handleIsOpen _, .ok isOpen => ∃ g₀, h = .plain g₀ ∧ g = g₀.looked isOpen
    | .toThread job, r => ∃ g₀, h = .awaiting g₀ job ∧ Settles g₀ job r g
    | _, .error _ => False

/-! ## The methods keep custody -/

/-- `is_open` tells whether there may be a port. -/
theorem wp_isOpen {g : Ghost} (hg : g.Neutral) : custody.wp SerialTransport.isOpen
    (fun r g' => ∃ isOpen, r = .ok isOpen ∧ g'.Neutral ∧ (isOpen = false → g'.Shut)) g := by
  refine (Protocol.wp_bind ..).mpr ((Protocol.wp_op ..).mpr ⟨.plain g, ⟨hg, rfl⟩, ?_⟩)
  rintro (e | ser) g' hg'
  · exact hg'.elim
  · obtain rfl : g' = .saw ser := hg'
    cases ser with
    | none => exact ⟨false, rfl, trivial, fun _ => trivial⟩
    | some ser =>
        refine (Protocol.wp_op ..).mpr ⟨.plain (.saw (some ser)), ⟨.inl rfl, rfl⟩, ?_⟩
        rintro (e | isOpen) g' hg'
        · exact hg'.elim
        · obtain ⟨g₀, hg₀, rfl⟩ := hg'
          obtain rfl := Held.plain.inj hg₀
          cases isOpen with
          | true => exact ⟨true, rfl, trivial, by simp⟩
          | false => exact ⟨false, rfl, trivial, fun _ => trivial⟩

/-- The coroutine leaves no port in the task's hands. -/
def Clean {α : Type} (p : Coro Serial Exc α) : Prop := custody.Maintains Ghost.Neutral p

variable (T : SerialTransport) (timeout : Rat)

/-- `open` keeps the port it has constructed, as `_serial`. -/
theorem clean_open : Clean T.open_ := by
  intro g hg
  refine (Protocol.wp_bind ..).mpr (Protocol.wp_mono (wp_isOpen hg) ?_)
  rintro _ g₁ ⟨isOpen, rfl, hneutral, hshut⟩
  cases isOpen with
  | true => exact hneutral
  | false =>
      have hshut := hshut rfl
      refine (Protocol.wp_tryExcept ..).mpr ((Protocol.wp_bind ..).mpr ((Protocol.wp_op ..).mpr
        ⟨.awaiting g₁ (.construct T.port T.baudRate), ⟨hshut, rfl⟩, ?_⟩))
      rintro (e | ser) g₂ ⟨g₀, hg₀, hsettles⟩
      · -- no port has been made
        obtain rfl := (Held.awaiting.inj hg₀).1
        obtain rfl : g₂ = g₁ := hsettles
        cases e <;> exact hneutral
      · obtain rfl : g₂ = .made ser := hsettles
        refine (Protocol.wp_op ..).mpr ⟨.plain (.made ser), ⟨rfl, rfl⟩, ?_⟩
        rintro (e | u) g₃ hg₃
        · exact hg₃.elim
        · obtain rfl : g₃ = .holding := hg₃
          trivial

/-- `close` lets go of the port it has taken from `_serial`. -/
theorem clean_close : Clean SerialTransport.close := by
  intro g hg
  refine (Protocol.wp_bind ..).mpr ((Protocol.wp_op ..).mpr ⟨.plain g, ⟨hg, rfl⟩, ?_⟩)
  rintro (e | ser) g₁ hg₁
  · exact hg₁.elim
  obtain rfl : g₁ = .saw ser := hg₁
  refine (Protocol.wp_bind ..).mpr ((Protocol.wp_op ..).mpr
    ⟨.plain (.saw ser), ⟨⟨ser, rfl⟩, rfl⟩, ?_⟩)
  rintro (e | u) g₂ hg₂
  · exact hg₂.elim
  obtain ⟨ser', hsame, rfl⟩ := hg₂
  obtain rfl := Ghost.saw.inj (Held.plain.inj hsame)
  cases ser with
  | none => trivial
  | some ser =>
      refine (Protocol.wp_bind ..).mpr ((Protocol.wp_op ..).mpr
        ⟨.plain (.lost ser), ⟨.inr rfl, rfl⟩, ?_⟩)
      rintro (e | isOpen) g₃ hg₃
      · exact hg₃.elim
      obtain ⟨g₀, hg₀, rfl⟩ := hg₃
      obtain rfl := Held.plain.inj hg₀
      cases isOpen with
      | false => trivial
      | true =>
          refine (Protocol.wp_op ..).mpr ⟨.awaiting (.lost ser) (.close ser), ⟨rfl, rfl⟩, ?_⟩
          rintro (e | u) g₄ ⟨g₀, hg₀, hsettles⟩
          · exact hsettles.elim
          · obtain rfl : g₄ = .shut := hsettles
            trivial

/-- A transaction takes no port into its hands. -/
theorem clean_transact (command : Str) (expects : Bool) (limit : Rat) :
    Clean (SerialTransport.transact command expects limit) := by
  intro g hg
  refine (Protocol.wp_bind ..).mpr ((Protocol.wp_op ..).mpr ⟨.plain g, ⟨hg, rfl⟩, ?_⟩)
  rintro (e | ser) g₁ hg₁
  · exact hg₁.elim
  obtain rfl : g₁ = .saw ser := hg₁
  cases ser with
  | none => trivial
  | some ser =>
      refine (Protocol.wp_op ..).mpr ⟨.awaiting _ (.transactBlocking command expects limit),
        ⟨trivial, rfl⟩, ?_⟩
      rintro r g₂ ⟨g₀, hg₀, hsettles⟩
      obtain rfl := (Held.awaiting.inj hg₀).1
      obtain rfl : g₂ = .saw (some ser) := by cases r <;> exact hsettles
      trivial

theorem clean_safeClose : Clean (serialManager T timeout).safeClose := by
  refine Protocol.Maintains.tryExcept clean_close fun e => ?_
  cases e with
  | transportError e => exact Protocol.maintains_ret ()
  | _ => exact Protocol.maintains_raise _

theorem clean_connect : Clean (serialManager T timeout).connect :=
  Protocol.Maintains.bind (clean_open T) fun _ =>
    Protocol.Maintains.bind (clean_transact LOCAL false timeout) fun _ => Protocol.maintains_ret ()

theorem clean_exchange (command : Str) (expects : Bool) (limit : Rat) :
    Clean ((serialManager T timeout).exchange command expects limit) := by
  have hfails : ∀ {α : Type} (e : Exc),
      Clean ((serialManager T timeout).safeClose >>= fun _ => (.raise e : Coro Serial Exc α)) :=
    fun e => Protocol.Maintains.bind (clean_safeClose T timeout) fun _ => Protocol.maintains_raise e
  have hreconnect : Clean (serialManager T timeout).reconnect := by
    refine Protocol.Maintains.tryExcept (clean_connect T timeout) fun e => ?_
    cases e with
    | transportError e => exact hfails _
    | _ => exact Protocol.maintains_raise _
  have hopen : Clean (serialManager T timeout).ensureOpen := by
    intro g hg
    refine (Protocol.wp_bind ..).mpr (Protocol.wp_mono (wp_isOpen hg) ?_)
    rintro _ g₁ ⟨isOpen, rfl, hneutral, -⟩
    cases isOpen with
    | true => exact hneutral
    | false => exact hreconnect g₁ hneutral
  refine Protocol.Maintains.bind hopen fun _ =>
    Protocol.Maintains.tryExcept (clean_transact command expects limit) fun e => ?_
  cases e with
  | transportError e => exact hfails _
  | _ => exact Protocol.maintains_raise _

/-- Under the lock a clean body obeys the rules of custody. -/
theorem wp_hold {α : Type} {body : Coro Serial Exc α} (h : Clean body) :
    custody.wp (serialLock.hold body) (fun _ g => g = .free) .free := by
  refine (Protocol.wp_bind ..).mpr ((Protocol.wp_op ..).mpr ⟨.plain .free, ⟨rfl, rfl⟩, ?_⟩)
  rintro (e | u) g hg
  · exact hg
  · obtain rfl : g = .holding := hg
    refine (Protocol.wp_tryFinally ..).mpr (Protocol.wp_mono (h _ trivial) ?_)
    intro r g hneutral
    refine (Protocol.wp_op ..).mpr ⟨.plain g, ⟨hneutral, rfl⟩, ?_⟩
    rintro (e | u) g' hg' <;> exact hg'

/-- Each method of the manager obeys the rules of custody. -/
theorem wp_method (m : Method) :
    custody.wp ((serialManager T timeout).method m) (fun _ g => g = .free) .free := by
  cases m with
  | start => exact Protocol.wp_then (wp_hold (clean_connect T timeout)) fun _ => .inl ⟨none, rfl⟩
  | stop => exact Protocol.wp_then (wp_hold clean_close) fun _ => .inl ⟨none, rfl⟩
  | call c =>
      cases c with
      | query command limit =>
          have htransact := wp_hold (clean_exchange T timeout command true (limit.getD timeout))
          refine Protocol.wp_then (Protocol.wp_then htransact fun r => ?_) fun r =>
            .inl ⟨some r, rfl⟩
          cases r with
          | some r => exact .inl ⟨r, rfl⟩
          | none => exact .inr ⟨.assertionError, rfl⟩
      | write command limit =>
          have htransact := wp_hold (clean_exchange T timeout command false (limit.getD timeout))
          exact Protocol.wp_then (Protocol.wp_then htransact fun _ => .inl ⟨(), rfl⟩) fun _ =>
            .inl ⟨none, rfl⟩

/-! ## What the holder knows is so -/

variable {ι : Type} [DecidableEq ι]

/-- No port is open but `ser`. -/
def Pool.Only (s : Pool ι) (ser : Handle) : Prop := ∀ port, s.opened port = true → port = ser

/-- No port is open but `_serial`. -/
def Pool.Owned (s : Pool ι) : Prop := ∀ port, s.opened port = true → s.serial = some port

/-- No port is open. -/
def Pool.Quiet (s : Pool ι) : Prop := ∀ port, s.opened port = false

/-- What a task knows is so. -/
def Means (s : Pool ι) : Ghost → Prop
  | .free | .holding => Pool.Owned s
  | .saw ser => Pool.Owned s ∧ s.serial = ser
  | .shut => Pool.Quiet s
  | .made ser | .lost ser => Pool.Only s ser

omit [DecidableEq ι] in
/-- Where no port is open, none is but `_serial`. -/
theorem Pool.Quiet.owned {s : Pool ι} (h : Pool.Quiet s) : Pool.Owned s := by
  intro port hport
  rw [h port] at hport
  cases hport

omit [DecidableEq ι] in
/-- With nothing in the task's hands the open port is `_serial`. -/
theorem Means.owned {s : Pool ι} {g : Ghost} (h : Means s g) (hg : g.Neutral) : Pool.Owned s := by
  cases g with
  | holding => exact h
  | saw ser => exact h.1
  | shut => exact Pool.Quiet.owned h
  | _ => exact hg.elim

omit [DecidableEq ι] in
/-- Where the task knows the port to be shut, none is open. -/
theorem Means.quiet {s : Pool ι} {g : Ghost} (h : Means s g) (hg : g.Shut) : Pool.Quiet s := by
  cases g with
  | saw ser =>
      cases ser with
      | none =>
          intro port
          by_contra hport
          have hsome := h.1 port (by simpa using hport)
          rw [h.2] at hsome
          cases hsome
      | some ser => exact hg.elim
  | shut => exact h
  | _ => exact hg.elim

omit [DecidableEq ι] in
/-- Whatever the task knows, there is at most one open port. -/
theorem Means.one {s : Pool ι} {g : Ghost} (h : Means s g) {port port' : Handle}
    (hport : s.opened port = true) (hport' : s.opened port' = true) : port = port' := by
  have howned : Pool.Owned s → port = port' := fun howned =>
    Option.some.inj ((howned port hport).symm.trans (howned port' hport'))
  cases g with
  | free => exact howned h
  | holding => exact howned h
  | saw ser => exact howned h.1
  | shut =>
      rw [h port] at hport
      cases hport
  | made ser => exact (h port hport).trans (h port' hport').symm
  | lost ser => exact (h port hport).trans (h port' hport').symm

/-- What is known of a job that has come so far; a `close` that has raised is not covered. -/
def Stands (s : Pool ι) (g : Ghost) (job : Job) : Progress job → Prop
  | .done r => ∃ g', Settles g job r g' ∧ Means s g'
  | _ => Means s g

/-- What the holder of the lock knows, and what it waits for. -/
def Inside (s : Pool ι) (t : ι) : Phase custody → Prop
  | .ready g => g ≠ .free ∧ Means s g
  | .waiting (.plain g) => g ≠ .free ∧ Means s g
  | .waiting (.awaiting g job) => Hands g job ∧ ∃ i p, s.awaited t = some i ∧
      s.workers[i]? = some ⟨job, p⟩ ∧ Stands s g job p

/-- The task has not taken the lock. -/
def Outside : Phase custody → Prop
  | .ready .free | .waiting (.plain .free) => True
  | _ => False

theorem plain_ne_awaiting (g : Ghost) : ∀ g' job,
    (.waiting (.plain g) : Phase custody) ≠ .waiting (.awaiting g' job) := by
  intro g' job heq
  cases heq

/-- A job that has still to open or close a port. -/
def touching (w : Worker) : Bool := (w.isQueued || w.isRunning) && !w.job.isTransaction

/-- What holds of the workers, with the holder of the lock. -/
structure Inv (s : Pool ι) (ph : ι → Phase custody) : Prop where
  outside : ∀ t, s.holder ≠ some t → Outside (ph t)
  inside : ∀ t, s.holder = some t → Inside s t (ph t)
  free : s.holder = none → Pool.Owned s
  /-- A job that has still to open or close a port is awaited by the holder. -/
  touches : ∀ i w, s.workers[i]? = some w → touching w = true →
    ∃ t g, s.holder = some t ∧ ph t = .waiting (.awaiting g w.job) ∧ s.awaited t = some i

/-- Nobody is cancelled while it waits for a constructor or a `ser.close()`, and no
    `ser.close()` raises. -/
def Unhurried (s : Pool ι) (a : Action (pool T timeout : System Serial Exc _ ι _))
    (_ : Pool ι) : Prop :=
  match a with
  | .answer t .cancel => ∀ i w, s.awaited t = some i → s.workers[i]? = some w →
      w.job.isTransaction = true
  | .env (.finish i (.raised _)) => ∀ w, s.workers[i]? = some w → w.job.isClose = false
  | _ => True

omit [DecidableEq ι] in
/-- Whoever is inside has the lock. -/
theorem Inv.holds_lock {s : Pool ι} {ph : ι → Phase custody} (h : Inv s ph) {t : ι}
    (ht : ¬ Outside (ph t)) : s.holder = some t := by
  by_contra hnot
  exact ht (h.outside t hnot)

omit [DecidableEq ι] in
/-- What a task inside knows is so. -/
theorem Inv.started {s : Pool ι} {ph : ι → Phase custody} (h : Inv s ph) {t : ι} {g : Ghost}
    (ht : ph t = .ready g) (hg : g ≠ .free) : s.holder = some t ∧ Means s g := by
  have hholder : s.holder = some t := by
    refine h.holds_lock ?_
    rw [ht]
    cases g with
    | free => exact absurd rfl hg
    | _ => exact id
  have hin := h.inside t hholder
  rw [ht] at hin
  exact ⟨hholder, hin.2⟩

omit [DecidableEq ι] in
theorem Inv.waited {s : Pool ι} {ph : ι → Phase custody} (h : Inv s ph) {t : ι} {g : Ghost}
    (ht : ph t = .waiting (.plain g)) (hg : g ≠ .free) : s.holder = some t ∧ Means s g := by
  have hholder : s.holder = some t := by
    refine h.holds_lock ?_
    rw [ht]
    cases g with
    | free => exact absurd rfl hg
    | _ => exact id
  have hin := h.inside t hholder
  rw [ht] at hin
  exact ⟨hholder, hin.2⟩

omit [DecidableEq ι] in
/-- While the holder does not wait for a job, none is left that touches a port. -/
theorem Inv.untouched {s : Pool ι} {ph : ι → Phase custody} (h : Inv s ph) {t : ι}
    (hholder : s.holder = some t) (hnot : ∀ g job, ph t ≠ .waiting (.awaiting g job)) {i : Nat}
    {w : Worker} (hw : s.workers[i]? = some w) : touching w = false := by
  by_contra htouch
  obtain ⟨u, g, hu, hph, -⟩ := h.touches i w hw (by simpa using htouch)
  obtain rfl := Option.some.inj (hholder.symm.trans hu)
  exact hnot g w.job hph

/-- **A step of the holder** that leaves the workers alone. -/
theorem Inv.holds {s s' : Pool ι} {ph : ι → Phase custody} (h : Inv s ph) {t : ι}
    {φ : Phase custody} (hholder : s.holder = some t)
    (hnot : ∀ g job, ph t ≠ .waiting (.awaiting g job)) (hφ : Inside s' t φ)
    (hholder' : s'.holder = s.holder) (hworkers : s'.workers = s.workers) :
    Inv s' (Function.update ph t φ) := by
  constructor
  · intro u hu
    rw [hholder'] at hu
    have hut : u ≠ t := by
      rintro rfl
      exact hu hholder
    rw [Function.update_of_ne hut]
    exact h.outside u hu
  · intro u hu
    obtain rfl := Option.some.inj (hholder.symm.trans (hholder'.symm.trans hu))
    rw [Function.update_self]
    exact hφ
  · intro hnone
    rw [hholder', hholder] at hnone
    cases hnone
  · intro i w hw htouch
    rw [hworkers] at hw
    rw [h.untouched hholder hnot hw] at htouch
    cases htouch

/-- The holder asks the transport. -/
theorem Inv.waits {s : Pool ι} {ph : ι → Phase custody} (h : Inv s ph) {t : ι} {g : Ghost}
    (ht : ph t = .ready g) (hg : g ≠ .free) :
    Inv s (Function.update ph t (.waiting (.plain g))) := by
  obtain ⟨hholder, hmeans⟩ := h.started ht hg
  exact h.holds hholder (by rw [ht]; simp) ⟨hg, hmeans⟩ rfl rfl

/-- The transport answers the holder. -/
theorem Inv.continues {s s' : Pool ι} {ph : ι → Phase custody} (h : Inv s ph) {t : ι}
    {g g' : Ghost} (ht : ph t = .waiting (.plain g)) (hg : g ≠ .free) (hg' : g' ≠ .free)
    (hmeans : Means s' g') (hholder' : s'.holder = s.holder) (hworkers : s'.workers = s.workers) :
    Inv s' (Function.update ph t (.ready g')) :=
  h.holds (h.waited ht hg).1 (by rw [ht]; exact plain_ne_awaiting g) ⟨hg', hmeans⟩ hholder'
    hworkers

omit [DecidableEq ι] in
/-- `_serial = None` leaves the port in the task's hands. -/
theorem Means.dropped {s s' : Pool ι} {ser : Option Handle} (howned : Pool.Owned s)
    (hserial : s.serial = ser) (hopened : s'.opened = s.opened) : Means s' (.dropped ser) := by
  cases ser with
  | none =>
      intro port
      rw [hopened]
      by_contra hport
      have hsome := howned port (by simpa using hport)
      rw [hserial] at hsome
      cases hsome
  | some ser =>
      intro port hport
      rw [hopened] at hport
      exact Option.some.inj ((howned port hport).symm.trans hserial)

omit [DecidableEq ι] in
/-- A port that is not open is no longer in question. -/
theorem Means.looked {s : Pool ι} {g : Ghost} {ser : Handle} (h : Means s g)
    (hg : g = .saw (some ser) ∨ g = .lost ser) : Means s (g.looked (s.opened ser)) := by
  have honly : Pool.Only s ser := by
    rcases hg with rfl | rfl
    · intro port hport
      exact Option.some.inj ((h.1 port hport).symm.trans h.2)
    · exact h
  cases hser : s.opened ser with
  | true => exact h
  | false =>
      intro port
      by_contra hport
      have hopen : s.opened port = true := by simpa using hport
      rw [honly port hopen, hser] at hopen
      cases hopen

omit [DecidableEq ι] in
/-- What is known is about `_serial` and the open ports only. -/
theorem Means.congr {s s' : Pool ι} {g : Ghost} (h : Means s g) (hopened : s'.opened = s.opened)
    (hserial : s'.serial = s.serial) : Means s' g := by
  cases g <;>
    simp only [Means, Pool.Owned, Pool.Quiet, Pool.Only, hopened, hserial] at h ⊢ <;> exact h

omit [DecidableEq ι] in
theorem Stands.congr {s s' : Pool ι} {g : Ghost} {job : Job} {p : Progress job}
    (h : Stands s g job p) (hopened : s'.opened = s.opened) (hserial : s'.serial = s.serial) :
    Stands s' g job p := by
  cases p with
  | done r =>
      obtain ⟨g', hsettles, hmeans⟩ := h
      exact ⟨g', hsettles, hmeans.congr hopened hserial⟩
  | _ => exact Means.congr h hopened hserial

/-- **A step outside of the lock.** -/
theorem Inv.outsider {s : Pool ι} {ph : ι → Phase custody} (h : Inv s ph) {t : ι}
    {φ : Phase custody} (ht : Outside (ph t)) (hφ : Outside φ) :
    Inv s (Function.update ph t φ) := by
  have hnot : s.holder ≠ some t := by
    intro hholder
    have hin := h.inside t hholder
    cases hph : ph t with
    | ready g =>
        rw [hph] at ht hin
        cases g with
        | free => exact hin.1 rfl
        | _ => exact ht
    | waiting held =>
        rw [hph] at ht hin
        cases held with
        | awaiting g job => exact ht
        | plain g =>
            cases g with
            | free => exact hin.1 rfl
            | _ => exact ht
  have hother : ∀ u, s.holder = some u → Function.update ph t φ u = ph u := by
    intro u hu
    refine Function.update_of_ne ?_ ..
    rintro rfl
    exact hnot hu
  constructor
  · exact fun u hu => forall_update (R := fun u φ => s.holder ≠ some u → Outside φ) (fun _ => hφ)
      (fun u _ => h.outside u) u hu
  · intro u hu
    rw [hother u hu]
    exact h.inside u hu
  · exact h.free
  · intro i w hw htouch
    obtain ⟨u, g, hu, hph, ha⟩ := h.touches i w hw htouch
    exact ⟨u, g, hu, (hother u hu).trans hph, ha⟩

/-- **The lock is taken.** -/
theorem Inv.acquire {s : Pool ι} {ph : ι → Phase custody} (h : Inv s ph) (t : ι)
    (hfree : s.holder = none) :
    Inv { s with holder := some t } (Function.update ph t (.ready .holding)) := by
  constructor
  · intro u hu
    have hut : u ≠ t := by
      rintro rfl
      exact hu rfl
    rw [Function.update_of_ne hut]
    exact h.outside u (by simp [hfree])
  · intro u hu
    obtain rfl := Option.some.inj hu
    rw [Function.update_self]
    refine ⟨?_, h.free hfree⟩
    intro heq
    cases heq
  · intro hnone
    cases hnone
  · intro i w hw htouch
    obtain ⟨u, g, hu, -⟩ := h.touches i w hw htouch
    rw [hfree] at hu
    cases hu

/-- **The lock is given back**, and no port is in anybody's hands. -/
theorem Inv.release {s : Pool ι} {ph : ι → Phase custody} (h : Inv s ph) {t : ι} {g : Ghost}
    (ht : ph t = .waiting (.plain g)) (hg : g.Neutral) :
    Inv { s with holder := none } (Function.update ph t (.ready .free)) := by
  obtain ⟨hholder, hmeans⟩ := h.waited ht hg.ne_free
  constructor
  · intro u _
    by_cases hut : u = t
    · subst hut
      rw [Function.update_self]
      trivial
    · rw [Function.update_of_ne hut]
      refine h.outside u ?_
      rw [hholder]
      exact fun heq => hut (Option.some.inj heq).symm
  · intro u hu
    cases hu
  · intro _
    exact hmeans.owned hg
  · intro i w hw htouch
    rw [h.untouched hholder (by rw [ht]; exact plain_ne_awaiting g) hw] at htouch
    cases htouch

/-- **A job is handed over.** -/
theorem Inv.toThread {s : Pool ι} {ph : ι → Phase custody} (h : Inv s ph) {t : ι} {g : Ghost}
    {job : Job} (ht : ph t = .ready g) (hg : g ≠ .free) (hhands : Hands g job) :
    Inv (s.invoke t (.toThread job)) (Function.update ph t (.waiting (.awaiting g job))) := by
  obtain ⟨hholder, hmeans⟩ := h.started ht hg
  have hself : (s.invoke t (.toThread job)).awaited t = some s.workers.length :=
    Function.update_self ..
  constructor
  · intro u hu
    have hut : u ≠ t := by
      rintro rfl
      exact hu hholder
    rw [Function.update_of_ne hut]
    exact h.outside u hu
  · intro u hu
    obtain rfl := Option.some.inj (hholder.symm.trans hu)
    rw [Function.update_self]
    refine ⟨hhands, s.workers.length, .queued, hself, ?_, hmeans⟩
    simp [Pool.invoke]
  · intro hnone
    rw [show (s.invoke t (.toThread job)).holder = s.holder from rfl, hholder] at hnone
    cases hnone
  · intro i w hw htouch
    by_cases hi : i < s.workers.length
    · rw [show (s.invoke t (.toThread job)).workers = s.workers ++ [⟨job, .queued⟩] from rfl,
        List.getElem?_append_left hi] at hw
      rw [h.untouched hholder (by rw [ht]; simp) hw] at htouch
      cases htouch
    · have hlt := (List.getElem?_eq_some_iff.mp hw).1
      rw [show (s.invoke t (.toThread job)).workers = s.workers ++ [⟨job, .queued⟩] from rfl,
        List.length_append, List.length_singleton] at hlt
      obtain rfl : i = s.workers.length := by omega
      have hnew : (s.invoke t (.toThread job)).workers[s.workers.length]?
          = some ⟨job, .queued⟩ := by simp [Pool.invoke]
      obtain rfl := Option.some.inj (hnew.symm.trans hw)
      exact ⟨t, g, hholder, Function.update_self .., hself⟩

/-- **The holder goes on** from a job that touches no port any more. -/
theorem Inv.resume {s s' : Pool ι} {ph : ι → Phase custody} (h : Inv s ph) {t : ι} {g g' : Ghost}
    {job : Job} {i : Nat} (ht : ph t = .waiting (.awaiting g job)) (hi : s.awaited t = some i)
    (hholder' : s'.holder = s.holder) (hg' : g' ≠ .free) (hmeans : Means s' g')
    (hother : ∀ j, j ≠ i → s'.workers[j]? = s.workers[j]?)
    (hdone : ∀ w, s'.workers[i]? = some w → touching w = false) :
    Inv s' (Function.update ph t (.ready g')) := by
  have hholder : s.holder = some t := h.holds_lock (by rw [ht]; exact id)
  constructor
  · intro u hu
    rw [hholder'] at hu
    have hut : u ≠ t := by
      rintro rfl
      exact hu hholder
    rw [Function.update_of_ne hut]
    exact h.outside u hu
  · intro u hu
    obtain rfl := Option.some.inj (hholder.symm.trans (hholder'.symm.trans hu))
    rw [Function.update_self]
    exact ⟨hg', hmeans⟩
  · intro hnone
    rw [hholder', hholder] at hnone
    cases hnone
  · intro j w hw htouch
    by_cases hj : j = i
    · subst hj
      rw [hdone w hw] at htouch
      cases htouch
    · rw [hother j hj] at hw
      obtain ⟨u, _, hu, -, ha⟩ := h.touches j w hw htouch
      obtain rfl := Option.some.inj (hholder.symm.trans hu)
      exact absurd (Option.some.inj (ha.symm.trans hi)) hj

omit [DecidableEq ι] in
/-- **A worker's step**: a job that touches a port is the one that the holder awaits. -/
theorem Inv.worked {s s' : Pool ι} {ph : ι → Phase custody} (h : Inv s ph) {i : Nat} {job : Job}
    {p : Progress job} (p' : Progress job) (hw : s.workers[i]? = some ⟨job, p⟩)
    (hholder' : s'.holder = s.holder) (hserial : s'.serial = s.serial)
    (hawaited : s'.awaited = s.awaited)
    (hworkers : s'.workers = s.workers.set i ⟨job, p'⟩)
    (htouch : touching ⟨job, p'⟩ = true → touching ⟨job, p⟩ = true)
    (hopened : touching ⟨job, p⟩ = false → s'.opened = s.opened)
    (hstands : ∀ g, Hands g job → Stands s g job p → Stands s' g job p') : Inv s' ph := by
  have hlt : i < s.workers.length := (List.getElem?_eq_some_iff.mp hw).1
  -- where the holder does not await this job, it leaves the ports alone
  have hsame : (∀ t g, s.holder = some t → ph t = .waiting (.awaiting g job) →
      s.awaited t ≠ some i) → s'.opened = s.opened := by
    intro hnone
    refine hopened ?_
    by_contra htouching
    obtain ⟨t, g, ht, hph, ha⟩ := h.touches i _ hw (by simpa using htouching)
    exact hnone t g ht hph ha
  constructor
  · intro u hu
    rw [hholder'] at hu
    exact h.outside u hu
  · intro u hu
    rw [hholder'] at hu
    have hin := h.inside u hu
    have hplain : (∀ g job, ph u ≠ .waiting (.awaiting g job)) → s'.opened = s.opened := by
      intro hnot
      refine hsame fun t g ht hph _ => ?_
      obtain rfl := Option.some.inj (hu.symm.trans ht)
      exact hnot g job hph
    cases hph : ph u with
    | ready g =>
        rw [hph] at hin
        exact ⟨hin.1, hin.2.congr (hplain (by rw [hph]; simp)) hserial⟩
    | waiting held =>
        rw [hph] at hin
        cases held with
        | plain g =>
            exact ⟨hin.1, hin.2.congr (hplain (by rw [hph]; exact plain_ne_awaiting g)) hserial⟩
        | awaiting g job' =>
            obtain ⟨hhands, j, q, ha, hj, hq⟩ := hin
            refine ⟨hhands, j, ?_⟩
            by_cases hij : i = j
            · subst hij
              obtain ⟨rfl, hpq⟩ := Worker.mk.inj (Option.some.inj (hw.symm.trans hj))
              obtain rfl := eq_of_heq hpq
              refine ⟨p', by rw [hawaited, ha], ?_, hstands g hhands hq⟩
              rw [hworkers, List.getElem?_set_self hlt]
            · have hopened' : s'.opened = s.opened := by
                refine hsame fun t g' ht hph' ha' => ?_
                obtain rfl := Option.some.inj (hu.symm.trans ht)
                exact hij (Option.some.inj (ha'.symm.trans ha))
              refine ⟨q, by rw [hawaited, ha], ?_, hq.congr hopened' hserial⟩
              rw [hworkers, List.getElem?_set_ne hij, hj]
  · intro hnone
    rw [hholder'] at hnone
    have hopened' : s'.opened = s.opened := by
      refine hsame fun t g ht => ?_
      rw [hnone] at ht
      cases ht
    have howned := h.free hnone
    simpa only [Pool.Owned, hopened', hserial] using howned
  · intro j w hwj htouching
    rw [hworkers] at hwj
    by_cases hij : i = j
    · subst hij
      rw [List.getElem?_set_self hlt] at hwj
      obtain rfl := Option.some.inj hwj
      obtain ⟨t, g, ht, hph, ha⟩ := h.touches i _ hw (htouch htouching)
      exact ⟨t, g, hholder'.trans ht, hph, by rw [hawaited, ha]⟩
    · rw [List.getElem?_set_ne hij] at hwj
      obtain ⟨t, g, ht, hph, ha⟩ := h.touches j w hwj htouching
      exact ⟨t, g, hholder'.trans ht, hph, by rw [hawaited, ha]⟩

/-! ## Every step keeps the invariant -/

omit [DecidableEq ι] in
/-- **The end of a job.** -/
theorem Inv.finish {s : Pool ι} {ph : ι → Phase custody} (h : Inv s ph) {i : Nat} {w : Worker}
    (hw : s.workers[i]? = some w) (hrunning : w.isRunning = true) (x : Outcome)
    (hclose : ∀ e, x = .raised e → w.job.isClose = false) : Inv (s.finish i w.job x) ph := by
  obtain ⟨job, p⟩ := w
  have hp : touching ⟨job, p⟩ = !job.isTransaction := by
    cases p <;> simp [Worker.isRunning, touching] at hrunning ⊢
  have hmeans : ∀ {s' : Pool ι} {g : Ghost}, Stands s' g job p → Means s' g := by
    intro s' g hstands
    cases p with
    | running => exact hstands
    | _ => simp [Worker.isRunning] at hrunning
  cases x with
  | raised e =>
      have hcl := hclose e rfl
      have hfinish : s.finish i job (.raised e) = s.setWorker i ⟨job, .done (.error e)⟩ := by
        cases job <;> rfl
      show Inv (s.finish i job (.raised e)) ph
      rw [hfinish]
      refine h.worked (.done (.error e)) hw rfl rfl rfl rfl
        (by simp [touching, Worker.isQueued, Worker.isRunning]) (fun _ => rfl) ?_
      intro g _ hstands
      refine ⟨g, ?_, hmeans hstands⟩
      cases job with
      | close ser => cases hcl
      | _ => rfl
  | returned response =>
      cases job with
      | construct port baudRate =>
          refine h.worked (.done (.ok s.constructed) : Progress (.construct port baudRate)) hw
            rfl rfl rfl rfl
            (by simp [touching, Worker.isQueued, Worker.isRunning]) ?_ ?_
          · intro hnot
            rw [hp] at hnot
            cases hnot
          · intro g hhands hstands
            have hquiet := (hmeans hstands).quiet hhands
            refine ⟨.made s.constructed, rfl, ?_⟩
            intro ser hser
            by_contra hne
            have hold : s.opened ser = true := (Function.update_of_ne hne ..).symm.trans hser
            rw [hquiet ser] at hold
            cases hold
      | transactBlocking command expects limit =>
          refine h.worked
            (.done (.ok response) : Progress (.transactBlocking command expects limit))
            hw rfl rfl rfl rfl
            (by simp [touching, Worker.isQueued, Worker.isRunning]) (fun _ => rfl) ?_
          intro g _ hstands
          exact ⟨g, rfl, hmeans hstands⟩
      | close ser =>
          refine h.worked (.done (.ok ()) : Progress (.close ser)) hw rfl rfl rfl rfl
            (by simp [touching, Worker.isQueued, Worker.isRunning]) ?_ ?_
          · intro hnot
            rw [hp] at hnot
            cases hnot
          · rintro _ rfl hstands
            have honly : Pool.Only s ser := hmeans hstands
            refine ⟨.shut, rfl, ?_⟩
            intro port
            show Function.update s.opened ser false port = false
            by_cases hport : port = ser
            · rw [hport, Function.update_self]
            · rw [Function.update_of_ne hport]
              by_contra hopen
              exact hport (honly port (by simpa using hopen))

omit [DecidableEq ι] in
/-- A step of a worker keeps the invariant, unless a `close` raises. -/
theorem Inv.workerStep {s s' : Pool ι} {ph : ι → Phase custody} (h : Inv s ph) {x : WorkerStep}
    (hok : ∀ i e, x = .finish i (.raised e) → ∀ w, s.workers[i]? = some w →
      w.job.isClose = false) (hs : s.workerStep x = some s') : Inv s' ph := by
  cases x with
  | begin_ i =>
      simp only [Pool.workerStep] at hs
      split at hs
      · next w hw =>
          obtain ⟨hqueued, hs⟩ := Option.ite_none_right_eq_some.mp hs
          obtain rfl := Option.some.inj hs
          obtain ⟨job, p⟩ := w
          refine h.worked .running hw rfl rfl rfl rfl ?_ (fun _ => rfl) ?_
          · intro htouch
            cases p <;> simp [touching, Worker.isQueued, Worker.isRunning] at hqueued htouch ⊢
            exact htouch
          · intro g _ hstands
            cases p with
            | queued => exact hstands
            | _ => simp [Worker.isQueued] at hqueued
      · cases hs
  | finish i x =>
      simp only [Pool.workerStep] at hs
      split at hs
      · next w hw =>
          obtain ⟨hrunning, hs⟩ := Option.ite_none_right_eq_some.mp hs
          obtain rfl := Option.some.inj hs
          refine h.finish hw hrunning x ?_
          rintro e rfl
          exact hok i e rfl w hw
      · cases hs

/-- **Every step keeps the two layers**, and gives the task what the protocol promises. -/
theorem sound : Sound custody (pool T timeout : System Serial Exc _ ι _) (Unhurried T timeout)
    (fun _ g => g = .free) Inv where
  start := by
    rintro s s' ph t m g r hI hph rfl - hs
    obtain rfl := Option.some.inj hs
    refine ⟨.free, wp_method T timeout m, ?_⟩
    rw [← hph, Function.update_eq_self]
    exact hI
  invoke := by
    rintro s ph t o g h hI hph hinv -
    cases o with
    | acquire =>
        obtain ⟨rfl, rfl⟩ := hinv
        exact hI.outsider (by rw [hph]; trivial) trivial
    | release =>
        obtain ⟨hneutral, rfl⟩ := hinv
        exact hI.waits hph hneutral.ne_free
    | getSerial =>
        obtain ⟨hneutral, rfl⟩ := hinv
        exact hI.waits hph hneutral.ne_free
    | setSerial ser =>
        cases ser with
        | none =>
            obtain ⟨⟨ser, rfl⟩, rfl⟩ := hinv
            exact hI.waits hph (by simp)
        | some ser =>
            obtain ⟨rfl, rfl⟩ := hinv
            exact hI.waits hph (by simp)
    | handleIsOpen ser =>
        obtain ⟨rfl | rfl, rfl⟩ := hinv <;> exact hI.waits hph (by simp)
    | toThread job =>
        obtain ⟨hhands, rfl⟩ := hinv
        exact hI.toThread hph hhands.ne_free hhands
  answer := by
    rintro s s' ph t o h x r hI hph ⟨g, hinv⟩ hok hs
    cases o with
    | acquire =>
        obtain ⟨rfl, rfl⟩ := hinv
        cases x with
        | outcome =>
            simp only [pool, Pool.answer] at hs
            split at hs
            · next hfree =>
                obtain ⟨rfl, rfl⟩ := Prod.mk.inj (Option.some.inj hs)
                exact ⟨.holding, rfl, hI.acquire t (Option.isNone_iff_eq_none.mp hfree)⟩
            · cases hs
        | cancel =>
            obtain ⟨rfl, rfl⟩ := Prod.mk.inj (Option.some.inj hs)
            exact ⟨.free, rfl, hI.outsider (by rw [hph]; trivial) trivial⟩
    | release =>
        obtain ⟨hneutral, rfl⟩ := hinv
        cases x with
        | outcome =>
            obtain ⟨rfl, rfl⟩ := Prod.mk.inj (Option.some.inj hs)
            exact ⟨.free, rfl, hI.release hph hneutral⟩
        | cancel => cases hs
    | getSerial =>
        obtain ⟨hneutral, rfl⟩ := hinv
        obtain ⟨-, hmeans⟩ := hI.waited hph hneutral.ne_free
        cases x with
        | outcome =>
            obtain ⟨rfl, rfl⟩ := Prod.mk.inj (Option.some.inj hs)
            exact ⟨.saw s.serial, rfl, hI.continues hph hneutral.ne_free (by simp)
              ⟨hmeans.owned hneutral, rfl⟩ rfl rfl⟩
        | cancel => cases hs
    | setSerial ser =>
        cases x with
        | outcome =>
            obtain ⟨rfl, rfl⟩ := Prod.mk.inj (Option.some.inj hs)
            cases ser with
            | none =>
                obtain ⟨⟨ser, rfl⟩, rfl⟩ := hinv
                obtain ⟨-, howned, hserial⟩ := hI.waited hph (by simp)
                refine ⟨.dropped ser, ⟨ser, rfl, rfl⟩, hI.continues hph (by simp) ?_ ?_ rfl rfl⟩
                · cases ser <;> simp [Ghost.dropped]
                · exact Means.dropped howned hserial rfl
            | some ser =>
                obtain ⟨rfl, rfl⟩ := hinv
                obtain ⟨-, honly⟩ := hI.waited hph (by simp)
                refine ⟨.holding, rfl, hI.continues hph (by simp) (by simp) ?_ rfl rfl⟩
                intro port hport
                rw [honly port hport]
        | cancel => cases hs
    | handleIsOpen ser =>
        cases x with
        | outcome =>
            obtain ⟨rfl, rfl⟩ := Prod.mk.inj (Option.some.inj hs)
            obtain ⟨hg, rfl⟩ := hinv
            have hne : g ≠ Ghost.free := by rcases hg with rfl | rfl <;> (intro heq; cases heq)
            obtain ⟨-, hmeans⟩ := hI.waited hph hne
            refine ⟨g.looked (s.opened ser), ⟨g, rfl, rfl⟩, hI.continues hph hne ?_
              (hmeans.looked hg) rfl rfl⟩
            cases s.opened ser with
            | true => exact hne
            | false => simp [Ghost.looked]
        | cancel => cases hs
    | toThread job =>
        obtain ⟨hhands, rfl⟩ := hinv
        have hholder : s.holder = some t := hI.holds_lock (by rw [hph]; exact id)
        have hin := hI.inside t hholder
        rw [hph] at hin
        obtain ⟨-, i, p, ha, hw, hstands⟩ := hin
        cases x with
        | outcome =>
            simp only [pool, Pool.answer, ha, hw, Option.bind_some] at hs
            obtain ⟨r', hr, he⟩ := Option.map_eq_some_iff.mp hs
            obtain ⟨rfl, rfl⟩ := Prod.mk.inj he
            cases p with
            | done r'' =>
                have hdone : Worker.result ⟨job, .done r''⟩ job = some r'' := by
                  simp [Worker.result]
                obtain rfl := Option.some.inj (hdone.symm.trans hr)
                obtain ⟨g', hsettles, hmeans⟩ := hstands
                refine ⟨g', ⟨g, rfl, hsettles⟩, hI.resume hph ha rfl (hsettles.ne_free hhands)
                  (hmeans.congr rfl rfl) (fun _ _ => rfl) ?_⟩
                intro w hw'
                obtain rfl := Option.some.inj (hw.symm.trans hw')
                rfl
            | _ => simp [Worker.result] at hr
        | cancel =>
            have htransaction : job.isTransaction = true := hok i _ ha hw
            simp only [pool, Pool.answer, ha, hw, Option.map_some] at hs
            obtain ⟨rfl, rfl⟩ := Prod.mk.inj (Option.some.inj hs)
            cases job with
            | transactBlocking command expects limit =>
                have hmeans : Means s g := by
                  cases p with
                  | done r =>
                      obtain ⟨g', hsettles, hmeans⟩ := hstands
                      obtain rfl : g' = g := by cases r <;> exact hsettles
                      exact hmeans
                  | _ => exact hstands
                refine ⟨g, ⟨g, rfl, rfl⟩, hI.resume hph ha rfl hhands.ne_free
                  (hmeans.congr rfl rfl) ?_ ?_⟩
                · intro j hj
                  exact List.getElem?_set_ne (Ne.symm hj)
                · intro w hw'
                  have hlt := (List.getElem?_eq_some_iff.mp hw).1
                  obtain rfl := Option.some.inj ((List.getElem?_set_self hlt).symm.trans hw')
                  cases p <;> rfl
            | _ => cases htransaction
  env := by
    intro s s' ph x hI hok hs
    refine hI.workerStep ?_ hs
    rintro i e rfl
    exact hok

/-! ## One port -/

/-- At most one port is open; when nobody has the lock it is `_serial`; and `serial.Serial` is
    called when none is. -/
structure Accounted (c : Config Serial Exc (Option Str) ι (Pool ι)) : Prop where
  one : ∀ port port', c.shared.opened port = true → c.shared.opened port' = true → port = port'
  owned : c.shared.holder = none → ∀ port, c.shared.opened port = true →
    c.shared.serial = some port
  alone : ∀ i c' port baudRate, step (pool T timeout) c (.env (.begin_ i)) = some c' →
    c'.shared.workers[i]? = some ⟨.construct port baudRate, .running⟩ →
    ∀ port, c.shared.opened port = false

omit [DecidableEq ι] in
/-- A job that has still to open or close a port is the holder's, who knows what it is for. -/
theorem Inv.touching_job {s : Pool ι} {ph : ι → Phase custody} (h : Inv s ph) {i : Nat} {job : Job}
    {p : Progress job} (hw : s.workers[i]? = some ⟨job, p⟩) (htouch : touching ⟨job, p⟩ = true) :
    ∃ g, Hands g job ∧ Stands s g job p := by
  obtain ⟨t, g, ht, hph, ha⟩ := h.touches i _ hw htouch
  have hin := h.inside t ht
  rw [hph] at hin
  obtain ⟨hhands, j, q, ha', hj, hstands⟩ := hin
  obtain rfl := Option.some.inj (ha.symm.trans ha')
  obtain ⟨-, hpq⟩ := Worker.mk.inj (Option.some.inj (hw.symm.trans hj))
  obtain rfl := eq_of_heq hpq
  exact ⟨g, hhands, hstands⟩

omit [DecidableEq ι] in
/-- Whatever has been done so far, there is at most one open port. -/
theorem Stands.one {s : Pool ι} {g : Ghost} {job : Job} {p : Progress job} (h : Stands s g job p)
    {port port' : Handle} (hport : s.opened port = true) (hport' : s.opened port' = true) :
    port = port' := by
  cases p with
  | done r =>
      obtain ⟨g', -, hmeans⟩ := h
      exact hmeans.one hport hport'
  | _ => exact Means.one h hport hport'

omit [DecidableEq ι] in
/-- At most one port is open. -/
theorem Inv.one {s : Pool ι} {ph : ι → Phase custody} (h : Inv s ph) {port port' : Handle}
    (hport : s.opened port = true) (hport' : s.opened port' = true) : port = port' := by
  cases hholder : s.holder with
  | none => exact Means.one (g := .holding) (h.free hholder) hport hport'
  | some t =>
      have hin := h.inside t hholder
      cases hph : ph t with
      | ready g =>
          rw [hph] at hin
          exact hin.2.one hport hport'
      | waiting held =>
          rw [hph] at hin
          cases held with
          | plain g => exact hin.2.one hport hport'
          | awaiting g job =>
              obtain ⟨-, i, p, -, -, hstands⟩ := hin
              exact hstands.one hport hport'

/-- **Custody along a run.** -/
theorem inv_reach {c : Config Serial Exc (Option Str) ι (Pool ι)}
    (h : Reach (pool T timeout) (Unhurried T timeout) initial c) :
    ∃ ph, Inv c.shared ph ∧ ∀ t, Agrees custody (fun _ g => g = .free) (c.point t) (ph t) := by
  have hstart : Inv (ι := ι) initial.shared fun _ => .ready .free := by
    refine ⟨fun _ _ => trivial, ?_, ?_, ?_⟩
    · intro t ht
      cases ht
    · intro _ port hport
      cases hport
    · intro i w hw
      cases hw
  exact (sound T timeout).reach hstart (fun _ => rfl) h

/-- **ONE PORT**: along every run of any tasks calling `start`, `stop`, `query` and `write`,
    whatever the serial line does and whoever is cancelled, but for a cancellation of a task
    that waits for `serial.Serial` or `ser.close()` and a `ser.close()` that raises, the server
    has at most one port open, calls `serial.Serial` only when it has none, and owns the port
    that it leaves open between two calls. -/
theorem one_port {c : Config Serial Exc (Option Str) ι (Pool ι)}
    (h : Reach (pool T timeout) (Unhurried T timeout) initial c) : Accounted T timeout c := by
  obtain ⟨ph, hI, -⟩ := inv_reach T timeout h
  refine ⟨fun _ _ => hI.one, hI.free, ?_⟩
  intro i c' port baudRate hstep hrunning
  obtain ⟨s, hs, rfl⟩ := Option.map_eq_some_iff.mp hstep
  simp only [pool, Pool.workerStep] at hs
  split at hs
  · next w hw =>
      obtain ⟨hqueued, hs⟩ := Option.ite_none_right_eq_some.mp hs
      obtain rfl := Option.some.inj hs
      have hlt := (List.getElem?_eq_some_iff.mp hw).1
      obtain ⟨job, p⟩ := w
      obtain ⟨rfl, -⟩ := Worker.mk.inj
        (Option.some.inj ((List.getElem?_set_self hlt).symm.trans hrunning))
      -- the job was the holder's, who has seen that no port is open
      obtain ⟨g, hhands, hstands⟩ := hI.touching_job hw (by simp [touching, hqueued,
        Job.isTransaction])
      cases p with
      | queued => exact Means.quiet hstands hhands
      | _ => cases hqueued
  · cases hs

/-- No cancellation, and no job that raises. -/
def calm : Action (pool T timeout : System Serial Exc _ ι _) → Bool
  | .answer _ .cancel => false
  | .env (.finish _ (.raised _)) => false
  | _ => true

/-- A calm run is an unhurried one. -/
theorem unhurried_of_calm {a : Action (pool T timeout : System Serial Exc _ ι _)}
    (h : calm T timeout a = true) (s s' : Pool ι) : Unhurried T timeout s a s' := by
  cases a with
  | answer t x =>
      cases x with
      | outcome => trivial
      | cancel => cases h
  | env x =>
      cases x with
      | begin_ i => trivial
      | finish i x =>
          cases x with
          | returned response => trivial
          | raised e => cases h
  | _ => trivial

/-- One port while the poll loop's query is on the line. -/
theorem one_port_polling : ∃ c, run (pool ⟨"/dev/ttyUSB0".toList, 115200⟩ 2) initial
    (polling _ 2 false) = some c ∧ c.shared.opened 0 = true ∧
    Accounted ⟨"/dev/ttyUSB0".toList, 115200⟩ 2 c := by
  have hrun : ((run (pool ⟨"/dev/ttyUSB0".toList, 115200⟩ 2) initial (polling _ 2 false)).map
      fun c => c.shared.opened 0) = some true := rfl
  have hall : ((polling ⟨"/dev/ttyUSB0".toList, 115200⟩ 2 false).all fun a =>
      calm _ 2 a) = true := rfl
  obtain ⟨c, hc, hopen⟩ := Option.map_eq_some_iff.mp hrun
  exact ⟨c, hc, hopen, one_port _ 2 (reach_of_run hc fun a ha =>
    unhurried_of_calm _ 2 (List.all_eq_true.mp hall a ha))⟩

/-- The server is stopped while it opens the port, which is constructed all the same, and it is
    started again. -/
def stopped : List (Action (pool T timeout : System Serial Exc _ Bool _)) :=
  let go := go T timeout
  [.start false .start] ++ go false ++ go false
    ++ [.invoke false, .env (.begin_ 0), .answer false .cancel] ++ go false
    ++ [.env (.finish 0 (.returned none))]
    ++ [.start true .start] ++ go true ++ go true ++ [.invoke true] ++ work T timeout 1

/-- **A port is lost** when a task is cancelled while it waits for `serial.Serial`. -/
theorem not_one_port : ¬ ∀ (ι : Type) (_ : DecidableEq ι) (T : SerialTransport) (timeout : Rat)
    (c : Config Serial Exc (Option Str) ι (Pool ι)),
    Reach (pool T timeout) Free initial c → Accounted T timeout c := by
  intro h
  have hrun : ((run (pool ⟨"/dev/ttyUSB0".toList, 115200⟩ 2) initial (stopped _ 2)).map
      fun c => (c.shared.opened 0, c.shared.opened 1)) = some (true, true) := rfl
  obtain ⟨c, hc, hopened⟩ := Option.map_eq_some_iff.mp hrun
  obtain ⟨hzero, hone⟩ := Prod.mk.inj hopened
  have hsame := (h Bool inferInstance _ 2 c (reach_of_run hc fun _ _ _ _ => trivial)).one 0 1
    hzero hone
  cases hsame

end OnePort
