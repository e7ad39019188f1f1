import XdmServer.Interleaving
import XdmServer.Manager
import XdmServer.ConnectionLog

/-! # No command before LOCAL

    Any number of tasks call the methods of one manager.  Each call of the transport
    succeeds or raises `TransportError`, and a task may be cancelled wherever it waits.
    The transport behaves as those under `device/` do: `open` does nothing on an open
    transport, a failed or cancelled `open` opens nothing, and `close` has closed as
    soon as it is called.

    `ConnectionLog.LocalFirst` of the log is what the handshake is for.  A connection on
    which `SYST:LOC` has not yet succeeded is *fresh*; `localFirst` says that the log is
    in order as long as no task is cancelled in the middle of a handshake, and the
    `SYST:LOC` of `start`, which no `except` guards, does not fail on a fresh connection. -/

namespace LocalMode

open PyText Coroutine Commands Device ConnectionLog Interleaving

/-- The lock, the transport and its log, and the method each task has called. -/
structure Exchange (ι : Type) where
  holder : Option ι
  isOpen : Bool
  log : List Event
  serving : ι → Option Method

/-- How a task is resumed. -/
inductive Resume where
  | ok (response : Option Str)
  | fail (exc : TransportError)
  | cancel

variable {ι : Type} [DecidableEq ι]

/-- Events are added to the log. -/
def Exchange.record (s : Exchange ι) (es : List Event) : Exchange ι :=
  { s with log := s.log ++ es }

/-- A task calls a method. -/
def Exchange.start (s : Exchange ι) (t : ι) (m : Method) : Exchange ι :=
  { s with serving := Function.update s.serving t (some m) }

/-- What a call of the transport does at once. -/
def Exchange.invoke (s : Exchange ι) : LineOp → Exchange ι
  | .close => { s.record [.closed] with isOpen := false }
  | .transact command _ _ => if s.isOpen then s.record [.sent command] else s
  | _ => s

/-- How a call comes out; `none` where it cannot come out so. -/
def Exchange.answer (s : Exchange ι) (t : ι) :
    (o : LineOp) → Resume → Option (Except Exc o.Res × Exchange ι)
  | .acquire, .ok _ => if s.holder.isNone then some (.ok (), { s with holder := some t }) else none
  | .acquire, .cancel => some (.error .cancelledError, s)
  | .release, .ok _ => some (.ok (), { s with holder := none })
  | .isOpen, .ok _ => some (.ok s.isOpen, s)
  | .open_, .ok _ =>
      some (.ok (), if s.isOpen then s else { s.record [.opened] with isOpen := true })
  | .open_, .fail exc =>
      if s.isOpen then none else some (.error (.transportError exc), s.record [.openFailed exc])
  | .open_, .cancel => some (.error .cancelledError, s)
  | .close, .ok _ => some (.ok (), s)
  | .close, .fail exc => some (.error (.transportError exc), s)
  | .close, .cancel => some (.error .cancelledError, s)
  | .transact command _ _, .ok response =>
      if s.isOpen then some (.ok response, s.record [.answered command (.ok response)]) else none
  | .transact command _ _, .fail exc =>
      some (.error (.transportError exc),
        if s.isOpen then s.record [.answered command (.error exc)] else s)
  | .transact _ _ _, .cancel => some (.error .cancelledError, s)
  | _, _ => none

variable (timeout : Rat)

/-- Tasks calling the manager's methods. -/
def exchange : System Line Exc (Option Str) ι (Exchange ι) where
  Entry := Method
  Choice := Resume
  Env := Empty
  code := (lineManager timeout).method
  start s t m := some (s.start t m)
  invoke s _ o := s.invoke o
  answer := Exchange.answer
  env s _ := some s

/-- Nothing has been called yet, and there is no connection. -/
def initial : Config Line Exc (Option Str) ι (Exchange ι) where
  shared := ⟨none, false, [], fun _ => none⟩
  point _ := .ready (.ret none)

/-! ## The handshake as a protocol -/

/-- Where a task stands: whether it is in `start`, and, if it holds the lock, how it
    knows the connection to be. -/
structure Stand where
  starting : Bool
  conn : Option Conn

/-- Nothing but `SYST:LOC` goes out on a fresh connection, and no task gives the lock
    back while the connection is fresh.  A fresh connection is not cancelled on, and
    only outside `start` may its `SYST:LOC` fail. -/
def handshake : Protocol Line Exc where
  Ghost := Stand
  Held := Stand
  invoke g o h := match o with
    | .acquire => g.conn = none ∧ h = g
    | .release => (∃ c, c ≠ .fresh ∧ g.conn = some c) ∧ h = g
    | .close => (∃ c, g.conn = some c) ∧ h = { g with conn := some .closed }
    | .transact command _ _ =>
        (g.conn = some .inLocal ∨ g.conn = some .fresh ∧ command = LOCAL) ∧ h = g
    | _ => (∃ c, g.conn = some c) ∧ h = g
  answer h o r g := match o, r with
    | .acquire, .ok _ => ∃ c, c ≠ .fresh ∧ g = { h with conn := some c }
    | .release, _ => g = { h with conn := none }
    | .isOpen, .ok isOpen => g = h ∧ ∀ c, h.conn = some c → isOpen = decide (c ≠ .closed)
    | .open_, .ok _ => ∀ c, h.conn = some c →
        g = { h with conn := some (if c = .closed then .fresh else c) }
    | .transact _ _ _, .ok _ => g = { h with conn := some .inLocal }
    | .transact _ _ _, .error e =>
        g = h ∧ (h.conn = some .fresh → h.starting = false ∧ ∃ exc, e = .transportError exc)
    | _, _ => g = h

/-- Under the lock, with no fresh connection. -/
def Settled (starting : Bool) (g : Stand) : Prop :=
  g.starting = starting ∧ ∃ c, c ≠ .fresh ∧ g.conn = some c

/-- `_connect` ends in LOCAL mode, or raises; a fresh connection is left behind only
    outside `start`, with a `TransportError` that the caller is to clean up after. -/
theorem wp_connect {starting : Bool} {c : Conn} (hc : c ≠ .fresh) :
    handshake.wp (lineManager timeout).connect (fun r g => match r with
      | .ok _ => g = ⟨starting, some .inLocal⟩
      | .error e => ∃ c', g = ⟨starting, some c'⟩ ∧
          (c' = .fresh → starting = false ∧ ∃ exc, e = .transportError exc))
      ⟨starting, some c⟩ := by
  refine (Protocol.wp_bind ..).mpr ((Protocol.wp_op ..).mpr ⟨_, ⟨⟨c, rfl⟩, rfl⟩, ?_⟩)
  rintro (e | u) g hg
  · obtain rfl : g = _ := hg
    exact ⟨c, rfl, fun h => absurd h hc⟩
  · obtain rfl : g = _ := hg c rfl
    have hsend : (if c = .closed then Conn.fresh else c) = .inLocal ∨
        (if c = .closed then Conn.fresh else c) = .fresh := by
      cases c with
      | closed => exact .inr rfl
      | fresh => exact absurd rfl hc
      | inLocal => exact .inl rfl
    refine (Protocol.wp_bind ..).mpr ((Protocol.wp_op ..).mpr ⟨_, ⟨?_, rfl⟩, ?_⟩)
    · exact hsend.imp (congrArg some) fun h => ⟨congrArg some h, rfl⟩
    · rintro (e | r) g hg'
      · obtain ⟨rfl, hfresh⟩ := hg'
        exact ⟨_, rfl, fun h => hfresh (congrArg some h)⟩
      · exact hg'

/-- `close` leaves no connection, however it ends. -/
theorem wp_close {starting : Bool} {c : Conn} :
    handshake.wp (lineManager timeout).transport.close
      (fun _ g => g = ⟨starting, some .closed⟩) ⟨starting, some c⟩ := by
  refine (Protocol.wp_op ..).mpr ⟨_, ⟨⟨c, rfl⟩, rfl⟩, ?_⟩
  rintro (e | u) g hg <;> exact hg

theorem wp_safeClose {starting : Bool} {c : Conn} :
    handshake.wp (lineManager timeout).safeClose
      (fun _ g => g = ⟨starting, some .closed⟩) ⟨starting, some c⟩ := by
  refine (Protocol.wp_tryExcept ..).mpr (Protocol.wp_mono (wp_close timeout) ?_)
  rintro (e | u) g rfl
  · cases e <;> rfl
  · rfl

/-- A `DeviceError` is raised with the connection cleaned up. -/
theorem wp_cleanup {α : Type} {c : Conn} (e : Exc) :
    handshake.wp (do
      (lineManager timeout).safeClose
      .raise e : Coro Line Exc α)
      (fun r g => g = ⟨false, some .closed⟩ ∧ ∀ a, r ≠ .ok a) ⟨false, some c⟩ := by
  refine (Protocol.wp_bind ..).mpr (Protocol.wp_mono (wp_safeClose timeout) ?_)
  rintro (e' | u) g rfl <;> exact ⟨rfl, fun a h => nomatch h⟩

/-- `_reconnect` ends in LOCAL mode, or raises with no fresh connection. -/
theorem wp_reconnect :
    handshake.wp (lineManager timeout).reconnect (fun r g => match r with
      | .ok _ => g = ⟨false, some .inLocal⟩
      | .error _ => Settled false g) ⟨false, some .closed⟩ := by
  refine (Protocol.wp_tryExcept ..).mpr
    (Protocol.wp_mono (wp_connect timeout (c := .closed) (by decide)) ?_)
  rintro (e | u) g hg
  · obtain ⟨c', rfl, hfresh⟩ := hg
    cases e with
    | transportError exc =>
        refine Protocol.wp_mono (wp_cleanup timeout _) ?_
        rintro (e | u) g ⟨rfl, hr⟩
        · exact ⟨rfl, .closed, by decide, rfl⟩
        · exact absurd rfl (hr u)
    | _ =>
        refine ⟨rfl, c', fun hf => ?_, rfl⟩
        obtain ⟨-, exc, he⟩ := hfresh hf
        exact nomatch he
  · exact hg

/-- What is done under the lock leaves no fresh connection. -/
theorem wp_exchange (command : Str) (expects : Bool) (limit : Rat) {c : Conn}
    (hc : c ≠ .fresh) :
    handshake.wp ((lineManager timeout).exchange command expects limit)
      (fun _ g => Settled false g) ⟨false, some c⟩ := by
  have hensure : handshake.wp (lineManager timeout).ensureOpen (fun r g => match r with
      | .ok _ => g = ⟨false, some .inLocal⟩
      | .error _ => Settled false g) ⟨false, some c⟩ := by
    refine (Protocol.wp_bind ..).mpr ((Protocol.wp_op ..).mpr ⟨_, ⟨⟨c, rfl⟩, rfl⟩, ?_⟩)
    rintro (e | isOpen) g hg
    · obtain rfl : g = _ := hg
      exact ⟨rfl, c, hc, rfl⟩
    · obtain ⟨rfl, hopen⟩ := hg
      obtain rfl := hopen c rfl
      cases c with
      | closed => exact wp_reconnect timeout
      | fresh => exact absurd rfl hc
      | inLocal => rfl
  refine (Protocol.wp_bind ..).mpr (Protocol.wp_mono hensure ?_)
  rintro (e | u) g hg
  · exact hg
  · obtain rfl : g = _ := hg
    refine (Protocol.wp_tryExcept ..).mpr ((Protocol.wp_op ..).mpr
      ⟨_, ⟨.inl rfl, rfl⟩, ?_⟩)
    rintro (e | r) g hg
    · obtain ⟨rfl, -⟩ := hg
      cases e with
      | transportError exc =>
          refine Protocol.wp_mono (wp_cleanup timeout _) fun r g hg => ?_
          obtain ⟨rfl, -⟩ := hg
          exact ⟨rfl, .closed, by decide, rfl⟩
      | _ => exact ⟨rfl, .inLocal, by decide, rfl⟩
    · obtain rfl : g = _ := hg
      exact ⟨rfl, .inLocal, by decide, rfl⟩

/-- `async with` hands the body a connection that is not fresh, and takes back one that
    is not. -/
theorem wp_hold {α : Type} {starting : Bool} {body : Coro Line Exc α}
    (h : ∀ c, c ≠ .fresh → handshake.wp body (fun _ g => Settled starting g) ⟨starting, some c⟩) :
    handshake.wp (lineLock.hold body) (fun _ g => g = ⟨starting, none⟩) ⟨starting, none⟩ := by
  refine (Protocol.wp_bind ..).mpr ((Protocol.wp_op ..).mpr ⟨_, ⟨rfl, rfl⟩, ?_⟩)
  rintro (e | u) g hg
  · exact hg
  · obtain ⟨c, hc, rfl⟩ := hg
    refine (Protocol.wp_tryFinally ..).mpr (Protocol.wp_mono (h c hc) ?_)
    rintro r ⟨starting', conn⟩ ⟨rfl, c', hc', hconn⟩
    obtain rfl : conn = some c' := hconn
    refine (Protocol.wp_op ..).mpr ⟨_, ⟨⟨c', hc', rfl⟩, rfl⟩, ?_⟩
    rintro (e | u) g hg <;> exact hg

/-- **Every method** gives the lock back with no fresh connection behind. -/
theorem wp_method (m : Method) :
    handshake.wp ((lineManager timeout).method m) (fun _ g => g = ⟨decide (m = .start), none⟩)
      ⟨decide (m = .start), none⟩ := by
  cases m with
  | start =>
      have hstart : handshake.wp (lineManager timeout).start (fun _ g => g = ⟨true, none⟩)
          ⟨true, none⟩ := by
        refine wp_hold fun c hc => Protocol.wp_mono (wp_connect timeout hc) fun r g hg => ?_
        rcases r with e | u
        · obtain ⟨c', rfl, hfresh⟩ := hg
          exact ⟨rfl, c', fun hf => (nomatch (hfresh hf).1), rfl⟩
        · obtain rfl : g = _ := hg
          exact ⟨rfl, .inLocal, by decide, rfl⟩
      exact Protocol.wp_then hstart fun _ => .inl ⟨none, rfl⟩
  | stop =>
      have hstop : handshake.wp (lineManager timeout).stop (fun _ g => g = ⟨false, none⟩)
          ⟨false, none⟩ := wp_hold fun c _ => Protocol.wp_mono (wp_close timeout) fun r g hg => by
          obtain rfl := hg
          exact ⟨rfl, .closed, by decide, rfl⟩
      exact Protocol.wp_then hstop fun _ => .inl ⟨none, rfl⟩
  | call c =>
      cases c with
      | query command limit =>
          have htransact := wp_hold fun c hc => wp_exchange timeout command true
            (limit.getD timeout) hc
          refine Protocol.wp_then (Protocol.wp_then htransact fun r => ?_) fun r =>
            .inl ⟨some r, rfl⟩
          cases r with
          | some r => exact .inl ⟨r, rfl⟩
          | none => exact .inr ⟨.assertionError, rfl⟩
      | write command limit =>
          have htransact := wp_hold fun c hc => wp_exchange timeout command false
            (limit.getD timeout) hc
          exact Protocol.wp_then (Protocol.wp_then htransact fun _ => .inl ⟨(), rfl⟩) fun _ =>
            .inl ⟨none, rfl⟩

/-! ## The invariant -/

/-- Where a phase stands in the handshake. -/
def stand : Phase handshake → Stand
  | .ready g => g
  | .waiting h => h

/-- The holder of the lock knows the connection; while nobody has the lock the
    connection is not fresh; and the log is in order. -/
structure Inv (s : Exchange ι) (ph : ι → Phase handshake) : Prop where
  holder : ∀ t, (stand (ph t)).conn.isSome = true ↔ s.holder = some t
  knows : ∀ t c, (stand (ph t)).conn = some c → conn s.log = c
  rested : s.holder = none → conn s.log ≠ .fresh
  isOpen : s.isOpen = decide (conn s.log ≠ .closed)
  localFirst : LocalFirst s.log
  starting : ∀ t, (stand (ph t)).starting = true ↔ s.serving t = some .start

/-- No handshake is disturbed: on a fresh connection the task that opened it is not
    cancelled, and the `SYST:LOC` of `start` does not fail. -/
def Undisturbed (s : Exchange ι) (a : Action (exchange timeout : System Line Exc _ ι _))
    (_ : Exchange ι) : Prop :=
  match a with
  | .answer t .cancel => s.holder = some t → conn s.log ≠ .fresh
  | .answer t (.fail _) => s.holder = some t → s.serving t = some .start → conn s.log ≠ .fresh
  | _ => True

/-- A step that changes nothing. -/
theorem Inv.same {s : Exchange ι} {ph : ι → Phase handshake} (h : Inv s ph) {t : ι}
    {φ : Phase handshake} (hφ : stand φ = stand (ph t)) : Inv s (Function.update ph t φ) := by
  have hstand : ∀ u, stand (Function.update ph t φ u) = stand (ph u) :=
    forall_update (R := fun u φ => stand φ = stand (ph u)) hφ fun _ _ => rfl
  refine ⟨fun u => ?_, fun u c => ?_, h.rested, h.isOpen, h.localFirst, fun u => ?_⟩ <;>
    rw [hstand u]
  · exact h.holder u
  · exact h.knows u c
  · exact h.starting u

/-- Whether a task is in `start` does not change while it is. -/
theorem Inv.starting_update {s : Exchange ι} {ph : ι → Phase handshake} (h : Inv s ph) {t : ι}
    {φ : Phase handshake} (hφ : (stand φ).starting = (stand (ph t)).starting) (u : ι) :
    (stand (Function.update ph t φ u)).starting = true ↔ s.serving u = some .start :=
  forall_update (R := fun u φ => (stand φ).starting = true ↔ s.serving u = some .start)
    (hφ ▸ h.starting t) (fun u _ => h.starting u) u

/-- What the holder of the lock does on the connection it knows. -/
theorem Inv.inside {s s' : Exchange ι} {ph : ι → Phase handshake} (h : Inv s ph) {t : ι}
    {φ : Phase handshake} {c c' : Conn} {es : List Event} (ht : (stand (ph t)).conn = some c)
    (hφ : stand φ = { stand (ph t) with conn := some c' }) (hholder : s'.holder = s.holder)
    (hserving : s'.serving = s.serving) (hlog : s'.log = s.log ++ es)
    (hord : orderly c es = true) (hnext : es.foldl Conn.next c = c')
    (hopen : s'.isOpen = decide (c' ≠ .closed)) : Inv s' (Function.update ph t φ) := by
  have hold : s.holder = some t := (h.holder t).mp (by rw [ht]; rfl)
  have hc : conn s.log = c := h.knows t c ht
  have hc' : conn s'.log = c' := by rw [hlog, conn_append, hc, hnext]
  refine ⟨?_, fun u d => ?_, fun hn => ?_, by rw [hc', hopen], ?_, ?_⟩
  · rw [hholder]
    refine forall_update (R := fun u φ => (stand φ).conn.isSome = true ↔ s.holder = some u) ?_
      fun u _ => h.holder u
    rw [hφ]
    exact iff_of_true rfl hold
  · -- nobody but the holder of the lock knows a connection
    refine forall_update (R := fun _ φ => (stand φ).conn = some d → conn s'.log = d) ?_ ?_ u
    · rw [hφ]
      exact fun hd => hc'.trans (Option.some.inj hd)
    · intro u hu hd
      have hu' := (h.holder u).mp (by rw [hd]; rfl)
      exact absurd (Option.some.inj (hu'.symm.trans hold)) hu
  · exact nomatch hold.symm.trans (hholder.symm.trans hn)
  · rw [hlog]
    exact localFirst_append.mpr ⟨h.localFirst, hc ▸ hord⟩
  · rw [hserving]
    exact h.starting_update (by rw [hφ])

/-- Taking the free lock: the connection is not fresh. -/
theorem Inv.acquire {s : Exchange ι} {ph : ι → Phase handshake} (h : Inv s ph) {t : ι}
    {φ : Phase handshake} (hfree : s.holder = none)
    (hφ : stand φ = { stand (ph t) with conn := some (conn s.log) }) :
    Inv { s with holder := some t } (Function.update ph t φ) := by
  refine ⟨?_, fun u d => ?_, fun hn => (nomatch hn), h.isOpen, h.localFirst,
    h.starting_update (by rw [hφ])⟩
  · refine forall_update (R := fun u φ => (stand φ).conn.isSome = true ↔ some t = some u) ?_ ?_
    · rw [hφ]
      exact iff_of_true rfl rfl
    · intro u hu
      rw [h.holder u, hfree]
      exact iff_of_false (fun he => nomatch he) fun he => hu (Option.some.inj he).symm
  · -- whoever takes the lock learns how the connection stands
    refine forall_update (R := fun _ φ => (stand φ).conn = some d → conn s.log = d) ?_
      (fun u _ => h.knows u d) u
    rw [hφ]
    exact fun hd => Option.some.inj hd

/-- Giving the lock back, with a connection that is not fresh. -/
theorem Inv.release {s : Exchange ι} {ph : ι → Phase handshake} (h : Inv s ph) {t : ι}
    {φ : Phase handshake} {c : Conn} (hc : c ≠ .fresh) (ht : (stand (ph t)).conn = some c)
    (hφ : stand φ = { stand (ph t) with conn := none }) :
    Inv { s with holder := none } (Function.update ph t φ) := by
  have hold : s.holder = some t := (h.holder t).mp (by rw [ht]; rfl)
  have hothers : ∀ u, u ≠ t → (stand (ph u)).conn = none := by
    intro u hu
    by_contra hne
    have hu' := (h.holder u).mp (Option.isSome_iff_ne_none.mpr hne)
    exact hu (Option.some.inj (hu'.symm.trans hold))
  refine ⟨?_, fun u d => ?_, fun _ => ?_, h.isOpen, h.localFirst,
    h.starting_update (by rw [hφ])⟩
  · refine forall_update (R := fun u φ => (stand φ).conn.isSome = true ↔ none = some u) ?_ ?_
    · rw [hφ]
      exact iff_of_false (fun he => nomatch he) fun he => nomatch he
    · intro u hu
      rw [hothers u hu]
      exact iff_of_false (fun he => nomatch he) fun he => nomatch he
  · refine forall_update (R := fun _ φ => (stand φ).conn = some d → conn s.log = d) ?_ ?_ u
    · rw [hφ]
      exact fun hd : none = some d => nomatch hd
    · intro u hu hd
      exact nomatch (hothers u hu).symm.trans hd
  · rw [h.knows t c ht]
    exact hc

/-- A task that has no lock calls a method. -/
theorem Inv.start {s : Exchange ι} {ph : ι → Phase handshake} (h : Inv s ph) {t : ι}
    (ht : (stand (ph t)).conn = none) (m : Method) :
    Inv (s.start t m) (Function.update ph t (.ready ⟨decide (m = .start), none⟩)) := by
  refine ⟨?_, fun u d => ?_, h.rested, h.isOpen, h.localFirst, ?_⟩
  · refine forall_update (R := fun u φ => (stand φ).conn.isSome = true ↔ s.holder = some u) ?_
      fun u _ => h.holder u
    refine iff_of_false (fun he => nomatch he) fun he => ?_
    have hsome := (h.holder t).mpr he
    rw [ht] at hsome
    exact nomatch hsome
  · refine forall_update (R := fun _ φ => (stand φ).conn = some d → conn s.log = d) ?_
      (fun u _ => h.knows u d) u
    exact fun hd : none = some d => nomatch hd
  · refine forall_update (R := fun u φ => (stand φ).starting = true ↔
      Function.update s.serving t (some m) u = some .start) ?_ fun u hu => ?_
    · rw [Function.update_self, Option.some.injEq]
      exact decide_eq_true_iff
    · rw [Function.update_of_ne hu]
      exact h.starting u

/-! ## Every step keeps the invariant -/

/-- The operations under way are the ones that the protocol let in. -/
theorem inv_invoke {s : Exchange ι} {ph : ι → Phase handshake} {t : ι} {o : LineOp}
    {g h : Stand} (hI : Inv s ph) (hph : ph t = .ready g) (hinv : handshake.invoke g o h) :
    Inv (s.invoke o) (Function.update ph t (.waiting h)) := by
  have hg : stand (ph t) = g := by rw [hph]; rfl
  cases o with
  | acquire =>
      obtain ⟨-, rfl⟩ := hinv
      exact hI.same hg.symm
  | close =>
      obtain ⟨⟨c, hc⟩, rfl⟩ := hinv
      have hlog : (s.invoke .close).log = s.log ++ [.closed] := rfl
      exact hI.inside (hg ▸ hc) (by rw [hg]; rfl) rfl rfl hlog (by cases c <;> rfl)
        (by cases c <;> rfl) rfl
  | transact command expects limit =>
      obtain ⟨hsend, rfl⟩ := hinv
      -- a transaction goes out on a connection in LOCAL mode, or is the greeting
      obtain ⟨c, hc, hallow⟩ : ∃ c, h.conn = some c ∧
          (c = .inLocal ∨ c = .fresh ∧ command = LOCAL) := by
        obtain hc | ⟨hc, hcmd⟩ := hsend
        · exact ⟨.inLocal, hc, .inl rfl⟩
        · exact ⟨.fresh, hc, .inr ⟨rfl, hcmd⟩⟩
      have hconn : conn s.log = c := hI.knows t c (hg ▸ hc)
      have hopen : s.isOpen = true := by
        rw [hI.isOpen, hconn]
        obtain rfl | ⟨rfl, -⟩ := hallow <;> rfl
      show Inv (if s.isOpen = true then s.record [.sent command] else s) _
      rw [if_pos hopen]
      have hlog : (s.record [.sent command]).log = s.log ++ [.sent command] := rfl
      refine hI.inside (hg ▸ hc) ?_ rfl rfl hlog ?_ rfl ?_
      · rw [hg]
        obtain ⟨st, conn⟩ := h
        obtain rfl : conn = some c := hc
        obtain rfl | ⟨rfl, -⟩ := hallow <;> rfl
      · obtain rfl | ⟨rfl, rfl⟩ := hallow <;> rfl
      · obtain rfl | ⟨rfl, -⟩ := hallow <;> exact hopen
  | release =>
      obtain ⟨-, rfl⟩ := hinv
      exact hI.same hg.symm
  | isOpen =>
      obtain ⟨-, rfl⟩ := hinv
      exact hI.same hg.symm
  | open_ =>
      obtain ⟨-, rfl⟩ := hinv
      exact hI.same hg.symm

/-- `open` comes out. -/
theorem inv_open {s s' : Exchange ι} {ph : ι → Phase handshake} {t : ι} {h : Stand} {c : Conn}
    {x : Resume} {r : Except Exc Unit} (hI : Inv s ph) (hph : ph t = .waiting h)
    (hc : h.conn = some c) (hs : s.answer t .open_ x = some (r, s')) :
    ∃ g, handshake.answer h LineOp.open_ r g ∧ Inv s' (Function.update ph t (.ready g)) := by
  have hh : stand (ph t) = h := by rw [hph]; rfl
  have hconn : conn s.log = c := hI.knows t c (hh ▸ hc)
  have hopen : s.isOpen = decide (c ≠ .closed) := hconn ▸ hI.isOpen
  cases x with
  | ok response =>
      obtain ⟨rfl, rfl⟩ := Prod.mk.inj (Option.some.inj hs)
      refine ⟨{ h with conn := some (if c = .closed then .fresh else c) }, ?_, ?_⟩
      · intro d hd
        obtain rfl : c = d := Option.some.inj (hc.symm.trans hd)
        rfl
      · by_cases hcl : c = .closed
        · subst hcl
          rw [if_neg (by rw [hopen]; decide)]
          have hlog : (s.record [.opened]).log = s.log ++ [.opened] := rfl
          exact hI.inside (hh ▸ hc) (by rw [hh]; rfl) rfl rfl hlog rfl rfl rfl
        · rw [if_pos (by rw [hopen]; exact decide_eq_true hcl)]
          -- `open` on an open transport returns at once
          refine hI.same ?_
          rw [hh, if_neg hcl, ← hc]
          rfl
  | fail exc =>
      simp only [Exchange.answer] at hs
      split at hs
      · exact nomatch hs
      · next hno =>
          obtain ⟨rfl, rfl⟩ := Prod.mk.inj (Option.some.inj hs)
          have hcl : c = .closed := by
            by_contra hne
            exact hno (hopen.trans (decide_eq_true hne))
          subst hcl
          have hlog : (s.record [.openFailed exc]).log = s.log ++ [.openFailed exc] := rfl
          have hset : h = { h with conn := some .closed } := by
            rw [← hc]
          exact ⟨h, rfl, hI.inside (hh ▸ hc) (hset.trans (by rw [hh]; rfl)) rfl rfl hlog rfl rfl
            hopen⟩
  | cancel =>
      obtain ⟨rfl, rfl⟩ := Prod.mk.inj (Option.some.inj hs)
      exact ⟨h, rfl, hI.same hh.symm⟩

/-- A transaction comes out: on a fresh connection it is that of `SYST:LOC`, and it
    succeeds, or fails outside `start`. -/
theorem inv_transact {s s' : Exchange ι} {ph : ι → Phase handshake} {t : ι} {h : Stand}
    {c : Conn} {command : Str} {expects : Bool} {limit : Rat} {x : Resume}
    {r : Except Exc (Option Str)} (hI : Inv s ph) (hph : ph t = .waiting h)
    (hc : h.conn = some c) (hallow : c = .inLocal ∨ c = .fresh ∧ command = LOCAL)
    (hok : Undisturbed timeout s (.answer t x) s')
    (hs : s.answer t (.transact command expects limit) x = some (r, s')) :
    ∃ g, handshake.answer h (LineOp.transact command expects limit) r g ∧
      Inv s' (Function.update ph t (.ready g)) := by
  have hh : stand (ph t) = h := by rw [hph]; rfl
  have hconn : conn s.log = c := hI.knows t c (hh ▸ hc)
  have hold : s.holder = some t := (hI.holder t).mp (by rw [hh, hc]; rfl)
  have hopen : s.isOpen = true := by
    rw [hI.isOpen, hconn]
    obtain rfl | ⟨rfl, -⟩ := hallow <;> rfl
  have hset : h = { h with conn := some c } := by
    rw [← hc]
  cases x with
  | ok response =>
      simp only [Exchange.answer, if_pos hopen] at hs
      obtain ⟨rfl, rfl⟩ := Prod.mk.inj (Option.some.inj hs)
      have hlog : (s.record [.answered command (.ok response)]).log
        = s.log ++ [.answered command (.ok response)] := rfl
      have hnext : [Event.answered command (.ok response)].foldl Conn.next c = .inLocal := by
        obtain rfl | ⟨rfl, rfl⟩ := hallow <;> rfl
      refine ⟨{ h with conn := some .inLocal }, rfl,
        hI.inside (hh ▸ hc) (by rw [hh]; rfl) rfl rfl hlog ?_ hnext hopen⟩
      obtain rfl | ⟨rfl, -⟩ := hallow <;> rfl
  | fail exc =>
      simp only [Exchange.answer, if_pos hopen] at hs
      obtain ⟨rfl, rfl⟩ := Prod.mk.inj (Option.some.inj hs)
      have hlog : (s.record [.answered command (.error exc)]).log
        = s.log ++ [.answered command (.error exc)] := rfl
      refine ⟨h, ⟨rfl, fun hf => ⟨?_, exc, rfl⟩⟩,
        hI.inside (hh ▸ hc) (by rw [hh]; exact hset) rfl rfl hlog ?_ ?_ ?_⟩
      · -- the `SYST:LOC` of `start` does not fail here
        have hcf : c = .fresh := Option.some.inj (hc.symm.trans hf)
        by_contra hst
        have hserving := (hI.starting t).mp (by rw [hh]; exact eq_true_of_ne_false hst)
        exact hok hold hserving (hconn.trans hcf)
      · obtain rfl | ⟨rfl, -⟩ := hallow <;> rfl
      · obtain rfl | ⟨rfl, -⟩ := hallow <;> rfl
      · obtain rfl | ⟨rfl, -⟩ := hallow <;> exact hopen
  | cancel =>
      obtain ⟨rfl, rfl⟩ := Prod.mk.inj (Option.some.inj hs)
      refine ⟨h, ⟨rfl, fun hf => ?_⟩, hI.same hh.symm⟩
      -- a task that is greeting the connection is not cancelled here
      exact absurd (hconn.trans (Option.some.inj (hc.symm.trans hf))) (hok hold)

theorem inv_answer {s s' : Exchange ι} {ph : ι → Phase handshake} {t : ι} {o : LineOp}
    {h : Stand} {x : Resume} {r : Except Exc o.Res} (hI : Inv s ph)
    (hph : ph t = .waiting h) (hinv : ∃ g, handshake.invoke g o h)
    (hok : Undisturbed timeout s (.answer t x) s') (hs : s.answer t o x = some (r, s')) :
    ∃ g, handshake.answer h o r g ∧ Inv s' (Function.update ph t (.ready g)) := by
  have hh : stand (ph t) = h := by rw [hph]; rfl
  obtain ⟨g, hinv⟩ := hinv
  cases o with
  | acquire =>
      cases x with
      | ok response =>
          simp only [Exchange.answer] at hs
          split at hs
          · next hfree =>
              obtain ⟨rfl, rfl⟩ := Prod.mk.inj (Option.some.inj hs)
              have hnone := Option.isNone_iff_eq_none.mp hfree
              exact ⟨_, ⟨_, hI.rested hnone, rfl⟩, hI.acquire hnone (by rw [hh]; rfl)⟩
          · exact nomatch hs
      | fail exc => exact nomatch hs
      | cancel =>
          obtain ⟨rfl, rfl⟩ := Prod.mk.inj (Option.some.inj hs)
          exact ⟨h, rfl, hI.same hh.symm⟩
  | release =>
      obtain ⟨⟨c, hc, hgc⟩, rfl⟩ := hinv
      cases x with
      | ok response =>
          obtain ⟨rfl, rfl⟩ := Prod.mk.inj (Option.some.inj hs)
          exact ⟨_, rfl, hI.release hc (hh ▸ hgc) (by rw [hh]; rfl)⟩
      | _ => exact nomatch hs
  | isOpen =>
      obtain ⟨-, rfl⟩ := hinv
      cases x with
      | ok response =>
          obtain ⟨rfl, rfl⟩ := Prod.mk.inj (Option.some.inj hs)
          refine ⟨h, ⟨rfl, fun c hc => ?_⟩, hI.same hh.symm⟩
          rw [hI.isOpen, hI.knows t c (hh ▸ hc)]
      | _ => exact nomatch hs
  | open_ =>
      obtain ⟨⟨c, hc⟩, rfl⟩ := hinv
      exact inv_open hI hph hc hs
  | close =>
      obtain ⟨-, rfl⟩ := hinv
      cases x <;> obtain ⟨rfl, rfl⟩ := Prod.mk.inj (Option.some.inj hs) <;>
        exact ⟨_, rfl, hI.same hh.symm⟩
  | transact command expects limit =>
      obtain ⟨hc | ⟨hc, hcmd⟩, rfl⟩ := hinv
      · exact inv_transact timeout hI hph hc (.inl rfl) hok hs
      · exact inv_transact timeout hI hph hc (.inr ⟨rfl, hcmd⟩) hok hs

theorem sound : Sound handshake (exchange timeout : System Line Exc _ ι _)
    (Undisturbed timeout) (fun _ g => g.conn = none) Inv where
  start := by
    rintro s s' ph t m g r hI hph hQ - hs
    obtain rfl := Option.some.inj hs
    refine ⟨_, Protocol.wp_mono (wp_method timeout m) fun _ g hg => ?_, hI.start ?_ m⟩
    · obtain rfl : g = _ := hg
      rfl
    · rw [hph]
      exact hQ
  invoke := fun hI hph hinv _ => inv_invoke hI hph hinv
  answer := fun hI hph hinv hok hs => inv_answer timeout hI hph hinv hok hs
  env := fun {_ _ _ x} => nomatch x

/-- **NO COMMAND BEFORE LOCAL**: along every run of any tasks calling `start`, `stop`,
    `query` and `write`, with any outcomes and cancellations but those that disturb a
    handshake, no command but `SYST:LOC` goes out on a connection before a `SYST:LOC` on
    it has succeeded. -/
theorem localFirst {c : Config Line Exc (Option Str) ι (Exchange ι)}
    (h : Reach (exchange timeout) (Undisturbed timeout) initial c) : LocalFirst c.shared.log := by
  have hstart : Inv (ι := ι) initial.shared fun _ => .ready ⟨false, none⟩ := by
    refine ⟨fun t => ?_, fun t c hc => (nomatch hc), fun _ he => (nomatch he), rfl, rfl,
      fun t => ?_⟩ <;>
      exact iff_of_false (fun he => nomatch he) fun he => nomatch he
  obtain ⟨ph, hI, -⟩ := (sound timeout).reach hstart (fun _ => rfl) h
  exact hI.localFirst

/-! ## A start that fails half-way -/

/-- A task asks for something and gets it. -/
def go (t : ι) : List (Action (exchange timeout : System Line Exc _ ι _)) :=
  [.invoke t, .answer t (.ok none)]

/-- The `SYST:LOC` of `start` fails, and a query follows. -/
def halfStarted : List (Action (exchange timeout : System Line Exc _ Bool _)) :=
  let go := go timeout false
  [.start false .start] ++ go ++ go
    ++ [.invoke false, .answer false (.fail (.noResponse LOCAL 2))] ++ go
    ++ [.start false (.call (.query FUNCTION none))] ++ go ++ go ++ [.invoke false]

/-- **A command goes out on a connection that was not put in LOCAL mode.** -/
theorem not_localFirst :
    ¬ ∀ (ι : Type) (_ : DecidableEq ι) (timeout : Rat)
      (c : Config Line Exc (Option Str) ι (Exchange ι)),
      Reach (exchange timeout) Free initial c → LocalFirst c.shared.log := by
  intro h
  have hrun : ((run (exchange 2) initial (halfStarted 2)).map
      fun c => decide (LocalFirst c.shared.log)) = some false := rfl
  obtain ⟨c, hc, hlog⟩ := Option.map_eq_some_iff.mp hrun
  exact of_decide_eq_false hlog (h Bool inferInstance 2 c (reach_of_run hc fun _ _ _ _ => trivial))

/-- The action neither fails nor is cancelled on a fresh connection, a wait for the lock
    apart. -/
def spares (s : Exchange ι) : Action (exchange timeout : System Line Exc _ ι _) → Bool
  | .answer t .cancel => decide (s.holder ≠ some t) || decide (conn s.log ≠ .fresh)
  | .answer _ (.fail _) => decide (conn s.log ≠ .fresh)
  | _ => true

theorem undisturbed_of_spares {s : Exchange ι}
    {a : Action (exchange timeout : System Line Exc _ ι _)} (h : spares timeout s a = true)
    (s' : Exchange ι) : Undisturbed timeout s a s' := by
  cases a with
  | answer t x =>
      cases x with
      | ok response => trivial
      | fail exc =>
          intro _ _
          exact of_decide_eq_true h
      | cancel =>
          intro hholder
          simpa [spares, hholder] using h
  | _ => trivial

/-- After the start a query of a client fails, while another client waits for the lock and is
    cancelled; that client's next query opens the port again, and is cancelled on the line. -/
def reconnected : List (Action (exchange timeout : System Line Exc _ (Fin 3) _)) :=
  let go : Fin 3 → _ := go timeout
  [.start 0 .start] ++ go 0 ++ go 0 ++ go 0 ++ go 0
    ++ [.start 1 (.call (.query FUNCTION none))] ++ go 1 ++ go 1 ++ [.invoke 1]
    ++ [.start 2 (.call (.query MEASURE none)), .invoke 2, .answer 2 .cancel]
    ++ [.answer 1 (.fail (.noResponse FUNCTION 2))] ++ go 1 ++ go 1
    ++ [.start 2 (.call (.query MEASURE none))] ++ go 2 ++ go 2 ++ go 2 ++ go 2
    ++ [.invoke 2, .answer 2 .cancel] ++ go 2

/-- The command that goes out. -/
def sent : Event → Option Str
  | .sent command => some command
  | _ => none

/-- The order is kept over a failure, a reconnection and two cancellations. -/
theorem localFirst_reconnected :
    ∃ c : Config Line Exc (Option Str) (Fin 3) (Exchange (Fin 3)),
      run (exchange 2) initial (reconnected 2) = some c ∧
      c.shared.log.filterMap sent = [LOCAL, FUNCTION, LOCAL, MEASURE] ∧
      LocalFirst c.shared.log := by
  have hrun : ((runWithin (exchange 2) (fun s a _ => spares 2 s a = true) initial
      (reconnected 2)).map fun c => c.shared.log.filterMap sent)
        = some [LOCAL, FUNCTION, LOCAL, MEASURE] := rfl
  obtain ⟨c, hc, hsent⟩ := Option.map_eq_some_iff.mp hrun
  have hreach : Reach (exchange 2) (fun s a _ => spares 2 s a = true) initial c :=
    reach_of_runWithin hc
  exact ⟨c, run_of_runWithin hc, hsent,
    localFirst 2 (hreach.mono fun _ _ s' h => undisturbed_of_spares 2 h s')⟩

end LocalMode
