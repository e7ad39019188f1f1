import XdmServer.Driver
import XdmServer.Readout
import XdmServer.Timeouts
import XdmServer.Transition

/-! # The dashboard

    `dashboard.js` listens to `/ws/live` and shows every reading that it gets.  It connects
    again a second after it has lost the connection, and a watchdog turns the badge when
    nothing has been heard for three seconds.

    Any socket may be opened, bring a message and be closed, in the order that a socket goes
    through; the browser runs a timeout when it likes once it is due.  A message is `none` if
    `JSON.parse` throws, as it does at the `NaN` that `json.dumps` writes. -/

namespace Dashboard

open PyText Driver Timeouts

/-- `location`, as far as the page looks at it. -/
structure Location where
  protocol : Str
  host : Str

/-- `ws.readyState`; a socket that is closing counts as open until `onclose`. -/
inductive ReadyState where
  | connecting
  | open_
  | closed
  deriving DecidableEq

/-- A `WebSocket` of the page. -/
structure Socket where
  url : Str
  readyState : ReadyState
  deriving DecidableEq

/-- What a timeout calls: the `setStatus` of the watchdog, or `connect`. -/
inductive Callback where
  | noData
  | connect
  deriving DecidableEq

/-- The badge. -/
structure Badge where
  textContent : Str
  className : Str
  deriving DecidableEq

/-- The script's variables, and what the page shows. -/
structure Page where
  clock : Clock ℚ Callback
  /-- Every `WebSocket` so far. -/
  sockets : List Socket
  staleTimer : Option ℕ
  status : Badge
  value : Str
  unit : Str
  function : Str
  /-- When a socket was last opened or brought a reading. -/
  heard : ℚ
  /-- The readings that sockets have brought. -/
  received : List (Reading ℚ)

/-- How long the badge says "live" without a reading, in milliseconds. -/
def STALE_MS : ℚ := 3000

/-- The delay before the page connects again. -/
def backoff : ℚ := 1000

/-- The address of the feed, on the page's own host. -/
def Location.url (location : Location) : Str :=
  (if location.protocol = "https:".toList then "wss".toList else "ws".toList)
    ++ "://".toList ++ location.host ++ "/ws/live".toList

namespace Page

/-- The text and the class of the badge. -/
def setStatus (s : Page) (text state : Str) : Page :=
  { s with status := ⟨text, "status ".toList ++ state⟩ }

/-- The watchdog's timeout is cleared. -/
def clearStaleTimer (s : Page) : Page :=
  match s.staleTimer with
  | some id => { s with clock := s.clock.clearTimeout id, staleTimer := none }
  | none => s

/-- The watchdog's timeout is set anew. -/
def armStaleTimer (s : Page) : Page :=
  let s := s.clearStaleTimer
  { s with clock := s.clock.setTimeout .noData STALE_MS, staleTimer := some s.clock.next }

/-- A new socket. -/
def connect (location : Location) (s : Page) : Page :=
  { s with sockets := s.sockets ++ [⟨location.url, .connecting⟩] }

/-- The socket is open: the badge says "live", and the watchdog is armed. -/
def onopen (s : Page) : Page :=
  let s := { s with heard := s.clock.now }
  (s.setStatus "live".toList "connected".toList).armStaleTimer

/-- The socket is closed: the badge says so, and `connect` is to be called after the backoff. -/
def onclose (s : Page) : Page :=
  let s := s.clearStaleTimer.setStatus "disconnected".toList "disconnected".toList
  { s with clock := s.clock.setTimeout .connect backoff }

/-- A reading is shown, and the watchdog armed anew; anything else changes nothing. -/
def onmessage (s : Page) : Option (Reading ℚ) → Page
  | some d =>
      let s := { s with
        value := Readout.formatValue d.value
        unit := d.unit
        function := d.function
        heard := s.clock.now
        received := s.received ++ [d] }
      (s.setStatus "live".toList "connected".toList).armStaleTimer
  | none => s

/-- What a timeout runs. -/
def callback (location : Location) (s : Page) : Callback → Page
  | .noData => s.setStatus "live — no data".toList "stale".toList
  | .connect => s.connect location

/-- `dashboard.html`, and the `connect` at the end of the script. -/
def load (location : Location) (now : ℚ) : Page :=
  connect location
    { clock := .start now
      sockets := []
      staleTimer := none
      status := ⟨"connecting…".toList, "status disconnected".toList⟩
      value := "—".toList
      unit := []
      function := "—".toList
      heard := now
      received := [] }

/-- A socket changes its state. -/
def setReady (s : Page) (i : ℕ) (socket : Socket) (readyState : ReadyState) : Page :=
  { s with sockets := s.sockets.set i { socket with readyState := readyState } }

end Page

/-- What may come next: the clock goes on, a timeout runs, or something comes of a socket. -/
inductive Action where
  | wait (now : ℚ)
  | run (id : ℕ)
  | opened (i : ℕ)
  | message (i : ℕ) (d : Option (Reading ℚ))
  | closed (i : ℕ)

/-- One event; `none` where it cannot be. -/
def Page.step (location : Location) (s : Page) : Action → Option Page
  | .wait now => (s.clock.wait now).map fun clock => { s with clock := clock }
  | .run id => (s.clock.take id).map fun x => { s with clock := x.2 }.callback location x.1
  | .opened i =>
      match s.sockets[i]? with
      | some socket =>
          if socket.readyState = .connecting then some (s.setReady i socket .open_).onopen
          else none
      | none => none
  | .message i d =>
      match s.sockets[i]? with
      | some socket => if socket.readyState = .open_ then some (s.onmessage d) else none
      | none => none
  | .closed i =>
      match s.sockets[i]? with
      | some socket =>
          if socket.readyState = .closed then none
          else some (s.setReady i socket .closed).onclose
      | none => none

/-- What becomes of the page, whatever comes over the network and whenever the browser runs
    what is due. -/
abbrev Reachable (location : Location) (s : Page) : Prop :=
  ∃ now, Transition.Reach (Page.step location) Transition.Free (Page.load location now) s

/-! ## The badges -/

/-- The badge of the template, before anything has been heard. -/
def connecting : Badge := ⟨"connecting…".toList, "status disconnected".toList⟩

/-- The badge while readings come. -/
def live : Badge := ⟨"live".toList, "status connected".toList⟩

/-- The badge of the watchdog. -/
def noData : Badge := ⟨"live — no data".toList, "status stale".toList⟩

/-- The badge while no socket is open. -/
def disconnected : Badge := ⟨"disconnected".toList, "status disconnected".toList⟩

/-- What the badge is to say while no socket is open. -/
def idle (sockets : List Socket) : Badge :=
  if sockets.any fun socket => socket.readyState = .closed then disconnected else connecting

/-- What the badge is to say. -/
def Page.truth (s : Page) : Badge :=
  if s.sockets.any fun socket => socket.readyState = .open_ then
    if s.clock.now < s.heard + STALE_MS then live else noData
  else idle s.sockets

/-! ## The stale timer -/

namespace Page

@[simp] theorem sockets_clearStaleTimer (s : Page) : s.clearStaleTimer.sockets = s.sockets := by
  rw [clearStaleTimer]
  split <;> rfl

@[simp] theorem status_clearStaleTimer (s : Page) : s.clearStaleTimer.status = s.status := by
  rw [clearStaleTimer]
  split <;> rfl

@[simp] theorem heard_clearStaleTimer (s : Page) : s.clearStaleTimer.heard = s.heard := by
  rw [clearStaleTimer]
  split <;> rfl

@[simp] theorem now_clearStaleTimer (s : Page) : s.clearStaleTimer.clock.now = s.clock.now := by
  rw [clearStaleTimer]
  split <;> rfl

@[simp] theorem staleTimer_clearStaleTimer (s : Page) : s.clearStaleTimer.staleTimer = none := by
  rw [clearStaleTimer]
  split
  · rfl
  · next h => exact h

/-- No timeout is pending but the stale timer. -/
def Quiet (s : Page) : Prop := s.clearStaleTimer.clock.pending = []

/-- A page with no timeout pending is quiet. -/
theorem quiet_of_empty {s : Page} (h : s.clock.pending = []) : s.Quiet := by
  rw [Quiet, clearStaleTimer]
  split
  · simp [Clock.clearTimeout, h]
  · exact h

theorem quiet_of_timer {s : Page} {t : Timeout ℚ Callback} (h : s.clock.pending = [t])
    (ht : s.staleTimer = some t.id) : s.Quiet := by
  rw [Quiet, clearStaleTimer, ht]
  simp [Clock.clearTimeout, h]

theorem Quiet.congr {s s' : Page} (h : s.Quiet) (hclock : s'.clock = s.clock)
    (htimer : s'.staleTimer = s.staleTimer) : s'.Quiet := by
  rw [Quiet, clearStaleTimer, htimer, ← show s.clearStaleTimer.clock.pending = [] from h,
    clearStaleTimer]
  split <;> simp [hclock]

/-- **Arming** leaves one timeout, which is the stale timer. -/
theorem Quiet.arm {s : Page} (h : s.Quiet) :
    s.armStaleTimer.clock.pending
        = [⟨s.clearStaleTimer.clock.next, s.clock.now + STALE_MS, .noData⟩] ∧
      s.armStaleTimer.staleTimer = some s.clearStaleTimer.clock.next ∧
      s.armStaleTimer.clock.now = s.clock.now ∧ s.armStaleTimer.sockets = s.sockets ∧
      s.armStaleTimer.status = s.status ∧ s.armStaleTimer.heard = s.heard := by
  refine ⟨?_, rfl, by simp [armStaleTimer, Clock.setTimeout], by simp [armStaleTimer],
    by simp [armStaleTimer], by simp [armStaleTimer]⟩
  have h' : s.clearStaleTimer.clock.pending = [] := h
  simp [armStaleTimer, Clock.setTimeout, h']

end Page

/-! ## The sockets -/

/-- The last socket is in the state `r`, and all before it are closed. -/
def Last (sockets : List Socket) (r : ReadyState) : Prop :=
  ∃ olds url, (∀ old ∈ olds, old.readyState = .closed) ∧ sockets = olds ++ [⟨url, r⟩]

/-- A socket that is not closed is the last one. -/
theorem Last.index {sockets : List Socket} {r : ReadyState} (h : Last sockets r) {i : ℕ}
    {socket : Socket} (hi : sockets[i]? = some socket) (hopen : socket.readyState ≠ .closed) :
    i + 1 = sockets.length := by
  obtain ⟨olds, url, hclosed, rfl⟩ := h
  have hlt := (List.getElem?_eq_some_iff.mp hi).1
  rw [List.length_append, List.length_singleton] at hlt ⊢
  by_cases hold : i < olds.length
  · rw [List.getElem?_append_left hold] at hi
    exact absurd (hclosed socket (List.mem_of_getElem? hi)) hopen
  · omega

/-- A socket that is not closed is the last one, and may change its state. -/
theorem Last.get {sockets : List Socket} {r : ReadyState} (h : Last sockets r) {i : ℕ}
    {socket : Socket} (hi : sockets[i]? = some socket) (hopen : socket.readyState ≠ .closed) :
    socket.readyState = r ∧ ∀ r', Last (sockets.set i { socket with readyState := r' }) r' := by
  have hindex := h.index hi hopen
  obtain ⟨olds, url, hclosed, rfl⟩ := h
  rw [List.length_append, List.length_singleton] at hindex
  obtain rfl : i = olds.length := by omega
  rw [List.getElem?_append_right (Nat.le_refl _), Nat.sub_self] at hi
  obtain rfl := Option.some.inj hi
  refine ⟨rfl, fun r' => ⟨olds, url, hclosed, ?_⟩⟩
  rw [List.set_append_right _ _ (Nat.le_refl _), Nat.sub_self]
  rfl

/-- After a closed socket a new one may be made. -/
theorem Last.connect {sockets : List Socket} (h : Last sockets .closed) (url : Str) :
    Last (sockets ++ [⟨url, .connecting⟩]) .connecting := by
  obtain ⟨olds, url', hclosed, rfl⟩ := h
  refine ⟨olds ++ [⟨url', .closed⟩], url, ?_, rfl⟩
  intro old hold
  rcases List.mem_append.mp hold with hold | hold
  · exact hclosed old hold
  · rw [List.mem_singleton.mp hold]

/-! ## The link -/

/-- **What a page can be in**: the last socket, the timeout that is pending, and the badge. -/
inductive Link (s : Page) : Prop where
  | connecting : Last s.sockets .connecting → s.clock.pending = [] →
      s.status = idle s.sockets → Link s
  | live (id : ℕ) : Last s.sockets .open_ →
      s.clock.pending = [⟨id, s.heard + STALE_MS, .noData⟩] → s.staleTimer = some id →
      s.status = live → Link s
  | silent : Last s.sockets .open_ → s.clock.pending = [] → s.heard + STALE_MS ≤ s.clock.now →
      s.status = noData → Link s
  | down (id : ℕ) (due : ℚ) : Last s.sockets .closed →
      s.clock.pending = [⟨id, due, .connect⟩] → due ≤ s.clock.now + backoff →
      s.staleTimer = none → s.status = disconnected → Link s

/-- A page with a socket that is not closed has no timeout pending but the stale timer. -/
theorem Link.quiet {s : Page} (h : Link s) {i : ℕ} {socket : Socket}
    (hi : s.sockets[i]? = some socket) (hopen : socket.readyState ≠ .closed) : s.Quiet := by
  cases h with
  | connecting _ hpending => exact Page.quiet_of_empty hpending
  | live id _ hpending htimer => exact Page.quiet_of_timer hpending htimer
  | silent _ hpending => exact Page.quiet_of_empty hpending
  | down id due hlast => exact absurd (hlast.get hi hopen).1 hopen

/-- The last socket is in one of the states. -/
theorem Link.last {s : Page} (h : Link s) : ∃ r, Last s.sockets r := by
  cases h with
  | connecting hlast => exact ⟨_, hlast⟩
  | live id hlast => exact ⟨_, hlast⟩
  | silent hlast => exact ⟨_, hlast⟩
  | down id due hlast => exact ⟨_, hlast⟩

/-- A page that hears something is live. -/
theorem link_armed {s : Page} (hq : s.Quiet) (hlast : Last s.sockets .open_)
    (hstatus : s.status = live) (hheard : s.heard = s.clock.now) : Link s.armStaleTimer := by
  obtain ⟨hpending, htimer, hnow, hsockets, hstatus', hheard'⟩ := hq.arm
  refine .live s.clearStaleTimer.clock.next ?_ ?_ htimer ?_
  · rwa [hsockets]
  · rw [hpending, hheard', hheard]
  · rw [hstatus', hstatus]

/-- A page whose socket is closed will connect again. -/
theorem link_onclose {s : Page} (hq : s.Quiet) (hlast : Last s.sockets .closed) :
    Link s.onclose := by
  have hq' : s.clearStaleTimer.clock.pending = [] := hq
  refine .down s.clearStaleTimer.clock.next (s.clock.now + backoff) ?_ ?_ ?_ ?_ rfl
  · simpa [Page.onclose, Page.setStatus] using hlast
  · simp [Page.onclose, Page.setStatus, Clock.setTimeout, hq']
  · simp [Page.onclose, Page.setStatus, Clock.setTimeout]
  · simp [Page.onclose, Page.setStatus]

/-- A page that has been loaded has its one socket. -/
theorem link_load (location : Location) (now : ℚ) : Link (Page.load location now) := by
  refine .connecting ⟨[], location.url, ?_, rfl⟩ rfl rfl
  intro old hold
  cases hold

/-- A timeout that runs is the watchdog of a live page, or connects a page that is down. -/
theorem Link.run {location : Location} {s : Page} (h : Link s) {t : Timeout ℚ Callback}
    (ht : t ∈ s.clock.pending) (hdue : t.due ≤ s.clock.now) :
    Link ({ s with clock := s.clock.clearTimeout t.id }.callback location t.callback) := by
  cases h with
  | connecting _ hpending =>
      rw [hpending] at ht
      cases ht
  | live id hlast hpending htimer hstatus =>
      rw [hpending, List.mem_singleton] at ht
      subst ht
      exact .silent hlast (by simp [Page.callback, Page.setStatus, Clock.clearTimeout, hpending])
        hdue rfl
  | silent _ hpending =>
      rw [hpending] at ht
      cases ht
  | down id due hlast hpending hdue' htimer hstatus =>
      rw [hpending, List.mem_singleton] at ht
      subst ht
      refine .connecting (hlast.connect location.url)
        (by simp [Page.callback, Page.connect, Clock.clearTimeout, hpending]) ?_
      -- a socket has been closed
      obtain ⟨olds, url, hclosed, hsockets⟩ := hlast
      simp [Page.callback, Page.connect, idle, hsockets, hstatus]

/-- **AN EVENT KEEPS THE LINK**: one case for each kind of event. -/
theorem Link.step {location : Location} {s s' : Page} {a : Action} (h : Link s)
    (hs : s.step location a = some s') : Link s' := by
  cases a with
  | wait now =>
      obtain ⟨clock, hclock, rfl⟩ := Option.map_eq_some_iff.mp hs
      obtain ⟨hle, rfl⟩ := Clock.wait_eq_some hclock
      cases h with
      | connecting hlast hpending hstatus => exact .connecting hlast hpending hstatus
      | live id hlast hpending htimer hstatus => exact .live id hlast hpending htimer hstatus
      | silent hlast hpending hheard hstatus =>
          exact .silent hlast hpending (hheard.trans hle) hstatus
      | down id due hlast hpending hdue htimer hstatus =>
          exact .down id due hlast hpending (hdue.trans (by simpa using hle)) htimer hstatus
  | run id =>
      obtain ⟨⟨callback, clock⟩, hclock, rfl⟩ := Option.map_eq_some_iff.mp hs
      obtain ⟨t, ht, rfl, hdue, heq⟩ := Clock.take_eq_some hclock
      obtain ⟨rfl, rfl⟩ := Prod.mk.inj heq
      exact h.run ht hdue
  | opened i =>
      simp only [Page.step] at hs
      split at hs
      · next socket hi =>
          obtain ⟨hstate, hs⟩ := Option.ite_none_right_eq_some.mp hs
          obtain rfl := Option.some.inj hs
          have hopen : socket.readyState ≠ .closed := by simp [hstate]
          obtain ⟨r, hlast⟩ := h.last
          exact link_armed ((h.quiet hi hopen).congr rfl rfl) ((hlast.get hi hopen).2 .open_)
            rfl rfl
      · cases hs
  | message i d =>
      simp only [Page.step] at hs
      split at hs
      · next socket hi =>
          obtain ⟨hstate, hs⟩ := Option.ite_none_right_eq_some.mp hs
          obtain rfl := Option.some.inj hs
          have hopen : socket.readyState ≠ .closed := by simp [hstate]
          cases d with
          | none => exact h
          | some d =>
              obtain ⟨r, hlast⟩ := h.last
              obtain rfl : .open_ = r := hstate.symm.trans (hlast.get hi hopen).1
              exact link_armed ((h.quiet hi hopen).congr rfl rfl) hlast rfl rfl
      · cases hs
  | closed i =>
      simp only [Page.step] at hs
      split at hs
      · next socket hi =>
          obtain ⟨hopen, hs⟩ := Option.ite_none_left_eq_some.mp hs
          obtain rfl := Option.some.inj hs
          obtain ⟨r, hlast⟩ := h.last
          exact link_onclose ((h.quiet hi hopen).congr rfl rfl) ((hlast.get hi hopen).2 .closed)
      · cases hs

/-- What the page shows: its last reading, or the placeholders. -/
def Page.Shows (s : Page) : Option (Reading ℚ) → Prop
  | some d => s.value = Readout.formatValue d.value ∧ s.unit = d.unit ∧ s.function = d.function
  | none => s.value = "—".toList ∧ s.unit = [] ∧ s.function = "—".toList

/-- Where the sockets go, and what is shown. -/
structure Display (location : Location) (s : Page) : Prop where
  urls : ∀ socket ∈ s.sockets, socket.url = location.url
  shows_ : s.Shows s.received.getLast?

theorem Display.congr {location : Location} {s s' : Page} (h : Display location s)
    (hurls : ∀ socket ∈ s'.sockets, socket.url = location.url) (hvalue : s'.value = s.value)
    (hunit : s'.unit = s.unit) (hfunction : s'.function = s.function)
    (hreceived : s'.received = s.received) : Display location s' := by
  refine ⟨hurls, ?_⟩
  have hshows := h.shows_
  rw [hreceived]
  cases hlast : s.received.getLast? with
  | none =>
      rw [hlast] at hshows
      exact ⟨hvalue.trans hshows.1, hunit.trans hshows.2.1, hfunction.trans hshows.2.2⟩
  | some d =>
      rw [hlast] at hshows
      exact ⟨hvalue.trans hshows.1, hunit.trans hshows.2.1, hfunction.trans hshows.2.2⟩

@[simp] theorem Page.value_clearStaleTimer (s : Page) : s.clearStaleTimer.value = s.value := by
  rw [clearStaleTimer]
  split <;> rfl

@[simp] theorem Page.unit_clearStaleTimer (s : Page) : s.clearStaleTimer.unit = s.unit := by
  rw [clearStaleTimer]
  split <;> rfl

@[simp] theorem Page.function_clearStaleTimer (s : Page) :
    s.clearStaleTimer.function = s.function := by
  rw [clearStaleTimer]
  split <;> rfl

@[simp] theorem Page.received_clearStaleTimer (s : Page) :
    s.clearStaleTimer.received = s.received := by
  rw [clearStaleTimer]
  split <;> rfl

/-- A socket that changes its state keeps its address. -/
theorem Display.setReady {location : Location} {s : Page} (h : Display location s) {i : ℕ}
    {socket : Socket} (hi : s.sockets[i]? = some socket) (r : ReadyState) :
    ∀ socket' ∈ (s.setReady i socket r).sockets, socket'.url = location.url := by
  intro socket' hmem
  rcases List.mem_or_eq_of_mem_set hmem with hmem | rfl
  · exact h.urls socket' hmem
  · exact h.urls socket (List.mem_of_getElem? hi)

/-- An event keeps what is shown in step with what was received. -/
theorem Display.step {location : Location} {s s' : Page} {a : Action} (h : Display location s)
    (hs : s.step location a = some s') : Display location s' := by
  cases a with
  | wait now =>
      obtain ⟨clock, -, rfl⟩ := Option.map_eq_some_iff.mp hs
      exact h.congr h.urls rfl rfl rfl rfl
  | run id =>
      obtain ⟨⟨callback, clock⟩, -, rfl⟩ := Option.map_eq_some_iff.mp hs
      cases callback with
      | noData => exact h.congr h.urls rfl rfl rfl rfl
      | connect =>
          refine h.congr ?_ rfl rfl rfl rfl
          intro socket hmem
          rcases List.mem_append.mp hmem with hmem | hmem
          · exact h.urls socket hmem
          · rw [List.mem_singleton.mp hmem]
  | opened i =>
      simp only [Page.step] at hs
      split at hs
      · next socket hi =>
          obtain ⟨-, hs⟩ := Option.ite_none_right_eq_some.mp hs
          obtain rfl := Option.some.inj hs
          refine h.congr ?_ ?_ ?_ ?_ ?_
          · simpa [Page.onopen, Page.armStaleTimer, Page.setStatus] using h.setReady hi .open_
          all_goals simp [Page.onopen, Page.armStaleTimer, Page.setStatus, Page.setReady]
      · cases hs
  | message i d =>
      simp only [Page.step] at hs
      split at hs
      · next socket hi =>
          obtain ⟨-, hs⟩ := Option.ite_none_right_eq_some.mp hs
          obtain rfl := Option.some.inj hs
          cases d with
          | none => exact h
          | some d =>
              refine ⟨?_, ?_⟩
              · simpa [Page.onmessage, Page.armStaleTimer, Page.setStatus] using h.urls
              · simp [Page.onmessage, Page.armStaleTimer, Page.setStatus, Page.Shows]
      · cases hs
  | closed i =>
      simp only [Page.step] at hs
      split at hs
      · next socket hi =>
          obtain ⟨-, hs⟩ := Option.ite_none_left_eq_some.mp hs
          obtain rfl := Option.some.inj hs
          refine h.congr ?_ ?_ ?_ ?_ ?_
          · simpa [Page.onclose, Page.setStatus] using h.setReady hi .closed
          all_goals simp [Page.onclose, Page.setStatus, Page.setReady]
      · cases hs

/-- What a step brings, and how many sockets there are after it. -/
theorem Page.step_received {location : Location} {s s' : Page} {a : Action}
    (hs : s.step location a = some s') :
    (∀ i d, a = .message i (some d) → s'.received = s.received ++ [d] ∧
      s'.sockets.length = s.sockets.length) ∧
    ((∀ i d, a ≠ .message i d) → s'.received = s.received ∧
      (s'.sockets.length = s.sockets.length ∨ s'.sockets.length = s.sockets.length + 1)) := by
  cases a with
  | wait now =>
      obtain ⟨clock, -, rfl⟩ := Option.map_eq_some_iff.mp hs
      simp
  | run id =>
      obtain ⟨⟨callback, clock⟩, -, rfl⟩ := Option.map_eq_some_iff.mp hs
      cases callback <;> simp [Page.callback, Page.setStatus, Page.connect]
  | opened i =>
      simp only [Page.step] at hs
      split at hs
      · obtain ⟨-, hs⟩ := Option.ite_none_right_eq_some.mp hs
        obtain rfl := Option.some.inj hs
        simp [Page.onopen, Page.armStaleTimer, Page.setStatus, Page.setReady]
      · cases hs
  | message i d =>
      simp only [Page.step] at hs
      split at hs
      · obtain ⟨-, hs⟩ := Option.ite_none_right_eq_some.mp hs
        obtain rfl := Option.some.inj hs
        cases d <;> simp [Page.onmessage, Page.armStaleTimer, Page.setStatus]
      · cases hs
  | closed i =>
      simp only [Page.step] at hs
      split at hs
      · obtain ⟨-, hs⟩ := Option.ite_none_left_eq_some.mp hs
        obtain rfl := Option.some.inj hs
        simp [Page.onclose, Page.setStatus, Page.setReady]
      · cases hs

/-! ## Every run -/

/-- The link holds of every page that can be reached. -/
theorem link_reach {location : Location} {s : Page} (h : Reachable location s) : Link s := by
  obtain ⟨now, hreach⟩ := h
  exact hreach.invariant (link_load location now) fun _ _ _ hI _ hs => hI.step hs

/-- Nothing is displayed on a page just loaded. -/
theorem display_load (location : Location) (now : ℚ) :
    Display location (Page.load location now) := by
  refine ⟨?_, rfl, rfl, rfl⟩
  intro socket hmem
  rw [List.mem_singleton.mp hmem]

/-- What is shown is what was received last, in every page that can be reached. -/
theorem display_reach {location : Location} {s : Page} (h : Reachable location s) :
    Display location s := by
  obtain ⟨now, hreach⟩ := h
  exact hreach.invariant (display_load location now) fun _ _ _ hI _ hs => hI.step hs

/-- The sockets that are not closed. -/
def Page.unclosed (s : Page) : List Socket :=
  s.sockets.filter fun socket => socket.readyState ≠ .closed

/-- The timeouts that will connect the page again. -/
def Page.reconnects (s : Page) : List (Timeout ℚ Callback) :=
  s.clock.pending.filter fun t => t.callback = .connect

/-- One socket at most is not closed. -/
theorem Last.unclosed {s : Page} {r : ReadyState} (h : Last s.sockets r) :
    s.unclosed.length = if r = .closed then 0 else 1 := by
  obtain ⟨olds, url, hclosed, hsockets⟩ := h
  have holds : olds.filter (fun socket => decide (socket.readyState ≠ .closed)) = [] := by
    refine List.filter_eq_nil_iff.mpr fun socket hmem => ?_
    simp [hclosed socket hmem]
  rw [Page.unclosed, hsockets, List.filter_append, holds, List.nil_append, List.filter_singleton]
  cases r <;> rfl

/-- **ONE CONNECTION**: at any moment, whatever comes over the network and however late the
    browser is, the page has one socket that is not closed, or else one timeout that will make
    one; that is due within a second, and makes one whenever it runs.  Every socket goes to
    `/ws/live`. -/
theorem one_connection {location : Location} {s : Page} (h : Reachable location s) :
    s.unclosed.length + s.reconnects.length = 1 ∧
    (∀ t ∈ s.reconnects, t.due ≤ s.clock.now + backoff ∧ ∀ now, s.clock.now ≤ now → t.due ≤ now →
      ∃ s', Transition.run (Page.step location) s [.wait now, .run t.id] = some s' ∧
        s'.sockets = s.sockets ++ [⟨location.url, .connecting⟩]) ∧
    ∀ socket ∈ s.sockets, socket.url = location.url := by
  refine ⟨?_, ?_, (display_reach h).urls⟩
  · cases link_reach h with
    | connecting hlast hpending => simp [hlast.unclosed, Page.reconnects, hpending]
    | live id hlast hpending => simp [hlast.unclosed, Page.reconnects, hpending]
    | silent hlast hpending => simp [hlast.unclosed, Page.reconnects, hpending]
    | down id due hlast hpending => simp [hlast.unclosed, Page.reconnects, hpending]
  · intro t ht
    obtain ⟨hmem, hcallback⟩ := List.mem_filter.mp ht
    refine ⟨?_, ?_⟩
    · cases link_reach h with
      | connecting hlast hpending => simp [hpending] at hmem
      | live id hlast hpending => simp_all
      | silent hlast hpending => simp [hpending] at hmem
      | down id due hlast hpending hdue =>
          rw [hpending, List.mem_singleton] at hmem
          rwa [hmem]
    · intro now hnow hdue
      have hwait : s.clock.wait now = some { s.clock with now := now } := if_pos hnow
      have htake := Clock.take_of_mem (c := { s.clock with now := now }) hmem hdue
      have hconnect : t.callback = .connect := by simpa using hcallback
      rw [hconnect] at htake
      refine ⟨Page.connect location
        { s with clock := ({ s.clock with now := now } : Clock ℚ Callback).clearTimeout t.id },
        ?_, rfl⟩
      simp only [Transition.run, Page.step, hwait, htake, Option.map_some, Option.bind_some]
      rfl

/-- **THE BADGE TELLS THE TRUTH**: at any moment it says that the page is live, that no data has
    come for three seconds, or that there is no connection, just when that is so; but that it
    may still say live while the watchdog is due and the browser has not run it yet.  And the
    value, the unit and the function on the page are those of the last reading it got. -/
theorem badge_tells_truth {location : Location} {s : Page} (h : Reachable location s) :
    (s.status = s.truth ∨ s.status = live ∧ s.truth = noData ∧
      ∃ t ∈ s.clock.pending, t.callback = .noData ∧ t.due ≤ s.clock.now) ∧
    s.Shows s.received.getLast? := by
  refine ⟨?_, (display_reach h).shows_⟩
  have hopened : ∀ {r}, Last s.sockets r →
      (s.sockets.any fun socket => socket.readyState = .open_) = decide (r = .open_) := by
    rintro r ⟨olds, url, hclosed, hsockets⟩
    have holds : (olds.any fun socket => socket.readyState = .open_) = false :=
      List.any_eq_false.mpr fun socket hmem => by simp [hclosed socket hmem]
    rw [hsockets, List.any_append, holds]
    simp
  cases link_reach h with
  | connecting hlast hpending hstatus =>
      left
      rw [Page.truth, hopened hlast, hstatus]
      rfl
  | live id hlast hpending htimer hstatus =>
      rw [Page.truth, hopened hlast, hstatus]
      by_cases hlate : s.clock.now < s.heard + STALE_MS
      · left
        simp [hlate]
      · right
        refine ⟨rfl, by simp [hlate], ⟨id, s.heard + STALE_MS, .noData⟩, ?_, rfl, not_lt.mp hlate⟩
        rw [hpending]
        exact List.mem_singleton_self _
  | silent hlast hpending hheard hstatus =>
      left
      rw [Page.truth, hopened hlast, hstatus]
      simp [not_lt.mpr hheard]
  | down id due hlast hpending hdue htimer hstatus =>
      left
      rw [Page.truth, hopened hlast, hstatus]
      obtain ⟨olds, url, hclosed, hsockets⟩ := hlast
      simp [idle, hsockets]

/-- A page gets a reading, then none for a while, loses its connection and makes another. -/
def visit (d : Reading ℚ) : List Action :=
  [.opened 0, .message 0 (some d), .wait 3000, .run 1, .message 0 none, .closed 0, .wait 4500,
    .run 2, .opened 1]

/-- A reading of three volts. -/
def threeVolts : Reading ℚ := ⟨1000, "VOLT".toList, 3, "V".toList⟩

/-- The address of the page. -/
def here : Location := ⟨"http:".toList, "meter:8080".toList⟩

/-- The page after the first steps of that visit. -/
def visited (n : ℕ) : Option Page :=
  Transition.runWithin (Page.step here) Transition.Free (Page.load here 0)
    ((visit threeVolts).take n)

theorem reachable_visited {n : ℕ} {s : Page} (h : visited n = some s) : Reachable here s :=
  ⟨0, Transition.reach_of_runWithin h⟩

theorem one_connection_visited : ∃ s, visited 6 = some s ∧ s.reconnects.length = 1 ∧
    s.unclosed.length + s.reconnects.length = 1 ∧ ∀ t ∈ s.reconnects,
      t.due ≤ s.clock.now + backoff := by
  have hrun : (visited 6).map (fun s => s.reconnects.length) = some 1 := by decide +kernel
  obtain ⟨s, hs, hone⟩ := Option.map_eq_some_iff.mp hrun
  obtain ⟨hsum, hdue, -⟩ := one_connection (reachable_visited hs)
  exact ⟨s, hs, hone, hsum, fun t ht => (hdue t ht).1⟩

/-- The watchdog has turned the badge over the reading that is still shown. -/
theorem badge_tells_truth_visited : ∃ s, visited 4 = some s ∧ s.clock.pending.length = 0 ∧
    s.status = noData ∧ s.Shows (some threeVolts) := by
  have hrun : (visited 4).map (fun s => (s.clock.pending.length, s.truth, s.received))
      = some (0, noData, [threeVolts]) := by decide +kernel
  obtain ⟨s, hs, hfields⟩ := Option.map_eq_some_iff.mp hrun
  obtain ⟨hpending, hrest⟩ := Prod.mk.inj hfields
  obtain ⟨htruth, hreceived⟩ := Prod.mk.inj hrest
  obtain ⟨hbadge, hshows⟩ := badge_tells_truth (reachable_visited hs)
  rw [hreceived] at hshows
  refine ⟨s, hs, hpending, ?_, hshows⟩
  rcases hbadge with hbadge | ⟨-, -, t, ht, -⟩
  · rw [hbadge, htruth]
  · rw [List.length_eq_zero_iff.mp hpending] at ht
    cases ht

end Dashboard
