import XdmServer.Dashboard
import XdmServer.Viewers

/-! # The live view

    The dashboard and the server together.  A socket of the page is a connection to `/ws/live`;
    what the server sends on it gets to the page in that order, for as long as the page has the
    socket open.  Either side may lose it at any time without the other noticing, and the server
    may be started again, which forgets everything but what is on its way.

    `Follows` says what the page makes of it: it follows the log of what is published, one
    stretch after another. -/

namespace LiveView

open Driver
open Dashboard (Page Location)

/-! ## Following a log -/

/-- What was got of the stretches before, and what the present one, which starts at `start`, has
    brought so far. -/
structure Follows {R : Type} (log old stream : List R) (start : ℕ) : Prop where
  within : start ≤ log.length
  old : old.Sublist (log.take start)
  stream : stream.Sublist (log.drop start)

namespace Follows

variable {R : Type} {log old stream : List R} {start : ℕ}

/-- What was sent was published, in the same order. -/
theorem sublist (h : Follows log old stream start) : (old ++ stream).Sublist log := by
  have happend := h.old.append h.stream
  rwa [List.take_append_drop] at happend

theorem grows (h : Follows log old stream start) (readings : List R) :
    Follows (log ++ readings) old stream start := by
  refine ⟨?_, ?_, ?_⟩
  · rw [List.length_append]
    exact h.within.trans (Nat.le_add_right _ _)
  · rw [List.take_append_of_le_length h.within]
    exact h.old
  · rw [List.drop_append_of_le_length h.within]
    exact h.stream.trans (List.sublist_append_left _ _)

/-- **A new stretch** starts where the log ends. -/
theorem again (h : Follows log old stream start) {got : List R} (hgot : got.Sublist stream) :
    Follows log (old ++ got) [] log.length := by
  refine ⟨Nat.le_refl _, ?_, List.nil_sublist _⟩
  rw [List.take_length]
  exact ((List.Sublist.refl old).append hgot).trans h.sublist

end Follows

/-! ## The page and the server -/

/-- The sockets of the page, and whatever else connects. -/
inductive Connection (κ : Type) where
  | page (n : ℕ)
  | other (k : κ)
  deriving DecidableEq

variable {κ : Type} [DecidableEq κ]

/-- A page in the browser and the server it listens to. -/
structure State (κ : Type) where
  server : App.State (Connection κ)
  page : Page
  /-- What the servers that are no more have published. -/
  past : List (Reading ℚ)
  /-- The sockets that a server has accepted. -/
  accepted : List ℕ
  /-- What has been sent on a socket. -/
  stream : ℕ → List (Reading ℚ)
  /-- How much of it the page has got. -/
  delivered : ℕ → ℕ

/-- What may come next: on the server, between the two, or in the browser. -/
inductive Action (κ : Type) where
  | server (a : App.Action (Connection κ))
  /-- The server is started again. -/
  | restart
  /-- The next message gets to the page. -/
  | deliver (n : ℕ)
  /-- Anything else that happens to the page. -/
  | browser (a : Dashboard.Action)

/-- Messages are not made up. -/
def isMessage : Dashboard.Action → Bool
  | .message _ _ => true
  | _ => false

namespace State

/-- The page is loaded, and the server has not begun. -/
def init (location : Location) (file : Storage.Database) (now : ℚ) : State κ where
  server := .init file
  page := .load location now
  past := []
  accepted := []
  stream _ := []
  delivered _ := 0

/-- What has been published, by whichever server. -/
def published (s : State κ) : List (Reading ℚ) :=
  s.past ++ s.server.poller.published.map Prod.snd

/-- A socket is accepted once, and not before the page has made it. -/
def accepts (s : State κ) : App.Action (Connection κ) → Bool
  | .connect (.page n) => n < s.page.sockets.length ∧ n ∉ s.accepted
  | _ => true

/-- The server has made a step. -/
def withServer (s : State κ) (a : App.Action (Connection κ)) (server : App.State (Connection κ)) :
    State κ :=
  { s with
    server := server
    accepted := match a with
      | .connect (.page n) => n :: s.accepted
      | _ => s.accepted
    stream := match a with
      | .sent (.page n) => Function.update s.stream n
          (s.stream n ++ (s.server.clients (.page n)).sending.toList)
      | _ => s.stream }

/-- The file of the database stays. -/
def restart (s : State κ) : State κ :=
  { s with
    server := .init s.server.database
    past := s.published }

/-- The next message of socket `n` reaches the page. -/
def deliver (location : Location) (s : State κ) (n : ℕ) : Option (State κ) :=
  (s.stream n)[s.delivered n]?.bind fun reading =>
    (s.page.step location (.message n (some reading))).map fun page =>
      { s with page := page, delivered := Function.update s.delivered n (s.delivered n + 1) }

/-- One action; `none` where it cannot be. -/
def step (float : PyText.Str → Option ℚ) (location : Location) (s : State κ) :
    Action κ → Option (State κ)
  | .server a => if s.accepts a then (s.server.step float a).map (s.withServer a) else none
  | .restart => some s.restart
  | .deliver n => s.deliver location n
  | .browser a =>
      if isMessage a then none
      else (s.page.step location a).map fun page => { s with page := page }

end State

/-- What becomes of the page and the server, whatever happens to either of them and between. -/
abbrev Reachable (float : PyText.Str → Option ℚ) (location : Location) (s : State κ) : Prop :=
  ∃ file now, Transition.Reach (State.step float location) Transition.Free
    (State.init location file now) s

/-- The server serves the socket `n`. -/
def State.Serves (s : State κ) (n : ℕ) : Prop :=
  s.server.poller.viewer (.other (.page n)) = .inside

/-! ## The server's steps -/

omit [DecidableEq κ] in
/-- A socket is accepted when its connection is made. -/
theorem accepted_withServer {s : State κ} {a : App.Action (Connection κ)}
    {server : App.State (Connection κ)} {n : ℕ} :
    n ∈ (s.withServer a server).accepted ↔ a = .connect (.page n) ∨ n ∈ s.accepted := by
  cases a with
  | connect i => cases i <;> simp [State.withServer, eq_comm]
  | _ => simp [State.withServer]

omit [DecidableEq κ] in
/-- What was being sent has been sent. -/
theorem stream_sent (s : State κ) (server : App.State (Connection κ)) (n : ℕ) :
    (s.withServer (.sent (.page n)) server).stream n
      = s.stream n ++ (s.server.clients (.page n)).sending.toList := by
  simp [State.withServer]

omit [DecidableEq κ] in
/-- Nothing else is sent on a socket. -/
theorem stream_other {s : State κ} {a : App.Action (Connection κ)} {n : ℕ}
    (ha : a ≠ .sent (.page n)) (server : App.State (Connection κ)) :
    (s.withServer a server).stream n = s.stream n := by
  cases a with
  | sent i =>
      cases i with
      | page m =>
          have hne : n ≠ m := by
            rintro rfl
            exact ha rfl
          simp [State.withServer, hne]
      | other k => rfl
  | _ => rfl

/-! ## The invariant -/

/-- The page follows what is published on the socket `n`. -/
def Tuned (s : State κ) (n : ℕ) : Prop := ∃ old start,
  Follows s.published old (s.stream n) start ∧
  s.page.received = old ++ (s.stream n).take (s.delivered n) ∧
  (s.Serves n → (s.server.clients (.page n)).heard = s.published.drop start)

/-- **The account of a socket.** -/
structure Socket (s : State κ) (n : ℕ) : Prop where
  outside : n ∉ s.accepted → s.server.poller.viewer (.other (.page n)) = .outside
  fresh : n ∉ s.accepted → s.stream n = []
  sent : s.server.poller.viewer (.other (.page n)) ≠ .outside →
    s.stream n = (s.server.clients (.page n)).sent
  delivered : s.delivered n ≤ (s.stream n).length
  tuned : n + 1 = s.page.sockets.length → Tuned s n

/-- What ties the page to the server in every run. -/
structure Inv (location : Location) (s : State κ) : Prop where
  watched : App.Watched s.server
  link : Dashboard.Link s.page
  display : Dashboard.Display location s.page
  made : ∀ n ∈ s.accepted, n < s.page.sockets.length
  socket : ∀ n, Socket s n

theorem inv_init (location : Location) (file : Storage.Database) (now : ℚ) :
    Inv location (State.init location file now : State κ) where
  watched := App.watched_init file
  link := Dashboard.link_load location now
  display := Dashboard.display_load location now
  made n hn := by cases hn
  socket n :=
    { outside := fun _ => rfl
      fresh := fun _ => rfl
      sent := fun h => absurd rfl h
      delivered := Nat.le_refl _
      tuned := fun _ => ⟨[], 0, ⟨Nat.zero_le _, .refl _, .refl _⟩, rfl, fun h => by cases h⟩ }

omit [DecidableEq κ] in
/-- Something is published, and nothing comes of it yet. -/
theorem Tuned.grows {s s' : State κ} {n : ℕ} (h : Tuned s n) (readings : List (Reading ℚ))
    (hpublished : s'.published = s.published ++ readings) (hstream : s'.stream n = s.stream n)
    (hdelivered : s'.delivered n = s.delivered n)
    (hreceived : s'.page.received = s.page.received)
    (hserves : s'.Serves n → s.Serves n ∧ (s'.server.clients (.page n)).heard
      = (s.server.clients (.page n)).heard ++ readings) : Tuned s' n := by
  obtain ⟨old, start, hfollows, hold, hheard⟩ := h
  refine ⟨old, start, ?_, ?_, ?_⟩
  · rw [hpublished, hstream]
    exact hfollows.grows readings
  · rw [hreceived, hstream, hdelivered]
    exact hold
  · intro hin
    obtain ⟨hin', hgrows⟩ := hserves hin
    rw [hpublished, List.drop_append_of_le_length hfollows.within, hgrows, hheard hin']

omit [DecidableEq κ] in
/-- **A new socket** is followed from where the page has got to. -/
theorem Tuned.again {s s' : State κ} {n m : ℕ} (h : Tuned s n)
    (hpublished : s'.published = s.published) (hstream : s'.stream m = [])
    (hreceived : s'.page.received = s.page.received)
    (hheard : s'.Serves m → (s'.server.clients (.page m)).heard = []) : Tuned s' m := by
  obtain ⟨old, start, hfollows, hold, -⟩ := h
  refine ⟨old ++ (s.stream n).take (s.delivered n), s.published.length, ?_, ?_, ?_⟩
  · rw [hpublished, hstream]
    exact hfollows.again (List.take_sublist _ _)
  · rw [hreceived, hstream, hold, List.take_nil, List.append_nil]
  · intro hin
    rw [hheard hin, hpublished, List.drop_length]

omit [DecidableEq κ] in
/-- Nothing happens on the socket. -/
theorem Socket.same {s s' : State κ} {n : ℕ} (h : Socket s n)
    (haccepted : n ∉ s'.accepted → n ∉ s.accepted)
    (houtside : s'.server.poller.viewer (.other (.page n)) = .outside ↔
      s.server.poller.viewer (.other (.page n)) = .outside)
    (hsent : (s'.server.clients (.page n)).sent = (s.server.clients (.page n)).sent)
    (hstream : s'.stream n = s.stream n) (hdelivered : s'.delivered n = s.delivered n)
    (htuned : n + 1 = s'.page.sockets.length → Tuned s' n) : Socket s' n := by
  refine ⟨fun hnot => houtside.mpr (h.outside (haccepted hnot)), ?_, ?_, ?_, htuned⟩
  · intro hnot
    rw [hstream]
    exact h.fresh (haccepted hnot)
  · intro hin
    rw [hstream, hsent]
    exact h.sent fun hout => hin (houtside.mpr hout)
  · rw [hstream, hdelivered]
    exact h.delivered

/-- **A step of the server** keeps the account of every socket. -/
theorem Inv.server {float : PyText.Str → Option ℚ} {location : Location} {s : State κ}
    {a : App.Action (Connection κ)} {server : App.State (Connection κ)} (h : Inv location s)
    (ha : s.accepts a = true) (hs : s.server.step float a = some server) :
    Inv location (s.withServer a server) := by
  refine ⟨h.watched.step hs, h.link, h.display, ?_, ?_⟩
  · intro n hn
    rcases accepted_withServer.mp hn with rfl | hn
    · exact (of_decide_eq_true ha).1
    · exact h.made n hn
  intro n
  have hn := h.socket n
  have hmem : n ∉ (s.withServer a server).accepted → n ∉ s.accepted :=
    fun hnot hmem => hnot (accepted_withServer.mpr (.inr hmem))
  cases App.step_seen (.page n) hs with
  | accepted hconnect hout hin hpublished hheard hsent =>
      have hmem' : n ∈ (s.withServer a server).accepted := accepted_withServer.mpr (.inl hconnect)
      have hnew : n ∉ s.accepted := by
        rw [hconnect] at ha
        exact (of_decide_eq_true ha).2
      have hstream : (s.withServer a server).stream n = [] :=
        (stream_other (by rw [hconnect]; simp) server).trans (hn.fresh hnew)
      have hnone : (s.server.clients (.page n)).sent = [] :=
        List.prefix_nil.mp (h.watched.fresh _ hout ▸ h.watched.left (.page n))
      refine ⟨fun hnot => absurd hmem' hnot, fun hnot => absurd hmem' hnot, ?_, ?_, ?_⟩
      · intro _
        rw [hstream]
        exact (hsent.trans hnone).symm
      · show s.delivered n ≤ _
        rw [hstream, ← hn.fresh hnew]
        exact hn.delivered
      · intro hlast
        refine (hn.tuned hlast).again ?_ hstream rfl fun _ => ?_
        · exact congrArg (fun x => s.past ++ x.map Prod.snd) hpublished
        · exact hheard.trans (h.watched.silent _ hout)
  | sent reading hsends hsending hpoller hheard hsent =>
      have hin : s.Serves n := by
        by_contra hnot
        rw [h.watched.idle _ hnot] at hsending
        cases hsending
      have haccepted : n ∈ s.accepted := by
        by_contra hnot
        cases hin.symm.trans (hn.outside hnot)
      have hmem' : n ∈ (s.withServer a server).accepted :=
        accepted_withServer.mpr (.inr haccepted)
      have hstream : (s.withServer a server).stream n = s.stream n ++ [reading] := by
        rw [hsends, stream_sent, hsending]
        rfl
      have hall : (s.withServer a server).stream n = (server.clients (.page n)).sent := by
        rw [hstream, hsent, hn.sent fun hout => by cases hin.symm.trans hout]
      have hsame : (s.withServer a server).published = s.published :=
        congrArg (fun x => s.past ++ x.published.map Prod.snd) hpoller
      refine ⟨fun hnot => absurd hmem' hnot, fun hnot => absurd hmem' hnot, fun _ => hall, ?_, ?_⟩
      · rw [hstream, List.length_append]
        exact hn.delivered.trans (Nat.le_add_right _ _)
      · intro hlast
        obtain ⟨old, start, hfollows, hold, hstretch⟩ := hn.tuned hlast
        have hdrop : (server.clients (.page n)).heard = s.published.drop start :=
          hheard.trans (hstretch hin)
        refine ⟨old, start, ?_, ?_, fun _ => by rw [hsame]; exact hdrop⟩
        · rw [hsame]
          refine ⟨hfollows.within, hfollows.old, ?_⟩
          rw [hall, ← hdrop]
          exact (h.watched.step hs).sent_sublist _
        · rw [hstream]
          show s.page.received = old ++ (s.stream n ++ [reading]).take (s.delivered n)
          rw [List.take_append_of_le_length hn.delivered]
          exact hold
  | published readings hne hviewer hpublished hheard hsent =>
      have hstream := stream_other hne server (s := s)
      refine hn.same hmem ?_ hsent hstream rfl fun hlast => ?_
      · show server.poller.viewer _ = _ ↔ _
        rw [hviewer]
      · refine (hn.tuned hlast).grows readings ?_ hstream rfl rfl fun hin => ?_
        · show s.past ++ server.poller.published.map Prod.snd = _
          rw [hpublished, ← List.append_assoc]
          rfl
        · have hin' : s.Serves n := by
            show s.server.poller.viewer _ = _
            rw [← hviewer]
            exact hin
          exact ⟨hin', hheard hin'⟩
  | other hne hinside houtside hpublished hheard hsent =>
      have hstream := stream_other hne server (s := s)
      refine hn.same hmem houtside hsent hstream rfl fun hlast => ?_
      refine (hn.tuned hlast).grows [] ?_ hstream rfl rfl fun hin => ?_
      · rw [List.append_nil]
        exact congrArg (fun x => s.past ++ x.map Prod.snd) hpublished
      · rw [List.append_nil]
        exact ⟨hinside hin, hheard⟩

/-- A server that is started knows of no connection. -/
theorem Inv.restart {location : Location} {s : State κ} (h : Inv location s) :
    Inv location s.restart := by
  have hpublished : s.restart.published = s.published := by
    show s.published ++ [] = _
    rw [List.append_nil]
  refine ⟨?_, h.link, h.display, h.made, ?_⟩
  · exact App.watched_init s.server.database
  · intro n
    have hn := h.socket n
    refine ⟨fun _ => rfl, hn.fresh, fun hout => absurd rfl hout, hn.delivered, fun hlast => ?_⟩
    refine (hn.tuned hlast).grows [] ?_ rfl rfl rfl fun hin => by cases hin
    rw [hpublished, List.append_nil]

/-- **A message** comes on the last socket. -/
theorem Inv.deliver {location : Location} {s s' : State κ} {n : ℕ} (h : Inv location s)
    (hs : s.deliver location n = some s') : Inv location s' := by
  obtain ⟨reading, hreading, hs⟩ := Option.bind_eq_some_iff.mp hs
  obtain ⟨page, hpage, rfl⟩ := Option.map_eq_some_iff.mp hs
  obtain ⟨hreceived, hlength⟩ := (Page.step_received hpage).1 n reading rfl
  refine ⟨h.watched, h.link.step hpage, h.display.step hpage, ?_, ?_⟩
  · intro m hm
    show m < page.sockets.length
    rw [hlength]
    exact h.made m hm
  intro m
  have hm := h.socket m
  by_cases heq : m = n
  · subst heq
    have hlt := (List.getElem?_eq_some_iff.mp hreading).1
    have hdelivered : Function.update s.delivered m (s.delivered m + 1) m = s.delivered m + 1 :=
      Function.update_self ..
    refine ⟨hm.outside, hm.fresh, hm.sent, ?_, ?_⟩
    · exact hdelivered.le.trans hlt
    · intro hlast
      obtain ⟨old, start, hfollows, hold, hstretch⟩ := hm.tuned (hlast.trans hlength)
      refine ⟨old, start, hfollows, ?_, hstretch⟩
      show page.received
        = old ++ (s.stream m).take (Function.update s.delivered m (s.delivered m + 1) m)
      rw [hdelivered, hreceived, hold, List.take_add_one, hreading, List.append_assoc]
      rfl
  · have hdelivered : (Function.update s.delivered n (s.delivered n + 1)) m = s.delivered m :=
      Function.update_of_ne heq ..
    refine hm.same id Iff.rfl rfl rfl hdelivered fun hlast => ?_
    -- the last socket is the one that is open
    obtain ⟨r, hr⟩ := h.link.last
    have hindex : n + 1 = s.page.sockets.length := by
      simp only [Page.step] at hpage
      split at hpage
      · next socket hsocket =>
          obtain ⟨hopen, -⟩ := Option.ite_none_right_eq_some.mp hpage
          exact hr.index hsocket (by simp [hopen])
      · cases hpage
    have hlast' : m + 1 = s.page.sockets.length := hlast.trans hlength
    omega

/-- What happens in the browser alone keeps the invariant. -/
theorem Inv.browser {location : Location} {s : State κ} {a : Dashboard.Action} {page : Page}
    (h : Inv location s) (ha : isMessage a = false) (hs : s.page.step location a = some page) :
    Inv location { s with page := page } := by
  have hne : ∀ i d, a ≠ .message i d := by
    rintro i d rfl
    cases ha
  obtain ⟨hreceived, hlength⟩ := (Page.step_received hs).2 hne
  refine ⟨h.watched, h.link.step hs, h.display.step hs, ?_, ?_⟩
  · intro n hn
    have hlt := h.made n hn
    show n < page.sockets.length
    omega
  intro n
  have hn := h.socket n
  refine hn.same id Iff.rfl rfl rfl rfl fun hlast => ?_
  have hlast' : n + 1 = page.sockets.length := hlast
  by_cases hsame : page.sockets.length = s.page.sockets.length
  · refine (hn.tuned (hlast'.trans hsame)).grows [] ?_ rfl rfl hreceived fun hin => ?_
    · exact (List.append_nil _).symm
    · exact ⟨hin, (List.append_nil _).symm⟩
  · -- the page has made a socket, that nobody has accepted yet
    obtain ⟨r, olds, url, -, hsockets⟩ := h.link.last
    have hpos : s.page.sockets.length = olds.length + 1 := by
      rw [hsockets, List.length_append, List.length_singleton]
    have hnew : n ∉ s.accepted := by
      intro hmem
      have hlt := h.made n hmem
      omega
    refine ((h.socket olds.length).tuned hpos.symm).again rfl (hn.fresh hnew) hreceived ?_
    intro hin
    cases (hn.outside hnew).symm.trans hin

theorem Inv.step {float : PyText.Str → Option ℚ} {location : Location} {s s' : State κ}
    {a : Action κ} (h : Inv location s) (hs : s.step float location a = some s') :
    Inv location s' := by
  cases a with
  | server a =>
      obtain ⟨ha, hs⟩ := Option.ite_none_right_eq_some.mp hs
      obtain ⟨server, hserver, rfl⟩ := Option.map_eq_some_iff.mp hs
      exact h.server ha hserver
  | restart =>
      obtain rfl := Option.some.inj hs
      exact h.restart
  | deliver n => exact h.deliver hs
  | browser a =>
      obtain ⟨ha, hs⟩ := Option.ite_none_left_eq_some.mp hs
      obtain ⟨page, hpage, rfl⟩ := Option.map_eq_some_iff.mp hs
      exact h.browser (Bool.eq_false_iff.mpr ha) hpage

/-- The invariant holds in every run. -/
theorem inv_reach {float : PyText.Str → Option ℚ} {location : Location} {s : State κ}
    (h : Reachable float location s) : Inv location s := by
  obtain ⟨file, now, hreach⟩ := h
  exact hreach.invariant (inv_init location file now) fun _ _ _ hI _ hs => hI.step hs

/-! ## What the page shows -/

/-- What the server holds back for the socket `n`. -/
def State.backlog (s : State κ) (n : ℕ) : List (Reading ℚ) :=
  (s.server.clients (.page n)).sending.toList
    ++ (s.server.poller.hub.subscription (.other (.page n))).queue.items

/-- What the server had no room for. -/
def State.dropped (s : State κ) (n : ℕ) : ℕ :=
  (s.server.poller.hub.subscription (.other (.page n))).dropped

/-- What is kept for a socket that is served is a part of what was published meanwhile, and the
    rest has been counted. -/
theorem Inv.kept {location : Location} {s : State κ} (h : Inv location s) {n : ℕ}
    (hserves : s.Serves n) :
    (s.stream n ++ s.backlog n).Sublist (s.server.clients (.page n)).heard ∧
      (s.stream n ++ s.backlog n).length + s.dropped n
        = (s.server.clients (.page n)).heard.length := by
  have haccount := h.watched.account (.page n)
  have htaken : s.stream n ++ s.backlog n = (s.server.poller.hub.reader (.other (.page n))).taken
      ++ (s.server.poller.hub.reader (.other (.page n))).queue.items := by
    rw [State.backlog, ← List.append_assoc,
      (h.socket n).sent (fun hout => by cases hserves.symm.trans hout),
      h.watched.sends (.page n) hserves]
    rfl
  rw [htaken]
  exact ⟨haccount.kept, haccount.counted⟩

/-- The steps that bring a reading to the page. -/
def Carries (n : ℕ) (a : Action κ) : Prop :=
  a = .server (.next (.page n)) ∨ a = .server (.sent (.page n)) ∨ a = .deliver n

/-- A socket that is open on both sides. -/
structure Up (s : State κ) (n : ℕ) : Prop where
  open_ : ∃ url, s.page.sockets[n]? = some ⟨url, .open_⟩
  serves : s.Serves n
  there : (s.server.clients (.page n)).gone = false
  within : s.delivered n ≤ (s.stream n).length

/-- A message on an open socket is shown. -/
theorem Up.deliver (float : PyText.Str → Option ℚ) (location : Location) {s : State κ} {n : ℕ}
    (h : Up s n) {reading : Reading ℚ} {readings : List (Reading ℚ)}
    (hrest : (s.stream n).drop (s.delivered n) = reading :: readings) :
    ∃ s', s.step float location (.deliver n) = some s' ∧ Up s' n ∧
      s'.page.received = s.page.received ++ [reading] ∧
      (s'.stream n).drop (s'.delivered n) = readings ∧ s'.server = s.server := by
  obtain ⟨url, hsocket⟩ := h.open_
  have hreading : (s.stream n)[s.delivered n]? = some reading := by
    rw [← List.head?_drop, hrest]
    rfl
  have hpage : s.page.step location (.message n (some reading))
      = some (s.page.onmessage (some reading)) := by
    simp [Page.step, hsocket]
  refine ⟨{ s with
    page := s.page.onmessage (some reading)
    delivered := Function.update s.delivered n (s.delivered n + 1) }, ?_, ?_, ?_, ?_, rfl⟩
  · simp [State.step, State.deliver, hreading, hpage]
  · refine ⟨⟨url, ?_⟩, h.serves, h.there, ?_⟩
    · simpa [Page.onmessage, Page.armStaleTimer, Page.setStatus] using hsocket
    · show Function.update s.delivered n (s.delivered n + 1) n ≤ _
      rw [Function.update_self]
      exact (List.getElem?_eq_some_iff.mp hreading).1
  · exact ((Page.step_received hpage).1 n reading rfl).1
  · show (s.stream n).drop (Function.update s.delivered n (s.delivered n + 1) n) = readings
    rw [Function.update_self, ← List.drop_drop, hrest]
    rfl

/-- `send_json` sends the reading that it has. -/
theorem Up.sent (float : PyText.Str → Option ℚ) (location : Location) {s : State κ} {n : ℕ}
    (h : Up s n) {reading : Reading ℚ}
    (hsending : (s.server.clients (.page n)).sending = some reading) :
    ∃ s', s.step float location (.server (.sent (.page n))) = some s' ∧ Up s' n ∧
      s'.page = s.page ∧ s'.stream n = s.stream n ++ [reading] ∧
      s'.delivered n = s.delivered n ∧ (s'.server.clients (.page n)).sending = none ∧
      s'.server.poller = s.server.poller := by
  have hserver : s.server.step float (.sent (.page n)) = some (s.server.setClient (.page n)
      { s.server.clients (.page n) with
        sending := none, sent := (s.server.clients (.page n)).sent ++ [reading] }) := by
    simp [App.State.step, App.State.sent, hsending, h.there]
  refine ⟨s.withServer (.sent (.page n)) (s.server.setClient (.page n)
      { s.server.clients (.page n) with
        sending := none, sent := (s.server.clients (.page n)).sent ++ [reading] }),
    ?_, ⟨h.open_, h.serves, ?_, ?_⟩, rfl, ?_, rfl, ?_, rfl⟩
  · simp [State.step, State.accepts, hserver]
  · simp [State.withServer, App.State.setClient, h.there]
  · rw [stream_sent, List.length_append]
    exact h.within.trans (Nat.le_add_right _ _)
  · rw [stream_sent, hsending]
    rfl
  · simp [State.withServer, App.State.setClient]

/-- The endpoint takes the next reading of its queue. -/
theorem Up.next (float : PyText.Str → Option ℚ) (location : Location) {s : State κ} {n : ℕ}
    (h : Up s n) {reading : Reading ℚ} {readings : List (Reading ℚ)}
    (hsending : (s.server.clients (.page n)).sending = none)
    (hitems : (s.server.poller.hub.subscription (.other (.page n))).queue.items
      = reading :: readings) :
    ∃ s', s.step float location (.server (.next (.page n))) = some s' ∧ Up s' n ∧
      s'.page = s.page ∧ s'.stream = s.stream ∧ s'.delivered = s.delivered ∧
      (s'.server.clients (.page n)).sending = some reading ∧
      (s'.server.poller.hub.subscription (.other (.page n))).queue.items = readings := by
  have hnext : ∃ hub, s.server.poller.hub.next (.other (.page n)) = some (reading, hub) ∧
      (hub.subscription (.other (.page n))).queue.items = readings := by
    simp [Broadcast.State.next, Channel.Queue.getNowait, Channel.Queue.tail, hitems]
  obtain ⟨hub, hhub, hreadings⟩ := hnext
  have hclients := App.clients_withPoller (s := s.server)
    (p := { s.server.poller with hub := hub }) (App.emitted_nil rfl)
  refine ⟨s.withServer (.next (.page n)) ((s.server.withPoller
    { s.server.poller with hub := hub }).setSending (.page n) (some reading)),
    ?_, ⟨h.open_, h.serves, ?_, h.within⟩, rfl, rfl, rfl, ?_, hreadings⟩
  · have hin : s.server.poller.viewer (.other (.page n)) = .inside := h.serves
    simp [State.step, State.accepts, App.State.step, App.State.next, hin, hsending, hhub]
  · simp [State.withServer, App.State.setSending, App.State.setClient, hclients, h.there]
  · simp [State.withServer, App.State.setSending, App.State.setClient]

/-- What is on its way arrives. -/
theorem Up.arrives (float : PyText.Str → Option ℚ) (location : Location) {s : State κ} {n : ℕ}
    (h : Up s n) {rest : List (Reading ℚ)} (hrest : (s.stream n).drop (s.delivered n) = rest) :
    ∃ s', Transition.Reach (State.step float location) (fun _ a => Carries n a) s s' ∧
      Up s' n ∧ s'.page.received = s.page.received ++ rest ∧
      (s'.stream n).drop (s'.delivered n) = [] ∧ s'.server = s.server := by
  induction rest generalizing s with
  | nil => exact ⟨s, .refl, h, (List.append_nil _).symm, hrest, rfl⟩
  | cons reading rest ih =>
      obtain ⟨s₁, hs₁, h₁, hreceived₁, hrest₁, hserver₁⟩ :=
        h.deliver float location hrest
      obtain ⟨s₂, hreach, h₂, hreceived₂, hrest₂, hserver₂⟩ := ih h₁ hrest₁
      refine ⟨s₂, (Transition.Reach.step .refl (.inr (.inr rfl)) hs₁).trans hreach, h₂, ?_,
        hrest₂, hserver₂.trans hserver₁⟩
      rw [hreceived₂, hreceived₁, List.append_assoc, List.singleton_append]

/-- A reading that is being sent is sent, and arrives. -/
theorem Up.passes (float : PyText.Str → Option ℚ) (location : Location) {s : State κ} {n : ℕ}
    (h : Up s n) (hrest : (s.stream n).drop (s.delivered n) = []) {reading : Reading ℚ}
    (hsending : (s.server.clients (.page n)).sending = some reading) :
    ∃ s', Transition.Reach (State.step float location) (fun _ a => Carries n a) s s' ∧
      Up s' n ∧ s'.page.received = s.page.received ++ [reading] ∧
      (s'.stream n).drop (s'.delivered n) = [] ∧
      (s'.server.clients (.page n)).sending = none ∧
      s'.server.poller = s.server.poller := by
  obtain ⟨s₁, hs₁, h₁, hpage, hstream, hdelivered, hsending₁, hpoller⟩ :=
    h.sent float location hsending
  have hrest₁ : (s₁.stream n).drop (s₁.delivered n) = [reading] := by
    rw [hstream, hdelivered, List.drop_append_of_le_length h.within, hrest]
    rfl
  obtain ⟨s₂, hreach, h₂, hreceived, hrest₂, hserver⟩ := h₁.arrives float location hrest₁
  refine ⟨s₂, (Transition.Reach.step .refl (.inr (.inl rfl)) hs₁).trans hreach, h₂, ?_, hrest₂,
    ?_, ?_⟩
  · rw [hreceived, hpage]
  · rw [hserver, hsending₁]
  · rw [hserver, hpoller]

/-- The queue is emptied. -/
theorem Up.drains (float : PyText.Str → Option ℚ) (location : Location) {s : State κ} {n : ℕ}
    (h : Up s n) (hrest : (s.stream n).drop (s.delivered n) = [])
    (hsending : (s.server.clients (.page n)).sending = none) {items : List (Reading ℚ)}
    (hitems : (s.server.poller.hub.subscription (.other (.page n))).queue.items = items) :
    ∃ s', Transition.Reach (State.step float location) (fun _ a => Carries n a) s s' ∧
      s'.page.received = s.page.received ++ items := by
  induction items generalizing s with
  | nil => exact ⟨s, .refl, (List.append_nil _).symm⟩
  | cons reading items ih =>
      obtain ⟨s₁, hs₁, h₁, hpage, hstream, hdelivered, hsending₁, hitems₁⟩ :=
        h.next float location hsending hitems
      have hrest₁ : (s₁.stream n).drop (s₁.delivered n) = [] := by
        rw [hstream, hdelivered, hrest]
      obtain ⟨s₂, hreach₂, h₂, hreceived₂, hrest₂, hsending₂, hpoller⟩ :=
        h₁.passes float location hrest₁ hsending₁
      obtain ⟨s₃, hreach₃, hreceived₃⟩ := ih h₂ hrest₂ hsending₂ (by rw [hpoller, hitems₁])
      refine ⟨s₃, ((Transition.Reach.step .refl (.inl rfl) hs₁).trans hreach₂).trans hreach₃, ?_⟩
      rw [hreceived₃, hreceived₂, hpage, List.append_assoc, List.singleton_append]

/-- Everything that is kept for the page arrives, by steps of the endpoint and of the socket
    alone. -/
theorem Up.empties (float : PyText.Str → Option ℚ) (location : Location) {s : State κ} {n : ℕ}
    (h : Up s n) :
    ∃ s', Transition.Reach (State.step float location) (fun _ a => Carries n a) s s' ∧
      s'.page.received = s.page.received ++ (s.stream n).drop (s.delivered n) ++ s.backlog n := by
  obtain ⟨s₁, hreach₁, h₁, hreceived₁, hrest₁, hserver₁⟩ := h.arrives float location rfl
  cases hsending : (s.server.clients (.page n)).sending with
  | none =>
      rw [← hserver₁] at hsending
      obtain ⟨s₂, hreach₂, hreceived₂⟩ := h₁.drains float location hrest₁ hsending rfl
      refine ⟨s₂, hreach₁.trans hreach₂, ?_⟩
      rw [hreceived₂, hreceived₁, hserver₁, State.backlog, ← hserver₁, hsending]
      rfl
  | some reading =>
      rw [← hserver₁] at hsending
      obtain ⟨s₂, hreach₂, h₂, hreceived₂, hrest₂, hsending₂, hpoller⟩ :=
        h₁.passes float location hrest₁ hsending
      obtain ⟨s₃, hreach₃, hreceived₃⟩ := h₂.drains float location hrest₂ hsending₂ rfl
      refine ⟨s₃, (hreach₁.trans hreach₂).trans hreach₃, ?_⟩
      rw [hreceived₃, hreceived₂, hreceived₁, hpoller, State.backlog, ← hserver₁, hsending]
      simp

/-- **THE PAGE CATCHES UP**: while its socket is open and the server serves it, the steps of the
    endpoint and of the socket alone bring the page everything that is kept for it, and it shows
    the last of it; which is the last reading that was published, if one was since the socket was
    accepted and none has been dropped. -/
theorem page_catches_up {float : PyText.Str → Option ℚ} {location : Location} {s : State κ}
    (h : Reachable float location s) {n : ℕ} {socket : Dashboard.Socket}
    (hsocket : s.page.sockets[n]? = some socket) (hopen : socket.readyState = .open_)
    (hserves : s.Serves n) (hthere : (s.server.clients (.page n)).gone = false) :
    ∃ s', Transition.Reach (State.step float location) (fun _ a => Carries n a) s s' ∧
      s'.page.received = s.page.received ++ (s.stream n).drop (s.delivered n) ++ s.backlog n ∧
      s'.page.Shows s'.page.received.getLast? ∧
      (s.dropped n = 0 → (s.server.clients (.page n)).heard ≠ [] →
        s'.page.Shows s.published.getLast?) := by
  have hinv := inv_reach h
  obtain ⟨url, readyState⟩ := socket
  obtain rfl : readyState = .open_ := hopen
  have hup : Up s n := ⟨⟨url, hsocket⟩, hserves, hthere, (hinv.socket n).delivered⟩
  obtain ⟨s', hreach, hreceived⟩ := hup.empties float location
  have hshows : s'.page.Shows s'.page.received.getLast? := by
    obtain ⟨file, now, hstart⟩ := h
    exact (inv_reach ⟨file, now, hstart.trans (hreach.mono fun _ _ _ => trivial)⟩).display.shows_
  refine ⟨s', hreach, hreceived, hshows, ?_⟩
  intro hdropped hheard
  obtain ⟨r, hr⟩ := hinv.link.last
  have hlast : n + 1 = s.page.sockets.length := hr.index hsocket (by simp)
  obtain ⟨old, start, -, hold, hstretch⟩ := (hinv.socket n).tuned hlast
  -- nothing that was heard is missing
  obtain ⟨hkept, hcounted⟩ := hinv.kept hserves
  rw [hdropped, Nat.add_zero] at hcounted
  have hall := hkept.eq_of_length hcounted
  have hreceived' : s'.page.received = old ++ (s.server.clients (.page n)).heard := by
    rw [hreceived, hold, List.append_assoc old, List.take_append_drop, List.append_assoc, hall]
  have hsame : s'.page.received.getLast? = s.published.getLast? := by
    rw [hreceived', List.getLast?_append_of_ne_nil _ hheard,
      ← List.take_append_drop start s.published, ← hstretch hserves,
      List.getLast?_append_of_ne_nil _ hheard]
  rwa [← hsame]

/-- A reading is shown, the server is started again, and the page finds it. -/
def evening : List (Action Empty) :=
  let poll (now : ℚ) : Action Empty := .server (.poll 0 App.threeVolts now)
  [.server .startup, .server (.connect (.page 0)), .browser (.opened 0), poll 0, poll 0, poll 7,
    .server (.next (.page 0)), .server (.sent (.page 0)), .deliver 0, .restart,
    .browser (.closed 0), .browser (.wait 1500), .browser (.run 2), .server .startup,
    .server (.connect (.page 1)), .browser (.opened 1), poll 0, poll 0, poll 9,
    .server (.next (.page 1)), .server (.sent (.page 1)), .deliver 1]

/-- The first steps of it. -/
def since (n : ℕ) : Option (State Empty) :=
  Transition.runWithin (State.step App.three Dashboard.here) Transition.Free
    (State.init Dashboard.here .new 0) (evening.take n)

/-- The states of the example are reachable. -/
theorem reachable_since {n : ℕ} {s : State Empty} (h : since n = some s) :
    Reachable App.three Dashboard.here s :=
  ⟨.new, 0, Transition.reach_of_runWithin h⟩

/-- The reading of the second server is still in the queue. -/
theorem page_catches_up_evening : ∃ s s', since 19 = some s ∧ s.page.received.length = 1 ∧
    s.published.length = 2 ∧
    Transition.Reach (State.step App.three Dashboard.here) (fun _ a => Carries 1 a) s s' ∧
    s'.page.Shows s.published.getLast? := by
  have hrun : (since 19).map (fun s => ((s.page.received.length, s.published.length),
      s.page.sockets[1]?, s.server.poller.viewer (.other (.page 1)),
      (s.server.clients (.page 1)).gone, s.dropped 1,
      (s.server.clients (.page 1)).heard.length))
      = some ((1, 2), some ⟨Dashboard.here.url, .open_⟩, .inside, false, 0, 1) := by
    decide +kernel
  obtain ⟨s, hs, heq⟩ := Option.map_eq_some_iff.mp hrun
  obtain ⟨hlengths, heq⟩ := Prod.mk.inj heq
  obtain ⟨hreceived, hpublished⟩ := Prod.mk.inj hlengths
  obtain ⟨hsocket, heq⟩ := Prod.mk.inj heq
  obtain ⟨hserves, heq⟩ := Prod.mk.inj heq
  obtain ⟨hthere, heq⟩ := Prod.mk.inj heq
  obtain ⟨hdropped, hheard⟩ := Prod.mk.inj heq
  obtain ⟨s', hreach, -, -, hlatest⟩ :=
    page_catches_up (reachable_since hs) hsocket rfl hserves hthere
  refine ⟨s, s', hs, hreceived, hpublished, hreach, hlatest hdropped ?_⟩
  intro hnil
  rw [hnil] at hheard
  cases hheard

end LiveView
