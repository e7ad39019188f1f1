import XdmServer.App

/-! # The viewers of the application

    Who is inside of `poller.subscribe()`, what each connection to `/ws/live` is sent, and that
    the recorder is no viewer: whatever it does, polling is on demand. -/

namespace App

open Coroutine Device Driver
open Recorder (Holder)

variable {ι : Type} [DecidableEq ι]

/-! ## The invariant -/

/-- What every step keeps of the poller, of its viewers and of what they are sent. -/
structure Watched (s : State ι) : Prop where
  poller : Poller.Inv s.poller
  /-- The recorder is no viewer. -/
  tasks : ∀ k, s.poller.viewer (.task k) = .outside
  subscribed : ∀ i, .other i ∈ s.poller.hub.broadcaster.subscriptions ↔
    s.poller.viewer (.other i) = .inside
  account : ∀ i, Channel.Reader.Account (s.clients i).heard (s.poller.hub.reader (.other i))
  sends : ∀ i, s.poller.viewer (.other i) = .inside →
    (s.clients i).sent ++ (s.clients i).sending.toList = s.poller.hub.taken (.other i)
  left : ∀ i, (s.clients i).sent <+: s.poller.hub.taken (.other i)
  idle : ∀ i, s.poller.viewer (.other i) ≠ .inside → (s.clients i).sending = none
  fresh : ∀ i, s.poller.viewer (.other i) = .outside → s.poller.hub.taken (.other i) = []
  /-- What a client hears is one stretch of what is published. -/
  stretch : ∀ i, (s.clients i).heard <:+: s.poller.published.map Prod.snd
  tuned : ∀ i, s.poller.viewer (.other i) = .inside →
    (s.clients i).heard <:+ s.poller.published.map Prod.snd
  silent : ∀ i, s.poller.viewer (.other i) = .outside → (s.clients i).heard = []

theorem watched_init (file : Storage.Database) : Watched (State.init file : State ι) where
  poller := Poller.inv_init
  tasks _ := rfl
  subscribed i := by simp [State.init, Poller.State.init, Broadcast.State.init]
  account i := by
    have hreader := Broadcast.reader_init (R := Reading Rat)
      (fun _ : Holder ι => Broadcast.defaultMaxsize) (.other i)
    show Channel.Reader.Account [] ((Broadcast.State.init _).reader _)
    rw [hreader]
    exact Channel.Reader.account_init _
  sends i h := by cases h
  left i := List.nil_prefix
  idle i _ := rfl
  fresh i _ := rfl
  stretch i := List.infix_rfl
  tuned i _ := List.suffix_rfl
  silent i _ := rfl

/-- **The poller's own steps** reach exactly those that are inside. -/
theorem Watched.published {s : State ι} {p : Poller.State (Holder ι) Rat} (h : Watched s)
    (hp : Published s.poller p) (hinv : Poller.Inv p) : Watched (s.withPoller p) := by
  have hregistered : p.hub.broadcaster = s.poller.hub.broadcaster := by
    rw [hp.hub, Broadcast.foldl_publish_broadcaster]
  have htaken : p.hub.taken = s.poller.hub.taken := by
    rw [hp.hub, Broadcast.foldl_publish_taken]
  have hclient : ∀ i, ((s.withPoller p).clients i).sent = (s.clients i).sent ∧
      ((s.withPoller p).clients i).sending = (s.clients i).sending ∧
      ((s.withPoller p).clients i).heard = (s.clients i).heard ++
        if .other i ∈ s.poller.hub.broadcaster.subscriptions then emitted s.poller p else [] := by
    intro i
    by_cases hi : s.poller.viewer (.other i) = .inside
    · simp [State.withPoller, hi, h.subscribed i]
    · simp [State.withPoller, hi, h.subscribed i]
  constructor
  · exact hinv
  · intro k
    show p.viewer (.task k) = .outside
    rw [hp.viewer]
    exact h.tasks k
  · intro i
    show .other i ∈ p.hub.broadcaster.subscriptions ↔ p.viewer (.other i) = .inside
    rw [hregistered, hp.viewer]
    exact h.subscribed i
  · intro i
    obtain ⟨-, -, hheard⟩ := hclient i
    rw [hheard]
    show Channel.Reader.Account _ (p.hub.reader (.other i))
    rw [hp.hub]
    exact Broadcast.account_foldl_publish _ (h.account i)
  · intro i hi
    obtain ⟨hsent, hsending, -⟩ := hclient i
    have hi' : s.poller.viewer (.other i) = .inside := hp.viewer ▸ hi
    rw [hsent, hsending]
    show _ = p.hub.taken (.other i)
    rw [htaken]
    exact h.sends i hi'
  · intro i
    rw [(hclient i).1]
    show _ <+: p.hub.taken (.other i)
    rw [htaken]
    exact h.left i
  · intro i hi
    have hi' : s.poller.viewer (.other i) ≠ .inside := hp.viewer ▸ hi
    rw [(hclient i).2.1]
    exact h.idle i hi'
  · intro i hi
    have hi' : s.poller.viewer (.other i) = .outside := hp.viewer ▸ hi
    show p.hub.taken (.other i) = []
    rw [htaken]
    exact h.fresh i hi'
  · intro i
    show ((s.withPoller p).clients i).heard <:+: p.published.map Prod.snd
    rw [(hclient i).2.2, hp.published]
    split
    · next hi =>
        obtain ⟨before, hbefore⟩ := h.tuned i ((h.subscribed i).mp hi)
        exact (List.IsSuffix.isInfix ⟨before, by rw [← List.append_assoc, hbefore]⟩)
    · rw [List.append_nil]
      exact (h.stretch i).trans (List.prefix_append _ _).isInfix
  · intro i hi
    have hi' : s.poller.viewer (.other i) = .inside := hp.viewer ▸ hi
    obtain ⟨before, hbefore⟩ := h.tuned i hi'
    show ((s.withPoller p).clients i).heard <:+ p.published.map Prod.snd
    rw [(hclient i).2.2, hp.published, if_pos ((h.subscribed i).mpr hi')]
    exact ⟨before, by rw [← List.append_assoc, hbefore]⟩
  · intro i hi
    have hi' : s.poller.viewer (.other i) = .outside := hp.viewer ▸ hi
    have hnot : .other i ∉ s.poller.hub.broadcaster.subscriptions := by
      rw [h.subscribed i, hi']
      simp
    rw [(hclient i).2.2, if_neg hnot, h.silent i hi']
    rfl

/-- What a step does that neither the viewers nor their subscriptions notice. -/
structure Unwatched (s s' : State ι) : Prop where
  poller : Poller.Inv s.poller → Poller.Inv s'.poller
  published : s'.poller.published = s.poller.published
  inside : ∀ h, s'.poller.viewer h = .inside ↔ s.poller.viewer h = .inside
  outside : ∀ h, s'.poller.viewer h = .outside ↔ s.poller.viewer h = .outside
  reader : ∀ i, s'.poller.hub.reader (.other i) = s.poller.hub.reader (.other i)
  sent : ∀ i, (s'.clients i).sent = (s.clients i).sent
  sending : ∀ i, (s'.clients i).sending = (s.clients i).sending
  heard : ∀ i, (s'.clients i).heard = (s.clients i).heard

theorem Watched.unwatched {s s' : State ι} (h : Watched s) (hs : Unwatched s s') :
    Watched s' := by
  have htaken : ∀ i, s'.poller.hub.taken (.other i) = s.poller.hub.taken (.other i) := fun i =>
    congrArg Channel.Reader.taken (hs.reader i)
  have hregistered : ∀ i, .other i ∈ s'.poller.hub.broadcaster.subscriptions ↔
      .other i ∈ s.poller.hub.broadcaster.subscriptions := fun i =>
    decide_eq_decide.mp (congrArg Channel.Reader.registered (hs.reader i))
  constructor
  · exact hs.poller h.poller
  · intro k
    exact (hs.outside _).mpr (h.tasks k)
  · intro i
    rw [hregistered, hs.inside]
    exact h.subscribed i
  · intro i
    rw [hs.heard, hs.reader]
    exact h.account i
  · intro i hi
    rw [hs.inside] at hi
    rw [hs.sent, hs.sending, htaken]
    exact h.sends i hi
  · intro i
    rw [hs.sent, htaken]
    exact h.left i
  · intro i hi
    rw [Ne, hs.inside] at hi
    rw [hs.sending]
    exact h.idle i hi
  · intro i hi
    rw [hs.outside] at hi
    rw [htaken]
    exact h.fresh i hi
  · intro i
    rw [hs.heard, hs.published]
    exact h.stretch i
  · intro i hi
    rw [hs.inside] at hi
    rw [hs.heard, hs.published]
    exact h.tuned i hi
  · intro i hi
    rw [hs.outside] at hi
    rw [hs.heard]
    exact h.silent i hi

/-- What entering and leaving do to the reader of the subscription: it joins or leaves. -/
theorem visited_reader {p p' : Poller.State (Holder ι) Rat} {i : ι} {v : Recorder.Visit}
    (h : Visited p p' i v) (hv : v ≠ .next) :
    p'.hub.reader (.other i)
      = { p.hub.reader (.other i) with registered := decide (v = .enter) } := by
  cases v with
  | enter => exact (Option.some.inj (Broadcast.step_own h.hub (if_pos rfl))).symm
  | exit => exact (Option.some.inj (Broadcast.step_own h.hub (if_pos rfl))).symm
  | next => exact absurd rfl hv

/-- Nobody else notices. -/
theorem visited_other {p p' : Poller.State (Holder ι) Rat} {i : ι} {v : Recorder.Visit}
    (h : Visited p p' i v) {j : Holder ι} (hj : j ≠ .other i) :
    p'.hub.reader j = p.hub.reader j := by
  refine Broadcast.step_other h.hub ?_
  cases v <;> simp [Recorder.Visit.event, Broadcast.Event.own, Ne.symm hj]

/-- **A connection is made or ends**: of the clients, at most its sending changes. -/
theorem Watched.visited {s s' : State ι} {i : ι} {v : Recorder.Visit} (h : Watched s)
    (hvisited : Visited s.poller s'.poller i v) (hv : v ≠ .next) (hinv : Poller.Inv s'.poller)
    (hentered : v = .enter → s.poller.viewer (.other i) = .outside)
    (hsent : ∀ j, (s'.clients j).sent = (s.clients j).sent)
    (hheard : ∀ j, (s'.clients j).heard = (s.clients j).heard)
    (hsending : ∀ j, j ≠ i → (s'.clients j).sending = (s.clients j).sending)
    (hidle : (s'.clients i).sending = none) : Watched s' := by
  have hreader := visited_reader hvisited hv
  have hother : ∀ j, j ≠ i → s'.poller.hub.reader (.other j) = s.poller.hub.reader (.other j) :=
    fun j hj => visited_other hvisited fun heq => hj (Recorder.Holder.other.inj heq)
  have hviewer : ∀ j, j ≠ i → s'.poller.viewer (.other j) = s.poller.viewer (.other j) :=
    fun j hj => hvisited.viewer _ fun heq => hj (Recorder.Holder.other.inj heq)
  have htaken : ∀ j, s'.poller.hub.taken (.other j) = s.poller.hub.taken (.other j) := by
    intro j
    by_cases hj : j = i
    · subst hj
      exact congrArg Channel.Reader.taken hreader
    · exact congrArg Channel.Reader.taken (hother j hj)
  constructor
  · exact hinv
  · intro k
    rw [hvisited.viewer _ (by simp)]
    exact h.tasks k
  · intro j
    by_cases hj : j = i
    · subst hj
      have hregistered : decide (.other j ∈ s'.poller.hub.broadcaster.subscriptions)
          = decide (v = .enter) := congrArg Channel.Reader.registered hreader
      rw [decide_eq_decide.mp hregistered, hvisited.inside]
      cases v <;> simp at hv ⊢
    · rw [hviewer j hj, ← h.subscribed j]
      exact decide_eq_decide.mp (congrArg Channel.Reader.registered (hother j hj))
  · intro j
    rw [hheard]
    by_cases hj : j = i
    · subst hj
      rw [hreader]
      exact ⟨(h.account j).kept, (h.account j).counted⟩
    · rw [hother j hj]
      exact h.account j
  · intro j hj'
    rw [hsent, htaken]
    by_cases hj : j = i
    · subst hj
      have hne : v ≠ .exit := hvisited.inside.mp hj'
      have hout := hentered (by cases v <;> simp at hv hne ⊢)
      have hempty := h.fresh j hout
      have hnone : (s.clients j).sent = [] := List.prefix_nil.mp (hempty ▸ h.left j)
      rw [hidle, hempty, hnone]
      rfl
    · rw [hviewer j hj] at hj'
      rw [hsending j hj]
      exact h.sends j hj'
  · intro j
    rw [hsent, htaken]
    exact h.left j
  · intro j hj'
    by_cases hj : j = i
    · subst hj
      exact hidle
    · rw [hviewer j hj] at hj'
      rw [hsending j hj]
      exact h.idle j hj'
  · intro j hj'
    rw [htaken]
    by_cases hj : j = i
    · subst hj
      exact absurd hj' hvisited.entered
    · rw [hviewer j hj] at hj'
      exact h.fresh j hj'
  · intro j
    rw [hheard, hvisited.published]
    exact h.stretch j
  · intro j hj'
    rw [hheard, hvisited.published]
    by_cases hj : j = i
    · -- a new connection has heard nothing
      subst hj
      have hne : v ≠ .exit := hvisited.inside.mp hj'
      rw [h.silent j (hentered (by cases v <;> simp at hv hne ⊢))]
      exact List.nil_suffix
    · rw [hviewer j hj] at hj'
      exact h.tuned j hj'
  · intro j hj'
    rw [hheard]
    by_cases hj : j = i
    · subst hj
      exact absurd hj' hvisited.entered
    · rw [hviewer j hj] at hj'
      exact h.silent j hj'

/-- **The endpoint gets a reading**, and is sending it. -/
theorem Watched.next {s s' : State ι} {i : ι} (h : Watched s) (hs : s.next i = some s') :
    Watched s' := by
  obtain ⟨⟨hi, hidle⟩, hs⟩ := Option.ite_none_right_eq_some.mp hs
  obtain ⟨⟨reading, hub⟩, hnext, rfl⟩ := Option.map_eq_some_iff.mp hs
  have hstep : s.poller.hub.step (.next (.other i)) = some hub := by
    rw [Broadcast.State.step, hnext]
    rfl
  have htake : (s.poller.hub.reader (.other i)).step .take = some (hub.reader (.other i)) :=
    Broadcast.step_own hstep (if_pos rfl)
  have hother : ∀ j, j ≠ Holder.other i → hub.reader j = s.poller.hub.reader j := fun j hj =>
    Broadcast.step_other hstep (if_neg (Ne.symm hj))
  have haccount := Channel.Reader.step_account (h.account i) htake
  have htaken : hub.taken (.other i) = s.poller.hub.taken (.other i) ++ [reading] := by
    obtain ⟨⟨r, q⟩, hq, heq⟩ := Option.map_eq_some_iff.mp hnext
    obtain ⟨rfl, rfl⟩ := Prod.mk.inj heq
    exact Function.update_self ..
  have hregistered : ∀ j, j ∈ hub.broadcaster.subscriptions ↔
      j ∈ s.poller.hub.broadcaster.subscriptions := by
    rw [(Broadcast.next_eq_some hnext).2.1]
    exact fun _ => Iff.rfl
  have hnone : emitted s.poller { s.poller with hub := hub } = [] := emitted_nil rfl
  have hclient : ∀ j, (((s.withPoller { s.poller with hub := hub }).setSending i
        (some reading)).clients j).sent = (s.clients j).sent ∧
      (((s.withPoller { s.poller with hub := hub }).setSending i
        (some reading)).clients j).heard = (s.clients j).heard ∧
      (((s.withPoller { s.poller with hub := hub }).setSending i
        (some reading)).clients j).sending = if j = i then some reading
          else (s.clients j).sending := by
    intro j
    by_cases hj : j = i
    · subst hj
      simp [State.setSending, State.setClient, clients_withPoller hnone]
    · simp [State.setSending, State.setClient, clients_withPoller hnone, hj]
  have htakenOther : ∀ j, j ≠ i → hub.taken (.other j) = s.poller.hub.taken (.other j) :=
    fun j hj => congrArg Channel.Reader.taken
      (hother _ fun heq => hj (Recorder.Holder.other.inj heq))
  constructor
  · exact ⟨h.poller.count, h.poller.running, h.poller.current, h.poller.past, h.poller.alive,
      h.poller.proper, h.poller.stopping⟩
  · exact h.tasks
  · intro j
    exact (hregistered _).trans (h.subscribed j)
  · intro j
    rw [(hclient j).2.1]
    show Channel.Reader.Account _ (hub.reader (.other j))
    by_cases hj : j = i
    · subst hj
      simpa [Channel.Event.offered] using haccount
    · rw [hother _ fun heq => hj (Recorder.Holder.other.inj heq)]
      exact h.account j
  · intro j hin
    obtain ⟨hsent, -, hsending⟩ := hclient j
    have hsends := h.sends j hin
    rw [hsent, hsending]
    show _ = hub.taken (.other j)
    by_cases hj : j = i
    · subst hj
      rw [hidle] at hsends
      rw [if_pos rfl, htaken, ← hsends]
      simp
    · rw [if_neg hj, htakenOther j hj]
      exact hsends
  · intro j
    rw [(hclient j).1]
    show _ <+: hub.taken (.other j)
    by_cases hj : j = i
    · subst hj
      rw [htaken]
      exact (h.left j).trans (List.prefix_append _ _)
    · rw [htakenOther j hj]
      exact h.left j
  · intro j hout
    have hj : j ≠ i := by
      rintro rfl
      exact hout hi
    rw [(hclient j).2.2, if_neg hj]
    exact h.idle j hout
  · intro j hout
    have hj : j ≠ i := by
      rintro rfl
      have hboth : Poller.Viewer.outside = .inside := hout.symm.trans hi
      cases hboth
    show hub.taken (.other j) = []
    rw [htakenOther j hj]
    exact h.fresh j hout
  · intro j
    rw [(hclient j).2.1]
    exact h.stretch j
  · intro j hin
    rw [(hclient j).2.1]
    exact h.tuned j hin
  · intro j hout
    rw [(hclient j).2.1]
    exact h.silent j hout

/-- The recorder's task `k` only touches its own subscription. -/
theorem resume_reader {r r' : Recorder.State ι (Reading Rat)} {k : Nat} {stored : Bool}
    (h : r.resume k stored = some r') {j : Holder ι} (hj : j ≠ .task k) :
    r'.hub.reader j = r.hub.reader j := by
  have henter : (r.enter k).hub.reader j = r.hub.reader j := by
    have hstep : r.hub.step (.enter (.task k)) = some (r.enter k).hub := rfl
    exact Broadcast.step_other hstep (if_neg (Ne.symm hj))
  have hleave : ∀ x : Recorder.State ι (Reading Rat), x.hub = r.hub →
      ((x.leave k).setStage k .ended).hub.reader j = r.hub.reader j := by
    intro x hx
    have hstep : x.hub.step (.exit (.task k)) = some (x.leave k).hub := rfl
    rw [hx] at hstep
    exact Broadcast.step_other hstep (if_neg (Ne.symm hj))
  have hget : ∀ x : Recorder.State ι (Reading Rat), (x.get k).hub.reader j = x.hub.reader j := by
    intro x
    cases hnext : x.hub.next (.task k) with
    | none => simp only [Recorder.State.get, hnext, Recorder.State.setStage]
    | some y =>
        obtain ⟨reading, hub⟩ := y
        have hstep : x.hub.step (.next (.task k)) = some hub := by
          rw [Broadcast.State.step, hnext]
          rfl
        simp only [Recorder.State.get, hnext, Recorder.State.setStage]
        exact Broadcast.step_other hstep (if_neg (Ne.symm hj))
  cases AtMostOnce.resumed h with
  | entered => exact (hget _).trans henter
  | took => exact hget r
  | inserted => rw [hget, AtMostOnce.hub_insert]
  | unstarted => rfl
  | left => exact hleave r rfl
  | interrupted => exact hleave _ (AtMostOnce.hub_insert ..)

/-- A step of the recorder, as far as the viewers go. -/
theorem unwatched_recorder {s s' : State ι} {r : Recorder.State ι (Reading Rat)}
    (hpoller : s'.poller = { s.poller with hub := r.hub }) (hclients : s'.clients = s.clients)
    (hreader : ∀ i, r.hub.reader (.other i) = s.poller.hub.reader (.other i)) :
    Unwatched s s' where
  poller h := by
    rw [hpoller]
    exact ⟨h.count, h.running, h.current, h.past, h.alive, h.proper, h.stopping⟩
  published := by rw [hpoller]
  inside i := by rw [hpoller]
  outside i := by rw [hpoller]
  reader i := by
    rw [hpoller]
    exact hreader i
  sent i := by rw [hclients]
  sending i := by rw [hclients]
  heard i := by rw [hclients]

/-- A step that leaves the poller alone. -/
theorem unwatched_client {s s' : State ι} (hpoller : s'.poller = s.poller)
    (hsent : ∀ i, (s'.clients i).sent = (s.clients i).sent)
    (hsending : ∀ i, (s'.clients i).sending = (s.clients i).sending)
    (hheard : ∀ i, (s'.clients i).heard = (s.clients i).heard) : Unwatched s s' := by
  refine ⟨?_, by rw [hpoller], ?_, ?_, ?_, hsent, hsending, hheard⟩
  · rw [hpoller]
    exact id
  · intro i
    rw [hpoller]
  · intro i
    rw [hpoller]
  · intro i
    rw [hpoller]

/-- A connection ends. -/
theorem Watched.leave {float : PyText.Str → Option Rat} {s s' : State ι} {i : ι}
    {way : Poller.Way} (h : Watched s) (hs : s.leave float i way = some s') : Watched s' := by
  obtain ⟨p, hp, rfl⟩ := Option.map_eq_some_iff.mp hs
  have hinv := h.poller.step hp
  obtain ⟨-, hp⟩ := Option.ite_none_right_eq_some.mp hp
  obtain rfl := Option.some.inj hp
  have hvisited := visited_leave s.poller i way
  have hclients := clients_withPoller (emitted_nil hvisited.published)
  refine h.visited hvisited (by simp) hinv (by simp) ?_ ?_ ?_ ?_
  · intro j
    by_cases hj : j = i <;> simp [State.setSending, State.setClient, hclients, hj]
  · intro j
    by_cases hj : j = i <;> simp [State.setSending, State.setClient, hclients, hj]
  · intro j hj
    simp [State.setSending, State.setClient, hclients, hj]
  · simp [State.setSending, State.setClient]

/-- A send returns. -/
theorem Watched.sent {s s' : State ι} {i : ι} (h : Watched s) (hs : s.sent i = some s') :
    Watched s' := by
  cases hsending : (s.clients i).sending with
  | none => exact absurd hs (by simp [State.sent, hsending])
  | some reading =>
      cases hgone : (s.clients i).gone with
      | true => exact absurd hs (by simp [State.sent, hsending, hgone])
      | false =>
          simp only [State.sent, hsending, hgone, Option.some.injEq] at hs
          subst hs
          have hin : s.poller.viewer (.other i) = .inside := by
            by_contra hout
            have hidle := h.idle i hout
            rw [hsending] at hidle
            cases hidle
          have hsends := h.sends i hin
          rw [hsending] at hsends
          have hheard : ∀ j, ((s.setClient i { s.clients i with
              gone := false
              sending := none
              sent := (s.clients i).sent ++ [reading] }).clients j).heard
                = (s.clients j).heard := by
            intro j
            by_cases hj : j = i <;> simp [State.setClient, hj]
          refine ⟨h.poller, h.tasks, h.subscribed, ?_, ?_, ?_, ?_, h.fresh, ?_, ?_, ?_⟩
          · intro j
            by_cases hj : j = i
            · subst hj
              simpa [State.setClient] using h.account j
            · simpa [State.setClient, hj] using h.account j
          · intro j hj'
            by_cases hj : j = i
            · subst hj
              simpa [State.setClient] using hsends
            · simpa [State.setClient, hj] using h.sends j hj'
          · intro j
            by_cases hj : j = i
            · subst hj
              have hall : (s.clients j).sent ++ [reading] = s.poller.hub.taken (.other j) := hsends
              simp [State.setClient, hall]
            · simpa [State.setClient, hj] using h.left j
          · intro j hout
            by_cases hj : j = i
            · subst hj
              exact absurd hin hout
            · simpa [State.setClient, hj] using h.idle j hout
          · intro j
            rw [hheard]
            exact h.stretch j
          · intro j hin
            rw [hheard]
            exact h.tuned j hin
          · intro j hout
            rw [hheard]
            exact h.silent j hout

/-- The end of a `_stop` that a viewer waits for. -/
theorem unwatched_stopReturns {s : State ι} {p : Poller.State (Holder ι) Rat} {h : Holder ι}
    (hp : s.poller.stopReturns h = some p) : Unwatched s (s.withPoller p) := by
  have hinv : Poller.Inv s.poller → Poller.Inv p := fun hinv => hinv.stopReturns hp
  obtain ⟨k, way, hstopping, -, rfl⟩ := Poller.stopReturns_spec hp
  have hnone : emitted s.poller { s.poller with
      viewer := Function.update s.poller.viewer h (.left way) } = [] := emitted_nil rfl
  have hclients := clients_withPoller hnone
  refine ⟨hinv, rfl, ?_, ?_, fun _ => rfl, ?_, ?_, ?_⟩
  · intro j
    by_cases hj : j = h
    · subst hj
      simp [State.withPoller, hstopping]
    · simp [State.withPoller, hj]
  · intro j
    by_cases hj : j = h
    · subst hj
      simp [State.withPoller, hstopping]
    · simp [State.withPoller, hj]
  · exact fun i => by rw [hclients]
  · exact fun i => by rw [hclients]
  · exact fun i => by rw [hclients]

/-- **Every step keeps what is true of the viewers.** -/
theorem Watched.step {float : PyText.Str → Option Rat} {s s' : State ι} {a : Action ι}
    (h : Watched s) (hs : s.step float a = some s') : Watched s' := by
  have hhub : ∀ i, s.recorder.hub.reader (.other i) = s.poller.hub.reader (.other i) := by
    intro i
    rw [s.shared]
  cases a with
  | startup =>
      obtain ⟨-, hs⟩ := Option.ite_none_right_eq_some.mp hs
      obtain rfl := Option.some.inj hs
      refine h.unwatched (unwatched_recorder (r := s.recorder.start) rfl rfl fun i => ?_)
      cases htask : s.recorder.task <;> simp only [Recorder.State.start, htask] <;> exact hhub i
  | shutdown =>
      obtain ⟨-, hs⟩ := Option.ite_none_right_eq_some.mp hs
      obtain rfl := Option.some.inj hs
      refine h.unwatched (unwatched_recorder (r := s.recorder.stop) rfl rfl fun i => ?_)
      cases htask : s.recorder.task <;> simp only [Recorder.State.stop, htask] <;> exact hhub i
  | stopped k =>
      obtain ⟨-, hs⟩ := Option.ite_none_right_eq_some.mp hs
      obtain ⟨r, hr, rfl⟩ := Option.map_eq_some_iff.mp hs
      refine h.unwatched (unwatched_recorder (r := r) rfl rfl fun i => ?_)
      simp only [Recorder.State.stopReturns] at hr
      split at hr
      · obtain ⟨-, hr⟩ := Option.ite_none_right_eq_some.mp hr
        obtain rfl := Option.some.inj hr
        exact hhub i
      · cases hr
  | connect i =>
      obtain ⟨-, hs⟩ := Option.ite_none_right_eq_some.mp hs
      obtain ⟨p, hp, rfl⟩ := Option.map_eq_some_iff.mp hs
      have hinv := h.poller.step hp
      obtain ⟨hout, hp⟩ := Option.ite_none_right_eq_some.mp hp
      obtain rfl := Option.some.inj hp
      have hvisited := visited_enter s.poller i
      have hclients := clients_withPoller (emitted_nil hvisited.published)
      refine h.visited hvisited (by simp) hinv (fun _ => hout) ?_ ?_ ?_ ?_
      · exact fun j => by rw [hclients]
      · exact fun j => by rw [hclients]
      · exact fun j _ => by rw [hclients]
      · rw [hclients]
        exact h.idle i (by rw [hout]; simp)
  | disconnect i =>
      obtain rfl := Option.some.inj hs
      refine h.unwatched (unwatched_client rfl ?_ ?_ ?_) <;> intro j <;>
        by_cases hj : j = i <;> simp [State.setClient, hj]
  | next i => exact h.next hs
  | sent i => exact h.sent hs
  | broken i =>
      obtain ⟨-, hs⟩ := Option.ite_none_right_eq_some.mp hs
      exact h.leave hs
  | cancel i => exact h.leave hs
  | stopReturns i =>
      obtain ⟨p, hp, rfl⟩ := Option.map_eq_some_iff.mp hs
      exact h.unwatched (unwatched_stopReturns hp)
  | poll k outcome now =>
      obtain ⟨p, hp, rfl⟩ := Option.map_eq_some_iff.mp hs
      exact h.published (published_resume hp) (h.poller.step hp)
  | record k stored =>
      obtain ⟨r, hr, hs⟩ := Option.bind_eq_some_iff.mp hs
      obtain ⟨database, -, rfl⟩ := Option.map_eq_some_iff.mp hs
      refine h.unwatched (unwatched_recorder (r := r) rfl rfl fun i => ?_)
      exact (resume_reader hr (by simp)).trans (hhub i)
  | insert reading =>
      obtain ⟨-, hs⟩ := Option.ite_none_right_eq_some.mp hs
      obtain ⟨database, -, rfl⟩ := Option.map_eq_some_iff.mp hs
      exact h.unwatched (unwatched_client rfl (fun _ => rfl) (fun _ => rfl) fun _ => rfl)

/-! ## What holds in every run -/

theorem watched_reach {float : PyText.Str → Option Rat} {file : Storage.Database} {s : State ι}
    (hr : Reachable float file s) : Watched s :=
  hr.invariant (watched_init file) fun _ _ _ h _ hs => h.step hs

/-- What a client was sent is a part of what it heard. -/
theorem Watched.sent_sublist {s : State ι} (h : Watched s) (i : ι) :
    (s.clients i).sent.Sublist (s.clients i).heard :=
  (h.left i).sublist.trans ((List.sublist_append_left _ _).trans (h.account i).kept)

/-- **POLLING IS FOR VIEWERS**: the poller has a task exactly while a connection is inside of
    `poller.subscribe()`, whatever the recorder does with its own subscription; and a connection
    holds a subscription exactly while it is inside. -/
theorem polling_for_viewers {float : PyText.Str → Option Rat} {file : Storage.Database}
    {s : State ι} (hr : Reachable float file s) :
    (s.poller.task.isSome ↔ ∃ i, s.poller.viewer (.other i) = .inside) ∧
    ∀ i, .other i ∈ s.poller.hub.broadcaster.subscriptions ↔
      s.poller.viewer (.other i) = .inside := by
  have h := watched_reach hr
  refine ⟨?_, h.subscribed⟩
  obtain ⟨inside, hmem, hcard⟩ := h.poller.count
  rw [h.poller.running, ← hcard, Finset.card_pos]
  constructor
  · rintro ⟨j, hj⟩
    have hin := (hmem j).mp hj
    cases j with
    | task k =>
        rw [h.tasks k] at hin
        cases hin
    | other i => exact ⟨i, hin⟩
  · rintro ⟨i, hi⟩
    exact ⟨.other i, (hmem _).mpr hi⟩

/-- Two clients, of which one goes, and the recorder. -/
def session : List (Action Bool) :=
  [.startup, .record 0 true, .connect true, .connect false, .poll 0 threeVolts 0,
    .poll 0 threeVolts 0, .poll 0 threeVolts 7, .next true, .sent true, .disconnect false,
    .next false, .broken false]

theorem polling_for_viewers_session :
    ∃ s : State Bool, Reachable three .new s ∧ s.poller.task.isSome = true ∧
      ∃ i, s.poller.viewer (.other i) = .inside := by
  have hrun : (Transition.runWithin (State.step three) Transition.Free (.init .new) session).map
      (fun s => s.poller.task) = some (some 0) := by decide +kernel
  obtain ⟨s, hs, htask⟩ := Option.map_eq_some_iff.mp hrun
  have hr := Transition.reach_of_runWithin hs
  have hsome : s.poller.task.isSome = true := by rw [htask]; rfl
  exact ⟨s, hr, hsome, (polling_for_viewers hr).1.mp hsome⟩

/-- **WHAT A CLIENT IS SENT** is a part of one stretch of what the poller has published, in that
    order; and as long as it is connected, the stretch is up to date, and whatever of it was
    not sent waits in `send_json` or in its queue, or has been counted as dropped. -/
theorem sent_of_published {float : PyText.Str → Option Rat} {file : Storage.Database}
    {s : State ι} (hr : Reachable float file s) (i : ι) :
    (s.clients i).sent.Sublist (s.clients i).heard ∧
    (s.clients i).heard <:+: s.poller.published.map Prod.snd ∧
    (s.poller.viewer (.other i) = .inside →
      (s.clients i).heard <:+ s.poller.published.map Prod.snd ∧
      ((s.clients i).sent ++ (s.clients i).sending.toList
        ++ (s.poller.hub.subscription (.other i)).queue.items).Sublist (s.clients i).heard ∧
      ((s.clients i).sent ++ (s.clients i).sending.toList
        ++ (s.poller.hub.subscription (.other i)).queue.items).length
          + (s.poller.hub.subscription (.other i)).dropped = (s.clients i).heard.length) := by
  have h := watched_reach hr
  refine ⟨h.sent_sublist i, h.stretch i, ?_⟩
  intro hin
  refine ⟨h.tuned i hin, ?_, ?_⟩
  · rw [h.sends i hin]
    exact (h.account i).kept
  · rw [h.sends i hin]
    exact (h.account i).counted

theorem sent_of_published_session :
    ∃ s : State Bool, Reachable three .new s ∧ (s.clients true).sent.length = 1 ∧
      s.poller.viewer (.other true) = .inside ∧
      (s.clients true).sent.Sublist (s.clients true).heard ∧
      (s.clients true).heard <:+ s.poller.published.map Prod.snd := by
  have hrun : (Transition.runWithin (State.step three) Transition.Free (.init .new) session).map
      (fun s => ((s.clients true).sent.length, s.poller.viewer (.other true)))
      = some (1, .inside) := by decide +kernel
  obtain ⟨s, hs, heq⟩ := Option.map_eq_some_iff.mp hrun
  obtain ⟨hsent, hin⟩ := Prod.mk.inj heq
  have hr := Transition.reach_of_runWithin hs
  have hall := sent_of_published hr true
  exact ⟨s, hr, hsent, hin, hall.1, (hall.2.2 hin).1⟩

/-! ## A client that has gone -/

/-- The connection that takes the step. -/
def Action.of : Action ι → Option ι
  | .connect i | .disconnect i | .next i | .sent i | .broken i | .cancel i | .stopReturns i =>
      some i
  | _ => none

/-- What a step leaves as it was for the connection `i`. -/
structure Aside (s s' : State ι) (i : ι) : Prop where
  viewer : s'.poller.viewer (.other i) = s.poller.viewer (.other i)
  reader : s'.poller.hub.reader (.other i) = s.poller.hub.reader (.other i)
  sending : (s'.clients i).sending = (s.clients i).sending
  sent : (s'.clients i).sent = (s.clients i).sent
  gone : (s'.clients i).gone = (s.clients i).gone

theorem client_withPoller (s : State ι) (p : Poller.State (Holder ι) Rat) (i : ι) :
    ((s.withPoller p).clients i).sending = (s.clients i).sending ∧
    ((s.withPoller p).clients i).sent = (s.clients i).sent ∧
    ((s.withPoller p).clients i).gone = (s.clients i).gone := by
  by_cases hi : s.poller.viewer (.other i) = .inside <;> simp [State.withPoller, hi]

/-- A step of the recorder or of `lifespan`. -/
theorem aside_recorder {s s' : State ι} {r : Recorder.State ι (Reading Rat)} {i : ι}
    (hpoller : s'.poller = { s.poller with hub := r.hub }) (hclients : s'.clients = s.clients)
    (hreader : r.hub.reader (.other i) = s.recorder.hub.reader (.other i)) : Aside s s' i := by
  refine ⟨by rw [hpoller], ?_, by rw [hclients], by rw [hclients], by rw [hclients]⟩
  rw [hpoller, ← s.shared]
  exact hreader

/-- A step of another connection. -/
theorem aside_other {s s' : State ι} {p : Poller.State (Holder ι) Rat} {i : ι}
    (hpoller : s'.poller = p) (hviewer : p.viewer (.other i) = s.poller.viewer (.other i))
    (hreader : p.hub.reader (.other i) = s.poller.hub.reader (.other i))
    (hclient : s'.clients i = (s.withPoller p).clients i) : Aside s s' i := by
  obtain ⟨hsending, hsent, hgone⟩ := client_withPoller s p i
  subst hpoller
  exact ⟨hviewer, hreader, by rw [hclient, hsending], by rw [hclient, hsent],
    by rw [hclient, hgone]⟩

/-- **A connection is left alone** by everything but its own steps and the poller's. -/
theorem step_aside {float : PyText.Str → Option Rat} {s s' : State ι} {a : Action ι} {i : ι}
    (hs : s.step float a = some s') (hof : a.of ≠ some i)
    (hpoll : ∀ k outcome now, a ≠ .poll k outcome now) :
    Aside s s' i := by
  have hleave : ∀ {j : ι} {way : Poller.Way}, j ≠ i → s.leave float j way = some s' →
      Aside s s' i := by
    intro j way hj hs
    obtain ⟨p, hp, rfl⟩ := Option.map_eq_some_iff.mp hs
    obtain ⟨-, hp⟩ := Option.ite_none_right_eq_some.mp hp
    obtain rfl := Option.some.inj hp
    have hvisited := visited_leave s.poller j way
    have hne : Holder.other i ≠ .other j := fun heq => hj (Recorder.Holder.other.inj heq).symm
    refine aside_other (p := s.poller.leave (.other j) way) rfl (hvisited.viewer _ hne)
      (visited_other hvisited hne) ?_
    simp [State.setSending, State.setClient, Function.update_of_ne (Ne.symm hj)]
  cases a with
  | startup =>
      obtain ⟨-, hs⟩ := Option.ite_none_right_eq_some.mp hs
      obtain rfl := Option.some.inj hs
      refine aside_recorder (r := s.recorder.start) rfl rfl ?_
      cases htask : s.recorder.task <;> simp only [Recorder.State.start, htask]
  | shutdown =>
      obtain ⟨-, hs⟩ := Option.ite_none_right_eq_some.mp hs
      obtain rfl := Option.some.inj hs
      refine aside_recorder (r := s.recorder.stop) rfl rfl ?_
      cases htask : s.recorder.task <;> simp only [Recorder.State.stop, htask]
  | stopped k =>
      obtain ⟨-, hs⟩ := Option.ite_none_right_eq_some.mp hs
      obtain ⟨r, hr, rfl⟩ := Option.map_eq_some_iff.mp hs
      refine aside_recorder (r := r) rfl rfl ?_
      simp only [Recorder.State.stopReturns] at hr
      split at hr
      · obtain ⟨-, hr⟩ := Option.ite_none_right_eq_some.mp hr
        obtain rfl := Option.some.inj hr
        rfl
      · cases hr
  | connect j =>
      have hj : j ≠ i := fun heq => hof (congrArg some heq)
      have hne : Holder.other i ≠ .other j := fun heq => hj (Recorder.Holder.other.inj heq).symm
      obtain ⟨-, hs⟩ := Option.ite_none_right_eq_some.mp hs
      obtain ⟨p, hp, rfl⟩ := Option.map_eq_some_iff.mp hs
      obtain ⟨-, hp⟩ := Option.ite_none_right_eq_some.mp hp
      obtain rfl := Option.some.inj hp
      have hvisited := visited_enter s.poller j
      exact aside_other rfl (hvisited.viewer _ hne) (visited_other hvisited hne) rfl
  | disconnect j =>
      have hj : j ≠ i := fun heq => hof (congrArg some heq)
      obtain rfl := Option.some.inj hs
      refine ⟨rfl, rfl, ?_, ?_, ?_⟩ <;>
        simp [State.setClient, Function.update_of_ne (Ne.symm hj)]
  | next j =>
      have hj : j ≠ i := fun heq => hof (congrArg some heq)
      obtain ⟨-, hs⟩ := Option.ite_none_right_eq_some.mp hs
      obtain ⟨⟨reading, hub⟩, hnext, rfl⟩ := Option.map_eq_some_iff.mp hs
      have hstep : s.poller.hub.step (.next (.other j)) = some hub := by
        rw [Broadcast.State.step, hnext]
        rfl
      refine aside_other (p := { s.poller with hub := hub }) rfl rfl
        (Broadcast.step_other hstep (if_neg fun heq => hj (Recorder.Holder.other.inj heq))) ?_
      simp [State.setSending, State.setClient, Function.update_of_ne (Ne.symm hj)]
  | sent j =>
      have hj : j ≠ i := fun heq => hof (congrArg some heq)
      simp only [State.step, State.sent] at hs
      split at hs
      · obtain rfl := Option.some.inj hs
        refine ⟨rfl, rfl, ?_, ?_, ?_⟩ <;>
          simp [State.setClient, Function.update_of_ne (Ne.symm hj)]
      · cases hs
  | broken j =>
      obtain ⟨-, hs⟩ := Option.ite_none_right_eq_some.mp hs
      exact hleave (fun heq => hof (congrArg some heq)) hs
  | cancel j => exact hleave (fun heq => hof (congrArg some heq)) hs
  | stopReturns j =>
      have hj : j ≠ i := fun heq => hof (congrArg some heq)
      obtain ⟨p, hp, rfl⟩ := Option.map_eq_some_iff.mp hs
      obtain ⟨k, way, -, -, rfl⟩ := Poller.stopReturns_spec hp
      refine aside_other rfl ?_ rfl rfl
      exact Function.update_of_ne (fun heq => hj (Recorder.Holder.other.inj heq).symm) ..
  | poll k outcome now => exact absurd rfl (hpoll k outcome now)
  | record k stored =>
      obtain ⟨r, hr, hs⟩ := Option.bind_eq_some_iff.mp hs
      obtain ⟨database, -, rfl⟩ := Option.map_eq_some_iff.mp hs
      exact aside_recorder (r := r) rfl rfl (resume_reader hr (by simp))
  | insert reading =>
      obtain ⟨-, hs⟩ := Option.ite_none_right_eq_some.mp hs
      obtain ⟨database, -, rfl⟩ := Option.map_eq_some_iff.mp hs
      exact ⟨rfl, rfl, rfl, rfl, rfl⟩

/-- Only the poller's task publishes. -/
theorem step_silent {float : PyText.Str → Option Rat} {s s' : State ι} {a : Action ι}
    (hs : s.step float a = some s') (hpoll : ∀ k outcome now, a ≠ .poll k outcome now) :
    s'.poller.published = s.poller.published := by
  have hleave : ∀ {j : ι} {way : Poller.Way}, s.leave float j way = some s' →
      s'.poller.published = s.poller.published := by
    intro j way hs
    obtain ⟨p, hp, rfl⟩ := Option.map_eq_some_iff.mp hs
    obtain ⟨-, hp⟩ := Option.ite_none_right_eq_some.mp hp
    obtain rfl := Option.some.inj hp
    exact (visited_leave s.poller j way).published
  cases a with
  | startup | shutdown =>
      obtain ⟨-, hs⟩ := Option.ite_none_right_eq_some.mp hs
      exact Option.some.inj hs ▸ rfl
  | stopped k =>
      obtain ⟨-, hs⟩ := Option.ite_none_right_eq_some.mp hs
      obtain ⟨r, -, rfl⟩ := Option.map_eq_some_iff.mp hs
      rfl
  | connect j =>
      obtain ⟨-, hs⟩ := Option.ite_none_right_eq_some.mp hs
      obtain ⟨p, hp, rfl⟩ := Option.map_eq_some_iff.mp hs
      obtain ⟨-, hp⟩ := Option.ite_none_right_eq_some.mp hp
      obtain rfl := Option.some.inj hp
      exact (visited_enter s.poller j).published
  | disconnect j => exact Option.some.inj hs ▸ rfl
  | next j =>
      obtain ⟨-, hs⟩ := Option.ite_none_right_eq_some.mp hs
      obtain ⟨x, -, rfl⟩ := Option.map_eq_some_iff.mp hs
      rfl
  | sent j =>
      simp only [State.step, State.sent] at hs
      split at hs
      · exact Option.some.inj hs ▸ rfl
      · cases hs
  | broken j =>
      obtain ⟨-, hs⟩ := Option.ite_none_right_eq_some.mp hs
      exact hleave hs
  | cancel j => exact hleave hs
  | stopReturns j =>
      obtain ⟨p, hp, rfl⟩ := Option.map_eq_some_iff.mp hs
      obtain ⟨k, way, -, -, rfl⟩ := Poller.stopReturns_spec hp
      rfl
  | poll k outcome now => exact absurd rfl (hpoll k outcome now)
  | record k stored =>
      obtain ⟨r, -, hs⟩ := Option.bind_eq_some_iff.mp hs
      obtain ⟨database, -, rfl⟩ := Option.map_eq_some_iff.mp hs
      rfl
  | insert reading =>
      obtain ⟨-, hs⟩ := Option.ite_none_right_eq_some.mp hs
      obtain ⟨database, -, rfl⟩ := Option.map_eq_some_iff.mp hs
      rfl

/-- Only what is published is heard. -/
theorem step_heard {float : PyText.Str → Option Rat} {s s' : State ι} {a : Action ι} (i : ι)
    (hs : s.step float a = some s') (hpoll : ∀ k outcome now, a ≠ .poll k outcome now) :
    (s'.clients i).heard = (s.clients i).heard := by
  have hwith : ∀ p : Poller.State (Holder ι) Rat, p.published = s.poller.published →
      ((s.withPoller p).clients i).heard = (s.clients i).heard := by
    intro p hp
    rw [clients_withPoller (emitted_nil hp)]
  have hset : ∀ (s : State ι) (j : ι) sending,
      ((s.setSending j sending).clients i).heard = (s.clients i).heard := by
    intro s j sending
    by_cases hj : i = j <;> simp [State.setSending, State.setClient, hj]
  have hsilent := step_silent hs hpoll
  have hleave : ∀ {j : ι} {way : Poller.Way}, s.leave float j way = some s' →
      (s'.clients i).heard = (s.clients i).heard := by
    intro j way hs
    obtain ⟨p, -, rfl⟩ := Option.map_eq_some_iff.mp hs
    rw [hset]
    exact hwith p hsilent
  cases a with
  | startup | shutdown =>
      obtain ⟨-, hs⟩ := Option.ite_none_right_eq_some.mp hs
      exact Option.some.inj hs ▸ rfl
  | stopped k =>
      obtain ⟨-, hs⟩ := Option.ite_none_right_eq_some.mp hs
      obtain ⟨r, -, rfl⟩ := Option.map_eq_some_iff.mp hs
      rfl
  | connect j =>
      obtain ⟨-, hs⟩ := Option.ite_none_right_eq_some.mp hs
      obtain ⟨p, -, rfl⟩ := Option.map_eq_some_iff.mp hs
      exact hwith p hsilent
  | disconnect j =>
      obtain rfl := Option.some.inj hs
      by_cases hj : i = j <;> simp [State.setClient, hj]
  | next j =>
      obtain ⟨-, hs⟩ := Option.ite_none_right_eq_some.mp hs
      obtain ⟨x, -, rfl⟩ := Option.map_eq_some_iff.mp hs
      rw [hset]
      exact hwith _ rfl
  | sent j =>
      simp only [State.step, State.sent] at hs
      split at hs
      · obtain rfl := Option.some.inj hs
        by_cases hj : i = j <;> simp [State.setClient, hj]
      · cases hs
  | broken j =>
      obtain ⟨-, hs⟩ := Option.ite_none_right_eq_some.mp hs
      exact hleave hs
  | cancel j => exact hleave hs
  | stopReturns j =>
      obtain ⟨p, -, rfl⟩ := Option.map_eq_some_iff.mp hs
      exact hwith p hsilent
  | poll k outcome now => exact absurd rfl (hpoll k outcome now)
  | record k stored =>
      obtain ⟨r, -, hs⟩ := Option.bind_eq_some_iff.mp hs
      obtain ⟨database, -, rfl⟩ := Option.map_eq_some_iff.mp hs
      rfl
  | insert reading =>
      obtain ⟨-, hs⟩ := Option.ite_none_right_eq_some.mp hs
      obtain ⟨database, -, rfl⟩ := Option.map_eq_some_iff.mp hs
      rfl

/-- **What a step is for the connection `i`**: it is made, it has been sent a reading, the poller
    has published, or nothing of it changes but that it may have ended. -/
inductive Seen (s s' : State ι) (i : ι) (a : Action ι) : Prop where
  | accepted : a = .connect i → s.poller.viewer (.other i) = .outside →
      s'.poller.viewer (.other i) = .inside → s'.poller.published = s.poller.published →
      (s'.clients i).heard = (s.clients i).heard → (s'.clients i).sent = (s.clients i).sent →
      Seen s s' i a
  | sent (reading : Reading Rat) : a = .sent i → (s.clients i).sending = some reading →
      s'.poller = s.poller → (s'.clients i).heard = (s.clients i).heard →
      (s'.clients i).sent = (s.clients i).sent ++ [reading] → Seen s s' i a
  | published (readings : List (Reading Rat)) : a ≠ .sent i → s'.poller.viewer = s.poller.viewer →
      s'.poller.published.map Prod.snd = s.poller.published.map Prod.snd ++ readings →
      (s.poller.viewer (.other i) = .inside →
        (s'.clients i).heard = (s.clients i).heard ++ readings) →
      (s'.clients i).sent = (s.clients i).sent → Seen s s' i a
  | other : a ≠ .sent i → (s'.poller.viewer (.other i) = .inside →
        s.poller.viewer (.other i) = .inside) →
      (s'.poller.viewer (.other i) = .outside ↔ s.poller.viewer (.other i) = .outside) →
      s'.poller.published = s.poller.published →
      (s'.clients i).heard = (s.clients i).heard → (s'.clients i).sent = (s.clients i).sent →
      Seen s s' i a

theorem step_seen {float : PyText.Str → Option Rat} {s s' : State ι} {a : Action ι} (i : ι)
    (hs : s.step float a = some s') : Seen s s' i a := by
  have hsame : (∀ k outcome now, a ≠ .poll k outcome now) → a ≠ .sent i →
      (s'.poller.viewer (.other i) = .inside → s.poller.viewer (.other i) = .inside) →
      (s'.poller.viewer (.other i) = .outside ↔ s.poller.viewer (.other i) = .outside) →
      (s'.clients i).sent = (s.clients i).sent → Seen s s' i a := by
    intro hpoll hsent hinside houtside hclient
    exact .other hsent hinside houtside (step_silent hs hpoll) (step_heard i hs hpoll) hclient
  have hleave : ∀ {way : Poller.Way}, (∀ k outcome now, a ≠ .poll k outcome now) →
      a ≠ .sent i → s.leave float i way = some s' → Seen s s' i a := by
    intro way hpoll hsent hleft
    obtain ⟨p, hp, rfl⟩ := Option.map_eq_some_iff.mp hleft
    obtain ⟨hin, hp⟩ := Option.ite_none_right_eq_some.mp hp
    obtain rfl := Option.some.inj hp
    have hvisited := visited_leave s.poller i way
    refine hsame hpoll hsent (fun _ => hin) ?_ ?_
    · rw [hin]
      exact ⟨fun h => absurd h hvisited.entered, fun h => by cases h⟩
    · simpa [State.setSending, State.setClient] using
        (client_withPoller s (s.poller.leave (.other i) way) i).2.1
  by_cases hof : a.of = some i
  · cases a with
    | connect j =>
        obtain rfl := Option.some.inj hof
        have hsilent := step_silent hs (by intros; simp)
        have hheard := step_heard j hs (by intros; simp)
        obtain ⟨-, hs⟩ := Option.ite_none_right_eq_some.mp hs
        obtain ⟨p, hp, rfl⟩ := Option.map_eq_some_iff.mp hs
        obtain ⟨hout, hp⟩ := Option.ite_none_right_eq_some.mp hp
        obtain rfl := Option.some.inj hp
        have hinside := (visited_enter s.poller j).inside.mpr (by simp)
        exact .accepted rfl hout hinside hsilent hheard (client_withPoller s _ j).2.1
    | disconnect j =>
        obtain rfl := Option.some.inj hof
        refine hsame (by intros; simp) (by simp) ?_ ?_ ?_ <;> obtain rfl := Option.some.inj hs
        · exact id
        · exact Iff.rfl
        · simp [State.setClient]
    | next j =>
        obtain rfl := Option.some.inj hof
        have hs' := hs
        obtain ⟨-, hs'⟩ := Option.ite_none_right_eq_some.mp hs'
        obtain ⟨x, -, rfl⟩ := Option.map_eq_some_iff.mp hs'
        refine hsame (by intros; simp) (by simp) id Iff.rfl ?_
        simpa [State.setSending, State.setClient] using
          (client_withPoller s { s.poller with hub := x.2 } j).2.1
    | sent j =>
        obtain rfl := Option.some.inj hof
        have hheard := step_heard j hs (by intros; simp)
        simp only [State.step, State.sent] at hs
        split at hs
        · next reading hsending hgone =>
            obtain rfl := Option.some.inj hs
            exact .sent reading rfl hsending rfl hheard (by simp [State.setClient])
        · cases hs
    | broken j =>
        obtain rfl := Option.some.inj hof
        obtain ⟨-, hs⟩ := Option.ite_none_right_eq_some.mp hs
        exact hleave (by intros; simp) (by simp) hs
    | cancel j =>
        obtain rfl := Option.some.inj hof
        exact hleave (by intros; simp) (by simp) hs
    | stopReturns j =>
        obtain rfl := Option.some.inj hof
        have hs' := hs
        obtain ⟨p, hp, rfl⟩ := Option.map_eq_some_iff.mp hs'
        have hsent := (client_withPoller s p j).2.1
        obtain ⟨k, way, hstopping, -, rfl⟩ := Poller.stopReturns_spec hp
        refine hsame (by intros; simp) (by simp) ?_ ?_ hsent
        · simp [State.withPoller]
        · simp [State.withPoller, hstopping]
    | startup | shutdown | stopped | poll | record | insert => cases hof
  · have hne : a ≠ .sent i := by
      rintro rfl
      exact hof rfl
    have haside : (∀ k outcome now, a ≠ .poll k outcome now) → Seen s s' i a := by
      intro hpoll
      have h := step_aside hs hof hpoll
      exact hsame hpoll hne (by rw [h.viewer]; exact id) (by rw [h.viewer]) h.sent
    cases a with
    | poll k outcome now =>
        obtain ⟨p, hp, rfl⟩ := Option.map_eq_some_iff.mp hs
        have hp := published_resume hp
        refine .published (emitted s.poller p) hne hp.viewer hp.published ?_
          (client_withPoller s p i).2.1
        intro hin
        simp [State.withPoller, hin]
    | startup | shutdown | stopped | connect | disconnect | next | sent | broken | cancel
    | stopReturns | record | insert => exact haside (by intros; simp)

/-- What is published stays published. -/
theorem published_grows {float : PyText.Str → Option Rat} {s s' : State ι} {a : Action ι}
    (hs : s.step float a = some s') :
    s.poller.published.length ≤ s'.poller.published.length := by
  cases a with
  | poll k outcome now =>
      obtain ⟨p, hp, rfl⟩ := Option.map_eq_some_iff.mp hs
      have hlength := congrArg List.length (published_resume hp).published
      rw [List.length_append, List.length_map, List.length_map] at hlength
      show _ ≤ p.published.length
      omega
  | startup | shutdown | stopped | connect | disconnect | next | sent | broken | cancel
  | stopReturns | record | insert =>
      rw [step_silent hs (by intros; simp)]

/-- **A client that has gone** stays so, and is sent nothing. -/
theorem step_gone {float : PyText.Str → Option Rat} {s s' : State ι} {a : Action ι} {i : ι}
    (hs : s.step float a = some s') (hgone : (s.clients i).gone = true) :
    (s'.clients i).gone = true ∧ (s'.clients i).sent = (s.clients i).sent := by
  have hpoller : ∀ p, ((s.withPoller p).clients i).gone = true ∧
      ((s.withPoller p).clients i).sent = (s.clients i).sent := by
    intro p
    obtain ⟨-, hsent, hsame⟩ := client_withPoller s p i
    exact ⟨hsame.trans hgone, hsent⟩
  have hsending : ∀ p sending, (((s.withPoller p).setSending i sending).clients i).gone = true ∧
      (((s.withPoller p).setSending i sending).clients i).sent = (s.clients i).sent := by
    intro p sending
    simpa [State.setSending, State.setClient] using hpoller p
  have haside : a.of ≠ some i → (∀ k outcome now, a ≠ .poll k outcome now) →
      (s'.clients i).gone = true ∧ (s'.clients i).sent = (s.clients i).sent := by
    intro hof hpoll
    have h := step_aside hs hof hpoll
    exact ⟨h.gone.trans hgone, h.sent⟩
  by_cases hof : a.of = some i
  · cases a with
    | connect j =>
        obtain ⟨-, hs⟩ := Option.ite_none_right_eq_some.mp hs
        obtain ⟨p, -, rfl⟩ := Option.map_eq_some_iff.mp hs
        exact hpoller p
    | disconnect j =>
        obtain rfl := Option.some.inj hof
        obtain rfl := Option.some.inj hs
        simp [State.setClient]
    | next j =>
        obtain rfl := Option.some.inj hof
        obtain ⟨-, hs⟩ := Option.ite_none_right_eq_some.mp hs
        obtain ⟨x, -, rfl⟩ := Option.map_eq_some_iff.mp hs
        exact hsending _ _
    | sent j =>
        -- `send_json` only returns while the client is there
        obtain rfl := Option.some.inj hof
        cases hsending : (s.clients j).sending <;>
          simp [State.step, State.sent, hsending, hgone] at hs
    | broken j =>
        obtain rfl := Option.some.inj hof
        obtain ⟨-, hs⟩ := Option.ite_none_right_eq_some.mp hs
        obtain ⟨p, -, rfl⟩ := Option.map_eq_some_iff.mp hs
        exact hsending _ _
    | cancel j =>
        obtain rfl := Option.some.inj hof
        obtain ⟨p, -, rfl⟩ := Option.map_eq_some_iff.mp hs
        exact hsending _ _
    | stopReturns j =>
        obtain ⟨p, -, rfl⟩ := Option.map_eq_some_iff.mp hs
        exact hpoller p
    | startup | shutdown | stopped | poll | record | insert => cases hof
  · cases a with
    | poll k outcome now =>
        obtain ⟨p, -, rfl⟩ := Option.map_eq_some_iff.mp hs
        exact hpoller p
    | startup | shutdown | stopped | connect | disconnect | next | sent | broken | cancel
    | stopReturns | record | insert => exact haside hof (by intros; simp)

/-- The endpoint waits for a reading that is not there. -/
structure Waiting (s : State ι) (i : ι) : Prop where
  inside : s.poller.viewer (.other i) = .inside
  sending : (s.clients i).sending = none
  empty : (s.poller.hub.subscription (.other i)).queue.items = []

/-- An endpoint that waits goes on waiting until something is published, or it is cancelled. -/
theorem Waiting.step {float : PyText.Str → Option Rat} {s s' : State ι} {a : Action ι} {i : ι}
    (h : Waiting s i) (hs : s.step float a = some s') (ha : a ≠ .cancel i)
    (hquiet : s'.poller.published.length = s.poller.published.length) : Waiting s' i := by
  have haside : a.of ≠ some i → (∀ k outcome now, a ≠ .poll k outcome now) → Waiting s' i := by
    intro hof hpoll
    have hs := step_aside hs hof hpoll
    refine ⟨hs.viewer.trans h.inside, hs.sending.trans h.sending, ?_⟩
    exact (congrArg (fun x => x.queue.items) hs.reader).trans h.empty
  by_cases hof : a.of = some i
  · cases a with
    | connect j =>
        obtain rfl := Option.some.inj hof
        obtain ⟨-, hs⟩ := Option.ite_none_right_eq_some.mp hs
        obtain ⟨p, hp, rfl⟩ := Option.map_eq_some_iff.mp hs
        obtain ⟨hout, -⟩ := Option.ite_none_right_eq_some.mp hp
        cases hout.symm.trans h.inside
    | disconnect j =>
        obtain rfl := Option.some.inj hof
        obtain rfl := Option.some.inj hs
        exact ⟨h.inside, by simp [State.setClient, h.sending], h.empty⟩
    | next j =>
        obtain rfl := Option.some.inj hof
        obtain ⟨-, hs⟩ := Option.ite_none_right_eq_some.mp hs
        obtain ⟨x, hnext, -⟩ := Option.map_eq_some_iff.mp hs
        obtain ⟨⟨r, q⟩, hq, -⟩ := Option.map_eq_some_iff.mp hnext
        have hitems := (Channel.Queue.getNowait_eq_some hq).1
        rw [h.empty] at hitems
        cases hitems
    | sent j =>
        obtain rfl := Option.some.inj hof
        simp [State.step, State.sent, h.sending] at hs
    | broken j =>
        obtain rfl := Option.some.inj hof
        simp [State.step, h.sending] at hs
    | cancel j => exact absurd (congrArg Action.cancel (Option.some.inj hof)) ha
    | stopReturns j =>
        obtain rfl := Option.some.inj hof
        obtain ⟨p, hp, rfl⟩ := Option.map_eq_some_iff.mp hs
        obtain ⟨k, way, hstopping, -⟩ := Poller.stopReturns_spec hp
        cases hstopping.symm.trans h.inside
    | startup | shutdown | stopped | poll | record | insert => cases hof
  · cases a with
    | poll k outcome now =>
        obtain ⟨p, hp, rfl⟩ := Option.map_eq_some_iff.mp hs
        have hp := published_resume hp
        have hlength := congrArg List.length hp.published
        rw [List.length_append, List.length_map, List.length_map] at hlength
        have hsame : p.published.length = s.poller.published.length := hquiet
        have hnone : emitted s.poller p = [] := List.length_eq_zero_iff.mp (by omega)
        have hhub := hp.hub
        rw [hnone] at hhub
        refine ⟨?_, ?_, ?_⟩
        · show p.viewer (.other i) = .inside
          rw [hp.viewer]
          exact h.inside
        · exact (client_withPoller s p i).1.trans h.sending
        · show (p.hub.subscription (.other i)).queue.items = []
          rw [hhub]
          exact h.empty
    | startup | shutdown | stopped | connect | disconnect | next | sent | broken | cancel
    | stopReturns | record | insert => exact haside hof (by intros; simp)

/-- **A publication ends the waiting**: the endpoint is still inside, and has something to
    send. -/
theorem Waiting.published {float : PyText.Str → Option Rat} {file : Storage.Database}
    {s s' : State ι} {a : Action ι} {i : ι} (h : Waiting s i) (hr : Reachable float file s)
    (hs : s.step float a = some s')
    (hmore : s.poller.published.length < s'.poller.published.length) :
    s'.poller.viewer (.other i) = .inside ∧ ¬ Waiting s' i := by
  cases a with
  | poll k outcome now =>
      obtain ⟨p, hp, rfl⟩ := Option.map_eq_some_iff.mp hs
      have hp := published_resume hp
      have hmore : s.poller.published.length < p.published.length := hmore
      have hsome : emitted s.poller p ≠ [] := by
        intro hnil
        have hlength := congrArg List.length hp.published
        rw [hnil, List.append_nil, List.length_map, List.length_map] at hlength
        omega
      refine ⟨?_, ?_⟩
      · show p.viewer (.other i) = .inside
        rw [hp.viewer]
        exact h.inside
      · intro hwaits
        have hitems : (p.hub.subscription (.other i)).queue.items ≠ [] := by
          rw [hp.hub]
          exact Broadcast.items_foldl_publish
            (.inr ⟨((watched_reach hr).subscribed i).mpr h.inside, hsome⟩)
        exact hitems hwaits.empty
  | startup | shutdown | stopped | connect | disconnect | next | sent | broken | cancel
  | stopReturns | record | insert =>
      rw [step_silent hs (by intros; simp)] at hmore
      exact absurd hmore (Nat.lt_irrefl _)

/-! ### The way out -/

/-- The steps of the endpoint itself, its cancellation apart. -/
def Action.Own (i : ι) (a : Action ι) : Prop := a = .next i ∨ a = .sent i ∨ a = .broken i

/-- The client of the endpoint has gone, and so many steps of its own lead it out: one out of
    `send_json`, and one before that with which it gets the reading. -/
def WayOut (s : State ι) (i : ι) (n : Nat) : Prop :=
  s.poller.viewer (.other i) = .inside ∧ (s.clients i).gone = true ∧
    (n = 1 ∧ (s.clients i).sending.isSome = true ∨
      n = 2 ∧ (s.clients i).sending = none ∧
        (s.poller.hub.subscription (.other i)).queue.items ≠ [])

omit [DecidableEq ι] in
/-- An endpoint that does not wait is on its way out. -/
theorem wayOut_of_not_waiting {s : State ι} {i : ι}
    (hin : s.poller.viewer (.other i) = .inside) (hgone : (s.clients i).gone = true)
    (hwaits : ¬ Waiting s i) : ∃ n, n ≤ 2 ∧ WayOut s i n := by
  cases hsending : (s.clients i).sending with
  | some reading => exact ⟨1, by omega, hin, hgone, .inl ⟨rfl, by rw [hsending]; rfl⟩⟩
  | none =>
      refine ⟨2, Nat.le_refl 2, hin, hgone, .inr ⟨rfl, hsending, ?_⟩⟩
      intro hempty
      exact hwaits ⟨hin, hsending, hempty⟩

/-- It can take one of its steps. -/
theorem WayOut.moves {s : State ι} {i : ι} {n : Nat} (h : WayOut s i n)
    (float : PyText.Str → Option Rat) :
    ∃ a s', a.Own i ∧ s.step float a = some s' := by
  obtain ⟨hin, hgone, ⟨-, hsending⟩ | ⟨-, hsending, hitems⟩⟩ := h
  · refine ⟨.broken i, (s.withPoller (s.poller.leave (.other i) .byException)).setSending i none,
      .inr (.inr rfl), ?_⟩
    simp [State.step, State.leave, Poller.State.step, hin, hgone, hsending]
  · obtain ⟨reading, items, hcons⟩ := List.exists_cons_of_ne_nil hitems
    obtain ⟨x, hx⟩ : ∃ x, s.poller.hub.next (.other i) = some x := by
      simp [Broadcast.State.next, Channel.Queue.getNowait, hcons]
    refine ⟨.next i, (s.withPoller { s.poller with hub := x.2 }).setSending i (some x.1),
      .inl rfl, ?_⟩
    show s.next i = _
    rw [State.next, if_pos ⟨hin, hsending⟩, hx]
    rfl

/-- **A step of its own** brings it nearer, or out. -/
theorem WayOut.own {float : PyText.Str → Option Rat} {s s' : State ι} {a : Action ι} {i : ι}
    {n : Nat} (h : WayOut s i n) (ha : a.Own i) (hs : s.step float a = some s') :
    WayOut s' i (n - 1) ∧ n = 2 ∨
      s'.poller.viewer (.other i) ≠ .inside ∧ s'.poller.viewer (.other i) ≠ .outside := by
  obtain ⟨hin, hgone, hleft⟩ := h
  obtain rfl | rfl | rfl := ha
  · -- it gets the reading
    have hgone' := (step_gone hs hgone).1
    obtain ⟨⟨-, hidle⟩, hs⟩ := Option.ite_none_right_eq_some.mp hs
    obtain ⟨x, -, rfl⟩ := Option.map_eq_some_iff.mp hs
    obtain ⟨-, hsending⟩ | ⟨rfl, -⟩ := hleft
    · rw [hidle] at hsending
      cases hsending
    · exact .inl ⟨⟨hin, hgone', .inl ⟨rfl, by simp [State.setSending, State.setClient]⟩⟩, rfl⟩
  · -- a send to a client that has gone does not return
    cases hsending : (s.clients i).sending <;>
      simp [State.step, State.sent, hsending, hgone] at hs
  · obtain ⟨-, hs⟩ := Option.ite_none_right_eq_some.mp hs
    obtain ⟨p, hp, rfl⟩ := Option.map_eq_some_iff.mp hs
    obtain ⟨-, hp⟩ := Option.ite_none_right_eq_some.mp hp
    obtain rfl := Option.some.inj hp
    have hvisited := visited_leave s.poller i .byException
    exact .inr ⟨fun hinside => absurd rfl (hvisited.inside.mp hinside), hvisited.entered⟩

/-- **Everybody else's steps** leave it where it is. -/
theorem WayOut.other {float : PyText.Str → Option Rat} {s s' : State ι} {a : Action ι} {i : ι}
    {n : Nat} (h : WayOut s i n) (ha : ¬ a.Own i) (hcancel : a ≠ .cancel i)
    (hs : s.step float a = some s') : WayOut s' i n := by
  obtain ⟨hin, hgone, hleft⟩ := h
  have hgone' := (step_gone hs hgone).1
  have haside : Aside s s' i → WayOut s' i n := by
    intro h
    have hitems : (s'.poller.hub.subscription (.other i)).queue.items
        = (s.poller.hub.subscription (.other i)).queue.items :=
      congrArg (fun x => x.queue.items) h.reader
    refine ⟨h.viewer.trans hin, hgone', ?_⟩
    rw [h.sending, hitems]
    exact hleft
  by_cases hof : a.of = some i
  · cases a with
    | connect j =>
        obtain rfl := Option.some.inj hof
        obtain ⟨-, hs⟩ := Option.ite_none_right_eq_some.mp hs
        obtain ⟨p, hp, rfl⟩ := Option.map_eq_some_iff.mp hs
        obtain ⟨hout, -⟩ := Option.ite_none_right_eq_some.mp hp
        cases hout.symm.trans hin
    | disconnect j =>
        obtain rfl := Option.some.inj hof
        obtain rfl := Option.some.inj hs
        exact ⟨hin, hgone', by simpa [State.setClient] using hleft⟩
    | stopReturns j =>
        obtain rfl := Option.some.inj hof
        obtain ⟨p, hp, rfl⟩ := Option.map_eq_some_iff.mp hs
        obtain ⟨k, way, hstopping, -⟩ := Poller.stopReturns_spec hp
        cases hstopping.symm.trans hin
    | cancel j => exact absurd (congrArg Action.cancel (Option.some.inj hof)) hcancel
    | next j => exact absurd (.inl (congrArg Action.next (Option.some.inj hof))) ha
    | sent j => exact absurd (.inr (.inl (congrArg Action.sent (Option.some.inj hof)))) ha
    | broken j => exact absurd (.inr (.inr (congrArg Action.broken (Option.some.inj hof)))) ha
    | startup | shutdown | stopped | poll | record | insert => cases hof
  · cases a with
    | poll k outcome now =>
        obtain ⟨p, hp, rfl⟩ := Option.map_eq_some_iff.mp hs
        have hp := published_resume hp
        have hsending := (client_withPoller s p i).1
        refine ⟨?_, hgone', ?_⟩
        · show p.viewer (.other i) = .inside
          rw [hp.viewer]
          exact hin
        · rw [hsending]
          refine hleft.imp_right ?_
          rintro ⟨hn, hidle, hitems⟩
          refine ⟨hn, hidle, ?_⟩
          show (p.hub.subscription (.other i)).queue.items ≠ []
          rw [hp.hub]
          exact Broadcast.items_foldl_publish (.inl hitems)
    | startup | shutdown | stopped | connect | disconnect | next | sent | broken | cancel
    | stopReturns | record | insert => exact haside (step_aside hs hof (by intros; simp))

/-- Runs in which the endpoint is not cancelled, and how many of their steps are its own. -/
inductive Runs (float : PyText.Str → Option Rat) (i : ι) (s : State ι) : Nat → State ι → Prop
  | refl : Runs float i s 0 s
  | own {n : Nat} {x y : State ι} {a : Action ι} : Runs float i s n x → a.Own i →
      x.step float a = some y → Runs float i s (n + 1) y
  | other {n : Nat} {x y : State ι} {a : Action ι} : Runs float i s n x → ¬ a.Own i →
      a ≠ .cancel i → x.step float a = some y → Runs float i s n y

/-- Who has left does not come back. -/
theorem left_for_good {float : PyText.Str → Option Rat} {s s' : State ι} {a : Action ι} {i : ι}
    (hin : s.poller.viewer (.other i) ≠ .inside) (hout : s.poller.viewer (.other i) ≠ .outside)
    (hs : s.step float a = some s') :
    s'.poller.viewer (.other i) ≠ .inside ∧ s'.poller.viewer (.other i) ≠ .outside := by
  cases step_seen i hs with
  | accepted _ hbefore => exact absurd hbefore hout
  | sent _ _ _ hpoller => exact hpoller ▸ ⟨hin, hout⟩
  | published _ _ hviewer => exact hviewer ▸ ⟨hin, hout⟩
  | other _ hinside houtside => exact ⟨fun h => hin (hinside h), fun h => hout (houtside.mp h)⟩

/-- **On every way**, the endpoint makes no more steps than it has left. -/
theorem WayOut.runs {float : PyText.Str → Option Rat} {s s' : State ι} {i : ι} {n k : Nat}
    (h : WayOut s i n) (hruns : Runs float i s k s') :
    k < n ∧ WayOut s' i (n - k) ∨
      s'.poller.viewer (.other i) ≠ .inside ∧ s'.poller.viewer (.other i) ≠ .outside := by
  induction hruns with
  | refl =>
      obtain ⟨-, -, ⟨rfl, -⟩ | ⟨rfl, -⟩⟩ := id h
      · exact .inl ⟨by omega, h⟩
      · exact .inl ⟨by omega, h⟩
  | own _ ha hs ih =>
      obtain ⟨hlt, hway⟩ | ⟨hin, hout⟩ := ih
      · refine (hway.own ha hs).imp_left fun ⟨hnext, htwo⟩ => ⟨by omega, ?_⟩
        rwa [Nat.sub_sub] at hnext
      · exact .inr (left_for_good hin hout hs)
  | other _ ha hcancel hs ih =>
      obtain ⟨hlt, hway⟩ | ⟨hin, hout⟩ := ih
      · exact .inl ⟨hlt, hway.other ha hcancel hs⟩
      · exact .inr (left_for_good hin hout hs)

/-- **A CLIENT THAT HAS GONE IS NOTICED BY A SEND ONLY**: it is sent nothing; as long as its
    endpoint waits, nothing is published and it is not cancelled, the endpoint stays inside, so
    the poller goes on polling for it; a publication ends the waiting; and an endpoint that does
    not wait can always take a step of its own until it is out, and two lead it out, whatever
    happens between them. -/
theorem gone_client_lingers {float : PyText.Str → Option Rat} {file : Storage.Database}
    {s : State ι} {i : ι} (hr : Reachable float file s)
    (hin : s.poller.viewer (.other i) = .inside)
    (hgone : (s.clients i).gone = true) :
    (∀ s', Transition.Reach (State.step float) Transition.Free s s' →
      (s'.clients i).sent = (s.clients i).sent) ∧
    (Waiting s i → ∀ s', Transition.Reach (State.step float) (fun _ a => a ≠ .cancel i) s s' →
      s'.poller.published.length = s.poller.published.length →
        Waiting s' i ∧ s'.poller.task.isSome = true) ∧
    (Waiting s i → ∀ a s', s.step float a = some s' →
      s.poller.published.length < s'.poller.published.length →
        s'.poller.viewer (.other i) = .inside ∧ ¬ Waiting s' i) ∧
    (¬ Waiting s i → ∀ n s', Runs float i s n s' → s'.poller.viewer (.other i) = .inside →
      n < 2 ∧ ∃ a s'', a.Own i ∧ s'.step float a = some s'') := by
  refine ⟨?_, ?_, fun hwaits a s' hs hmore => hwaits.published hr hs hmore, ?_⟩
  · intro s' hr'
    have hall : (s'.clients i).gone = true ∧ (s'.clients i).sent = (s.clients i).sent := by
      refine hr'.invariant (I := fun x => (x.clients i).gone = true ∧
        (x.clients i).sent = (s.clients i).sent) ⟨hgone, rfl⟩ ?_
      rintro x a y ⟨hx, hsent⟩ - hs
      obtain ⟨hy, hsame⟩ := step_gone hs hx
      exact ⟨hy, hsame.trans hsent⟩
    exact hall.2
  · intro hwaits s' hr' hquiet
    have hall : s.poller.published.length ≤ s'.poller.published.length ∧
        (s'.poller.published.length = s.poller.published.length → Waiting s' i) := by
      refine hr'.invariant (I := fun x => s.poller.published.length ≤ x.poller.published.length ∧
        (x.poller.published.length = s.poller.published.length → Waiting x i))
        ⟨Nat.le_refl _, fun _ => hwaits⟩ ?_
      rintro x a y ⟨hgrows, hx⟩ ha hs
      have hle := published_grows hs
      refine ⟨hgrows.trans hle, ?_⟩
      intro hlast
      have hsame : x.poller.published.length = s.poller.published.length := by omega
      exact (hx hsame).step hs ha (hlast.trans hsame.symm)
    have hwaits' := hall.2 hquiet
    have hreach : Reachable float file s' := hr.trans (hr'.mono fun _ _ _ => trivial)
    have hinv := (watched_reach hreach).poller
    refine ⟨hwaits', ?_⟩
    obtain ⟨inside, hmem, hcard⟩ := hinv.count
    rw [hinv.running, ← hcard]
    exact Finset.card_pos.mpr ⟨.other i, (hmem _).mpr hwaits'.inside⟩
  · intro hwaits k s' hruns hstill
    obtain ⟨n, hn, hway⟩ := wayOut_of_not_waiting hin hgone hwaits
    obtain ⟨hlt, hway'⟩ | ⟨hout, -⟩ := hway.runs hruns
    · exact ⟨by omega, hway'.moves float⟩
    · exact absurd hstill hout

/-- A client goes before anything is published. -/
theorem gone_client_lingers_early :
    ∃ s : State Unit, Reachable three .new s ∧ Waiting s () ∧
      (∀ s', Transition.Reach (State.step three) (fun _ a => a ≠ .cancel ()) s s' →
        s'.poller.published.length = s.poller.published.length →
          Waiting s' () ∧ s'.poller.task.isSome = true) ∧
      ∀ a s', s.step three a = some s' →
        s.poller.published.length < s'.poller.published.length →
          s'.poller.viewer (.other ()) = .inside ∧ ¬ Waiting s' () := by
  have hrun : (Transition.runWithin (State.step three) Transition.Free (.init .new)
      [.startup, .connect (), .poll 0 threeVolts 0, .disconnect ()]).map
      (fun s => (s.poller.viewer (.other ()), (s.clients ()).gone, (s.clients ()).sending.isSome,
        (s.poller.hub.subscription (.other ())).queue.items.length))
      = some (.inside, true, false, 0) := by decide +kernel
  obtain ⟨s, hs, heq⟩ := Option.map_eq_some_iff.mp hrun
  obtain ⟨hin, heq⟩ := Prod.mk.inj heq
  obtain ⟨hgone, heq⟩ := Prod.mk.inj heq
  obtain ⟨hsending, hempty⟩ := Prod.mk.inj heq
  have hr := Transition.reach_of_runWithin hs
  have hidle : (s.clients ()).sending = none := by
    cases hwhat : (s.clients ()).sending with
    | none => rfl
    | some reading => simp [hwhat] at hsending
  have hwaits : Waiting s () := ⟨hin, hidle, List.length_eq_zero_iff.mp hempty⟩
  obtain ⟨-, hlingers, hpublished, -⟩ := gone_client_lingers hr hin hgone
  exact ⟨s, hr, hwaits, hlingers hwaits, hpublished hwaits⟩

end App
